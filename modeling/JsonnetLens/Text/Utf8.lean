import JsonnetLens.Text.Basic
/-!
# UTF-8

`encode` writes a text as bytes.  `decode` reads any bytes: it is an automaton that reads one byte
at a time, and each longest piece that begins a character without finishing it becomes one
replacement character.
-/
namespace JsonnetLens.Utf8

def encodeChar (c : Char) : List UInt8 :=
  let n := c.toNat
  if n < 0x80 then [.ofNat n]
  else if n < 0x800 then [.ofNat (0xC0 + n / 0x40), .ofNat (0x80 + n % 0x40)]
  else if n < 0x10000 then
    [.ofNat (0xE0 + n / 0x1000), .ofNat (0x80 + n / 0x40 % 0x40), .ofNat (0x80 + n % 0x40)]
  else
    [.ofNat (0xF0 + n / 0x40000), .ofNat (0x80 + n / 0x1000 % 0x40),
      .ofNat (0x80 + n / 0x40 % 0x40), .ofNat (0x80 + n % 0x40)]

def encode (t : Text) : List UInt8 := t.flatMap encodeChar

/-- What the bytes read so far ask for. -/
inductive Progress where
  /-- The next byte begins a character. -/
  | idle
  /-- `value` is read, `more` further bytes follow this one, which lies between `low` and `high`. -/
  | within (value more low high : Nat)

/-- What a byte does that begins a character; `none` when no character begins with it. -/
def lead? (b : Nat) : Option Progress :=
  if b < 0xC2 then none
  else if b < 0xE0 then some (.within (b - 0xC0) 0 0x80 0xBF)
  else if b = 0xE0 then some (.within 0 1 0xA0 0xBF)
  else if b = 0xED then some (.within 0xD 1 0x80 0x9F)
  else if b < 0xF0 then some (.within (b - 0xE0) 1 0x80 0xBF)
  else if b = 0xF0 then some (.within 0 2 0x90 0xBF)
  else if b < 0xF4 then some (.within (b - 0xF0) 2 0x80 0xBF)
  else if b = 0xF4 then some (.within 4 2 0x80 0x8F)
  else none

def replacement : Char := '\uFFFD'

def begin (b : Nat) : Text × Progress :=
  if b < 0x80 then ([Char.ofNat b], .idle)
  else match lead? b with
    | some state => ([], state)
    | none => ([replacement], .idle)

/-- The characters that one byte completes, and the state after it. -/
def step : Progress → UInt8 → Text × Progress
  | .idle, b => begin b.toNat
  | .within value more low high, b =>
    if low ≤ b.toNat ∧ b.toNat ≤ high then
      let value := value * 0x40 + (b.toNat - 0x80)
      match more with
      | 0 => ([Char.ofNat value], .idle)
      | more + 1 => ([], .within value more 0x80 0xBF)
    else
      let (out, state) := begin b.toNat
      (replacement :: out, state)

def decodeFrom : Progress → List UInt8 → Text
  | .idle, [] => []
  | .within .., [] => [replacement]
  | state, b :: rest => (step state b).1 ++ decodeFrom (step state b).2 rest

def decode (bytes : List UInt8) : Text := decodeFrom .idle bytes

end JsonnetLens.Utf8
