/-!
# Text

A text is the list of its Unicode scalar values, so that every reader and printer of this library
is plain recursion over a list.  This module holds the cuts that several formats share: at a
separator, at the first or last occurrence of a character, at the end of a run.
-/
namespace JsonnetLens

/-- A sequence of Unicode scalar values. -/
abbrev Text := List Char

namespace Text

/-- The text before the first `sep` and the text after it. -/
def cutFirst? (sep : Char) : Text → Option (Text × Text)
  | [] => none
  | c :: rest =>
    if c = sep then some ([], rest)
    else (cutFirst? sep rest).map fun cut => (c :: cut.1, cut.2)

/-- The text before the last `sep` and the text after it. -/
def cutLast? (sep : Char) : Text → Option (Text × Text)
  | [] => none
  | c :: rest =>
    match cutLast? sep rest with
    | some cut => some (c :: cut.1, cut.2)
    | none => if c = sep then some ([], rest) else none

/-- The text after `start`, when the text begins with it. -/
def after? : Text → Text → Option Text
  | [], t => some t
  | _ :: _, [] => none
  | s :: start, c :: t => if s = c then after? start t else none

/-- The text before `ending`, when the text ends with it. -/
def before? (ending t : Text) : Option Text :=
  (after? ending.reverse t.reverse).map List.reverse

def trimLeft (drop : Char → Bool) (t : Text) : Text := t.dropWhile drop

def trimRight (drop : Char → Bool) (t : Text) : Text := (t.reverse.dropWhile drop).reverse

def trim (drop : Char → Bool) (t : Text) : Text := trimRight drop (trimLeft drop t)

/-- The pieces with `sep` between neighbours. -/
def join (sep : Text) : List Text → Text
  | [] => []
  | [t] => t
  | t :: rest => t ++ sep ++ join sep rest

def spaces (n : Nat) : Text := List.replicate n ' '

/-- Decimal digits, the most significant one first and no needless zero. -/
def ofNat (n : Nat) : Text := Nat.toDigits 10 n

def ofInt : Int → Text
  | .ofNat n => ofNat n
  | .negSucc n => '-' :: ofNat (n + 1)

/-- Comparison by scalar value, a proper beginning coming first. -/
def le : Text → Text → Bool
  | [], _ => true
  | _ :: _, [] => false
  | a :: s, b :: t => if a = b then le s t else a < b

def isAscii (c : Char) : Bool := c.toNat < 0x80

/-- Lower case for the letters `A` to `Z`; every other character stays. -/
def lowerAscii (t : Text) : Text := t.map Char.toLower

theorem after?_append (start t : Text) : after? start (start ++ t) = some t := by
  induction start with
  | nil => rfl
  | cons c start ih => simp [after?, ih]

theorem eq_append_of_after? {start t rest : Text} (h : after? start t = some rest) :
    t = start ++ rest := by
  induction start generalizing t with
  | nil => simpa [after?] using h
  | cons s start ih =>
    cases t with
    | nil => simp [after?] at h
    | cons c t =>
      by_cases hc : s = c
      · subst hc
        rw [after?, if_pos rfl] at h
        simpa using ih h
      · simp [after?, hc] at h

theorem after?_eq_some_iff {start t rest : Text} : after? start t = some rest ↔ t = start ++ rest :=
  ⟨eq_append_of_after?, fun h => h ▸ after?_append start rest⟩

theorem isSome_after?_iff {start t : Text} : (after? start t).isSome ↔ start <+: t := by
  rw [Option.isSome_iff_exists]
  exact exists_congr fun rest => after?_eq_some_iff.trans eq_comm

end Text
end JsonnetLens
