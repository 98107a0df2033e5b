import JsonnetLens.Text.Percent
/-!
# Texts come back from their encodings

What UTF-8 encodes the automaton decodes, character by character and whatever bytes follow
(`Utf8.decodeFrom_encodeChar`).  Percent coding reads its own output as the bytes of the text that
was written, so `Percent.unquote` undoes `Percent.quote`, also behind plain text that needed no
coding.
-/
namespace JsonnetLens

namespace Utf8

theorem toNat_ofNat_of_lt {n : Nat} (h : n < 256) : (UInt8.ofNat n).toNat = n := by
  rw [UInt8.toNat_ofNat']
  exact Nat.mod_eq_of_lt h

theorem decodeFrom_cons (state : Progress) (b : UInt8) (rest : List UInt8) :
    decodeFrom state (b :: rest) = (step state b).1 ++ decodeFrom (step state b).2 rest := by
  cases state <;> rfl

theorem decodeFrom_lead {n : Nat} {state : Progress} (hn : n < 256) (hh : ¬ n < 0x80)
    (hl : lead? n = some state) (rest : List UInt8) :
    decodeFrom .idle (.ofNat n :: rest) = decodeFrom state rest := by
  rw [decodeFrom_cons, step, toNat_ofNat_of_lt hn, begin, if_neg hh, hl]
  rfl

theorem decodeFrom_within_succ {n value more low high : Nat} (hn : n < 64)
    (hr : low ≤ 0x80 + n ∧ 0x80 + n ≤ high) (rest : List UInt8) :
    decodeFrom (.within value (more + 1) low high) (.ofNat (0x80 + n) :: rest) =
      decodeFrom (.within (value * 64 + n) more 0x80 0xBF) rest := by
  rw [decodeFrom_cons, step, toNat_ofNat_of_lt (by omega), if_pos hr, Nat.add_sub_cancel_left]
  rfl

theorem decodeFrom_within_zero {n value low high : Nat} (hn : n < 64)
    (hr : low ≤ 0x80 + n ∧ 0x80 + n ≤ high) (rest : List UInt8) :
    decodeFrom (.within value 0 low high) (.ofNat (0x80 + n) :: rest) =
      Char.ofNat (value * 64 + n) :: decodeFrom .idle rest := by
  rw [decodeFrom_cons, step, toNat_ofNat_of_lt (by omega), if_pos hr, Nat.add_sub_cancel_left]
  rfl

theorem lead?_two {n : Nat} (h : 0xC2 ≤ n) (h' : n < 0xE0) :
    lead? n = some (.within (n - 0xC0) 0 0x80 0xBF) := by
  rw [lead?, if_neg (by omega), if_pos h']

/-- The bounds after a first byte of three keep out the surrogates and what fits in two bytes. -/
theorem lead?_three {n : Nat} (h : 0xE0 ≤ n) (h' : n < 0xF0) :
    lead? n = some (.within (n - 0xE0) 1 (if n = 0xE0 then 0xA0 else 0x80)
      (if n = 0xED then 0x9F else 0xBF)) := by
  unfold lead?
  rw [if_neg (by omega), if_neg (by omega)]
  by_cases h0 : n = 0xE0
  · subst h0
    rfl
  by_cases hD : n = 0xED
  · subst hD
    rfl
  · rw [if_neg h0, if_neg hD, if_pos h', if_neg h0, if_neg hD]

/-- The bounds after a first byte of four keep out what fits in three and what is no code point. -/
theorem lead?_four {n : Nat} (h : 0xF0 ≤ n) (h' : n < 0xF5) :
    lead? n = some (.within (n - 0xF0) 2 (if n = 0xF0 then 0x90 else 0x80)
      (if n = 0xF4 then 0x8F else 0xBF)) := by
  unfold lead?
  rw [if_neg (by omega), if_neg (by omega), if_neg (by omega), if_neg (by omega), if_neg (by omega)]
  by_cases h0 : n = 0xF0
  · subst h0
    rfl
  by_cases h4 : n = 0xF4
  · subst h4
    rfl
  · rw [if_neg h0, if_pos (by omega), if_neg h0, if_neg h4]

/-- **A character is read back from its bytes, whatever follows.** -/
theorem decodeFrom_encodeChar (c : Char) (rest : List UInt8) :
    decodeFrom .idle (encodeChar c ++ rest) = c :: decodeFrom .idle rest := by
  have hc : Char.ofNat c.toNat = c := Char.ofNat_toNat c
  have hvalid : c.toNat < 0xD800 ∨ 0xDFFF < c.toNat ∧ c.toNat < 0x110000 := c.valid
  unfold encodeChar
  generalize c.toNat = n at hc hvalid
  subst hc
  by_cases h1 : n < 0x80
  · rw [if_pos h1, List.singleton_append, decodeFrom_cons, step, toNat_ofNat_of_lt (by omega), begin,
      if_pos h1]
    rfl
  by_cases h2 : n < 0x800
  · rw [if_neg h1, if_pos h2]
    simp only [List.cons_append, List.nil_append]
    rw [decodeFrom_lead (by omega) (by omega) (lead?_two (by omega) (by omega)),
      decodeFrom_within_zero (by omega) (by omega)]
    congr 2
    omega
  by_cases h3 : n < 0x10000
  · rw [if_neg h1, if_neg h2, if_pos h3]
    simp only [List.cons_append, List.nil_append]
    rw [decodeFrom_lead (by omega) (by omega) (lead?_three (by omega) (by omega)),
      decodeFrom_within_succ (by omega) (by split <;> split <;> omega),
      decodeFrom_within_zero (by omega) (by omega)]
    congr 2
    omega
  · rw [if_neg h1, if_neg h2, if_neg h3]
    simp only [List.cons_append, List.nil_append]
    rw [decodeFrom_lead (by omega) (by omega) (lead?_four (by omega) (by omega)),
      decodeFrom_within_succ (by omega) (by split <;> split <;> omega),
      decodeFrom_within_succ (by omega) (by omega), decodeFrom_within_zero (by omega) (by omega)]
    congr 2
    omega

theorem decode_encode (t : Text) : decode (encode t) = t := by
  unfold decode encode
  induction t with
  | nil => rfl
  | cons c t ih => rw [List.flatMap_cons, decodeFrom_encodeChar, ih]

theorem encode_append (s t : Text) : encode (s ++ t) = encode s ++ encode t := List.flatMap_append

theorem encode_cons (c : Char) (t : Text) : encode (c :: t) = encodeChar c ++ encode t := rfl

theorem encodeChar_of_isAscii {c : Char} (h : Text.isAscii c = true) :
    encodeChar c = [.ofNat c.toNat] := by
  rw [encodeChar, if_pos (by simpa [Text.isAscii] using h)]

end Utf8

namespace Percent

/-- A character that percent coding reads as itself. -/
def isPlain (c : Char) : Bool := Text.isAscii c && c ≠ '%'

theorem isAscii_of_isAlphanum {c : Char} (h : c.isAlphanum = true) : Text.isAscii c = true := by
  delta Char.isAlphanum Char.isAlpha Char.isUpper Char.isLower Char.isDigit at h
  simp only [Bool.or_eq_true, Bool.and_eq_true, decide_eq_true_eq, ge_iff_le,
    UInt32.le_iff_toNat_le] at h
  have hlt : c.val.toNat < 0x80 := by
    rcases h with (⟨_, h⟩ | ⟨_, h⟩) | ⟨_, h⟩ <;> exact Nat.lt_of_le_of_lt h (by decide)
  exact decide_eq_true hlt

theorem isPlain_of_isKept {c : Char} (h : isKept c = true) : isPlain c = true := by
  have hne : c ≠ '%' := fun hc => by
    subst hc
    exact absurd h (by decide)
  have hascii : Text.isAscii c = true := by
    simp only [isKept, Bool.or_eq_true, decide_eq_true_eq] at h
    rcases h with ((((h | h) | h) | h) | h) | h
    · exact isAscii_of_isAlphanum h
    all_goals
      subst h
      decide
  simp [isPlain, hascii, hne]

theorem hexValue_upper_digit : ∀ n < 16, Hex.value? (Nat.digitChar n).toUpper = some n := by decide

theorem quoteByte_eq (b : UInt8) :
    quoteByte b = ['%', (Nat.digitChar (b.toNat / 16)).toUpper, (Nat.digitChar (b.toNat % 16)).toUpper] := by
  have hb : b.toNat / 16 % 16 = b.toNat / 16 := Nat.mod_eq_of_lt (by have := b.toNat_lt; omega)
  simp [quoteByte, Hex.upper, Hex.lower, hb]

/-- A coded byte joins the bytes read so far. -/
theorem unquoteFrom_quoteByte (b : UInt8) (run : List UInt8) (rest : Text) :
    unquoteFrom run (quoteByte b ++ rest) = unquoteFrom (b :: run) rest := by
  have hb : b.toNat < 256 := b.toNat_lt
  rw [quoteByte_eq]
  simp only [List.cons_append, List.nil_append]
  rw [unquoteFrom, hexValue_upper_digit _ (by omega), hexValue_upper_digit _ (by omega)]
  have hvalue : UInt8.ofNat (16 * (b.toNat / 16) + b.toNat % 16) = b := by
    rw [Nat.div_add_mod, UInt8.ofNat_toNat]
  simp only [hvalue]

theorem unquoteFrom_quoteBytes (bytes run : List UInt8) (rest : Text) :
    unquoteFrom run (bytes.flatMap quoteByte ++ rest) = unquoteFrom (bytes.reverse ++ run) rest := by
  induction bytes generalizing run with
  | nil => rfl
  | cons b bytes ih =>
    rw [List.flatMap_cons, List.append_assoc, unquoteFrom_quoteByte, ih, List.reverse_cons,
      List.append_assoc, List.singleton_append]

theorem unquoteFrom_plain {c : Char} (h : isPlain c = true) (run : List UInt8) (rest : Text) :
    unquoteFrom run (c :: rest) = unquoteFrom (.ofNat c.toNat :: run) rest := by
  simp only [isPlain, Bool.and_eq_true, decide_eq_true_eq] at h
  rw [unquoteFrom]
  · rw [if_pos h.1]
  · exact fun _ _ _ hc _ => h.2 hc

theorem encode_of_isPlain {t : Text} (h : ∀ c ∈ t, isPlain c = true) :
    Utf8.encode t = t.map fun c => .ofNat c.toNat := by
  induction t with
  | nil => rfl
  | cons c t ih =>
    have hc : Text.isAscii c = true := by
      have := h c List.mem_cons_self
      simp only [isPlain, Bool.and_eq_true] at this
      exact this.1
    rw [Utf8.encode_cons, Utf8.encodeChar_of_isAscii hc, ih fun x hx => h x (List.mem_cons_of_mem _ hx)]
    rfl

theorem unquoteFrom_plainText {s : Text} (h : ∀ c ∈ s, isPlain c = true) (run : List UInt8)
    (rest : Text) :
    unquoteFrom run (s ++ rest) = unquoteFrom ((Utf8.encode s).reverse ++ run) rest := by
  induction s generalizing run with
  | nil => rfl
  | cons c s ih =>
    have hc := h c List.mem_cons_self
    have hs : ∀ x ∈ s, isPlain x = true := fun x hx => h x (List.mem_cons_of_mem _ hx)
    rw [List.cons_append, unquoteFrom_plain hc, ih hs, encode_of_isPlain h, encode_of_isPlain hs,
      List.map_cons, List.reverse_cons, List.append_assoc, List.singleton_append]

/-- **Coded text joins the bytes read so far as the bytes of the text it codes.** -/
theorem unquoteFrom_quote (t : Text) (run : List UInt8) (rest : Text) :
    unquoteFrom run (quote t ++ rest) = unquoteFrom ((Utf8.encode t).reverse ++ run) rest := by
  -- each character adds its bytes to the run, whatever the run holds already
  induction t generalizing run with
  | nil => rfl
  | cons c t ih =>
    have hchar : unquoteFrom run (quoteChar c ++ (quote t ++ rest)) =
        unquoteFrom ((Utf8.encodeChar c).reverse ++ run) (quote t ++ rest) := by
      unfold quoteChar
      by_cases hk : isKept c = true
      · have hp := isPlain_of_isKept hk
        rw [if_pos hk, List.singleton_append, unquoteFrom_plain hp]
        simp only [isPlain, Bool.and_eq_true] at hp
        rw [Utf8.encodeChar_of_isAscii hp.1]
        rfl
      · rw [if_neg hk, unquoteFrom_quoteBytes]
    have hcons : quote (c :: t) ++ rest = quoteChar c ++ (quote t ++ rest) := by
      rw [quote, List.flatMap_cons, List.append_assoc]
      rfl
    rw [hcons, hchar, ih, Utf8.encode_cons, List.reverse_append, List.append_assoc]

/-- **Percent coding is undone**, also behind plain text. -/
theorem unquote_append_quote {s : Text} (hs : ∀ c ∈ s, isPlain c = true) (t : Text) :
    unquote (s ++ quote t) = s ++ t := by
  have hq := unquoteFrom_quote t (Utf8.encode s).reverse []
  rw [List.append_nil] at hq
  rw [unquote, unquoteFrom_plainText hs, List.append_nil, hq, unquoteFrom]
  simp only [List.reverse_append, List.reverse_reverse]
  rw [← Utf8.encode_append, Utf8.decode_encode]

/-! ## The characters of a coding -/

theorem isKept_hexDigit : ∀ n < 16, isKept (Nat.digitChar n).toUpper = true := by decide

theorem isKept_of_mem_quote {c : Char} {t : Text} (h : c ∈ quote t) : isKept c = true ∨ c = '%' := by
  obtain ⟨x, _, hc⟩ := List.mem_flatMap.1 h
  unfold quoteChar at hc
  by_cases hk : isKept x = true
  · rw [if_pos hk, List.mem_singleton] at hc
    exact .inl (hc ▸ hk)
  · rw [if_neg hk] at hc
    obtain ⟨b, _, hc⟩ := List.mem_flatMap.1 hc
    have hb : b.toNat < 256 := b.toNat_lt
    rw [quoteByte_eq] at hc
    simp only [List.mem_cons, List.not_mem_nil, or_false] at hc
    rcases hc with rfl | rfl | rfl
    · exact .inr rfl
    · exact .inl (isKept_hexDigit _ (by omega))
    · exact .inl (isKept_hexDigit _ (by omega))

theorem quote_cons (c : Char) (t : Text) : quote (c :: t) = quoteChar c ++ quote t := rfl

theorem quoteChar_of_isKept {c : Char} (h : isKept c = true) : quoteChar c = [c] := by
  rw [quoteChar, if_pos h]

theorem quoteChar_of_not_isKept {c : Char} (h : ¬ isKept c = true) :
    ∃ high low rest, quoteChar c = '%' :: high :: low :: rest := by
  obtain ⟨b, bytes, hb⟩ : ∃ b bytes, Utf8.encodeChar c = b :: bytes := by
    unfold Utf8.encodeChar
    simp only
    split
    · exact ⟨_, _, rfl⟩
    split
    · exact ⟨_, _, rfl⟩
    split <;> exact ⟨_, _, rfl⟩
  rw [quoteChar, if_neg h, hb, List.flatMap_cons, quoteByte_eq]
  exact ⟨_, _, _, rfl⟩

theorem head?_quote_eq_slash_iff {t : Text} : (quote t).head? = some '/' ↔ t.head? = some '/' := by
  cases t with
  | nil => simp [quote]
  | cons c t =>
    rw [quote_cons]
    by_cases hk : isKept c = true
    · rw [quoteChar_of_isKept hk]
      rfl
    · obtain ⟨high, low, rest, hq⟩ := quoteChar_of_not_isKept hk
      have hc : c ≠ '/' := fun hc => hk (hc ▸ rfl)
      simp [hq, hc]

theorem length_le_length_quote (t : Text) : t.length ≤ (quote t).length := by
  induction t with
  | nil => exact Nat.le_refl _
  | cons c t ih =>
    rw [quote_cons, List.length_append, List.length_cons]
    by_cases hk : isKept c = true
    · rw [quoteChar_of_isKept hk, List.length_singleton]
      omega
    · obtain ⟨high, low, rest, hq⟩ := quoteChar_of_not_isKept hk
      rw [hq]
      simp only [List.length_cons]
      omega

/-- **A text is its own coding when all its characters are kept**, and only then. -/
theorem quote_eq_self_iff {t : Text} : quote t = t ↔ ∀ c ∈ t, isKept c = true := by
  induction t with
  | nil => simp [quote]
  | cons c t ih =>
    rw [quote_cons, List.forall_mem_cons]
    by_cases hk : isKept c = true
    · rw [quoteChar_of_isKept hk, List.singleton_append, List.cons.injEq, ih]
      simp [hk]
    · refine ⟨fun h => ?_, fun h => absurd h.1 hk⟩
      obtain ⟨high, low, rest, hq⟩ := quoteChar_of_not_isKept hk
      have hlength := congrArg List.length h
      have ht := length_le_length_quote t
      rw [hq, List.length_append] at hlength
      simp only [List.length_cons] at hlength
      omega

end Percent
end JsonnetLens
