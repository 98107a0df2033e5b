import JsonnetLens.Proofs.Json.Strings
import JsonnetLens.Proofs.Text.Cuts
import JsonnetLens.Proofs.Text.Decimal
/-!
# Written tokens are cut where they were written

`IsLexeme t token rest` says that `t` is read as one token, wherever it stands, if `rest` follows; then
the cut goes on at `rest` (`tokensFrom_lexeme`).  Marks, words and strings need nothing of what follows.
A number is cut where its digits end, so after it there may be nothing that would continue it
(`EndsValue`).
-/
namespace JsonnetLens.Json

open Token (whole fraction exponent? number? word?)

/-! ## The cut -/

theorem tokensFrom_skip (skip offset : Nat) (t : Text) :
    tokensFrom skip offset t = tokensFrom 0 (offset + skip) (t.drop skip) := by
  induction skip generalizing offset t with
  | zero => rw [Nat.add_zero, List.drop_zero]
  | succ skip ih =>
    cases t with
    | nil => simp [tokensFrom]
    | cons c t => rw [tokensFrom, ih, List.drop_succ_cons, Nat.add_assoc, Nat.add_comm 1]

theorem tokensFrom_space {c : Char} (hc : isSpace c = true) (offset : Nat) (t : Text) :
    tokensFrom 0 offset (c :: t) = tokensFrom 0 (offset + 1) t := by
  rw [tokensFrom, if_pos hc]

/-- A text that is one token wherever it stands, if `rest` follows. -/
structure IsLexeme (t : Text) (token : Token) (rest : Text) : Prop where
  begins : ∃ c s, t = c :: s ∧ isSpace c = false
  read : ∀ offset, Token.read offset (t ++ rest) = (token, t.length)
  good : token.isBad = false

theorem tokensFrom_lexeme {t rest : Text} {token : Token} (h : IsLexeme t token rest) (offset : Nat) :
    tokensFrom 0 offset (t ++ rest) = ⟨token, offset⟩ :: tokensFrom 0 (offset + t.length) rest := by
  obtain ⟨⟨c, s, rfl, hc⟩, hread, hgood⟩ := h
  have hskip := tokensFrom_skip s.length (offset + 1) (s ++ rest)
  rw [List.drop_left] at hskip
  rw [List.cons_append, tokensFrom, if_neg (by simp [hc]), ← List.cons_append, hread]
  simp only [hgood, Bool.false_eq_true, if_false, List.length_cons, Nat.add_sub_cancel, hskip]
  rw [Nat.add_assoc, Nat.add_comm 1]

/-! ## Each kind of token -/

theorem isLexeme_mark {c : Char} {token : Token}
    (hread : ∀ offset rest, Token.read offset (c :: rest) = (token, 1)) (hc : isSpace c = false)
    (hgood : token.isBad = false) {rest : Text} : IsLexeme [c] token rest :=
  ⟨⟨c, [], rfl, hc⟩, fun offset => hread offset rest, hgood⟩

theorem isLexeme_openBracket (rest : Text) : IsLexeme ['['] .openBracket rest :=
  isLexeme_mark (fun _ _ => rfl) rfl rfl

theorem isLexeme_closeBracket (rest : Text) : IsLexeme [']'] .closeBracket rest :=
  isLexeme_mark (fun _ _ => rfl) rfl rfl

theorem isLexeme_openBrace (rest : Text) : IsLexeme ['\x7b'] .openBrace rest :=
  isLexeme_mark (fun _ _ => rfl) rfl rfl

theorem isLexeme_closeBrace (rest : Text) : IsLexeme ['\x7d'] .closeBrace rest :=
  isLexeme_mark (fun _ _ => rfl) rfl rfl

theorem isLexeme_comma (rest : Text) : IsLexeme [','] .comma rest :=
  isLexeme_mark (fun _ _ => rfl) rfl rfl

theorem isLexeme_colon (rest : Text) : IsLexeme [':'] .colon rest :=
  isLexeme_mark (fun _ _ => rfl) rfl rfl

theorem isLexeme_null (rest : Text) : IsLexeme "null".toList (.word .null) rest :=
  ⟨⟨'n', _, rfl, rfl⟩, fun _ => rfl, rfl⟩

theorem isLexeme_bool (b : Bool) (rest : Text) :
    IsLexeme (if b then "true".toList else "false".toList) (.word (.bool b)) rest := by
  cases b with
  | false => exact ⟨⟨'f', _, rfl, rfl⟩, fun _ => rfl, rfl⟩
  | true => exact ⟨⟨'t', _, rfl, rfl⟩, fun _ => rfl, rfl⟩

theorem isLexeme_string {s : WideText} (h : IsJoined s) (rest : Text) :
    IsLexeme (quoteString s) (.string s) rest := by
  refine ⟨⟨'"', _, rfl, rfl⟩, fun offset => ?_, rfl⟩
  have hscan := scan_flatMap s offset (offset + 1) rest
  rw [quoteString, List.cons_append, List.cons_append, Token.read, List.append_assoc,
    List.singleton_append, hscan]
  simp only [joinPairs_halves h, List.length_cons, List.length_append, List.length_nil, Prod.mk.injEq,
    true_and]
  omega

/-- What may follow a value: nothing that would continue a number. -/
def EndsValue (rest : Text) : Prop :=
  ∀ c, rest.head? = some c → c.isDigit = false ∧ c ≠ '.' ∧ c ≠ 'e' ∧ c ≠ 'E'

theorem endsValue_nil : EndsValue [] := fun _ hc => by cases hc

theorem fraction_eq_nil {rest : Text} (h : EndsValue rest) : fraction rest = [] := by
  unfold fraction
  split
  · exact absurd rfl (h '.' rfl).2.1
  · rfl

theorem exponent?_eq_none {rest : Text} (h : EndsValue rest) : exponent? rest = none := by
  unfold exponent?
  split
  · rfl
  · next e rest =>
    obtain ⟨-, -, he, hE⟩ := h e rfl
    simp [he, hE]

theorem whole_ofNat (n : Nat) {rest : Text} (h : EndsValue rest) :
    whole (Text.ofNat n ++ rest) = Text.ofNat n := by
  by_cases hn : n = 0
  · subst hn
    rfl
  · have hrest : rest.head?.all (!Char.isDigit ·) = true := by
      cases rest with
      | nil => rfl
      | cons c rest => simpa using (h c rfl).1
    have hdigits : ∀ c ∈ Text.ofNat n, c.isDigit = true := fun c hc => Text.isAsciiDigit_of_mem_ofNat hc
    have hzero := Text.head?_ofNat_ne hn
    rw [whole]
    · exact (Text.takeWhile_append_of_all hdigits hrest).1
    · intro tail htail
      rw [← List.head?_append_of_ne_nil _ (Text.ofNat_ne_nil n), htail] at hzero
      exact hzero rfl

theorem number?_ofNat (negative : Bool) (n : Nat) {rest : Text} (h : EndsValue rest) :
    number? negative (Text.ofNat n ++ rest) =
      some (.int negative (Text.ofNat n), (Text.ofNat n).length) := by
  have hne : (Text.ofNat n).isEmpty = false := by simpa using Text.ofNat_ne_nil n
  simp only [number?, whole_ofNat n h, hne, List.drop_left, fraction_eq_nil h, List.isEmpty_nil,
    Bool.false_eq_true, if_false, if_true, Nat.add_zero, exponent?_eq_none h]

theorem ne_of_isDigit {c d : Char} (hc : c.isDigit = true) (hd : d.isDigit = false) : c ≠ d :=
  fun h => absurd (h ▸ hc) (Bool.not_eq_true _ ▸ hd)

theorem word?_eq_none {c : Char} (hc : c.isDigit = true) (t : Text) :
    word? (c :: t) = none ∧ word? ('-' :: c :: t) = none := by
  have hne (d : Char) (hd : d.isDigit = false) : d ≠ c := (ne_of_isDigit hc hd).symm
  simp [word?, Token.words, Text.after?, hne]

theorem isSpace_of_isDigit {c : Char} (hc : c.isDigit = true) : isSpace c = false := by
  simp [isSpace, ne_of_isDigit hc]

theorem read_digit {c : Char} (hc : c.isDigit = true) (offset : Nat) (t : Text) :
    Token.read offset (c :: t) = (number? false (c :: t)).getD (.bad, 1) := by
  rw [Token.read, (word?_eq_none hc t).1]
  · exact List.cons_ne_nil _ _
  all_goals exact fun _ h => ne_of_isDigit hc (by decide) (List.cons.inj h).1

theorem read_minus_digit {c : Char} (hc : c.isDigit = true) {t : Text} {token : Token} {size : Nat}
    (h : number? true (c :: t) = some (token, size)) (offset : Nat) :
    Token.read offset ('-' :: c :: t) = (token, size + 1) := by
  simp [Token.read, (word?_eq_none hc t).2, h]

theorem isLexeme_ofNat (n : Nat) {rest : Text} (h : EndsValue rest) :
    IsLexeme (Text.ofNat n) (.int false (Text.ofNat n)) rest := by
  have hnumber := number?_ofNat false n h
  obtain ⟨c, t, ht⟩ := List.exists_cons_of_ne_nil (Text.ofNat_ne_nil n)
  have hc : c.isDigit = true := Text.isAsciiDigit_of_mem_ofNat (ht ▸ List.mem_cons_self)
  refine ⟨⟨c, t, ht, isSpace_of_isDigit hc⟩, fun offset => ?_, rfl⟩
  rw [ht] at hnumber ⊢
  rw [List.cons_append, read_digit hc, ← List.cons_append, hnumber]
  rfl

theorem isLexeme_negative (n : Nat) {rest : Text} (h : EndsValue rest) :
    IsLexeme ('-' :: Text.ofNat n) (.int true (Text.ofNat n)) rest := by
  have hnumber := number?_ofNat true n h
  obtain ⟨c, t, ht⟩ := List.exists_cons_of_ne_nil (Text.ofNat_ne_nil n)
  have hc : c.isDigit = true := Text.isAsciiDigit_of_mem_ofNat (ht ▸ List.mem_cons_self)
  refine ⟨⟨'-', _, rfl, rfl⟩, fun offset => ?_, rfl⟩
  rw [ht] at hnumber ⊢
  exact read_minus_digit hc hnumber offset

end JsonnetLens.Json
