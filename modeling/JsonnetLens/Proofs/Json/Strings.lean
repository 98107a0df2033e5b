import JsonnetLens.Json.Token
import JsonnetLens.Json.Writer
import Mathlib.Data.List.Chain
/-!
# JSON strings are read back

A code point is written as itself, as a short escape or as the escapes of its halves, and scanning the
text up to the quote gives the halves (`scan_flatMap`).  Joining them gives the string back when it
is one that joining can give: no high surrogate stands right before a low one (`joinPairs_halves`,
`isJoined_joinPairs`).
-/
namespace JsonnetLens.Json

open Token (scan joinPairs joinPair hexPoint? Scan.push)

/-- The first half of a surrogate pair. -/
def highHalf (p : CodePoint) : CodePoint := ⟨0xD800 + (p.val - 0x10000) / 0x400, by omega⟩

/-- The second half of a surrogate pair. -/
def lowHalf (p : CodePoint) : CodePoint := ⟨0xDC00 + (p.val - 0x10000) % 0x400, by omega⟩

@[simp] theorem val_highHalf (p : CodePoint) : (highHalf p).val = 0xD800 + (p.val - 0x10000) / 0x400 := rfl

@[simp] theorem val_lowHalf (p : CodePoint) : (lowHalf p).val = 0xDC00 + (p.val - 0x10000) % 0x400 := rfl

/-- What the escapes of a code point name. -/
def halves (p : CodePoint) : WideText := if p.val < 0x10000 then [p] else [highHalf p, lowHalf p]

/-- No two neighbours form a surrogate pair. -/
def IsJoined (s : WideText) : Prop :=
  s.IsChain fun p q => (p.isHighSurrogate && q.isLowSurrogate) = false

/-! ## Escapes -/

theorem hexValue_digitChar : ∀ n < 16, Hex.value? (Nat.digitChar n) = some n := by decide

theorem lower_four (n : Nat) :
    Hex.lower 4 n = [Nat.digitChar (n / 16 / 16 / 16 % 16), Nat.digitChar (n / 16 / 16 % 16),
      Nat.digitChar (n / 16 % 16), Nat.digitChar (n % 16)] := by
  simp [Hex.lower]

theorem hexPoint?_digitChar {n : Nat} (hn : n < 0x10000) :
    hexPoint? (Nat.digitChar (n / 16 / 16 / 16 % 16)) (Nat.digitChar (n / 16 / 16 % 16))
      (Nat.digitChar (n / 16 % 16)) (Nat.digitChar (n % 16)) = some (Fin.ofNat 0x110000 n) := by
  have hdigits : ((n / 16 / 16 / 16 % 16 * 16 + n / 16 / 16 % 16) * 16 + n / 16 % 16) * 16 + n % 16 = n := by
    omega
  simp only [hexPoint?, hexValue_digitChar _ (Nat.mod_lt _ (by decide)), hdigits]

theorem scan_unicodeEscape {n : Nat} (hn : n < 0x10000) (start offset : Nat) {t : Text} (ht : t ≠ []) :
    scan start offset (unicodeEscape n ++ t) = (scan start (offset + 6) t).push (Fin.ofNat 0x110000 n) := by
  obtain ⟨next, rest, rfl⟩ := List.exists_cons_of_ne_nil ht
  rw [unicodeEscape, lower_four]
  simp only [List.cons_append, List.nil_append]
  rw [scan, hexPoint?_digitChar hn]

@[simp] theorem length_unicodeEscape (n : Nat) : (unicodeEscape n).length = 6 := by
  simp [unicodeEscape, lower_four]

theorem scan_plain {c : Char} (hquote : c ≠ '"') (hslash : c ≠ '\\') (hc : 0x20 ≤ c.toNat)
    (start offset : Nat) (t : Text) :
    scan start offset (c :: t) = (scan start (offset + 1) t).push (CodePoint.ofChar c) := by
  rw [scan]
  · rw [if_neg (by omega)]
  all_goals simp_all

/-- A code point is scanned as the halves that its escapes name. -/
theorem scan_escapePoint (p : CodePoint) (start offset : Nat) {t : Text} (ht : t ≠ []) :
    scan start offset (escapePoint p ++ t) =
      (halves p).foldr Scan.push (scan start (offset + (escapePoint p).length) t) := by
  have hshort (n : Nat) (e : Char) (hp : p.val = n) (hn : n < 0x10000)
      (hscan : scan start offset ('\\' :: e :: t) = (scan start (offset + 2) t).push (Fin.ofNat _ n)) :
      scan start offset (['\\', e] ++ t) = (halves p).foldr Scan.push (scan start (offset + 2) t) := by
    rw [halves, if_pos (by omega)]
    simpa [← hp] using hscan
  unfold escapePoint
  split
  · exact hshort 0x22 _ ‹_› (by decide) rfl
  split
  · exact hshort 0x5C _ ‹_› (by decide) rfl
  split
  · exact hshort 0x0A _ ‹_› (by decide) rfl
  split
  · exact hshort 0x0D _ ‹_› (by decide) rfl
  split
  · exact hshort 0x09 _ ‹_› (by decide) rfl
  split
  · exact hshort 0x0C _ ‹_› (by decide) rfl
  split
  · exact hshort 0x08 _ ‹_› (by decide) rfl
  split
  · next hquote hslash _ _ _ _ _ hp =>
    have hvalid : p.val.isValidChar := .inl (by omega)
    have hnat : (Char.ofNat p.val).toNat = p.val := by rw [Char.ofNat, dif_pos hvalid]; rfl
    have hpoint : CodePoint.ofChar (Char.ofNat p.val) = p := Fin.ext hnat
    have hne (c : Char) (hc : p.val ≠ c.toNat) : Char.ofNat p.val ≠ c := fun h => hc (h ▸ hnat.symm)
    rw [List.singleton_append, scan_plain (hne _ hquote) (hne _ hslash) (hnat.symm ▸ hp.1), hpoint, halves,
      if_pos (by omega)]
    rfl
  split
  · next hp =>
    rw [scan_unicodeEscape hp _ _ ht, halves, if_pos hp]
    simp
  · next hp =>
    rw [halves, if_neg hp, List.append_assoc, scan_unicodeEscape (by omega) _ _ (by simp [unicodeEscape]),
      scan_unicodeEscape (by omega) _ _ ht]
    have hhigh : Fin.ofNat 0x110000 (0xD800 + (p.val - 0x10000) / 0x400) = highHalf p :=
      Fin.ext (Nat.mod_eq_of_lt (by omega))
    have hlow : Fin.ofNat 0x110000 (0xDC00 + (p.val - 0x10000) % 0x400) = lowHalf p :=
      Fin.ext (Nat.mod_eq_of_lt (by omega))
    rw [hhigh, hlow]
    simp

theorem foldr_push_closed (points : WideText) (offset : Nat) (s : WideText) :
    s.foldr Scan.push (.closed points offset) = .closed (s ++ points) offset := by
  induction s with
  | nil => rfl
  | cons p s ih => rw [List.foldr_cons, ih, Scan.push, List.cons_append]

/-- **A written string is scanned up to its closing quote.** -/
theorem scan_flatMap (s : WideText) (start offset : Nat) (rest : Text) :
    scan start offset (s.flatMap escapePoint ++ '"' :: rest) =
      .closed (s.flatMap halves) (offset + (s.flatMap escapePoint).length + 1) := by
  induction s generalizing offset with
  | nil =>
    rw [List.flatMap_nil, List.nil_append, scan]
    simp
  | cons p s ih =>
    rw [List.flatMap_cons, List.append_assoc, scan_escapePoint p start offset (by simp), ih,
      foldr_push_closed, List.flatMap_cons, List.length_append, Nat.add_assoc offset]

/-! ## Surrogate pairs -/

theorem joinPairs_cons {p : CodePoint} {t : WideText}
    (h : ∀ q, t.head? = some q → (p.isHighSurrogate && q.isLowSurrogate) = false) :
    joinPairs (p :: t) = p :: joinPairs t := by
  cases t with
  | nil => rfl
  | cons q t => rw [joinPairs, h q rfl, if_neg Bool.false_ne_true]

theorem isHighSurrogate_highHalf {p : CodePoint} (hp : 0x10000 ≤ p.val) :
    (highHalf p).isHighSurrogate = true := by
  have hlt := p.isLt
  have hval := val_highHalf p
  simp only [CodePoint.isHighSurrogate, Bool.and_eq_true, decide_eq_true_eq]
  omega

theorem isLowSurrogate_lowHalf {p : CodePoint} : (lowHalf p).isLowSurrogate = true := by
  have hval := val_lowHalf p
  simp only [CodePoint.isLowSurrogate, Bool.and_eq_true, decide_eq_true_eq]
  omega

theorem joinPair_halves {p : CodePoint} (hp : 0x10000 ≤ p.val) : joinPair (highHalf p) (lowHalf p) = p := by
  have hlt := p.isLt
  refine Fin.ext ?_
  rw [joinPair, Fin.val_ofNat, val_highHalf, val_lowHalf]
  omega

theorem isSurrogate_of_le {p : CodePoint} (hp : 0x10000 ≤ p.val) :
    p.isHighSurrogate = false ∧ p.isLowSurrogate = false := by
  simp only [CodePoint.isHighSurrogate, CodePoint.isLowSurrogate, Bool.and_eq_false_iff,
    decide_eq_false_iff_not]
  omega

theorem isJoined_cons {p : CodePoint} {s : WideText} :
    IsJoined (p :: s) ↔
      (∀ q ∈ s.head?, (p.isHighSurrogate && q.isLowSurrogate) = false) ∧ IsJoined s :=
  List.isChain_cons

/-- **Joining gives back a string from its halves.** -/
theorem joinPairs_halves {s : WideText} (h : IsJoined s) : joinPairs (s.flatMap halves) = s := by
  induction s with
  | nil => rfl
  | cons p s ih =>
    obtain ⟨hnext, hs⟩ := isJoined_cons.1 h
    rw [List.flatMap_cons, halves]
    split
    · rw [List.singleton_append, joinPairs_cons, ih hs]
      -- the next half is the next code point or a high surrogate
      cases s with
      | nil => exact fun q hq => absurd hq (by simp)
      | cons q s =>
        rw [List.flatMap_cons, halves]
        split
        · exact fun r hr => hnext r hr
        · next hq =>
          rintro r hr
          obtain rfl : highHalf q = r := by simpa using hr
          have hhigh := isHighSurrogate_highHalf (Nat.le_of_not_lt hq)
          simp only [CodePoint.isHighSurrogate, CodePoint.isLowSurrogate, Bool.and_eq_true,
            Bool.and_eq_false_iff, decide_eq_true_eq, decide_eq_false_iff_not] at hhigh ⊢
          omega
    · next hp =>
      have hle := Nat.le_of_not_lt hp
      rw [List.cons_append, List.cons_append, List.nil_append, joinPairs, isHighSurrogate_highHalf hle,
        isLowSurrogate_lowHalf, if_pos (Bool.and_self true), joinPair_halves hle, ih hs]

theorem le_val_joinPair {p q : CodePoint} (h : (p.isHighSurrogate && q.isLowSurrogate) = true) :
    0x10000 ≤ (joinPair p q).val := by
  simp only [CodePoint.isHighSurrogate, CodePoint.isLowSurrogate, Bool.and_eq_true,
    decide_eq_true_eq] at h
  rw [joinPair, Fin.val_ofNat]
  omega

/-- Joining leaves nothing to join. -/
theorem isJoined_joinPairs (s : WideText) : IsJoined (joinPairs s) := by
  fun_induction joinPairs s with
  | case1 => exact .nil
  | case2 p => exact .singleton p
  | case3 p q rest hpair ih =>
    refine isJoined_cons.2 ⟨fun r _ => ?_, ih⟩
    rw [(isSurrogate_of_le (le_val_joinPair hpair)).1, Bool.false_and]
  | case4 p q rest hpair ih =>
    refine isJoined_cons.2 ⟨fun r hr => ?_, ih⟩
    -- what comes first is `q`, or a pair joined from it
    cases rest with
    | nil =>
      obtain rfl : q = r := by simpa [joinPairs] using hr
      exact Bool.eq_false_iff.2 hpair
    | cons q' rest =>
      rw [joinPairs] at hr
      split at hr
      · next hnext =>
        obtain rfl : joinPair q q' = r := by simpa using hr
        rw [(isSurrogate_of_le (le_val_joinPair hnext)).2, Bool.and_false]
      · obtain rfl : q = r := by simpa using hr
        exact Bool.eq_false_iff.2 hpair

end JsonnetLens.Json
