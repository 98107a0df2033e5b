import JsonnetLens.Proofs.Json.Tokens
import JsonnetLens.Proofs.Json.Reader
/-!
# Written values are read back

Reading a written value brings the reader from expecting it to having it, whatever is open around it and
whatever follows that does not continue a number.  The induction is over the value, its items and its
fields at once; the fields of an object come back in their order because their names differ, so that each
of them is a new one for the reader.  The reader needs as much room as the value nests deep.
-/
namespace JsonnetLens.Json

mutual

/-- No number in the value has a fraction, an exponent or a name. -/
def isFloatFree : Json → Bool
  | .float _ => false
  | .array items => areFloatFree items
  | .object fields => fieldsAreFloatFree fields
  | _ => true

def areFloatFree : List Json → Bool
  | [] => true
  | x :: xs => isFloatFree x && areFloatFree xs

def fieldsAreFloatFree : List (WideText × Json) → Bool
  | [] => true
  | (_, x) :: fields => isFloatFree x && fieldsAreFloatFree fields

end

theorem moreItems_begins (depth : Nat) (xs : List Json) :
    moreItems depth xs = [] ∨ ∃ t, moreItems depth xs = ',' :: t := by
  cases xs with
  | nil => exact .inl rfl
  | cons x xs => exact .inr ⟨_, rfl⟩

theorem moreFields_begins (depth : Nat) (fields : List (WideText × Json)) :
    moreFields depth fields = [] ∨ ∃ t, moreFields depth fields = ',' :: t := by
  cases fields with
  | nil => exact .inl rfl
  | cons f fields => exact .inr ⟨_, rfl⟩

/-- A value inside another one is ended by the comma of the next, or by the line of the closing bracket. -/
theorem endsValue_more {more : Text} (hmore : more = [] ∨ ∃ t, more = ',' :: t) (closing : Nat)
    (t rest : Text) : EndsValue (more ++ (newLine closing ++ t) ++ rest) := by
  intro c hc
  rcases hmore with rfl | ⟨_, rfl⟩
  · obtain rfl : '\n' = c := by simpa [newLine] using hc
    decide
  · obtain rfl : ',' = c := by simpa using hc
    decide

theorem not_mem_keys_of_nodup {done fields : Table WideText Json} {name : WideText} {x : Json}
    (h : (Table.keys (done ++ (name, x) :: fields)).Nodup) : name ∉ Table.keys done := by
  rw [Table.keys, List.map_append, List.nodup_append] at h
  exact fun hmem => h.2.2 name hmem name List.mem_cons_self rfl

namespace Reader

variable [Nesting]

/-- Where `rest` follows, reading `t` brings the reader from one situation to another. -/
def Brings (t rest : Text) (stack : List Frame) (expect : Expect) (final : List Frame) (last : Expect) :
    Prop :=
  ∀ size offset, run size stack expect (tokensFrom 0 offset (t ++ rest)) =
    run size final last (tokensFrom 0 (offset + t.length) rest)

variable {s t rest : Text} {stack mid final : List Frame} {expect midway last : Expect} {token : Token}

theorem Brings.append (hs : Brings s (t ++ rest) stack expect mid midway)
    (ht : Brings t rest mid midway final last) : Brings (s ++ t) rest stack expect final last := by
  intro size offset
  rw [List.append_assoc, hs, ht, List.length_append, Nat.add_assoc]

theorem brings_spaces (h : ∀ c ∈ t, isSpace c = true) : Brings t rest stack expect stack expect := by
  induction t with
  | nil => exact fun _ _ => rfl
  | cons c t ih =>
    intro size offset
    obtain ⟨hc, ht⟩ := List.forall_mem_cons.1 h
    rw [List.cons_append, tokensFrom_space hc, ih ht, List.length_cons, Nat.add_assoc, Nat.add_comm 1]

theorem brings_newLine (depth : Nat) : Brings (newLine depth) rest stack expect stack expect := by
  refine brings_spaces fun c hc => ?_
  rcases List.mem_cons.1 hc with rfl | hc
  · rfl
  · obtain rfl := List.eq_of_mem_replicate hc
    rfl

theorem brings_lexeme (h : IsLexeme t token rest)
    (hstep : ∀ offset, step stack expect ⟨token, offset⟩ = .ok (final, last)) :
    Brings t rest stack expect final last := by
  intro size offset
  rw [tokensFrom_lexeme h, run, hstep]

theorem brings_begin (h : IsLexeme t token rest) (hexpect : AwaitsValue expect)
    (hbegin : ∀ offset, beginValue stack ⟨token, offset⟩ = .ok (final, last)) :
    Brings t rest stack expect final last := by
  refine brings_lexeme h fun offset => ?_
  rcases hexpect with rfl | rfl
  · exact hbegin offset
  · rw [step]
    · exact hbegin offset
    · rintro _ _ rfl
      cases hbegin offset

theorem brings_openBracket (hroom : stack.length < Nesting.reading) (hexpect : AwaitsValue expect) :
    Brings ['['] rest stack expect (.array [] :: stack) .firstItem :=
  brings_begin (isLexeme_openBracket rest) hexpect fun _ => by simp only [beginValue, if_pos hroom]

theorem brings_openBrace (hroom : stack.length < Nesting.reading) (hexpect : AwaitsValue expect) :
    Brings ['\x7b'] rest stack expect stack .firstName :=
  brings_begin (isLexeme_openBrace rest) hexpect fun _ => by simp only [beginValue, if_pos hroom]

theorem brings_name {name : WideText} {fields : List (WideText × Json)} (hname : IsJoined name)
    (hstep : ∀ offset, step stack expect ⟨.string name, offset⟩ = .ok (stack, .colon fields name)) :
    Brings (quoteString name ++ ": ".toList) rest stack expect (.object fields name :: stack) .value := by
  have hcolon : ": ".toList = [':'] ++ [' '] := rfl
  rw [hcolon]
  refine (brings_lexeme (isLexeme_string hname _) hstep).append ?_
  refine (brings_lexeme (isLexeme_colon _) fun _ => rfl).append ?_
  exact brings_spaces (by simp [isSpace])

theorem beginValue_ofNat (negative : Bool) {n : Nat} (h : (Text.ofNat n).length ≤ Text.digitLimit)
    (stack : List Frame) (offset : Nat) :
    beginValue stack ⟨.int negative (Text.ofNat n), offset⟩ =
      .ok (stack, .after (.int (if negative then -(n : Int) else n))) := by
  simp only [beginValue, if_neg (Nat.not_lt.2 h), Text.digitsValue_ofNat]

theorem brings_int {i : Int} (hi : (Text.ofNat i.natAbs).length ≤ Text.digitLimit) (hrest : EndsValue rest)
    (hexpect : AwaitsValue expect) : Brings (Text.ofInt i) rest stack expect stack (.after (.int i)) := by
  cases i with
  | ofNat n =>
    exact brings_begin (isLexeme_ofNat n hrest) hexpect fun offset => beginValue_ofNat false hi stack offset
  | negSucc n =>
    exact brings_begin (isLexeme_negative (n + 1) hrest) hexpect fun offset =>
      beginValue_ofNat true hi stack offset

-- What follows a piece is a parameter of the induction: the pieces of an array or object are read one
-- after the other, each with the later ones behind it.
mutual

theorem brings_indentedAt (depth : Nat) : ∀ (v : Json), v.IsReadable → v.isFloatFree = true →
    ∀ (rest : Text), EndsValue rest → ∀ (stack : List Frame) (expect : Expect), AwaitsValue expect →
    stack.length + v.depth ≤ Nesting.reading →
    Brings (indentedAt depth v) rest stack expect stack (.after v)
  | .null, _, _, rest, _, stack, expect, hexpect, _ => by
    rw [indentedAt]
    exact brings_begin (isLexeme_null rest) hexpect fun _ => rfl
  | .bool b, _, _, rest, _, stack, expect, hexpect, _ => by
    rw [indentedAt]
    exact brings_begin (isLexeme_bool b rest) hexpect fun _ => rfl
  | .int i, .int hi, _, rest, hrest, stack, expect, hexpect, _ => by
    rw [indentedAt]
    exact brings_int hi hrest hexpect
  | .float x, _, hfree, _, _, _, _, _, _ => by
    rw [isFloatFree] at hfree
    cases hfree
  | .string s, .string hs, _, rest, _, stack, expect, hexpect, _ => by
    rw [indentedAt]
    exact brings_begin (isLexeme_string hs rest) hexpect fun _ => rfl
  | .array [], _, _, rest, _, stack, expect, hexpect, hroom => by
    rw [indentedAt]
    refine (brings_openBracket (by rw [depth_array] at hroom; omega) hexpect).append ?_
    exact brings_lexeme (isLexeme_closeBracket rest) fun _ => rfl
  | .array (x :: xs), .array hitems, hfree, rest, _, stack, expect, hexpect, hroom => by
    obtain ⟨hx, hxs⟩ := List.forall_mem_cons.1 hitems
    rw [isFloatFree, areFloatFree, Bool.and_eq_true] at hfree
    have htext : indentedAt depth (.array (x :: xs)) = ['['] ++ (newLine (depth + 1) ++
        (indentedAt (depth + 1) x ++ (moreItems (depth + 1) xs ++ (newLine depth ++ [']'])))) := by
      simp [indentedAt]
    rw [depth_array, depthOfItems_cons] at hroom
    have hroomFirst : stack.length + 1 + x.depth ≤ Nesting.reading := by omega
    have hfirst := brings_indentedAt (depth + 1) x hx hfree.1
    -- the closing bracket belongs to the items after the first
    have hmore := brings_moreItems (depth + 1) depth xs hxs hfree.2 rest [] x stack (by omega)
    rw [htext]
    refine (brings_openBracket (by omega) hexpect).append ?_
    refine (brings_newLine _).append ?_
    exact (hfirst _ (endsValue_more (moreItems_begins _ _) _ _ _) (.array [] :: stack) _ (.inr rfl)
      hroomFirst).append hmore
  | .object [], _, _, rest, _, stack, expect, hexpect, hroom => by
    rw [indentedAt]
    refine (brings_openBrace (by rw [depth_object] at hroom; omega) hexpect).append ?_
    exact brings_lexeme (isLexeme_closeBrace rest) fun _ => rfl
  | .object ((name, x) :: fields), .object hnodup hnames hvalues, hfree, rest, _, stack, expect, hexpect,
      hroom => by
    obtain ⟨hname, hnames⟩ := List.forall_mem_cons.1 hnames
    obtain ⟨hx, hvalues⟩ := List.forall_mem_cons.1 hvalues
    rw [isFloatFree, fieldsAreFloatFree, Bool.and_eq_true] at hfree
    have htext : indentedAt depth (.object ((name, x) :: fields)) = ['\x7b'] ++ (newLine (depth + 1) ++
        ((quoteString name ++ ": ".toList) ++ (indentedAt (depth + 1) x ++
          (moreFields (depth + 1) fields ++ (newLine depth ++ ['\x7d']))))) := by
      simp [indentedAt]
    rw [depth_object, depthOfFields_cons] at hroom
    have hroomFirst : stack.length + 1 + x.depth ≤ Nesting.reading := by omega
    have hfirst := brings_indentedAt (depth + 1) x hx hfree.1
    have hmore := brings_moreFields (depth + 1) depth fields hnames hvalues hfree.2 rest [] name x stack hnodup
      (by omega)
    rw [htext]
    refine (brings_openBrace (by omega) hexpect).append ?_
    refine (brings_newLine _).append ?_
    refine (brings_name hname fun _ => rfl).append ?_
    exact (hfirst _ (endsValue_more (moreFields_begins _ _) _ _ _) (.object [] name :: stack) _ (.inl rfl)
      hroomFirst).append hmore

theorem brings_moreItems (depth closing : Nat) : ∀ (xs : List Json), (∀ x ∈ xs, x.IsReadable) →
    areFloatFree xs = true → ∀ (rest : Text) (done : List Json) (x : Json) (stack : List Frame),
    stack.length + 1 + depthOfItems xs ≤ Nesting.reading →
    Brings (moreItems depth xs ++ (newLine closing ++ [']'])) rest (.array done :: stack) (.after x) stack
      (.after (.array (done.reverse ++ x :: xs)))
  | [], _, _, rest, done, x, stack, _ => by
    rw [moreItems]
    refine (brings_newLine _).append (brings_lexeme (isLexeme_closeBracket rest) fun _ => ?_)
    rw [← List.reverse_cons]
    rfl
  | y :: ys, hxs, hfree, rest, done, x, stack, hroom => by
    obtain ⟨hy, hys⟩ := List.forall_mem_cons.1 hxs
    rw [areFloatFree, Bool.and_eq_true] at hfree
    have htext : moreItems depth (y :: ys) ++ (newLine closing ++ [']']) = [','] ++ (newLine depth ++
        (indentedAt depth y ++ (moreItems depth ys ++ (newLine closing ++ [']'])))) := by
      simp [moreItems]
    rw [depthOfItems_cons] at hroom
    have hroomItem : stack.length + 1 + y.depth ≤ Nesting.reading := by omega
    have hitem := brings_indentedAt depth y hy hfree.1
    have hmore := brings_moreItems depth closing ys hys hfree.2 rest (x :: done) y stack (by omega)
    rw [List.reverse_cons, List.append_assoc, List.singleton_append] at hmore
    rw [htext]
    refine (brings_lexeme (isLexeme_comma _) fun _ => rfl).append ?_
    refine (brings_newLine _).append ?_
    exact (hitem _ (endsValue_more (moreItems_begins _ _) _ _ _) (.array (x :: done) :: stack) _ (.inl rfl)
      hroomItem).append hmore

theorem brings_moreFields (depth closing : Nat) : ∀ (fields : Table WideText Json),
    (∀ f ∈ fields, IsJoined f.1) → (∀ f ∈ fields, f.2.IsReadable) →
    fieldsAreFloatFree fields = true → ∀ (rest : Text) (done : Table WideText Json) (name : WideText)
    (x : Json) (stack : List Frame), (Table.keys (done ++ (name, x) :: fields)).Nodup →
    stack.length + 1 + depthOfFields fields ≤ Nesting.reading →
    Brings (moreFields depth fields ++ (newLine closing ++ ['\x7d'])) rest (.object done name :: stack)
      (.after x) stack (.after (.object (done ++ (name, x) :: fields)))
  | [], _, _, _, rest, done, name, x, stack, hnodup, _ => by
    have hnew := Table.insert_of_not_mem (not_mem_keys_of_nodup hnodup) x
    rw [moreFields]
    refine (brings_newLine _).append (brings_lexeme (isLexeme_closeBrace rest) fun _ => ?_)
    rw [← hnew]
    rfl
  | (name', y) :: fields, hnames, hvalues, hfree, rest, done, name, x, stack, hnodup, hroom => by
    obtain ⟨hname, hnames⟩ := List.forall_mem_cons.1 hnames
    obtain ⟨hy, hvalues⟩ := List.forall_mem_cons.1 hvalues
    rw [fieldsAreFloatFree, Bool.and_eq_true] at hfree
    have hnew := Table.insert_of_not_mem (not_mem_keys_of_nodup hnodup) x
    have htext : moreFields depth ((name', y) :: fields) ++ (newLine closing ++ ['\x7d']) = [','] ++
        (newLine depth ++ ((quoteString name' ++ ": ".toList) ++ (indentedAt depth y ++
          (moreFields depth fields ++ (newLine closing ++ ['\x7d']))))) := by
      simp [moreFields]
    rw [depthOfFields_cons] at hroom
    have hroomField : stack.length + 1 + y.depth ≤ Nesting.reading := by omega
    have hfield := brings_indentedAt depth y hy hfree.1
    have hmore := brings_moreFields depth closing fields hnames hvalues hfree.2 rest (done ++ [(name, x)])
      name' y stack (by simpa using hnodup) (by omega)
    rw [List.append_assoc, List.singleton_append] at hmore
    rw [htext]
    refine (brings_lexeme (isLexeme_comma _) fun _ => rfl).append ?_
    refine (brings_newLine _).append ?_
    rw [hnew]
    refine (brings_name hname fun _ => rfl).append ?_
    exact (hfield _ (endsValue_more (moreFields_begins _ _) _ _ _)
      (.object (done ++ [(name, x)]) name' :: stack) _ (.inl rfl) hroomField).append hmore

end

end Reader

/-- **A value that a text can hold is read back from what is written for it**, where there is room. -/
theorem read_indented [Nesting] {v : Json} (hv : v.IsReadable) (hfree : v.isFloatFree = true)
    (hroom : v.depth ≤ Nesting.reading) : read v.indented = .ok v := by
  have hrun : Reader.run v.indented.length [] .value (tokens v.indented) = .ok v := by
    have hbrings := Reader.brings_indentedAt 0 v hv hfree [] endsValue_nil [] .value (.inl rfl)
      (Nat.le_trans (Nat.le_of_eq (Nat.zero_add _)) hroom) v.indented.length 0
    rw [List.append_nil] at hbrings
    exact hbrings
  have hmark : v.indented.head? ≠ some '\uFEFF' := by
    intro hhead
    obtain ⟨s, hs⟩ := List.head?_eq_some_iff.1 hhead
    rw [hs, tokens_byteOrderMark] at hrun
    cases hrun
  rw [read, if_neg hmark, hrun]

/-! ## Texts beyond a limit -/

section

variable [Nesting]

theorem exceeds_ofNat {n : Nat} (h : Text.digitLimit < (Text.ofNat n).length) :
    Exceeds (Text.ofNat n) (.digits (Text.ofNat n).length) := by
  have htokens := tokensFrom_lexeme (isLexeme_ofNat n endsValue_nil) 0
  rw [List.append_nil] at htokens
  exact ⟨[], _, 0, [], [], .value, htokens, .nil, .inl rfl, .int h⟩

theorem exceeds_pow {k : Nat} (h : Text.digitLimit ≤ k) :
    Exceeds (Text.ofNat (10 ^ k)) (.digits (k + 1)) := by
  have hlength := Text.length_ofNat_pow k
  rw [← hlength]
  exact exceeds_ofNat (by omega)

/-- Each bracket leaves room for one less, and the last one finds none. -/
theorem run_brackets : ∀ (n : Nat) {stack : List Reader.Frame} {expect : Reader.Expect},
    Reader.AwaitsValue expect → Nesting.reading ≤ stack.length + n → ∀ (rest : Text) (size offset : Nat),
    Reader.run size stack expect (tokensFrom 0 offset (List.replicate (n + 1) '[' ++ rest)) =
      .error (.beyond .depth)
  | 0, stack, expect, hexpect, hroom, rest, size, offset => by
    rw [List.replicate_one, tokensFrom_lexeme (isLexeme_openBracket rest), Reader.run,
      Reader.step_of_exceeds hexpect (.bracket hroom)]
  | n + 1, stack, expect, hexpect, hroom, rest, size, offset => by
    rw [List.replicate_succ, List.cons_append, ← List.singleton_append]
    by_cases hstack : stack.length < Nesting.reading
    · rw [Reader.brings_openBracket hstack hexpect]
      apply run_brackets n (.inr rfl)
      rw [List.length_cons]
      omega
    · rw [tokensFrom_lexeme (isLexeme_openBracket _), Reader.run,
        Reader.step_of_exceeds hexpect (.bracket (Nat.le_of_not_lt hstack))]

theorem exceeds_brackets {n : Nat} (h : Nesting.reading < n) : Exceeds (List.replicate n '[') .depth := by
  obtain ⟨m, rfl⟩ : ∃ m, n = m + 1 := ⟨n - 1, by omega⟩
  have hmark : (List.replicate (m + 1) '[').head? ≠ some '\uFEFF' := by simp [List.replicate_succ]
  have hroom : Nesting.reading ≤ ([] : List Reader.Frame).length + m := by
    rw [List.length_nil]
    omega
  have hrun := run_brackets m (.inl rfl) hroom [] (List.replicate (m + 1) '[').length 0
  rw [List.append_nil] at hrun
  rw [← read_eq_beyond_iff, read, if_neg hmark, tokens, hrun]

end

end JsonnetLens.Json
