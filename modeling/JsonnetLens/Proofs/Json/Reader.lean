import JsonnetLens.Json.Reader
import JsonnetLens.Proofs.Json.Strings
import JsonnetLens.Proofs.Text.Decimal
/-!
# What the reader gives

A run takes tokens until one is refused or none is left (`Reader.run_cases`), so what each step preserves
holds of what is read: integers are short enough to be converted, strings are joined, the names of an
object differ from each other, and no value nests deeper than it may (`depth_le_of_read`).  The only other
outcomes are a place where the text is no JSON and, where a value was expected, one that goes beyond a
limit: an integer that is too long to be converted, or an array or object inside too many others
(`read_eq_beyond_iff`).
-/
namespace JsonnetLens.Json

/-- A value that can be read from a text. -/
inductive IsReadable : Json → Prop
  | null : IsReadable .null
  | bool (b : Bool) : IsReadable (.bool b)
  | int {i : Int} (h : (Text.ofNat i.natAbs).length ≤ Text.digitLimit) : IsReadable (.int i)
  | float (x : Float) : IsReadable (.float x)
  | string {s : WideText} (h : IsJoined s) : IsReadable (.string s)
  | array {items : List Json} (h : ∀ x ∈ items, IsReadable x) : IsReadable (.array items)
  | object {fields : Table WideText Json} (hnodup : fields.keys.Nodup) (hname : ∀ f ∈ fields, IsJoined f.1)
      (h : ∀ f ∈ fields, IsReadable f.2) : IsReadable (.object fields)

theorem isReadable_insert {fields : Table WideText Json} (h : IsReadable (.object fields)) {name : WideText}
    (hname : IsJoined name) {value : Json} (hvalue : IsReadable value) :
    IsReadable (.object (Table.insert name value fields)) := by
  cases h with
  | object hnodup hnames hvalues =>
    refine .object (Table.nodup_keys_insert hnodup name value) (fun f hf => ?_) fun f hf => ?_
    · rcases Table.eq_or_mem_of_mem_insert hf with rfl | hf
      · exact hname
      · exact hnames f hf
    · rcases Table.eq_or_mem_of_mem_insert hf with rfl | hf
      · exact hvalue
      · exact hvalues f hf

/-! ## Tokens -/

/-- A token that a text can hold. -/
def Token.IsIn (t : Text) : Token → Prop
  | .word value => value.IsReadable ∧ value.depth = 0
  | .int _ digits => digits ≠ [] ∧ (∀ c ∈ digits, c.isDigit = true) ∧ digits <:+: t
  | .string s => IsJoined s
  | _ => True

theorem Token.IsIn.mono {s t : Text} (hst : s <:+: t) {token : Token} (h : token.IsIn s) : token.IsIn t := by
  cases token with
  | int negative digits => exact ⟨h.1, h.2.1, h.2.2.trans hst⟩
  | _ => exact h

theorem Token.isDigit_whole (t : Text) : (∀ c ∈ whole t, c.isDigit = true) ∧ whole t <+: t := by
  unfold whole
  split
  · exact ⟨fun c hc => List.mem_singleton.1 hc ▸ rfl, List.prefix_append ['0'] _⟩
  · exact ⟨fun c hc => (List.all_eq_true.1 List.all_takeWhile c hc), List.takeWhile_prefix _⟩

theorem Token.isIn_number? {negative : Bool} {t : Text} {token : Token} {size : Nat}
    (h : number? negative t = some (token, size)) : token.IsIn t := by
  obtain ⟨hdigit, hprefix⟩ := isDigit_whole t
  simp only [number?] at h
  split at h
  · cases h
  · next hne =>
    split at h
    · cases h
      trivial
    · split at h
      all_goals cases h
      · exact ⟨fun hnil => hne (hnil ▸ rfl), hdigit, hprefix.isInfix⟩
      · trivial

theorem Token.isIn_word? {t : Text} {found : Token × Nat} (h : word? t = some found) : found.1.IsIn t := by
  obtain ⟨⟨name, value⟩, hmem, hfound⟩ := List.exists_of_findSome?_eq_some h
  obtain ⟨_, -, rfl⟩ := Option.map_eq_some_iff.1 hfound
  simp only [words, List.mem_cons, List.not_mem_nil, or_false, Prod.mk.injEq] at hmem
  rcases hmem with ⟨-, rfl⟩ | ⟨-, rfl⟩ | ⟨-, rfl⟩ | ⟨-, rfl⟩ | ⟨-, rfl⟩ | ⟨-, rfl⟩
  · exact ⟨.null, rfl⟩
  · exact ⟨.bool _, rfl⟩
  · exact ⟨.bool _, rfl⟩
  · exact ⟨.float _, rfl⟩
  · exact ⟨.float _, rfl⟩
  · exact ⟨.float _, rfl⟩

theorem Token.isIn_read (offset : Nat) (t : Text) : (Token.read offset t).1.IsIn t := by
  unfold Token.read
  split
  all_goals try trivial
  · split
    · exact isJoined_joinPairs _
    · trivial
  · split
    · next hword => exact isIn_word? hword
    · split
      · split
        · next hnumber => exact (isIn_number? hnumber).mono (List.suffix_cons _ _).isInfix
        · trivial
      · rcases hnumber : number? false _ with _ | found
        · trivial
        · exact isIn_number? hnumber

theorem isIn_of_mem_tokensFrom {skip offset : Nat} {t : Text} {lexeme : Lexeme}
    (h : lexeme ∈ tokensFrom skip offset t) : lexeme.token.IsIn t := by
  fun_induction tokensFrom skip offset t with
  | case1 => cases h
  | case2 skip offset c rest ih => exact (ih h).mono (List.suffix_cons _ _).isInfix
  | case3 offset c rest hspace ih => exact (ih h).mono (List.suffix_cons _ _).isInfix
  | case4 offset c rest hspace token size hread ih =>
    rcases List.mem_cons.1 h with rfl | h
    · have hin := Token.isIn_read offset (c :: rest)
      rw [hread] at hin
      exact hin
    · split at h
      · cases h
      · exact (ih h).mono (List.suffix_cons _ _).isInfix

/-- A character begins one token at most. -/
theorem length_tokensFrom_le (skip offset : Nat) (t : Text) :
    (tokensFrom skip offset t).length ≤ t.length := by
  fun_induction tokensFrom skip offset t with
  | case1 => exact Nat.le_refl _
  | case2 skip offset c rest ih => exact Nat.le_succ_of_le ih
  | case3 offset c rest hspace ih => exact Nat.le_succ_of_le ih
  | case4 offset c rest hspace token size hread ih =>
    refine Nat.succ_le_succ ?_
    split
    · exact Nat.zero_le _
    · exact ih

/-! ## What a reader holds -/

namespace Reader

def Frame.IsReadable : Frame → Prop
  | .array items => ∀ x ∈ items, x.IsReadable
  | .object fields name => Json.IsReadable (.object fields) ∧ IsJoined name

def Expect.IsReadable : Expect → Prop
  | .name fields => Json.IsReadable (.object fields)
  | .colon fields field => Json.IsReadable (.object fields) ∧ IsJoined field
  | .after v => v.IsReadable
  | _ => True

theorem isReadable_nil : Json.IsReadable (.object []) :=
  .object List.nodup_nil (fun _ hf => absurd hf List.not_mem_nil) fun _ hf => absurd hf List.not_mem_nil

theorem isReadable_digitsValue {digits : Text} (hne : digits ≠ []) (hdigit : ∀ c ∈ digits, c.isDigit = true)
    (hlength : digits.length ≤ Text.digitLimit) (negative : Bool) :
    Json.IsReadable (.int (if negative then -(Text.digitsValue digits : Int) else Text.digitsValue digits)) := by
  have hle := Text.length_ofNat_digitsValue_le hdigit hne
  refine .int ?_
  cases negative <;> simp <;> omega

def Frame.depth : Frame → Nat
  | .array items => depthOfItems items
  | .object fields _ => depthOfFields fields

/-- How deep the value nests that the reader has got, or the object that is not on the stack between two
fields. -/
def Expect.depth : Expect → Nat
  | .value => 0
  | .firstItem => 0
  | .firstName => 1
  | .name fields => depthOfFields fields + 1
  | .colon fields _ => depthOfFields fields + 1
  | .after v => v.depth

/-- How deep the whole would nest, if a value of this depth came next and everything were closed then. -/
def depthAround : List Frame → Nat → Nat
  | [], n => n
  | frame :: outer, n => depthAround outer (max frame.depth n + 1)

theorem depthAround_eq : ∀ (stack : List Frame) (n : Nat),
    depthAround stack n = max (depthAround stack 0) (stack.length + n)
  | [], n => by simp [depthAround]
  | frame :: outer, n => by
    simp only [depthAround, List.length_cons]
    rw [depthAround_eq outer (max frame.depth n + 1), depthAround_eq outer (max frame.depth 0 + 1)]
    omega

theorem depthAround_mono (stack : List Frame) {m n : Nat} (h : m ≤ n) :
    depthAround stack m ≤ depthAround stack n := by
  rw [depthAround_eq stack m, depthAround_eq stack n]
  omega

/-- A stop that tells a place where the text is no JSON. -/
def Stop.IsPlace (stop : Stop) : Prop := ∃ cause offset, stop = .at cause offset

section
variable {stack : List Frame} {lexeme : Lexeme} {stop : Stop}

theorem readName_eq_error {fields : List (WideText × Json)} (h : readName stack fields lexeme = .error stop) :
    stop.IsPlace := by
  unfold readName at h
  split at h <;> cases h
  all_goals exact ⟨_, _, rfl⟩

theorem endValue_eq_error {value : Json} (h : endValue stack value lexeme = .error stop) : stop.IsPlace := by
  unfold endValue at h
  split at h <;> cases h
  all_goals exact ⟨_, _, rfl⟩

theorem finish_eq_error {size : Nat} {expect : Expect} (h : finish size stack expect = .error stop) :
    stop.IsPlace := by
  unfold finish at h
  split at h
  all_goals try split at h
  all_goals cases h
  all_goals exact ⟨_, _, rfl⟩

end

/-! ## Runs -/

section

variable [Nesting]

/-- The reader takes tokens one after the other, and none of them is refused. -/
inductive Takes : List Frame → Expect → List Lexeme → List Frame → Expect → Prop
  | nil {stack : List Frame} {expect : Expect} : Takes stack expect [] stack expect
  | cons {stack mid final : List Frame} {expect midway last : Expect} {lexeme : Lexeme} {rest : List Lexeme}
      (hstep : step stack expect lexeme = .ok (mid, midway)) (h : Takes mid midway rest final last) :
      Takes stack expect (lexeme :: rest) final last

theorem Takes.run_append {stack final : List Frame} {expect last : Expect} {before : List Lexeme}
    (h : Takes stack expect before final last) (size : Nat) (rest : List Lexeme) :
    run size stack expect (before ++ rest) = run size final last rest := by
  induction h with
  | nil => rfl
  | cons hstep _ ih =>
    rw [List.cons_append, run, hstep]
    exact ih

/-- A run takes all tokens and finishes, or stops at the first token that is refused. -/
theorem run_cases (size : Nat) (stack : List Frame) (expect : Expect) (lexemes : List Lexeme) :
    (∃ final last, Takes stack expect lexemes final last ∧
      run size stack expect lexemes = finish size final last) ∨
    ∃ before lexeme rest final last stop, lexemes = before ++ lexeme :: rest ∧
      Takes stack expect before final last ∧ step final last lexeme = .error stop ∧
      run size stack expect lexemes = .error stop := by
  induction lexemes generalizing stack expect with
  | nil => exact .inl ⟨stack, expect, .nil, rfl⟩
  | cons lexeme rest ih =>
    rcases hstep : step stack expect lexeme with stop | ⟨mid, midway⟩
    · exact .inr ⟨[], lexeme, rest, stack, expect, stop, rfl, .nil, hstep, by rw [run, hstep]⟩
    · have hrun : run size stack expect (lexeme :: rest) = run size mid midway rest := by rw [run, hstep]
      rw [hrun]
      rcases ih mid midway with ⟨final, last, htakes, hfinish⟩ |
        ⟨before, refused, after, final, last, stop, rfl, htakes, hrefused, hstop⟩
      · exact .inl ⟨final, last, .cons hstep htakes, hfinish⟩
      · exact .inr ⟨lexeme :: before, refused, after, final, last, stop, rfl, .cons hstep htakes, hrefused,
          hstop⟩

/-! ## What a step keeps -/

/-- All that the reader holds can be read from a text, and the whole does not nest too deep. -/
structure Holds (stack : List Frame) (expect : Expect) : Prop where
  depth : depthAround stack expect.depth ≤ Nesting.reading
  stack : ∀ frame ∈ stack, frame.IsReadable
  expect : expect.IsReadable

variable {stack final : List Frame} {expect last : Expect} {lexeme : Lexeme} {t : Text}

theorem Holds.cons {frame : Frame} (hdepth : depthAround (frame :: stack) expect.depth ≤ Nesting.reading)
    (hframe : frame.IsReadable) (hstack : ∀ frame ∈ stack, frame.IsReadable) (hexpect : expect.IsReadable) :
    Holds (frame :: stack) expect :=
  ⟨hdepth, List.forall_mem_cons.2 ⟨hframe, hstack⟩, hexpect⟩

/-- Where there is room for one more array or object, it makes nothing too deep. -/
theorem depthAround_one_le (hdepth : depthAround stack 0 ≤ Nesting.reading)
    (hroom : stack.length < Nesting.reading) : depthAround stack 1 ≤ Nesting.reading := by
  rw [depthAround_eq]
  omega

theorem holds_beginValue (hdepth : depthAround stack 0 ≤ Nesting.reading)
    (hstack : ∀ frame ∈ stack, frame.IsReadable) (htoken : lexeme.token.IsIn t)
    (h : beginValue stack lexeme = .ok (final, last)) : Holds final last := by
  obtain ⟨token, offset⟩ := lexeme
  cases token with
  | openBracket =>
    simp only [beginValue] at h
    split at h
    · next hroom =>
      cases h
      exact .cons (depthAround_one_le hdepth hroom) (fun x hx => absurd hx List.not_mem_nil) hstack trivial
    · cases h
  | openBrace =>
    simp only [beginValue] at h
    split at h
    · next hroom =>
      cases h
      exact ⟨depthAround_one_le hdepth hroom, hstack, trivial⟩
    · cases h
  | word value =>
    cases h
    refine ⟨?_, hstack, htoken.1⟩
    rwa [Expect.depth, htoken.2]
  | float x =>
    cases h
    exact ⟨hdepth, hstack, .float x⟩
  | string s =>
    cases h
    exact ⟨hdepth, hstack, .string htoken⟩
  | int negative digits =>
    obtain ⟨hne, hdigit, -⟩ := htoken
    simp only [beginValue] at h
    split at h
    · cases h
    · cases h
      exact ⟨hdepth, hstack, isReadable_digitsValue hne hdigit (by omega) negative⟩
  | _ => cases h

theorem holds_readName {fields : Table WideText Json}
    (hdepth : depthAround stack (depthOfFields fields + 1) ≤ Nesting.reading)
    (hstack : ∀ frame ∈ stack, frame.IsReadable) (hfields : Json.IsReadable (.object fields))
    (htoken : lexeme.token.IsIn t) (h : readName stack fields lexeme = .ok (final, last)) :
    Holds final last := by
  obtain ⟨token, offset⟩ := lexeme
  cases token with
  | string s =>
    cases h
    exact ⟨hdepth, hstack, hfields, htoken⟩
  | _ => cases h

theorem holds_endValue {value : Json} (hdepth : depthAround stack value.depth ≤ Nesting.reading)
    (hstack : ∀ frame ∈ stack, frame.IsReadable) (hvalue : value.IsReadable)
    (h : endValue stack value lexeme = .ok (final, last)) : Holds final last := by
  unfold endValue at h
  split at h
  · cases h
  · next items outer _ =>
    cases h
    obtain ⟨hitems, houter⟩ := List.forall_mem_cons.1 hstack
    refine .cons ?_ (List.forall_mem_cons.2 ⟨hvalue, hitems⟩) houter trivial
    refine Nat.le_trans (depthAround_mono outer ?_) hdepth
    simp only [Frame.depth, Expect.depth, depthOfItems_cons]
    omega
  · next items outer _ =>
    cases h
    obtain ⟨hitems, houter⟩ := List.forall_mem_cons.1 hstack
    refine ⟨Nat.le_trans (depthAround_mono _ ?_) hdepth, houter, .array fun x hx => ?_⟩
    · simp only [Frame.depth, Expect.depth, depth_array, depthOfItems_reverse, depthOfItems_cons]
      omega
    · exact List.forall_mem_cons.2 ⟨hvalue, hitems⟩ x (List.mem_reverse.1 hx)
  · next fields name outer _ =>
    cases h
    obtain ⟨hframe, houter⟩ := List.forall_mem_cons.1 hstack
    have hfields := Nat.succ_le_succ (depthOfFields_insert_le name value fields)
    exact ⟨Nat.le_trans (depthAround_mono _ hfields) hdepth, houter,
      isReadable_insert hframe.1 hframe.2 hvalue⟩
  · next fields name outer _ =>
    cases h
    obtain ⟨hframe, houter⟩ := List.forall_mem_cons.1 hstack
    have hfields := Nat.succ_le_succ (depthOfFields_insert_le name value fields)
    exact ⟨Nat.le_trans (depthAround_mono _ hfields) hdepth, houter,
      isReadable_insert hframe.1 hframe.2 hvalue⟩
  · cases h

theorem holds_step (hholds : Holds stack expect) (htoken : lexeme.token.IsIn t)
    (h : step stack expect lexeme = .ok (final, last)) : Holds final last := by
  obtain ⟨hdepth, hstack, hexpect⟩ := hholds
  unfold step at h
  split at h
  · next frame outer =>
    cases h
    refine ⟨?_, (List.forall_mem_cons.1 hstack).2, .array fun x hx => absurd hx List.not_mem_nil⟩
    exact Nat.le_trans (depthAround_mono _ (Nat.succ_le_succ (Nat.zero_le _))) hdepth
  · exact holds_beginValue hdepth hstack htoken h
  · exact holds_beginValue hdepth hstack htoken h
  · cases h
    exact ⟨hdepth, hstack, isReadable_nil⟩
  · exact holds_readName hdepth hstack isReadable_nil htoken h
  · exact holds_readName hdepth hstack hexpect htoken h
  · cases h
    refine .cons ?_ hexpect hstack trivial
    rwa [depthAround, Expect.depth, Nat.max_zero]
  · cases h
  · exact holds_endValue hdepth hstack hexpect h

theorem Takes.holds {lexemes : List Lexeme} (h : Takes stack expect lexemes final last)
    (htokens : ∀ lexeme ∈ lexemes, lexeme.token.IsIn t) (hholds : Holds stack expect) : Holds final last := by
  induction h with
  | nil => exact hholds
  | cons hstep _ ih =>
    obtain ⟨htoken, hrest⟩ := List.forall_mem_cons.1 htokens
    exact ih hrest (holds_step hholds htoken hstep)

/-- A step opens one array or object at most. -/
theorem length_step_le (h : step stack expect lexeme = .ok (final, last)) :
    final.length ≤ stack.length + 1 := by
  unfold step beginValue readName endValue at h
  repeat' split at h
  all_goals cases h
  all_goals try simp only [List.length_cons]
  all_goals omega

theorem Takes.length_le {lexemes : List Lexeme} (h : Takes stack expect lexemes final last) :
    final.length ≤ stack.length + lexemes.length := by
  induction h with
  | nil => exact Nat.le_refl _
  | cons hstep _ ih =>
    have hle := length_step_le hstep
    rw [List.length_cons]
    omega

end

end Reader

/-! ## Limits -/

/-- A token that would begin a value, were it not beyond a limit where so many arrays and objects are open. -/
inductive Token.Exceeds [Nesting] (opened : Nat) : Token → Limit → Prop
  | int {negative : Bool} {digits : Text} (h : Text.digitLimit < digits.length) :
      Exceeds opened (.int negative digits) (.digits digits.length)
  | bracket (h : Nesting.reading ≤ opened) : Exceeds opened .openBracket .depth
  | brace (h : Nesting.reading ≤ opened) : Exceeds opened .openBrace .depth

namespace Reader

variable [Nesting] {stack : List Frame} {expect : Expect} {lexeme : Lexeme} {token : Token} {stop : Stop}
  {limit : Limit}

/-- The reader waits for a value. -/
def AwaitsValue (expect : Expect) : Prop := expect = .value ∨ expect = .firstItem

theorem beginValue_eq_error (h : beginValue stack lexeme = .error stop) :
    stop.IsPlace ∨ ∃ limit, stop = .beyond limit ∧ lexeme.token.Exceeds stack.length limit := by
  obtain ⟨token, offset⟩ := lexeme
  cases token with
  | openBracket =>
    simp only [beginValue] at h
    split at h
    · cases h
    · next hfull =>
      cases h
      exact .inr ⟨_, rfl, .bracket (Nat.le_of_not_lt hfull)⟩
  | openBrace =>
    simp only [beginValue] at h
    split at h
    · cases h
    · next hfull =>
      cases h
      exact .inr ⟨_, rfl, .brace (Nat.le_of_not_lt hfull)⟩
  | int negative digits =>
    simp only [beginValue] at h
    split at h
    · next hlong =>
      cases h
      exact .inr ⟨_, rfl, .int hlong⟩
    · cases h
  | word value => cases h
  | float x => cases h
  | string s => cases h
  | _ =>
    cases h
    exact .inl ⟨_, _, rfl⟩

theorem beginValue_of_exceeds (h : token.Exceeds stack.length limit) (offset : Nat) :
    beginValue stack ⟨token, offset⟩ = .error (.beyond limit) := by
  cases h with
  | int h => simp only [beginValue, gt_iff_lt, if_pos h]
  | bracket h => simp only [beginValue, if_neg (Nat.not_lt.2 h)]
  | brace h => simp only [beginValue, if_neg (Nat.not_lt.2 h)]

/-- Only where a value begins does a limit count. -/
theorem step_eq_error (h : step stack expect lexeme = .error stop) :
    stop.IsPlace ∨ AwaitsValue expect ∧
      ∃ limit, stop = .beyond limit ∧ lexeme.token.Exceeds stack.length limit := by
  unfold step at h
  split at h
  · cases h
  · exact (beginValue_eq_error h).imp_right (⟨.inr rfl, ·⟩)
  · exact (beginValue_eq_error h).imp_right (⟨.inl rfl, ·⟩)
  · cases h
  · exact .inl (readName_eq_error h)
  · exact .inl (readName_eq_error h)
  · cases h
  · cases h
    exact .inl ⟨_, _, rfl⟩
  · exact .inl (endValue_eq_error h)

theorem step_of_exceeds (hexpect : AwaitsValue expect) (h : token.Exceeds stack.length limit) (offset : Nat) :
    step stack expect ⟨token, offset⟩ = .error (.beyond limit) := by
  rcases hexpect with rfl | rfl
  · exact beginValue_of_exceeds h offset
  · rw [step]
    · exact beginValue_of_exceeds h offset
    · rintro _ _ rfl
      cases h

end Reader

/-! ## Whole texts -/

theorem tokens_byteOrderMark (t : Text) : tokens ('\uFEFF' :: t) = [⟨.bad, 0⟩] := rfl

section

variable [Nesting] {t : Text}

/-- The value of a text is what is left where all of its tokens are taken. -/
theorem read_eq_ok {value : Json} (h : read t = .ok value) :
    Reader.Takes [] .value (tokens t) [] (.after value) := by
  unfold read at h
  split at h
  · cases h
  · rcases Reader.run_cases t.length [] .value (tokens t) with ⟨final, last, htakes, hrun⟩ |
      ⟨before, lexeme, rest, final, last, stop, -, -, -, hrun⟩
    · rw [hrun] at h
      cases last with
      | after v =>
        cases final with
        | nil =>
          cases h
          exact htakes
        | cons frame final => cases h
      | _ => cases h
    · rw [hrun] at h
      cases stop <;> cases h

theorem holds_of_read {value : Json} (h : read t = .ok value) : Reader.Holds [] (.after value) :=
  (read_eq_ok h).holds (fun _ hl => isIn_of_mem_tokensFrom hl)
    ⟨Nat.zero_le _, fun _ hf => absurd hf List.not_mem_nil, trivial⟩

theorem isReadable_of_read {value : Json} (h : read t = .ok value) : value.IsReadable :=
  (holds_of_read h).expect

theorem depth_le_of_read {value : Json} (h : read t = .ok value) : value.depth ≤ Nesting.reading :=
  (holds_of_read h).depth

/-- The text has something beyond a limit where a value is expected, and all that stands before it is as
it should be. -/
def Exceeds (t : Text) (limit : Limit) : Prop :=
  ∃ before token offset rest stack expect,
    tokens t = before ++ ⟨token, offset⟩ :: rest ∧ Reader.Takes [] .value before stack expect ∧
      Reader.AwaitsValue expect ∧ token.Exceeds stack.length limit

variable {limit : Limit}

theorem Exceeds.run (h : Exceeds t limit) (size : Nat) :
    Reader.run size [] .value (tokens t) = .error (.beyond limit) := by
  obtain ⟨before, token, offset, rest, stack, expect, htokens, htakes, hexpect, hexceeds⟩ := h
  rw [htokens, htakes.run_append, Reader.run, Reader.step_of_exceeds hexpect hexceeds]

theorem Exceeds.head?_ne (h : Exceeds t limit) : t.head? ≠ some '\uFEFF' := by
  intro hhead
  obtain ⟨s, rfl⟩ := List.head?_eq_some_iff.1 hhead
  have hrun := h.run 0
  rw [tokens_byteOrderMark] at hrun
  cases hrun

/-- **A text that is no JSON has a place where that shows, unless it goes beyond a limit first.** -/
theorem read_eq_beyond_iff : read t = .error (.beyond limit) ↔ Exceeds t limit := by
  constructor
  · intro h
    unfold read at h
    split at h
    · cases h
    rcases Reader.run_cases t.length [] .value (tokens t) with ⟨final, last, -, hrun⟩ |
      ⟨before, ⟨token, offset⟩, rest, final, last, stop, htokens, htakes, hstep, hrun⟩
    · rw [hrun] at h
      rcases hfinish : Reader.finish t.length final last with stop | value
      · obtain ⟨cause, offset, rfl⟩ := Reader.finish_eq_error hfinish
        rw [hfinish] at h
        cases h
      · rw [hfinish] at h
        cases h
    · rw [hrun] at h
      rcases Reader.step_eq_error hstep with ⟨cause, place, rfl⟩ | ⟨hexpect, found, rfl, hexceeds⟩
      · cases h
      · cases h
        exact ⟨before, token, offset, rest, final, last, htokens, htakes, hexpect, hexceeds⟩
  · intro h
    rw [read, if_neg h.head?_ne, h.run]

theorem Exceeds.unique {other : Limit} (h : Exceeds t limit) (ho : Exceeds t other) : limit = other := by
  rw [← read_eq_beyond_iff] at h ho
  exact ReadError.beyond.inj (Except.error.inj (h.symm.trans ho))

/-- An integer that is too long stands in the text. -/
theorem Exceeds.exists_digits {count : Nat} (h : Exceeds t (.digits count)) :
    ∃ digits, digits <:+: t ∧ (∀ c ∈ digits, c.isDigit = true) ∧ digits.length = count ∧
      Text.digitLimit < count := by
  obtain ⟨before, token, offset, rest, stack, expect, htokens, -, -, hexceeds⟩ := h
  cases hexceeds with
  | @int negative digits hlong =>
    have hmem : ⟨.int negative digits, offset⟩ ∈ tokens t := by simp [htokens]
    obtain ⟨-, hdigit, hinfix⟩ := isIn_of_mem_tokensFrom hmem
    exact ⟨digits, hinfix, hdigit, rfl, hlong⟩

/-- A text that nests too deep is longer than that. -/
theorem Exceeds.lt_length (h : Exceeds t .depth) : Nesting.reading < t.length := by
  obtain ⟨before, token, offset, rest, stack, expect, htokens, htakes, -, hexceeds⟩ := h
  have hfull : Nesting.reading ≤ stack.length := by
    cases hexceeds with
    | bracket hfull => exact hfull
    | brace hfull => exact hfull
  have hopened := htakes.length_le
  have hlength := length_tokensFrom_le 0 0 t
  have hcount : (tokens t).length = before.length + (rest.length + 1) := by
    rw [htokens, List.length_append, List.length_cons]
  rw [List.length_nil] at hopened
  unfold tokens at hcount
  omega

end

end JsonnetLens.Json
