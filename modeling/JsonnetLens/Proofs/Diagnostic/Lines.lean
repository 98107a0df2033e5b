import JsonnetLens.Diagnostic.CompilerError
/-!
# The lines of an error text

Reading lines undoes joining them with line breaks of either kind, except that an empty line at the
very end goes missing (`lines_joined`).  What stands before the first break of a
text is its first line and never more than that, so it has no part in what the error is
(`ofText_append`), and neither has the way in which the lines are broken (`ofText_joined`).
-/
namespace JsonnetLens.CompilerError

/-- A line break as the compiler may write it. -/
inductive LineBreak where
  | lf
  | crlf
  deriving DecidableEq, Repr

def LineBreak.text : LineBreak → Text
  | lf => ['\n']
  | crlf => ['\r', '\n']

/-- No line break in the text, and no carriage return at its end that a break would take in. -/
def IsLine (t : Text) : Prop := '\n' ∉ t ∧ t.getLast? ≠ some '\r'

instance (t : Text) : Decidable (IsLine t) := inferInstanceAs (Decidable (_ ∧ _))

/-- Lines with a break of either kind between neighbours, and perhaps one at the end. -/
def joined (first : Text) : List (LineBreak × Text) → Option LineBreak → Text
  | [], none => first
  | [], some b => first ++ b.text
  | (b, line) :: rest, ending => first ++ b.text ++ joined line rest ending

theorem IsLine.tail {c : Char} {t : Text} (h : IsLine (c :: t)) : IsLine t := by
  refine ⟨fun hn => h.1 (List.mem_cons_of_mem _ hn), fun hr => h.2 ?_⟩
  rw [List.getLast?_cons, hr, Option.getD_some]

theorem splitLines_ne_nil (t : Text) : splitLines t ≠ [] := by
  fun_cases splitLines t <;> simp_all

theorem splitLines_cons {c : Char} {t line : Text} {rest : List Text} (hn : c ≠ '\n')
    (hr : c = '\r' → t.head? ≠ some '\n') (h : splitLines t = line :: rest) :
    splitLines (c :: t) = (c :: line) :: rest := by
  rw [splitLines]
  · rw [h]
  · rintro t' rfl rfl
    exact hr rfl rfl
  · exact hn

/-- **A line is read back**, and then what follows its break. -/
theorem splitLines_break {line : Text} (h : IsLine line) (b : LineBreak) (rest : Text) :
    splitLines (line ++ b.text ++ rest) = line :: splitLines rest := by
  induction line with
  | nil => cases b <;> rfl
  | cons c line ih =>
    refine splitLines_cons (fun hc => h.1 (hc ▸ List.mem_cons_self)) (fun hc => ?_) (ih h.tail)
    -- a carriage return could only begin a break as the last character of the line
    subst hc
    cases line with
    | nil => exact absurd rfl h.2
    | cons d line =>
      have hd : d ≠ '\n' := fun hd => h.1 (hd ▸ List.mem_cons_of_mem _ List.mem_cons_self)
      simpa using hd

theorem splitLines_of_not_mem {line : Text} (h : '\n' ∉ line) : splitLines line = [line] := by
  induction line with
  | nil => rfl
  | cons c line ih =>
    have hline : '\n' ∉ line := fun hn => h (List.mem_cons_of_mem _ hn)
    refine splitLines_cons (fun hc => h (hc ▸ List.mem_cons_self)) (fun _ hd => ?_) (ih hline)
    exact hline (List.mem_of_mem_head? hd)

theorem splitLines_joined {first : Text} {ls : List (LineBreak × Text)}
    (h : ∀ line ∈ first :: ls.map Prod.snd, IsLine line) (ending : Option LineBreak) :
    splitLines (joined first ls ending) =
      first :: ls.map Prod.snd ++ if ending.isSome then [[]] else [] := by
  induction ls generalizing first with
  | nil =>
    have hfirst := h first List.mem_cons_self
    cases ending with
    | none => exact splitLines_of_not_mem hfirst.1
    | some b =>
      have hb := splitLines_break hfirst b []
      rwa [List.append_nil] at hb
  | cons l ls ih =>
    have hrest : ∀ line ∈ l.2 :: ls.map Prod.snd, IsLine line :=
      fun line hl => h line (List.mem_cons_of_mem _ hl)
    rw [joined, splitLines_break (h first List.mem_cons_self), ih hrest]
    rfl

/-- What stands before a first line feed makes one line, whatever follows. -/
theorem exists_splitLines_append {first : Text} (h : '\n' ∉ first) :
    ∃ line, ∀ rest, splitLines (first ++ '\n' :: rest) = line :: splitLines rest := by
  induction first with
  | nil => exact ⟨[], fun rest => rfl⟩
  | cons c first ih =>
    have hc : c ≠ '\n' := fun hc => h (hc ▸ List.mem_cons_self)
    have hfirst : '\n' ∉ first := fun hn => h (List.mem_cons_of_mem _ hn)
    obtain ⟨line, hline⟩ := ih hfirst
    -- a carriage return just before the line feed goes with it
    by_cases hcr : c = '\r' ∧ first = []
    · obtain ⟨rfl, rfl⟩ := hcr
      exact ⟨[], fun rest => rfl⟩
    · refine ⟨c :: line, fun rest => splitLines_cons hc (fun hr hd => ?_) (hline rest)⟩
      cases first with
      | nil => exact hcr ⟨hr, rfl⟩
      | cons d first =>
        obtain rfl : d = '\n' := by simpa using hd
        exact hfirst List.mem_cons_self

/-! ## Without the empty line at the end -/

theorem lines_cons {t line rest : Text} (h : splitLines t = line :: splitLines rest) :
    lines t = line :: lines rest := by
  obtain ⟨first, others, hrest⟩ := List.exists_cons_of_ne_nil (splitLines_ne_nil rest)
  have hlast : (line :: splitLines rest).getLast? = (splitLines rest).getLast? := by
    rw [hrest, List.getLast?_cons_cons]
  have hinit : (line :: splitLines rest).dropLast = line :: (splitLines rest).dropLast := by
    rw [hrest, List.dropLast_cons_cons]
  simp only [lines, h, hlast, hinit]
  split <;> rfl

theorem lines_of_not_mem {line : Text} (h : '\n' ∉ line) :
    lines line = if line = [] then [] else [line] := by
  simp [lines, splitLines_of_not_mem h]

/-- **Lines are read back**, but for an empty one at the very end. -/
theorem lines_joined_of_last {first : Text} {ls : List (LineBreak × Text)}
    (h : ∀ line ∈ first :: ls.map Prod.snd, IsLine line) {ending : Option LineBreak}
    (hlast : ending = none → (first :: ls.map Prod.snd).getLast? ≠ some []) :
    lines (joined first ls ending) = first :: ls.map Prod.snd := by
  rw [lines, splitLines_joined h]
  generalize first :: ls.map Prod.snd = all at hlast
  cases ending with
  | some b => simp
  | none =>
    -- without a final break the last line is the last piece, and is dropped only if it is empty
    simp only [Option.isSome_none, Bool.false_eq_true, if_false, List.append_nil, if_neg (hlast rfl)]

theorem lines_joined {first : Text} {ls : List (LineBreak × Text)}
    (h : ∀ line ∈ first :: ls.map Prod.snd, IsLine line) (ending : Option LineBreak) :
    lines (joined first ls ending) = first :: ls.map Prod.snd ∨
      lines (joined first ls ending) ++ [[]] = first :: ls.map Prod.snd := by
  by_cases hlast : ending = none ∧ (first :: ls.map Prod.snd).getLast? = some []
  · obtain ⟨rfl, hlast⟩ := hlast
    right
    rw [lines, splitLines_joined h]
    simp only [Option.isSome_none, Bool.false_eq_true, if_false, List.append_nil, if_pos hlast]
    obtain ⟨init, hinit⟩ := List.getLast?_eq_some_iff.1 hlast
    rw [hinit, List.dropLast_concat]
  · exact .inl (lines_joined_of_last h fun hending hempty => hlast ⟨hending, hempty⟩)

theorem exists_lines_append {first : Text} (h : '\n' ∉ first) :
    ∃ line, ∀ rest, lines (first ++ '\n' :: rest) = line :: lines rest := by
  obtain ⟨line, hline⟩ := exists_splitLines_append h
  exact ⟨line, fun rest => lines_cons (hline rest)⟩

/-- **The first line does not count.** -/
theorem ofText_append {first : Text} (h : '\n' ∉ first) (rest : Text) :
    ofText (first ++ '\n' :: rest) = ofLines (lines rest) := by
  obtain ⟨line, hline⟩ := exists_lines_append h
  rw [ofText, hline rest, List.drop_one, List.tail_cons]

/-- The first of several lines does not depend on the last one. -/
theorem exists_head_lines (t : Text) : ∃ line, ∀ rest, ∃ more, lines (t ++ '\n' :: rest) = line :: more := by
  by_cases h : '\n' ∈ t
  · obtain ⟨first, others, rfl, hfirst⟩ := List.eq_append_cons_of_mem h
    obtain ⟨line, hline⟩ := exists_lines_append hfirst
    refine ⟨line, fun rest => ⟨lines (others ++ '\n' :: rest), ?_⟩⟩
    rw [List.append_assoc, List.cons_append, hline]
  · obtain ⟨line, hline⟩ := exists_lines_append h
    exact ⟨line, fun rest => ⟨lines rest, hline rest⟩⟩

theorem ofLines_cons (message : Text) (stack : List Text) :
    ofLines (message :: stack) =
      if staticMark <+: message then .static message
      else if runtimeMark <+: message then .runtime message stack
      else .unrecognized message := by
  simp only [ofLines, Text.isSome_after?_iff]

theorem eq_of_ofLines_eq_unrecognized {line message : Text} {stack : List Text}
    (h : ofLines (line :: stack) = .unrecognized message) : line = message := by
  rw [ofLines] at h
  split at h
  · cases h
  split at h
  · cases h
  · exact CompilerError.unrecognized.inj h

/-! ## An error as it is written -/

/-- **How an error is written does not count.**  With a first line before it and breaks of either kind
between its lines, and perhaps one at the end, an error is what its first line begins with, and a runtime
error has all further lines for its stack.  Nothing but a line feed ends a line, and only the carriage
return just before it goes with it. -/
theorem ofText_joined {banner message : Text} {b : LineBreak} {stack : List (LineBreak × Text)}
    {ending : Option LineBreak}
    (h : ∀ line ∈ banner :: message :: stack.map Prod.snd, IsLine line)
    (hlast : ending = none → (message :: stack.map Prod.snd).getLast? ≠ some []) :
    (staticMark <+: message →
      ofText (joined banner ((b, message) :: stack) ending) = .static message) ∧
    (runtimeMark <+: message →
      ofText (joined banner ((b, message) :: stack) ending) = .runtime message (stack.map Prod.snd)) ∧
    (¬ staticMark <+: message → ¬ runtimeMark <+: message →
      ofText (joined banner ((b, message) :: stack) ending) = .unrecognized message) := by
  have hlines : lines (joined banner ((b, message) :: stack) ending) =
      banner :: message :: stack.map Prod.snd :=
    lines_joined_of_last h fun hnone => by rw [List.map_cons, List.getLast?_cons_cons]; exact hlast hnone
  have hkind : ofText (joined banner ((b, message) :: stack) ending) =
      ofLines (message :: stack.map Prod.snd) := by rw [ofText, hlines, List.drop_one, List.tail_cons]
  rw [hkind, ofLines_cons]
  refine ⟨fun hstatic => if_pos hstatic, fun hruntime => ?_, fun hstatic hruntime => ?_⟩
  · -- no line begins with both marks, as they differ in their first characters
    have hstatic : ¬ staticMark <+: message := fun hstatic =>
      absurd (List.prefix_or_prefix_of_prefix hstatic hruntime) (by decide)
    rw [if_neg hstatic, if_pos hruntime]
  · rw [if_neg hstatic, if_neg hruntime]

/-- Marks in the first line, and other separators and carriage returns within lines, written in two ways. -/
theorem ofText_joined_separators :
    let banner := "Command failed: STATIC ERROR: a\r b".toList
    let message := "RUNTIME ERROR: a\u2028b\x0bc\u0085d\re".toList
    let lines := ["\tmain.jsonnet:1:1-5".toList, [], "\rRUNTIME ERROR: ".toList]
    let mixed := [(LineBreak.crlf, lines[0]), (.lf, lines[1]), (.crlf, lines[2])]
    let plain := lines.map fun line => (LineBreak.lf, line)
    (∀ line ∈ banner :: message :: lines, IsLine line) ∧ runtimeMark <+: message ∧
    ofText (joined banner ((.lf, message) :: mixed) none) = .runtime message lines ∧
    ofText (joined [] ((.crlf, message) :: plain) (some .crlf)) = .runtime message lines := by
  intro banner message lines mixed plain
  have hlines : ∀ line ∈ banner :: message :: lines, IsLine line := by decide
  have hplain : ∀ line ∈ [] :: message :: lines, IsLine line := by decide
  have hmark : runtimeMark <+: message := by decide
  have hbreak : some LineBreak.crlf = none → (message :: plain.map Prod.snd).getLast? ≠ some [] := nofun
  have hmixed : ofText (joined banner ((.lf, message) :: mixed) none) = .runtime message lines :=
    (ofText_joined hlines fun _ => by decide).2.1 hmark
  have hending : ofText (joined [] ((.crlf, message) :: plain) (some .crlf)) = .runtime message lines :=
    (ofText_joined hplain hbreak).2.1 hmark
  exact ⟨hlines, hmark, hmixed, hending⟩

end JsonnetLens.CompilerError
