import JsonnetLens.Session
import JsonnetLens.Proofs.Compiler.Shell
import JsonnetLens.Proofs.Diagnostic.Lines
import JsonnetLens.Proofs.Diagnostic.Report
import JsonnetLens.Proofs.Preview.Generate
import JsonnetLens.Proofs.Text.Cuts
/-!
# The banner of a failed compilation

A failed compilation is kept as a first line that names the command and then what the compiler
wrote, and a report drops the first line.  That is the banner as long as the command has no line
break; what stands after a break in the command is read as an error.
-/
namespace JsonnetLens

/-! ## Commands -/

theorem ShellWord.mem_quote {c : Char} (hc : c ≠ '\'' ∧ c ≠ '"') {word : Text} :
    c ∈ ShellWord.quote word ↔ c ∈ word := by
  unfold ShellWord.quote
  split
  · rename_i he
    obtain rfl : word = [] := by simpa using he
    simp [hc.1]
  split
  · rfl
  · simp only [List.cons_append, List.mem_cons, hc.1, false_or, List.mem_append, List.not_mem_nil,
      or_false, List.mem_flatMap]
    constructor
    · rintro ⟨d, hd, hmem⟩
      unfold ShellWord.quoteChar at hmem
      split at hmem
      · simp [hc.1, hc.2] at hmem
      · obtain rfl : c = d := by simpa using hmem
        exact hd
    · intro hmem
      refine ⟨c, hmem, ?_⟩
      rw [ShellWord.quoteChar, if_neg hc.1]
      exact List.mem_singleton_self c

/-- An argument with a line break in it. -/
def Json.HasLineBreak : Json → Prop
  | .string s => '\n' ∈ s.narrow
  | _ => False

namespace Command

theorem mem_word? {argument : Json} {word : Text} (h : word? argument = .ok word) :
    '\n' ∈ word ↔ argument.HasLineBreak := by
  unfold word? at h
  split at h
  · cases h
    exact ShellWord.mem_quote (by decide)
  · rename_i hstring
    have hword : '\n' ∉ word := by
      split at h
      · cases h
        decide
      · cases h
    have hbreak : ¬ argument.HasLineBreak := by
      unfold Json.HasLineBreak
      split
      · exact absurd rfl (hstring _)
      · exact id
    exact iff_of_false hword hbreak

/-- **A command has a line break when one of its arguments has one.** -/
theorem mem_shellLine {arguments : List Json} {line : Text} (h : shellLine arguments = .ok line) :
    '\n' ∈ line ↔ ∃ argument ∈ arguments, argument.HasLineBreak := by
  obtain ⟨words, hwords, hline⟩ := Attempt.exists_of_bind_eq_ok h
  obtain rfl := Except.ok.inj hline
  rw [Text.mem_join (by decide)]
  clear h hline
  induction arguments generalizing words with
  | nil =>
    cases hwords
    simp
  | cons argument arguments ih =>
    rw [List.mapM_cons] at hwords
    obtain ⟨word, hw, hwords⟩ := Attempt.exists_of_bind_eq_ok hwords
    obtain ⟨others, hothers, hwords⟩ := Attempt.exists_of_bind_eq_ok hwords
    obtain rfl := Except.ok.inj hwords
    simp only [List.mem_cons, exists_eq_or_imp, mem_word? hw, ih others hothers]

end Command

theorem Shell.mem_command {mode : Mode} {arguments : List Json} {directory : Text} {result : Result}
    {shell shell' : Shell}
    (h : (Shell.invoke mode arguments directory).perform shell = (.ok (.finished result), shell')) :
    '\n' ∈ result.command ↔
      ∃ argument ∈ shell.settings.executable mode :: arguments, argument.HasLineBreak := by
  obtain ⟨command, hline, houtcome, _⟩ := invoke_eq_ok h
  rw [command_of_conclude houtcome, Command.mem_shellLine hline]

/-! ## Reports -/

theorem Reporter.report_congr {σ : Type} [Sink σ] {text text' : Text}
    (h : CompilerError.ofText text = CompilerError.ofText text') (uri : Text)
    (directory : Option Text) :
    (report uri text directory : Attempt (Reporter σ) Batch) = report uri text' directory := by
  simp only [report, h]

namespace PreviewCache

/-- Whatever the compiler writes, a failed compilation with this command is read and reported as if
some other first line stood in the place of the banner. -/
def BannerDropped (command : Text) : Prop :=
  ∀ (result : Result) (directory : Text) (failure : Failure), result.command = command →
    entryOf result directory = .failed failure →
    CompilerError.ofText failure.error = CompilerError.ofText ('x' :: '\n' :: result.stderr) ∧
    ∀ (σ : Type) [Sink σ] (uri : Text) (base : Option Text),
      (Reporter.report uri failure.error base : Attempt (Reporter σ) Batch) =
        Reporter.report uri ('x' :: '\n' :: result.stderr) base

theorem newline_not_mem_banner {command : Text} (h : '\n' ∉ command) : '\n' ∉ banner command := by
  intro hmem
  rcases List.mem_append.1 hmem with hmem | hmem
  · exact absurd hmem (by decide)
  · exact h hmem

theorem ofText_other (rest : Text) :
    CompilerError.ofText ('x' :: '\n' :: rest) = CompilerError.ofLines (CompilerError.lines rest) := by
  have hx : '\n' ∉ ['x'] := by decide
  exact CompilerError.ofText_append hx rest

theorem bannerDropped_of_not_mem {command : Text} (h : '\n' ∉ command) : BannerDropped command := by
  rintro result directory failure rfl hf
  obtain rfl := eq_of_entryOf_eq_failed hf
  have htext : CompilerError.ofText (banner result.command ++ '\n' :: result.stderr) =
      CompilerError.ofText ('x' :: '\n' :: result.stderr) := by
    rw [CompilerError.ofText_append (newline_not_mem_banner h), ofText_other]
  exact ⟨htext, fun σ _ uri base => Reporter.report_congr htext uri base⟩

/-- The rest of a command with a line break is read before what the compiler wrote. -/
theorem ofText_of_break {result : Result} {directory : Text} {failure : Failure} {first rest : Text}
    (hc : result.command = first ++ '\n' :: rest) (hfirst : '\n' ∉ first)
    (hf : entryOf result directory = .failed failure) :
    CompilerError.ofText failure.error =
      CompilerError.ofText ('x' :: '\n' :: (rest ++ '\n' :: result.stderr)) := by
  obtain rfl := eq_of_entryOf_eq_failed hf
  have htext : banner result.command ++ '\n' :: result.stderr =
      banner first ++ '\n' :: (rest ++ '\n' :: result.stderr) := by
    rw [hc]
    unfold banner
    generalize "Command failed: ".toList = mark
    simp only [List.append_assoc, List.cons_append]
  rw [htext, CompilerError.ofText_append (newline_not_mem_banner hfirst), ofText_other]

/-- One of two short outputs shows that the banner is more than a line. -/
theorem not_bannerDropped_of_mem {command : Text} (h : '\n' ∈ command) : ¬ BannerDropped command := by
  intro hdropped
  obtain ⟨first, rest, rfl, hfirst⟩ := List.eq_append_cons_of_mem h
  obtain ⟨line, hline⟩ := CompilerError.exists_head_lines rest
  -- the line read first is the same for all outputs, so it cannot be each of two outputs
  have hread : ∀ stderr, '\n' ∉ stderr → stderr ≠ [] →
      CompilerError.ofLines [stderr] = .unrecognized stderr → line = stderr := by
    intro stderr hn hne hs
    let result : Result := { exitCode := 1, stderr, command := first ++ '\n' :: rest }
    have hcode : result.exitCode ≠ 0 := Int.one_ne_zero
    have hf := entryOf_of_ne_zero hcode []
    obtain ⟨more, hmore⟩ := hline stderr
    have htext := (ofText_of_break rfl hfirst hf).symm.trans (hdropped result [] _ rfl hf).1
    rw [ofText_other, ofText_other, hmore, CompilerError.lines_of_not_mem hn, if_neg hne, hs] at htext
    exact CompilerError.eq_of_ofLines_eq_unrecognized htext
  have ha := hread ['a'] (by decide) (by decide) (by decide)
  have hb := hread ['b'] (by decide) (by decide) (by decide)
  exact absurd (ha.symm.trans hb) (by decide)

/-- **The banner is what a report drops, just for commands without a line break.**  A break in the
command comes from an argument, and what follows it is read as an error. -/
theorem bannerDropped_iff (command : Text) :
    (BannerDropped command ↔ '\n' ∉ command) ∧
    (∀ (result : Result) (directory : Text) (failure : Failure) (first rest : Text),
      result.command = command → command = first ++ '\n' :: rest → '\n' ∉ first →
      entryOf result directory = .failed failure →
      CompilerError.ofText failure.error =
        CompilerError.ofText ('x' :: '\n' :: (rest ++ '\n' :: result.stderr))) ∧
    ∀ (mode : Mode) (arguments : List Json) (directory : Text) (result : Result)
      (shell shell' : Shell), result.command = command →
      (Shell.invoke mode arguments directory).perform shell = (.ok (.finished result), shell') →
      ('\n' ∈ command ↔
        ∃ argument ∈ shell.settings.executable mode :: arguments, argument.HasLineBreak) := by
  refine ⟨⟨fun hd hc => not_bannerDropped_of_mem hc hd, bannerDropped_of_not_mem⟩, ?_, ?_⟩
  · intro result directory failure first rest hresult hc hfirst hf
    exact ofText_of_break (hresult.trans hc) hfirst hf
  · rintro mode arguments directory result shell shell' rfl h
    exact Shell.mem_command h

theorem bannerDropped_bare : BannerDropped "jsonnet -J lib main.jsonnet".toList :=
  (bannerDropped_iff _).1.2 (by decide)

/-- A line break in a configured value: the second line of the command is taken for the error, and
the location that the compiler gives is lost. -/
theorem not_bannerDropped_extStr :
    let document : Document := ⟨"file:///w/a.jsonnet".toList, "/w/a.jsonnet".toList⟩
    let settings : Settings :=
      { extStrs := [(WideText.ofText ['v'], WideText.ofText "b\nc".toList)] }
    let stderr := "RUNTIME ERROR: boom\n\ta.jsonnet:1:2\tobject\n".toList
    let error := "Command failed: jsonnet --ext-str 'v=b\nc' /w/a.jsonnet\n".toList ++ stderr
    let shell : Shell := { settings, fates := [.runs 1 [] (Utf8.encode stderr)] }
    let s : Session Shell (WatchedCollection Text) := ⟨{ compiler := shell, settings }, ⟨{}, []⟩⟩
    let record : Record := ⟨"a.jsonnet".toList, ⟨⟨0, 1⟩, ⟨0, 2⟩⟩, "RUNTIME ERROR: boom".toList⟩
    let other := (Reporter.report document.uri ('x' :: '\n' :: stderr) (some "/w".toList)).perform s.reporter
    ∃ s', (Session.open {} document).perform s =
        (.ok (.rejected [] (Session.rejection document [])), s') ∧
      s'.cache.get? document = some (.failed ⟨error, some "/w".toList⟩) ∧
      CompilerError.ofText error ≠ CompilerError.ofText ('x' :: '\n' :: stderr) ∧
      s'.reporter.shown = [] ∧ other.2.shown = [(document.path, [record])] := by
  intro document settings stderr error shell s record other
  exact ⟨_, Attempt.perform_eq_ok (by decide +kernel), by decide +kernel, by decide +kernel,
    by decide +kernel, by decide +kernel⟩

end PreviewCache
end JsonnetLens
