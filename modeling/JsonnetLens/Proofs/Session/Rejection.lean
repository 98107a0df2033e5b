import JsonnetLens.Proofs.Diagnostic.Document
import JsonnetLens.Proofs.Diagnostic.Trace
import JsonnetLens.Proofs.Preview.Banner
import JsonnetLens.Proofs.Session.Run
/-!
# What is shown of a rejected document

A document that the compiler fails on with a stack trace is rejected, and then its frames in the
trace are shown under its path and nothing else is, whatever was shown before.  The document is
known by its URI, the compiler names it by its path or from the directory it runs in, and the
reporter takes both to the same path.
-/
namespace JsonnetLens

namespace Session

variable {ι : Type} [Compiler ι]

/-- The directory of a compilation counts as the one that file names start from. -/
theorem baseDirectory_of_compiles {tree : FileTree} {document : Document} {cache : PreviewCache ι}
    {result : Result} {directory : Text} {compiler : ι}
    (h : PreviewCache.Compiles tree document cache result directory compiler)
    (hroot : Path.SingleRoot document.path) (place : Text) :
    Reporter.baseDirectory place (some directory) = Path.ofText directory := by
  obtain ⟨compilation, ⟨_, mode, hplan, _⟩, rfl, _⟩ := h
  have hslashes : (Path.ofText document.path).slashes ≠ 0 := by
    rw [hroot.slashes_ofText]
    decide
  obtain ⟨d, hd, hdirectory⟩ := PreviewCache.directoryOf_eq_toText hslashes cache.settings tree
  rw [PreviewCache.directory_of_plan hplan, hdirectory]
  have hne : d.toText.isEmpty = false := by simpa using Path.toText_ne_nil hd
  simp [Reporter.baseDirectory, hne]

/-- **No located frame of a rejected document is lost.**  When the compiler fails with a stack trace,
saving the document, or opening it for the first time, rejects it and shows just the frames in it. -/
theorem shown_rejected {path uri : Text} (hroot : Path.SingleRoot path)
    (hdrive : ¬ Path.HasDrive path) (hnormal : normalizePath path = path)
    (huri : FileUri.ofPath? path = .ok uri) {tree : FileTree}
    {s : Session ι (WatchedCollection Text)} {result : Result} {directory : Text} {compiler : ι}
    (hcompiles : PreviewCache.Compiles tree ⟨uri, path⟩ s.cache result directory compiler)
    (hcode : result.exitCode ≠ 0) (hcommand : '\n' ∉ result.command) {t : StackTrace}
    (hstderr : result.stderr = t.text) (hfits : t.Fits path (Path.ofText directory))
    (hname : t.name = path ∨ ∃ below,
      (Path.ofText path).relativeTo? (Path.ofText directory) = some below ∧ t.name = below.toText) :
    (∃ batch s', (save tree ⟨uri, path⟩).perform s =
        (.ok (.rejected batch (rejection ⟨uri, path⟩ batch)), s') ∧
      s'.reporter.shown = if t.records = [] then [] else [(path, t.records)]) ∧
    (s.cache.get? ⟨uri, path⟩ = none →
      ∃ batch s', (Session.open tree ⟨uri, path⟩).perform s =
          (.ok (.rejected batch (rejection ⟨uri, path⟩ batch)), s') ∧
        s'.reporter.shown = if t.records = [] then [] else [(path, t.records)]) := by
  obtain rfl := Except.ok.inj ((FileUri.ofPath?_of_singleRoot hroot).symm.trans huri)
  have hdocument : Reporter.documentPath (FileUri.written path) = .ok path := by
    rw [Reporter.documentPath_written hroot hdrive, hnormal]
  obtain ⟨batch, reporter, hreport, hshown⟩ :=
    report_trace (r := s.reporter) hfits (Reporter.resolve_name hroot hnormal hname) hdocument
      (baseDirectory_of_compiles hcompiles hroot path) (PreviewCache.newline_not_mem_banner hcommand)
  rw [← hstderr] at hreport
  obtain ⟨saved, hsave⟩ := save_of_failed hcompiles hcode hreport
  refine ⟨⟨batch, ⟨saved, reporter⟩, hsave, hshown⟩, fun hn => ?_⟩
  obtain ⟨opened, hopen⟩ := open_of_failed hn hcompiles hcode hreport
  exact ⟨batch, ⟨opened, reporter⟩, hopen, hshown⟩

/-- A trace through a library: the frame in the document is shown, the one in the library is not. -/
theorem shown_rejected_library :
    let document : Document := ⟨"file:///w/a.jsonnet".toList, "/w/a.jsonnet".toList⟩
    let stderr := ("RUNTIME ERROR: boom\r\n\tlib:3:4\tf\n" ++
      "\ta.jsonnet:(1:2)-(3:4)\tobject\n\tDuring manifestation\n").toList
    let script : Script := { answers := [.finished { exitCode := 1, stderr }] }
    let s : Session Script (WatchedCollection Text) := ⟨{ compiler := script }, ⟨{}, []⟩⟩
    let record : Record := ⟨"a.jsonnet".toList, ⟨⟨0, 1⟩, ⟨2, 4⟩⟩, "RUNTIME ERROR: boom".toList⟩
    ∃ batch s', (save {} document).perform s = (.ok (.rejected batch (rejection document batch)), s') ∧
      s'.reporter.shown = [(document.path, [record])] := by
  intro document stderr script s record
  let location := RangeText.parenthesized ['1'] ['2'] ['3'] ['4']
  let t : StackTrace :=
    ⟨"boom".toList, "a.jsonnet".toList, [(.crlf, .other "\tlib:3:4\tf".toList),
      (.lf, .frame location "object".toList), (.lf, .other "\tDuring manifestation".toList)], some .lf⟩
  have hplace : Application.root? {} document.path ({} : Settings).marker = none := by decide +kernel
  have hplan : PreviewCache.plan {} {} document = .ok (.standalone,
      ({} : Settings).standaloneArguments document.path, (Path.ofText document.path).parent.toText) := by
    rw [PreviewCache.plan, hplace]
  have hcompiles : PreviewCache.Compiles {} document s.cache { exitCode := 1, stderr } _ _ :=
    ⟨⟨document.uri, _, _, _⟩, ⟨rfl, .standalone, hplan, rfl⟩, rfl, rfl⟩
  have hfits : t.Fits document.path (Path.ofText (Path.ofText document.path).parent.toText) := by
    refine ⟨by decide, by decide +kernel, by decide +kernel, ?_⟩
    have hlib : CompilerError.frameRecord? t.headline "\tlib:3:4\tf".toList =
        .ok (some ⟨"lib".toList, ⟨⟨2, 3⟩, ⟨2, 4⟩⟩, t.headline⟩) :=
      Attempt.eq_ok_of_toOption (by decide +kernel)
    have hremark : CompilerError.frameRecord? t.headline "\tDuring manifestation".toList = .ok none :=
      Attempt.eq_ok_of_toOption (by decide +kernel)
    have hspan : location.Denotes ⟨⟨1, 2⟩, ⟨3, 4⟩⟩ :=
      ⟨by decide +kernel, Attempt.eq_ok_of_toOption (by decide +kernel), by decide⟩
    intro line hline
    simp only [t, List.mem_cons, List.not_mem_nil, or_false] at hline
    rcases hline with rfl | rfl | rfl
    · exact .inr ⟨_, hlib, by decide +kernel⟩
    · exact ⟨_, ⟨⟨0, 1⟩, ⟨2, 4⟩⟩, hspan, Attempt.eq_ok_of_toOption (by decide +kernel)⟩
    · exact .inl hremark
  have hroot : Path.SingleRoot document.path := ⟨_, rfl, by decide⟩
  have hdrive : ¬ Path.HasDrive document.path := by
    rintro ⟨letter, rest, h, _⟩
    have hthird : document.path[2]? = some '/' := by decide
    rw [h] at hthird
    cases hthird
  have hbelow : (Path.ofText document.path).relativeTo?
      (Path.ofText (Path.ofText document.path).parent.toText) = some ⟨0, [t.name]⟩ := by decide +kernel
  have hrecords : t.records = [record] := by decide +kernel
  obtain ⟨batch, s', hsave, hshown⟩ := (shown_rejected hroot hdrive (by decide +kernel)
    (Attempt.eq_ok_of_toOption (by decide +kernel)) hcompiles (by decide) (by decide)
    (t := t) (by decide +kernel) hfits (.inr ⟨_, hbelow, by decide +kernel⟩)).1
  rw [hrecords] at hshown
  exact ⟨batch, s', hsave, hshown⟩

end Session
end JsonnetLens
