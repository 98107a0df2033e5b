import JsonnetLens.CommandLine.Program
import JsonnetLens.Proofs.Diagnostic.Report
import JsonnetLens.Proofs.Uri.File
import JsonnetLens.Proofs.Workspace.Search
/-!
# Documents by their URIs and by their names

The URI of a document leads back to its path, whatever characters that holds, and a compiler that
names the document from its directory leads to the same path.  So the frames of a document are found
and published under the path that the document was opened by: `documentPath_ofPath?`.
-/
namespace JsonnetLens

namespace Path

theorem normalizePath_toText {p : Path} (h : p.IsRead) (hdots : dots ∉ p.segments) :
    normalizePath p.toText = p.toText := by
  rw [normalizePath, ofText_toText h, normal_of_not_mem hdots]

end Path

namespace FileTree

theorem normalizePath_absolute {tree : FileTree} {t : Text}
    (h : Path.SingleRoot (tree.absolute (Path.ofText t)).toText) :
    normalizePath (tree.absolute (Path.ofText t)).toText = (tree.absolute (Path.ofText t)).toText := by
  have hread := tree.isRead_absolute t
  refine Path.normalizePath_toText hread (Path.dots_not_mem_normal ?_)
  have hslashes := h.slashes_ofText
  rw [Path.ofText_toText hread] at hslashes
  change (tree.absolute (Path.ofText t)).slashes ≠ 0
  omega

end FileTree

namespace Reporter

theorem documentPath_written {path : Text} (hroot : Path.SingleRoot path)
    (hdrive : ¬ Path.HasDrive path) : documentPath (FileUri.written path) = .ok (normalizePath path) := by
  rw [documentPath, FileUri.normalPath?_written hroot hdrive]
  rfl

/-- **A document is found by its path and by what leads to it from the directory.** -/
theorem resolve_name {path name : Text} {base : Path} (hroot : Path.SingleRoot path)
    (hnormal : normalizePath path = path)
    (hname : name = path ∨
      ∃ below, (Path.ofText path).relativeTo? base = some below ∧ name = below.toText) :
    resolve base name = path := by
  have hplace : base ++ Path.ofText name = Path.ofText path := by
    rcases hname with rfl | ⟨below, hbelow, rfl⟩
    · exact Path.append_of_slashes base (by rw [hroot.slashes_ofText]; decide)
    · rw [Path.ofText_toText ((Path.isRead_ofText path).relativeTo? hbelow),
        Path.append_relativeTo? hbelow]
  rw [resolve, hplace]
  exact hnormal

/-- **A document is found in its directory by what follows the last slash of its path.** -/
theorem resolve_basename {front name : Text} (hroot : Path.SingleRoot (front ++ '/' :: name))
    (hnormal : normalizePath (front ++ '/' :: name) = front ++ '/' :: name) (hname : '/' ∉ name) :
    resolve (baseDirectory (front ++ '/' :: name) none) name = front ++ '/' :: name := by
  have hslashes := hroot.slashes_ofText
  generalize hpath : front ++ '/' :: name = path at *
  have htext : (Path.ofText path).normal.toText = path := hnormal
  have hsame : (Path.ofText path).normal = Path.ofText path := by
    rw [← Path.ofText_normalizePath, hnormal]
  rw [hsame] at htext
  have hlast : (path.splitOn '/').getLast? = some name := by
    rw [← hpath, List.splitOn_append_cons_self, List.splitOn_eq_singleton hname,
      List.getLast?_append]
    rfl
  have heq : (Path.ofText path).name = name := by
    have h := Path.getLast?_splitOn_toText (Path.isRead_ofText path) (by omega)
    rw [htext, hlast] at h
    exact (Option.some.inj h).symm
  have hplace := (Path.isRead_ofText path).parent_append_name
  rw [heq] at hplace
  rw [resolve, baseDirectory, hplace, hsame, htext]

/-- What a report of a stack trace shows: the frames of its document, under the document's path. -/
theorem shown_report_runtime {r r' : Reporter (WatchedCollection Text)}
    {uri text document message : Text} {stack : List Text} {directory : Option Text} {batch : Batch}
    (hd : documentPath uri = .ok document) (htext : CompilerError.ofText text = .runtime message stack)
    (h : (report uri text directory).perform r = (.ok batch, r')) :
    r'.shown =
      if documentRecords document (baseDirectory document directory) batch = [] then []
      else [(document, documentRecords document (baseDirectory document directory) batch)] := by
  obtain ⟨other, hother, _, rfl⟩ := report_eq_ok h
  obtain rfl := Except.ok.inj (hd.symm.trans hother)
  rw [shown_afterReport, htext, posting?]
  by_cases hr : documentRecords document (baseDirectory document directory) batch = [] <;> simp [hr]

/-- **The URI of a document leads back to its path**, whatever characters the path holds.  So a file
that the command line is given is known to the reporter by the path it was opened by: the last part
of that path, seen from its directory, is the document, and the frames of a stack trace that lie in
it are shown under that path and nowhere else. -/
theorem documentPath_ofPath? :
    (∀ path, Path.IsLocal path → normalizePath path = path →
      ∃ uri, FileUri.ofPath? path = .ok uri ∧ FileUri.normalPath? uri = .ok path) ∧
    ∀ (tree : FileTree) (given : Text), Path.IsLocal (tree.absolute (Path.ofText given)).toText →
      ∃ document, CommandLine.documentAt tree given = .ok document ∧
        document.path = (tree.absolute (Path.ofText given)).toText ∧
        documentPath document.uri = .ok document.path ∧
        (∀ front name, document.path = front ++ '/' :: name → '/' ∉ name →
          resolve (baseDirectory document.path none) name = document.path) ∧
        ∀ (r r' : Reporter (WatchedCollection Text)) (text message : Text) (stack : List Text)
          (directory : Option Text) (batch : Batch),
          CompilerError.ofText text = .runtime message stack →
          (report document.uri text directory).perform r = (.ok batch, r') →
          let records := documentRecords document.path (baseDirectory document.path directory) batch
          r'.shown = if records = [] then [] else [(document.path, records)] := by
  refine ⟨fun path hlocal hnormal => ?_, fun tree given hlocal => ?_⟩
  · refine ⟨_, FileUri.ofPath?_of_singleRoot hlocal.1, ?_⟩
    rw [FileUri.normalPath?_written hlocal.1 hlocal.2, hnormal]
  · have hnormal := FileTree.normalizePath_absolute hlocal.1
    have hdocument : CommandLine.documentAt tree given = .ok
        ⟨FileUri.written (tree.absolute (Path.ofText given)).toText,
          (tree.absolute (Path.ofText given)).toText⟩ := by
      simp only [CommandLine.documentAt, FileUri.ofPath?_of_singleRoot hlocal.1]
    have hpath := documentPath_written hlocal.1 hlocal.2
    rw [hnormal] at hpath
    refine ⟨_, hdocument, rfl, hpath, fun front name heq hname => ?_,
      fun r r' text message stack directory batch htext h => shown_report_runtime hpath htext h⟩
    dsimp only at heq ⊢
    rw [heq] at hlocal hnormal ⊢
    exact resolve_basename hlocal.1 hnormal hname

/-- A name with the delimiters of a URI, an escape and letters beyond ASCII: the path comes back, and
the name leads to it. -/
theorem documentPath_ofPath?_delimiters :
    let name := "ä;b?c#d%2F é:1.jsonnet".toList
    let path := "/work/".toList ++ name
    (∃ uri, FileUri.ofPath? path = .ok uri ∧ FileUri.normalPath? uri = .ok path) ∧
      ∃ document, CommandLine.documentAt {} ("x/../".toList ++ name) = .ok document ∧
        documentPath document.uri = .ok path ∧
        resolve (baseDirectory document.path none) name = path := by
  intro name path
  have hlocal : Path.IsLocal path := ⟨⟨_, rfl, by decide⟩, Path.not_hasDrive_of_third (by decide)⟩
  have hseen : ((({} : FileTree).absolute (Path.ofText ("x/../".toList ++ name))).toText) = path := by
    decide +kernel
  obtain ⟨huri, hdocument⟩ := documentPath_ofPath?
  refine ⟨huri path hlocal (by decide +kernel), ?_⟩
  obtain ⟨document, hat, hpath, huri, hname, _⟩ := hdocument {} _ (by rw [hseen]; exact hlocal)
  rw [hseen] at hpath
  rw [hpath] at huri
  refine ⟨document, hat, huri, ?_⟩
  rw [hname "/work".toList name hpath (by decide), hpath]

end Reporter
end JsonnetLens
