import JsonnetLens.EditorServer
import JsonnetLens.Proofs.Uri.File
/-!
# Preview URIs of files

The preview of a file carries the file's URI raw in its query, and reading the query resolves its
percent coding.  So a preview leads to the decoded URI of its file: the file's own one when coding
left the path alone, and one that the file is not known by otherwise.  Cut before its query it leads
to the file itself (`fileUri?_withoutQuery`), since there the path is decoded and coded again.
-/
namespace JsonnetLens.PreviewUri

open FileUri (written quotePath cutDrive lowerDrive)

/-- The preview URI of the file at a path. -/
def ofPath (path : Text) : Text :=
  scheme ++ "://".toList ++ (quotePath path ++ suffix ++ '?' :: written path)

theorem canonical?_written {path : Text} (h : Path.SingleRoot path) :
    canonical? (written path) = .ok (ofPath path) := by
  rw [canonical?, FileUri.split?_written h]
  simp [Except.map, ofPath]

theorem isInert_of_mem_head {path : Text} :
    ∀ c ∈ quotePath path ++ suffix, Uri.isInert c = true := by
  intro c hc
  rcases List.mem_append.1 hc with hc | hc
  · exact FileUri.isInert_of_mem_quotePath c hc
  · exact List.all_eq_true.1 (by decide : suffix.all Uri.isInert = true) c hc

theorem isInert_of_mem_written {path : Text} : ∀ c ∈ written path, Uri.isInert c = true := by
  intro c hc
  rcases List.mem_append.1 hc with hc | hc
  · exact List.all_eq_true.1 (by decide : (FileUri.scheme ++ "://".toList).all Uri.isInert = true) c hc
  · exact FileUri.isInert_of_mem_quotePath c hc

/-- **The parts of a preview URI**: the query is the URI of the file. -/
theorem split?_ofPath {path : Text} (h : Path.SingleRoot path) :
    Uri.split? (ofPath path) = .ok ⟨scheme, [], quotePath path ++ suffix, written path, []⟩ := by
  have hrest : ∀ c ∈ quotePath path ++ suffix ++ '?' :: written path,
      Uri.isIgnored c = false ∧ c ≠ '#' := by
    intro c hc
    simp only [List.mem_append, List.mem_cons] at hc
    rcases hc with hc | rfl | hc
    · have := Uri.isInert_iff.1 (isInert_of_mem_head c (List.mem_append.2 hc))
      exact ⟨this.1, this.2.1⟩
    · decide
    · have := Uri.isInert_iff.1 (isInert_of_mem_written c hc)
      exact ⟨this.1, this.2.1⟩
  refine Uri.split?_of_rooted (by decide) ?_ (fun c hc => (hrest c hc).1)
    (fun hc => (hrest _ hc).2 rfl) (Uri.cutAt_append (fun hc => ?_) _)
  · obtain ⟨rest, hq, _⟩ := FileUri.singleRoot_quotePath h
    rw [hq]
    rfl
  · exact (Uri.isInert_iff.1 (isInert_of_mem_head _ hc)).2.2 rfl

theorem isPreview?_ofPath {path : Text} (h : Path.SingleRoot path) :
    isPreview? (ofPath path) = .ok true := by
  rw [isPreview?, split?_ofPath h]
  rfl

theorem fileUri?_ofPath {path : Text} (h : Path.SingleRoot path) :
    fileUri? (ofPath path) = .ok (Percent.unquote (written path)) := by
  rw [fileUri?, split?_ofPath h]
  rfl

theorem sourceOf?_ofPath {path : Text} (h : Path.SingleRoot path) :
    sourceOf? (ofPath path) = fileUri? (ofPath path) := by
  rw [sourceOf?, isPreview?_ofPath h]

/-- Decoding leaves the URI of a file alone when there is nothing coded in it, and only then. -/
theorem unquote_written_eq_self_iff {path : Text} :
    Percent.unquote (written path) = written path ↔
      ∀ c ∈ (cutDrive path).2, Percent.isKept c = true := by
  rw [FileUri.unquote_written, written, List.append_cancel_left_eq, lowerDrive, FileUri.quotePath_eq,
    List.append_cancel_left_eq, eq_comm, Percent.quote_eq_self_iff]

theorem sourceOf?_written {path : Text} (h : Path.SingleRoot path) :
    sourceOf? (written path) = .ok (written path) := by
  have hpreview : isPreview? (written path) = .ok false := by
    rw [isPreview?, FileUri.split?_written h]
    rfl
  rw [sourceOf?, hpreview]

theorem preview_congr [Nesting] {uri other : Text} (h : sourceOf? uri = sourceOf? other) (tree : FileTree) :
    EditorServer.preview tree [uri] = EditorServer.preview tree [other] := by
  simp only [EditorServer.preview, h]

/-- **A preview URI leads to the decoded URI of its file**, which is the file's own URI just when
percent coding leaves the path, its drive letter apart, as it is.  Then the command shows the same
for the preview as for the file. -/
theorem sourceOf?_canonical [Nesting] {path : Text} (h : Path.SingleRoot path) :
    ∃ uri preview, FileUri.ofPath? path = .ok uri ∧ canonical? uri = .ok preview ∧
      isPreview? preview = .ok true ∧
      fileUri? preview = .ok (FileUri.scheme ++ "://".toList ++ lowerDrive path) ∧
      sourceOf? preview = fileUri? preview ∧
      (sourceOf? preview = .ok uri ↔ ∀ c ∈ (cutDrive path).2, Percent.isKept c = true) ∧
      (sourceOf? preview = .ok uri → ∀ tree,
        EditorServer.preview tree [preview] = EditorServer.preview tree [uri]) := by
  have hfile := fileUri?_ofPath h
  have hsource := sourceOf?_ofPath h
  refine ⟨written path, ofPath path, FileUri.ofPath?_of_singleRoot h, canonical?_written h,
    isPreview?_ofPath h, ?_, hsource, ?_, fun hs tree => ?_⟩
  · rw [hfile, FileUri.unquote_written]
  · rw [hsource, hfile, Except.ok.injEq, unquote_written_eq_self_iff]
  · exact preview_congr (hs.trans (sourceOf?_written h).symm) tree

/-- A path that needs no coding: the preview leads back to its file. -/
theorem sourceOf?_canonical_bare :
    ∃ uri preview, FileUri.ofPath? "/a/b.jsonnet".toList = .ok uri ∧ canonical? uri = .ok preview ∧
      sourceOf? preview = .ok uri := by
  let _ : Nesting := .usual
  have hroot : Path.SingleRoot "/a/b.jsonnet".toList := ⟨_, rfl, by decide⟩
  obtain ⟨uri, preview, hu, hp, _, _, _, hs, _⟩ := sourceOf?_canonical hroot
  have hkept : (cutDrive "/a/b.jsonnet".toList).2.all Percent.isKept = true := by decide
  exact ⟨uri, preview, hu, hp, hs.2 (List.all_eq_true.1 hkept)⟩

/-- A blank in the path: the preview leads to a URI that is not the one of its file. -/
theorem sourceOf?_canonical_blank :
    ¬ ∀ path, Path.SingleRoot path → ∃ uri preview, FileUri.ofPath? path = .ok uri ∧
      canonical? uri = .ok preview ∧ isPreview? preview = .ok true ∧
      sourceOf? preview = .ok uri ∧ fileUri? preview = .ok uri := by
  intro h
  have hroot : Path.SingleRoot "/my lib.jsonnet".toList := ⟨_, rfl, by decide⟩
  obtain ⟨uri, preview, hu, hp, _, hs, _⟩ := h _ hroot
  obtain rfl := Except.ok.inj ((FileUri.ofPath?_of_singleRoot hroot).symm.trans hu)
  obtain rfl := Except.ok.inj ((canonical?_written hroot).symm.trans hp)
  rw [sourceOf?_ofPath hroot, fileUri?_ofPath hroot, Except.ok.injEq,
    unquote_written_eq_self_iff] at hs
  exact absurd (hs ' ' (by decide)) (by decide)

/-! ## Without the query -/

/-- The preview URI of the file at a path, up to its query. -/
def beforeQuery (path : Text) : Text := scheme ++ "://".toList ++ (quotePath path ++ suffix)

theorem ofPath_eq (path : Text) : ofPath path = beforeQuery path ++ '?' :: written path := by
  simp [ofPath, beforeQuery]

theorem question_not_mem_beforeQuery (path : Text) : '?' ∉ beforeQuery path := by
  intro hmem
  rcases List.mem_append.1 hmem with hmem | hmem
  · exact absurd hmem (by decide)
  · exact (Uri.isInert_iff.1 (isInert_of_mem_head _ hmem)).2.2 rfl

theorem split?_beforeQuery {path : Text} (h : Path.SingleRoot path) :
    Uri.split? (beforeQuery path) = .ok ⟨scheme, [], quotePath path ++ suffix, [], []⟩ := by
  refine Uri.split?_of_path (by decide) ?_ isInert_of_mem_head
  obtain ⟨rest, hq, _⟩ := FileUri.singleRoot_quotePath h
  rw [hq]
  rfl

theorem isPreview?_beforeQuery {path : Text} (h : Path.SingleRoot path) :
    isPreview? (beforeQuery path) = .ok true := by
  rw [isPreview?, split?_beforeQuery h]
  rfl

/-- One suffix comes off, and the rest is the coded path, which is decoded and coded again. -/
theorem fileUri?_beforeQuery {path : Text} (h : Path.SingleRoot path) :
    fileUri? (beforeQuery path) = .ok (written path) := by
  simp only [fileUri?, split?_beforeQuery h, List.isEmpty_nil, if_true, Text.before?_append,
    Option.getD_some, FileUri.unquote_quotePath]
  rw [FileUri.ofPath?_of_singleRoot (FileUri.singleRoot_lowerDrive h), written,
    FileUri.quotePath_lowerDrive, written]

/-- **A preview URI without its query names its file**, whatever the path of the file holds.  So the
command shows the same for it as for the file. -/
theorem fileUri?_withoutQuery [Nesting] {path : Text} (h : Path.SingleRoot path) :
    ∃ uri preview bare, FileUri.ofPath? path = .ok uri ∧ canonical? uri = .ok preview ∧
      preview = bare ++ '?' :: uri ∧ '?' ∉ bare ∧
      isPreview? bare = .ok true ∧ fileUri? bare = .ok uri ∧ sourceOf? bare = .ok uri ∧
      ∀ tree, EditorServer.preview tree [bare] = EditorServer.preview tree [uri] := by
  have hsource : sourceOf? (beforeQuery path) = .ok (written path) := by
    rw [sourceOf?, isPreview?_beforeQuery h]
    exact fileUri?_beforeQuery h
  exact ⟨written path, ofPath path, beforeQuery path, FileUri.ofPath?_of_singleRoot h,
    canonical?_written h, ofPath_eq path, question_not_mem_beforeQuery path,
    isPreview?_beforeQuery h, fileUri?_beforeQuery h, hsource,
    preview_congr (hsource.trans (sourceOf?_written h).symm)⟩

/-- A path with delimiters, an escape, a letter beyond ASCII and the suffix of a preview. -/
theorem fileUri?_withoutQuery_suffix :
    let uri := "file:///a%2520b/%23%3F%3B%C3%A9.rendered".toList
    let bare := "ksonnet-preview:///a%2520b/%23%3F%3B%C3%A9.rendered.rendered".toList
    FileUri.ofPath? "/a%20b/#?;é.rendered".toList = .ok uri ∧
      canonical? uri = .ok (bare ++ '?' :: uri) ∧ fileUri? bare = .ok uri := by
  intro uri bare
  let _ : Nesting := .usual
  have hroot : Path.SingleRoot "/a%20b/#?;é.rendered".toList := ⟨_, rfl, by decide⟩
  have huri : FileUri.ofPath? "/a%20b/#?;é.rendered".toList = .ok uri := by
    rw [FileUri.ofPath?_of_singleRoot hroot]
    exact congrArg Except.ok (by decide +kernel)
  obtain ⟨uri', preview, bare', hu, hp, rfl, _, _, hfile, _⟩ := fileUri?_withoutQuery hroot
  obtain rfl := Except.ok.inj (huri.symm.trans hu)
  have hcanonical : canonical? uri = .ok (bare ++ '?' :: uri) := Attempt.eq_ok_of_toOption (by decide +kernel)
  obtain rfl : bare' = bare := by
    have hcut := Except.ok.inj (hcanonical.symm.trans hp)
    exact (List.append_cancel_right hcut).symm
  exact ⟨huri, hcanonical, hfile⟩

end JsonnetLens.PreviewUri
