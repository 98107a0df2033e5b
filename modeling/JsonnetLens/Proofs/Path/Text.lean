import JsonnetLens.Path.Basic
import JsonnetLens.Proofs.Text.Cuts
/-!
# Paths and their texts

A text is read as a path whose segments have a name and no slash, and such a path comes back from
its text (`ofText_toText`).  So a path is found again from a directory above it by what follows the
directory (`append_relativeTo?`).
-/
namespace JsonnetLens.Path

/-- What reading a text can give. -/
structure IsRead (p : Path) : Prop where
  slashes : p.slashes ≤ 2
  segments : ∀ s ∈ p.segments, '/' ∉ s ∧ isSegment s = true

/-- The text of an absolute path, with one slash in front. -/
def SingleRoot (t : Text) : Prop := ∃ rest, t = '/' :: rest ∧ rest.head? ≠ some '/'

/-- The text begins with a drive letter. -/
def HasDrive (t : Text) : Prop :=
  ∃ letter rest, t = '/' :: letter :: ':' :: rest ∧ letter.isAlpha = true

/-- An absolute path on this machine: no host and no drive in front. -/
def IsLocal (t : Text) : Prop := SingleRoot t ∧ ¬ HasDrive t

theorem not_hasDrive_of_third {t : Text} (h : t[2]? ≠ some ':') : ¬ HasDrive t := by
  rintro ⟨letter, rest, rfl, _⟩
  exact h rfl

theorem SingleRoot.head?_eq {t : Text} (h : SingleRoot t) : t.head? = some '/' := by
  obtain ⟨rest, rfl, _⟩ := h
  rfl

theorem SingleRoot.slashes_ofText {t : Text} (h : SingleRoot t) : (ofText t).slashes = 1 := by
  obtain ⟨rest, rfl, hrest⟩ := h
  rcases rest with _ | ⟨c, rest⟩
  · rfl
  · have hc : c ≠ '/' := by simpa using hrest
    simp [ofText, rootSlashes, hc]

/-! ## Segments -/

theorem splitOn_replicate_append (n : Nat) (t : Text) :
    (List.replicate n '/' ++ t).splitOn '/' = List.replicate n [] ++ t.splitOn '/' := by
  induction n with
  | zero => rfl
  | succ n ih =>
    rw [List.replicate_succ, List.cons_append, List.splitOn_cons_eq_if_modifyHead, ih]
    rfl

theorem head?_join {segments : List Text} (h : ∀ s ∈ segments, '/' ∉ s ∧ isSegment s = true) :
    (Text.join ['/'] segments).head? ≠ some '/' := by
  rcases segments with _ | ⟨s, rest⟩
  · simp [Text.join]
  obtain ⟨hs, hne⟩ := h s List.mem_cons_self
  rcases s with _ | ⟨c, s⟩
  · cases hne
  have hc : c ≠ '/' := fun hc => hs (hc ▸ List.mem_cons_self)
  rcases rest with _ | ⟨s', rest⟩
  · simpa [Text.join] using hc
  · simpa [Text.join] using hc

/-! ## Reading and writing -/

theorem rootSlashes_replicate_append {n : Nat} (hn : n ≤ 2) {t : Text} (ht : t.head? ≠ some '/') :
    rootSlashes (List.replicate n '/' ++ t) = n := by
  obtain rfl | rfl | rfl : n = 0 ∨ n = 1 ∨ n = 2 := by omega
  all_goals
    rcases t with _ | ⟨c, t⟩
    · rfl
    · have hc : c ≠ '/' := by simpa using ht
      simp [List.replicate, rootSlashes, hc]

theorem rootSlashes_le (t : Text) : rootSlashes t ≤ 2 := by
  unfold rootSlashes
  split <;> omega

theorem isRead_ofText (t : Text) : (ofText t).IsRead := by
  refine ⟨rootSlashes_le t, fun s hs => ?_⟩
  obtain ⟨hs, hseg⟩ := List.mem_filter.1 hs
  exact ⟨Text.not_mem_of_mem_splitOn hs, hseg⟩

/-- **A path comes back from its text.** -/
theorem ofText_toText {p : Path} (h : p.IsRead) : ofText p.toText = p := by
  obtain ⟨slashes, segments⟩ := p
  obtain ⟨hslashes, hsegments⟩ := h
  have hfilter : segments.filter isSegment = segments :=
    List.filter_eq_self.2 fun s hs => (hsegments s hs).2
  by_cases hempty : slashes = 0 ∧ segments = []
  · obtain ⟨rfl, rfl⟩ := hempty
    rfl
  · have hroot := rootSlashes_replicate_append hslashes (head?_join hsegments)
    have hnames : (List.replicate slashes []).filter isSegment = [] :=
      List.filter_eq_nil_iff.2 fun s hs => by
        rw [List.eq_of_mem_replicate hs]
        decide
    rw [toText, if_neg hempty, ofText, hroot, splitOn_replicate_append, List.filter_append, hnames,
      List.nil_append, Text.splitOn_join fun s hs => (hsegments s hs).1]
    split
    · rename_i hs
      subst hs
      rfl
    · rw [hfilter]

theorem IsRead.eq_of_toText_eq {p q : Path} (hp : p.IsRead) (hq : q.IsRead)
    (h : p.toText = q.toText) : p = q := by
  rw [← ofText_toText hp, h, ofText_toText hq]

theorem toText_ne_nil {p : Path} (h : p.slashes ≠ 0) : p.toText ≠ [] := by
  obtain ⟨slashes, segments⟩ := p
  cases slashes with
  | zero => exact absurd rfl h
  | succ n => simp [toText, List.replicate_succ]

/-! ## From a directory -/

theorem segmentsBelow?_eq_some_iff {base p rest : List Text} :
    segmentsBelow? base p = some rest ↔ p = base ++ rest := by
  fun_induction segmentsBelow? base p with
  | case1 p => simp
  | case2 => simp
  | case3 base s p ih => simp [ih]
  | case4 b base s p hne => simp [Ne.symm hne]

theorem relativeTo?_eq_some_iff {p base below : Path} :
    p.relativeTo? base = some below ↔
      p.slashes = base.slashes ∧ below.slashes = 0 ∧ p.segments = base.segments ++ below.segments := by
  obtain ⟨slashes, segments⟩ := below
  unfold relativeTo?
  split
  · rename_i hs
    simp only [Option.map_eq_some_iff, segmentsBelow?_eq_some_iff, mk.injEq, hs, true_and]
    constructor
    · rintro ⟨rest, hrest, rfl, rfl⟩
      exact ⟨rfl, hrest⟩
    · rintro ⟨rfl, hrest⟩
      exact ⟨segments, hrest, rfl, rfl⟩
  · rename_i hs
    simp [hs]

theorem relativeTo?_below (base : Path) (rest : List Text) :
    (⟨base.slashes, base.segments ++ rest⟩ : Path).relativeTo? base = some ⟨0, rest⟩ :=
  relativeTo?_eq_some_iff.2 ⟨rfl, rfl, rfl⟩

theorem relativeTo?_self (base : Path) : base.relativeTo? base = some ⟨0, []⟩ :=
  relativeTo?_eq_some_iff.2 ⟨rfl, rfl, (List.append_nil _).symm⟩

/-- A relative path goes on from where it is seen. -/
theorem append_of_relative (base : Path) {p : Path} (h : p.slashes = 0) :
    base ++ p = ⟨base.slashes, base.segments ++ p.segments⟩ := by
  change append base p = _
  rw [append, isAbsolute, if_neg (by simpa using h)]

/-- **A path is where what follows a directory leads from there.** -/
theorem append_relativeTo? {p base below : Path} (h : p.relativeTo? base = some below) :
    base ++ below = p := by
  obtain ⟨slashes, segments⟩ := p
  obtain ⟨rfl, hbelow, rfl⟩ := relativeTo?_eq_some_iff.1 h
  exact append_of_relative base hbelow

/-- An absolute path is the same from everywhere. -/
theorem append_of_slashes (base : Path) {p : Path} (h : p.slashes ≠ 0) : base ++ p = p := by
  change append base p = p
  rw [append, isAbsolute, if_pos (by simpa using h)]

theorem IsRead.relativeTo? {p base below : Path} (hp : p.IsRead) (h : p.relativeTo? base = some below) :
    below.IsRead := by
  obtain ⟨_, hbelow, hsegments⟩ := relativeTo?_eq_some_iff.1 h
  refine ⟨by omega, fun s hs => hp.segments s ?_⟩
  rw [hsegments]
  exact List.mem_append_right _ hs

end JsonnetLens.Path
