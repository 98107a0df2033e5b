import Mathlib.Data.List.Perm.Basic
import Mathlib.Data.List.Nodup
import JsonnetLens.Proofs.Preview.Halves
/-!
# Previews that take turns

Several previews of one cache can be under way on one thread: each runs until it calls the compiler
and goes on in a later turn.  What carries the comparison with previews one after another is the cache
that is left when all that is waited for is settled (`drained`): starting a document is a whole preview
on it, and going on with one leaves it as it is, up to the order in which entries and notices came.
-/
namespace JsonnetLens

namespace PreviewCache

variable {ι : Type}

/-! ## Caches with the same content -/

/-- The same but for the order of the entries and of the notices. -/
structure Alike (a b : PreviewCache ι) : Prop where
  compiler : a.compiler = b.compiler
  settings : a.settings = b.settings
  watchers : a.watchers = b.watchers
  entries : ∀ uri, a.entries.get? uri = b.entries.get? uri
  notices : a.notices.Perm b.notices

namespace Alike

variable {a b c : PreviewCache ι}

theorem refl (a : PreviewCache ι) : a.Alike a := ⟨rfl, rfl, rfl, fun _ => rfl, .refl _⟩

theorem trans (h : a.Alike b) (h' : b.Alike c) : a.Alike c :=
  ⟨h.compiler.trans h'.compiler, h.settings.trans h'.settings, h.watchers.trans h'.watchers,
    fun uri => (h.entries uri).trans (h'.entries uri), h.notices.trans h'.notices⟩

end Alike

theorem get?_put_self (cache : PreviewCache ι) (compilation : Pending) :
    (cache.put compilation).entries.get? compilation.uri =
      compilation.entry.toOption.or (cache.entries.get? compilation.uri) := by
  rw [entries_put]
  rcases compilation.entry with fault | entry
  · rfl
  · exact Table.get?_insert_self _ _ _

namespace Alike

variable {a b : PreviewCache ι}

theorem put (h : a.Alike b) (compilation : Pending) :
    (a.put compilation).Alike (b.put compilation) := by
  refine ⟨?_, ?_, ?_, fun uri => ?_, ?_⟩
  · rw [compiler_put, compiler_put, h.compiler]
  · rw [settings_put, settings_put, h.settings]
  · rw [watchers_put, watchers_put, h.watchers]
  · by_cases hu : uri = compilation.uri
    · rw [hu, get?_put_self, get?_put_self, h.entries]
    · rw [get?_put_of_ne hu, get?_put_of_ne hu, h.entries]
  · rw [notices_put, notices_put, h.watchers]
    exact h.notices.append_right _

theorem put_comm (a : PreviewCache ι) {first second : Pending} (h : first.uri ≠ second.uri) :
    ((a.put first).put second).Alike ((a.put second).put first) := by
  refine ⟨?_, ?_, ?_, fun uri => ?_, ?_⟩
  · simp only [compiler_put]
  · simp only [settings_put]
  · simp only [watchers_put]
  · by_cases hfirst : uri = first.uri
    · rw [hfirst, get?_put_of_ne h, get?_put_self, get?_put_self, get?_put_of_ne h]
    · by_cases hsecond : uri = second.uri
      · rw [hsecond, get?_put_of_ne h.symm, get?_put_self, get?_put_self, get?_put_of_ne h.symm]
      · rw [get?_put_of_ne hsecond, get?_put_of_ne hfirst, get?_put_of_ne hfirst,
          get?_put_of_ne hsecond]
  · simp only [notices_put, watchers_put, List.append_assoc]
    exact List.perm_append_comm.append_left _

theorem putAll (h : a.Alike b) (compilations : List Pending) :
    (a.putAll compilations).Alike (b.putAll compilations) := by
  induction compilations generalizing a b with
  | nil => exact h
  | cons compilation compilations ih => exact ih (h.put compilation)

/-- Compilations of different documents may be settled in any order. -/
theorem putAll_perm {first second : List Pending} (hp : first.Perm second)
    (hd : (first.map Pending.uri).Nodup) (a : PreviewCache ι) :
    (a.putAll first).Alike (a.putAll second) := by
  induction hp generalizing a with
  | nil => exact refl a
  | cons compilation _ ih => exact ih (List.nodup_cons.1 hd).2 (a.put compilation)
  | swap first second rest =>
    have hne : second.uri ≠ first.uri := fun he =>
      (List.nodup_cons.1 hd).1 (he ▸ List.mem_cons_self)
    exact (put_comm a hne).putAll rest
  | trans hp _ ih ih' => exact (ih hd a).trans (ih' ((hp.map Pending.uri).nodup_iff.1 hd) a)

section
variable [Compiler ι]

theorem generate (h : a.Alike b) (tree : FileTree) (document : Document) :
    ((generate tree document).perform a).1 = ((generate tree document).perform b).1 ∧
    ((generate tree document).perform a).2.Alike ((generate tree document).perform b).2 := by
  have hget : a.get? document = b.get? document := h.entries document.uri
  have horder : order a.settings tree document a.compiler =
      order b.settings tree document b.compiler := by
    rw [h.settings, h.compiler]
  simp only [perform_generate, perform_start, hget, horder]
  rcases b.get? document with _ | entry
  · rcases order b.settings tree document b.compiler with ⟨fault | compilation, compiler⟩
    · exact ⟨rfl, rfl, h.settings, h.watchers, h.entries, h.notices⟩
    · refine ⟨rfl, putAll ?_ _⟩
      exact ⟨rfl, h.settings, h.watchers, h.entries, h.notices⟩
  · exact ⟨rfl, h⟩

end
end Alike

/-! ## Previews one after another -/

section
variable [Compiler ι]

/-- Generates the previews one after another, also after a failed one. -/
def generateAll (tree : FileTree) (documents : List Document) (cache : PreviewCache ι) :
    List (Except Fault Text) × PreviewCache ι :=
  (performAll (documents.map (generate tree))).run cache

theorem run_performAll_cons {σ α : Type} (x : Attempt σ α) (rest : List (Attempt σ α)) (s : σ) :
    (performAll (x :: rest)).run s =
      ((x.perform s).1 :: ((performAll rest).run (x.perform s).2).1,
        ((performAll rest).run (x.perform s).2).2) := rfl

@[simp] theorem generateAll_nil (tree : FileTree) (cache : PreviewCache ι) :
    generateAll tree [] cache = ([], cache) := rfl

theorem generateAll_cons (tree : FileTree) (document : Document) (rest : List Document)
    (cache : PreviewCache ι) :
    generateAll tree (document :: rest) cache =
      let (answer, cache) := (generate tree document).perform cache
      let (answers, cache) := generateAll tree rest cache
      (answer :: answers, cache) := rfl

theorem Alike.generateAll {a b : PreviewCache ι} (h : a.Alike b) (tree : FileTree)
    (documents : List Document) :
    (generateAll tree documents a).1 = (generateAll tree documents b).1 ∧
    (generateAll tree documents a).2.Alike (generateAll tree documents b).2 := by
  induction documents generalizing a b with
  | nil => exact ⟨rfl, h⟩
  | cons document documents ih =>
    obtain ⟨hanswer, hcache⟩ := h.generate tree document
    obtain ⟨hanswers, hlast⟩ := ih hcache
    simp only [generateAll_cons, hanswer, hanswers]
    exact ⟨trivial, hlast⟩

end
end PreviewCache

/-! ## Turns -/

theorem perm_eraseIdx {α : Type} {xs : List α} {position : Nat} {x : α}
    (h : xs[position]? = some x) : (x :: xs.eraseIdx position).Perm xs := by
  obtain ⟨hlt, rfl⟩ := List.getElem?_eq_some_iff.1 h
  exact List.getElem_cons_eraseIdx_perm hlt

/-- A cache and the compilations that its previews wait for.  What the previews that are over have
answered is written down by their documents. -/
structure PreviewLoop (ι : Type) where
  cache : PreviewCache ι
  waiting : List Pending := []
  answers : List (Text × Except Fault Text) := []

namespace PreviewLoop

inductive Turn where
  /-- A preview begins and runs until it waits. -/
  | starts (document : Document)
  /-- The preview whose compilation is at this position goes on. -/
  | resumes (position : Nat)

namespace Turn

def started? : Turn → Option Document
  | starts document => some document
  | resumes _ => none

/-- Whether no preview that waits longer is passed over. -/
def isInOrder : Turn → Bool
  | starts _ => true
  | resumes position => position = 0

end Turn

variable {ι : Type}

/-- The cache once all that is waited for is settled. -/
def drained (l : PreviewLoop ι) : PreviewCache ι := l.cache.putAll l.waiting

/-- All answers, given or to come. -/
def due (l : PreviewLoop ι) : List (Text × Except Fault Text) :=
  l.answers ++ l.waiting.map fun compilation => (compilation.uri, compilation.answer)

variable [Compiler ι]

def take (tree : FileTree) (l : PreviewLoop ι) : Turn → PreviewLoop ι
  | .starts document =>
    match (PreviewCache.start tree document).perform l.cache with
    | (.error fault, cache) =>
      { l with cache, answers := l.answers ++ [(document.uri, .error fault)] }
    | (.ok (.ready content), cache) =>
      { l with cache, answers := l.answers ++ [(document.uri, .ok content)] }
    | (.ok (.pending compilation), cache) =>
      { l with cache, waiting := l.waiting ++ [compilation] }
  | .resumes position =>
    match l.waiting[position]? with
    | none => l
    | some compilation =>
      let (answer, cache) := (PreviewCache.settle compilation).perform l.cache
      { cache
        waiting := l.waiting.eraseIdx position
        answers := l.answers ++ [(compilation.uri, answer)] }

def run (tree : FileTree) (turns : List Turn) (l : PreviewLoop ι) : PreviewLoop ι :=
  turns.foldl (take tree) l

/-! ## What a turn does -/

section
variable {document : Document} {l : PreviewLoop ι} (tree : FileTree)

/-- To begin a preview is to generate it on what is left in the end. -/
theorem drained_take_starts (h : document.uri ∉ l.waiting.map Pending.uri) :
    (l.take tree (.starts document)).drained =
      ((PreviewCache.generate tree document).perform l.drained).2 := by
  unfold drained
  rw [PreviewCache.perform_generate_putAll h, take]
  rcases (PreviewCache.start tree document).perform l.cache with
    ⟨fault | content | compilation, cache⟩
  · rfl
  · simp [Ticket.compilation?]
  · rfl

theorem due_take_starts (h : document.uri ∉ l.waiting.map Pending.uri) :
    (l.take tree (.starts document)).due.Perm
      (l.due ++ [(document.uri, ((PreviewCache.generate tree document).perform l.drained).1)]) := by
  have hpending : ∀ compilation cache, (PreviewCache.start tree document).perform l.cache =
      (.ok (.pending compilation), cache) → compilation.uri = document.uri :=
    fun _ _ => PreviewCache.uri_of_start
  unfold due drained
  rw [PreviewCache.perform_generate_putAll h, take]
  generalize (PreviewCache.start tree document).perform l.cache = answer at hpending ⊢
  obtain ⟨fault | content | compilation, cache⟩ := answer
  · simp only [List.append_assoc]
    exact List.perm_append_comm.append_left _
  · simp only [List.append_assoc]
    exact List.perm_append_comm.append_left _
  · simp [hpending _ _ rfl, Ticket.answer]

theorem waiting_take_starts (document : Document) (l : PreviewLoop ι) :
    ((l.take tree (.starts document)).waiting.map Pending.uri).Sublist
      (l.waiting.map Pending.uri ++ [document.uri]) := by
  have hpending : ∀ compilation cache, (PreviewCache.start tree document).perform l.cache =
      (.ok (.pending compilation), cache) → compilation.uri = document.uri :=
    fun _ _ => PreviewCache.uri_of_start
  rw [take]
  generalize (PreviewCache.start tree document).perform l.cache = answer at hpending ⊢
  obtain ⟨fault | content | compilation, cache⟩ := answer
  · exact List.sublist_append_left _ _
  · exact List.sublist_append_left _ _
  · simp [hpending _ _ rfl]

/-- To go on with a preview leaves what is left in the end, just as it is if the preview is the one
that waits longest. -/
theorem drained_take_resumes (h : (l.waiting.map Pending.uri).Nodup) (position : Nat) :
    (l.take tree (.resumes position)).drained.Alike l.drained ∧
      (position = 0 → (l.take tree (.resumes position)).drained = l.drained) := by
  rw [take]
  rcases hc : l.waiting[position]? with _ | compilation
  · exact ⟨.refl _, fun _ => rfl⟩
  · simp only [PreviewCache.perform_settle]
    have hperm := perm_eraseIdx hc
    refine ⟨?_, fun h0 => ?_⟩
    · have hnodup := (hperm.map Pending.uri).nodup_iff.2 h
      exact PreviewCache.Alike.putAll_perm hperm hnodup l.cache
    · subst h0
      obtain ⟨rest, hrest⟩ : ∃ rest, l.waiting = compilation :: rest := by
        rcases hw : l.waiting with _ | ⟨first, rest⟩
        · simp [hw] at hc
        · simp [hw] at hc
          exact ⟨rest, hc ▸ rfl⟩
      simp [drained, hrest]

theorem due_take_resumes (position : Nat) : (l.take tree (.resumes position)).due.Perm l.due := by
  rw [take]
  rcases hc : l.waiting[position]? with _ | compilation
  · exact .refl _
  · have hperm := perm_eraseIdx hc
    simp only [PreviewCache.perform_settle, due, List.append_assoc]
    exact (hperm.map fun compilation => (compilation.uri, compilation.answer)).append_left _

theorem waiting_take_resumes (position : Nat) (l : PreviewLoop ι) :
    (l.take tree (.resumes position)).waiting.Sublist l.waiting := by
  rw [take]
  split
  · exact .refl _
  · exact List.eraseIdx_sublist _ _

end

/-! ## Runs -/

/-- The documents for which a preview begins. -/
def started (turns : List Turn) : List Document := turns.filterMap Turn.started?

/-- No document is started twice, and none that is waited for. -/
def Distinct (l : PreviewLoop ι) (turns : List Turn) : Prop :=
  (l.waiting.map Pending.uri ++ (started turns).map Document.uri).Nodup

section
variable {turn : Turn} {turns : List Turn} {l : PreviewLoop ι} (tree : FileTree)

theorem Distinct.take (h : l.Distinct (turn :: turns)) :
    (l.take tree turn).Distinct turns := by
  cases turn with
  | starts document =>
    have hsub := (waiting_take_starts tree document l).append_right ((started turns).map Document.uri)
    refine h.sublist (hsub.trans ?_)
    simp [started, Turn.started?]
  | resumes position =>
    have hsub := (waiting_take_resumes tree position l).map Pending.uri
    exact h.sublist (hsub.append_right _)

omit [Compiler ι] in
theorem Distinct.not_mem {document : Document} (h : l.Distinct (.starts document :: turns)) :
    document.uri ∉ l.waiting.map Pending.uri := fun hmem =>
  (List.nodup_append.1 h).2.2 _ hmem _ List.mem_cons_self rfl

omit [Compiler ι] in
theorem Distinct.nodup_waiting (h : l.Distinct turns) : (l.waiting.map Pending.uri).Nodup :=
  (List.nodup_append.1 h).1

/-- A run comes to what the previews come to one after another. -/
theorem drained_run (h : l.Distinct turns) :
    let last := run tree turns l
    let sequential := PreviewCache.generateAll tree (started turns) l.drained
    last.drained.Alike sequential.2 ∧
    last.due.Perm (l.due ++ ((started turns).map Document.uri).zip sequential.1) ∧
    ((∀ turn ∈ turns, turn.isInOrder = true) → last.drained = sequential.2) := by
  induction turns generalizing l with
  | nil => exact ⟨.refl _, by simp [run, started], fun _ => rfl⟩
  | cons turn turns ih =>
    obtain ⟨hcache, hdue, hinOrder⟩ := ih (h.take tree)
    cases turn with
    | starts document =>
      have hgenerate := drained_take_starts tree h.not_mem
      rw [hgenerate] at hcache hdue hinOrder
      refine ⟨hcache, hdue.trans ?_, fun hturns => ?_⟩
      · refine ((due_take_starts tree h.not_mem).append_right _).trans ?_
        rw [List.append_assoc]
        exact .refl _
      · exact hinOrder fun turn hturn => hturns turn (List.mem_cons_of_mem _ hturn)
    | resumes position =>
      obtain ⟨halike, heq⟩ := drained_take_resumes tree h.nodup_waiting position
      obtain ⟨hanswers, hlast⟩ := halike.generateAll tree (started turns)
      refine ⟨hcache.trans hlast, ?_, fun hturns => ?_⟩
      · rw [hanswers] at hdue
        exact hdue.trans ((due_take_resumes tree position).append_right _)
      · have hfirst : position = 0 :=
          of_decide_eq_true (hturns (.resumes position) List.mem_cons_self)
        rw [heq hfirst] at hinOrder
        exact hinOrder fun turn hturn => hturns turn (List.mem_cons_of_mem _ hturn)

end
end PreviewLoop
end JsonnetLens
