import JsonnetLens.Proofs.Preview.Generate
/-!
# The two halves of a preview, fault or not

`perform_start`, `perform_settle` and `perform_generate` say what a preview answers and what it leaves
behind in every case.  Settling reads nothing of the cache, and starting changes nothing but the
compiler; so the halves of different documents pass each other, and settling may be put off
(`perform_generate_putAll`).
-/
namespace JsonnetLens

/-! ## A compilation that is waited for -/

namespace Pending

/-- What will be stored. -/
def entry (compilation : Pending) : Except Fault Entry :=
  compilation.result.map fun result => PreviewCache.entryOf result compilation.directory

/-- What the preview will answer. -/
def answer (compilation : Pending) : Except Fault Text := compilation.entry.map Entry.content

end Pending

namespace Ticket

/-- What the preview answers in the end. -/
def answer : Ticket → Except Fault Text
  | ready content => .ok content
  | pending compilation => compilation.answer

/-- The compilation that has to be waited for. -/
def compilation? : Ticket → Option Pending
  | ready _ => none
  | pending compilation => some compilation

end Ticket

namespace PreviewCache

variable {ι : Type}

/-! ## Storing -/

theorem call_takeNotice (watchers : List Text) (e : Emitter Text) :
    Emitter.call takeNotice watchers e = (watchers, e) := by
  induction watchers with
  | nil => rfl
  | cons watcher watchers ih =>
    have hcall : ((takeNotice watcher).perform e).2 = e := rfl
    rw [Emitter.call, hcall, ih]

/-- Storing tells each subscription once. -/
theorem store_eq (uri : Text) (entry : Entry) (cache : PreviewCache ι) :
    store uri entry cache =
      { cache with
        entries := cache.entries.insert uri entry
        notices := cache.notices ++ cache.watchers.listeners.map fun watcher => (watcher, uri) } := by
  rw [store, Emitter.notify, call_takeNotice]

/-- The cache once the compilation is settled; one that is refused and has no command leaves it. -/
def put (cache : PreviewCache ι) (compilation : Pending) : PreviewCache ι :=
  match compilation.entry with
  | .ok entry => store compilation.uri entry cache
  | .error _ => cache

def putAll (cache : PreviewCache ι) (compilations : List Pending) : PreviewCache ι :=
  compilations.foldl put cache

theorem perform_settle (compilation : Pending) (cache : PreviewCache ι) :
    (settle compilation).perform cache = (compilation.answer, cache.put compilation) := by
  rw [settle, Attempt.perform_bind, Attempt.perform_lift, put, Pending.answer, Pending.entry]
  rcases compilation.result with fault | result <;> rfl

theorem perform_redeem (ticket : Ticket) (cache : PreviewCache ι) :
    (redeem ticket).perform cache =
      (ticket.answer, cache.putAll ticket.compilation?.toList) := by
  cases ticket with
  | ready content => rfl
  | pending compilation => exact perform_settle compilation cache

@[simp] theorem compiler_put (cache : PreviewCache ι) (compilation : Pending) :
    (cache.put compilation).compiler = cache.compiler := by
  unfold put
  split <;> rfl

@[simp] theorem settings_put (cache : PreviewCache ι) (compilation : Pending) :
    (cache.put compilation).settings = cache.settings := by
  unfold put
  split <;> rfl

@[simp] theorem watchers_put (cache : PreviewCache ι) (compilation : Pending) :
    (cache.put compilation).watchers = cache.watchers := by
  unfold put
  split
  · rw [store_eq]
  · rfl

theorem entries_put (cache : PreviewCache ι) (compilation : Pending) :
    (cache.put compilation).entries =
      match compilation.entry with
      | .ok entry => cache.entries.insert compilation.uri entry
      | .error _ => cache.entries := by
  unfold put
  split <;> rfl

theorem notices_put (cache : PreviewCache ι) (compilation : Pending) :
    (cache.put compilation).notices = cache.notices ++
      if compilation.answer.isOk then
        cache.watchers.listeners.map fun watcher => (watcher, compilation.uri)
      else [] := by
  unfold put Pending.answer
  rcases compilation.entry with fault | entry
  · exact (List.append_nil _).symm
  · dsimp only
    rw [store_eq]
    rfl

theorem get?_put_of_ne {uri : Text} {compilation : Pending} (h : uri ≠ compilation.uri)
    (cache : PreviewCache ι) : (cache.put compilation).entries.get? uri = cache.entries.get? uri := by
  rw [entries_put]
  split
  · exact Table.get?_insert_of_ne h _ _
  · rfl

/-- The compiler has no part in settling. -/
theorem put_compiler (cache : PreviewCache ι) (compilation : Pending) (compiler : ι) :
    { cache with compiler }.put compilation = { cache.put compilation with compiler } := by
  unfold put
  split <;> rfl

@[simp] theorem putAll_nil (cache : PreviewCache ι) : cache.putAll [] = cache := rfl

@[simp] theorem putAll_cons (cache : PreviewCache ι) (compilation : Pending) (rest : List Pending) :
    cache.putAll (compilation :: rest) = (cache.put compilation).putAll rest := rfl

theorem putAll_append (cache : PreviewCache ι) (first rest : List Pending) :
    cache.putAll (first ++ rest) = (cache.putAll first).putAll rest := List.foldl_append

theorem putAll_compiler (cache : PreviewCache ι) (compilations : List Pending) (compiler : ι) :
    { cache with compiler }.putAll compilations = { cache.putAll compilations with compiler } := by
  induction compilations generalizing cache with
  | nil => rfl
  | cons compilation compilations ih => rw [putAll_cons, putAll_cons, put_compiler, ih]

@[simp] theorem compiler_putAll (cache : PreviewCache ι) (compilations : List Pending) :
    (cache.putAll compilations).compiler = cache.compiler := by
  induction compilations generalizing cache with
  | nil => rfl
  | cons compilation compilations ih => rw [putAll_cons, ih, compiler_put]

@[simp] theorem settings_putAll (cache : PreviewCache ι) (compilations : List Pending) :
    (cache.putAll compilations).settings = cache.settings := by
  induction compilations generalizing cache with
  | nil => rfl
  | cons compilation compilations ih => rw [putAll_cons, ih, settings_put]

theorem get?_putAll_of_not_mem {uri : Text} {compilations : List Pending}
    (h : uri ∉ compilations.map Pending.uri) (cache : PreviewCache ι) :
    (cache.putAll compilations).entries.get? uri = cache.entries.get? uri := by
  induction compilations generalizing cache with
  | nil => rfl
  | cons compilation compilations ih =>
    rw [List.map_cons, List.mem_cons, not_or] at h
    rw [putAll_cons, ih h.2, get?_put_of_ne h.1]

section
variable [Compiler ι]

/-! ## Starting -/

/-- The compilation of a document that is not there, with the compiler afterwards. -/
def order (settings : Settings) (tree : FileTree) (document : Document) (compiler : ι) :
    Except Fault Pending × ι :=
  match plan settings tree document with
  | .error fault => (.error fault, compiler)
  | .ok (mode, arguments, directory) =>
    let (outcome, compiler) := (Compiler.invoke mode arguments directory).perform compiler
    (outcome.map fun outcome => { uri := document.uri, directory, arguments, outcome }, compiler)

theorem perform_start (tree : FileTree) (document : Document) (cache : PreviewCache ι) :
    (start tree document).perform cache =
      match cache.get? document with
      | some entry => (.ok (.ready entry.content), cache)
      | none =>
        let (ordered, compiler) := order cache.settings tree document cache.compiler
        (ordered.map .pending, { cache with compiler }) := by
  unfold start order
  rw [Attempt.perform_get_bind]
  rcases cache.get? document with _ | entry
  · simp only [Attempt.perform_bind, Attempt.perform_lift]
    rcases plan cache.settings tree document with fault | ⟨mode, arguments, directory⟩
    · rfl
    · simp only [callCompiler, Attempt.perform_onPart]
      rcases (Compiler.invoke mode arguments directory).perform cache.compiler with ⟨_ | _, _⟩ <;> rfl
  · rfl

theorem uri_of_start {tree : FileTree} {document : Document} {cache cache' : PreviewCache ι}
    {compilation : Pending}
    (h : (start tree document).perform cache = (.ok (.pending compilation), cache')) :
    compilation.uri = document.uri := by
  rcases start_eq_ok_iff.1 h with ⟨_, _, h, _⟩ | ⟨_, _, _, hcalls, h, _⟩
  · cases h
  · cases h
    exact hcalls.1

/-- A preview is its first half and then what its ticket leads to. -/
theorem perform_generate (tree : FileTree) (document : Document) (cache : PreviewCache ι) :
    (generate tree document).perform cache =
      match (start tree document).perform cache with
      | (.error fault, cache) => (.error fault, cache)
      | (.ok ticket, cache) => (ticket.answer, cache.putAll ticket.compilation?.toList) := by
  rw [generate, Attempt.perform_bind]
  rcases (start tree document).perform cache with ⟨fault | ticket, cache'⟩
  · rfl
  · exact perform_redeem ticket cache'

/-- **Settling may be put off.**  A preview with compilations of other documents settled answers what
it answers with them still waiting, and they may be settled behind it. -/
theorem perform_generate_putAll {document : Document} {waiting : List Pending}
    (h : document.uri ∉ waiting.map Pending.uri) (tree : FileTree) (cache : PreviewCache ι) :
    (generate tree document).perform (cache.putAll waiting) =
      match (start tree document).perform cache with
      | (.error fault, cache) => (.error fault, cache.putAll waiting)
      | (.ok ticket, cache) =>
        (ticket.answer, cache.putAll (waiting ++ ticket.compilation?.toList)) := by
  have hget : (cache.putAll waiting).get? document = cache.get? document :=
    get?_putAll_of_not_mem h cache
  have horder : order (cache.putAll waiting).settings tree document (cache.putAll waiting).compiler =
      order cache.settings tree document cache.compiler := by
    rw [settings_putAll, compiler_putAll]
  simp only [perform_generate, perform_start, hget, horder]
  rcases cache.get? document with _ | entry
  · rcases order cache.settings tree document cache.compiler with ⟨fault | compilation, compiler⟩
    · simp only [Except.map, putAll_compiler]
    · simp only [Except.map, putAll_append, putAll_compiler]
  · simp [Ticket.compilation?]

end
end PreviewCache

/-! ## Compilers that are listened to -/

/-- A call of the compiler and what it came to. -/
structure Exchange where
  call : Call
  answer : Except Fault Outcome

/-- A compiler whose calls are written down in order. -/
structure Logged (ι : Type) where
  compiler : ι
  exchanges : List Exchange := []

namespace Logged

variable {ι : Type}

def calls (l : Logged ι) : List Call := l.exchanges.map Exchange.call

instance [Compiler ι] : Compiler (Logged ι) where
  invoke mode arguments directory := ExceptT.mk fun l =>
    let (answer, compiler) := (Compiler.invoke mode arguments directory).perform l.compiler
    (answer, ⟨compiler, l.exchanges ++ [⟨⟨mode, arguments, directory⟩, answer⟩]⟩)

theorem perform_invoke [Compiler ι] (mode : Mode) (arguments : List Json) (directory : Text)
    (l : Logged ι) : (Compiler.invoke mode arguments directory).perform l =
      let (answer, compiler) := (Compiler.invoke mode arguments directory).perform l.compiler
      (answer, ⟨compiler, l.exchanges ++ [⟨⟨mode, arguments, directory⟩, answer⟩]⟩) := rfl

end Logged

namespace PreviewCache

variable {ι : Type} [Compiler ι]

/-- The call that compiles a document, unless it cannot be planned. -/
def call? (settings : Settings) (tree : FileTree) (document : Document) : Option Call :=
  match plan settings tree document with
  | .error _ => none
  | .ok (mode, arguments, directory) => some ⟨mode, arguments, directory⟩

theorem calls_order (settings : Settings) (tree : FileTree) (document : Document)
    (compiler : Logged ι) : (order settings tree document compiler).2.calls =
      compiler.calls ++ (call? settings tree document).toList := by
  unfold order call?
  rcases plan settings tree document with fault | ⟨mode, arguments, directory⟩
  · exact (List.append_nil _).symm
  · exact List.map_append

end PreviewCache
end JsonnetLens
