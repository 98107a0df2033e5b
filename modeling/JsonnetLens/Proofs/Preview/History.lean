import Mathlib.Data.List.Count
import JsonnetLens.Proofs.Preview.Halves
/-!
# What a cache serves, by its history

The steps taken on one cache are written down with their answers and with the calls that they made.
What the cache holds, answers, calls and tells is read off that history: for a document the latest
compilation since it was dropped counts, and there is a call just where there is none.
`tracks_next` is the step; `Run.serves_latest` is the law for every run.
-/
namespace JsonnetLens

/-- What a cache keeps of a call. -/
def Exchange.entry? (exchange : Exchange) : Option Entry :=
  match exchange.answer with
  | .error _ => none
  | .ok (.finished result) =>
    if result.exitCode = 0 then some (.output result.stdout)
    else some <| .failed
      ⟨"Command failed: ".toList ++ result.command ++ '\n' :: result.stderr,
        some exchange.call.directory⟩
  | .ok (.refused reason) =>
    (Command.plainLine exchange.call.arguments).toOption.map fun command => .failed
      ⟨"Command failed: ".toList ++ command ++ '\n' :: reason, some exchange.call.directory⟩

/-- A call with what the compiler answers to it in this state. -/
def Call.exchange {ι : Type} [Compiler ι] (call : Call) (compiler : ι) : Exchange :=
  ⟨call, ((Compiler.invoke call.mode call.arguments call.directory).perform compiler).1⟩

namespace PreviewCache

/-! ## Histories -/

/-- What can be asked of a cache. -/
inductive Step where
  | generate (tree : FileTree) (document : Document)
  | get (document : Document)
  | delete (document : Document)
  | close
  | watch (watcher : Text)

inductive Answer where
  | content (text : Text)
  | entry (entry : Option Entry)
  | done
  deriving DecidableEq, Repr

/-- A step with its answer and the calls of the compiler that it made. -/
structure Deed where
  step : Step
  answer : Answer
  exchanges : List Exchange

namespace Step

/-- Whether a step asks for the preview of a document with this URI. -/
def previews (uri : Text) : Step → Bool
  | generate _ document => document.uri = uri
  | _ => false

/-- Whether a step drops what there is of a document with this URI. -/
def drops (uri : Text) : Step → Bool
  | delete document => document.uri = uri
  | close => true
  | _ => false

def isClose : Step → Bool
  | close => true
  | _ => false

def watcher? : Step → Option Text
  | watch watcher => some watcher
  | _ => none

end Step

/-- The URIs for which a step called the compiler, once for each call. -/
def Deed.compiled (deed : Deed) : List Text :=
  match deed.step with
  | .generate _ document => deed.exchanges.map fun _ => document.uri
  | _ => []

/-! Histories have the latest deed first. -/

/-- Whether the last step that previews or drops the document is a preview. -/
def kept (uri : Text) (history : List Deed) : Bool :=
  (history.find? fun deed => deed.step.previews uri || deed.step.drops uri).any
    fun deed => deed.step.previews uri

/-- The most recent call for the document since it was dropped. -/
def latest? (uri : Text) (history : List Deed) : Option Exchange :=
  (history.takeWhile fun deed => !deed.step.drops uri).findSome? fun deed =>
    if deed.step.previews uri then deed.exchanges.getLast? else none

/-- The subscriptions since the cache was closed, in order. -/
def subscribers (history : List Deed) : List Text :=
  ((history.takeWhile fun deed => !deed.step.isClose).filterMap fun deed => deed.step.watcher?).reverse

/-- For each call in order a notice to each subscription. -/
def told : List Deed → List (Text × Text)
  | [] => []
  | deed :: earlier =>
    told earlier ++ deed.compiled.flatMap fun uri =>
      (subscribers earlier).map fun watcher => (watcher, uri)

/-- How often a watcher is told of the document in the course of these deeds, the first one first: each
of its subscriptions counts the calls made since, until the cache is closed. -/
def heard (watcher uri : Text) : List Deed → Nat
  | [] => 0
  | deed :: later =>
    (if deed.step.watcher? = some watcher then
      ((later.takeWhile fun deed => !deed.step.isClose).flatMap Deed.compiled).count uri
    else 0) + heard watcher uri later

variable {ι : Type}

/-- What a deed comes to after earlier ones. -/
def Deed.Follows (settings : Settings) (earlier : List Deed) (deed : Deed) : Prop :=
  match deed.step with
  | .generate tree document =>
    (kept document.uri earlier = true → deed.exchanges = []) ∧
    (kept document.uri earlier = false → ∃ exchange, deed.exchanges = [exchange] ∧
      call? settings tree document = some exchange.call) ∧
    ∃ entry, (latest? document.uri (deed :: earlier)).bind Exchange.entry? = some entry ∧
      deed.answer = .content entry.content
  | .get document => deed.exchanges = [] ∧
    deed.answer = .entry ((latest? document.uri earlier).bind Exchange.entry?)
  | _ => deed.exchanges = [] ∧ deed.answer = .done

section
variable [Compiler ι]

def Step.handle : Step → Attempt (PreviewCache ι) Answer
  | .generate tree document => return .content (← PreviewCache.generate tree document)
  | .get document => return .entry ((← MonadState.get).get? document)
  | .delete document => do
    modify (PreviewCache.delete document)
    return .done
  | .close => do
    modify PreviewCache.close
    return .done
  | .watch watcher => do
    modify (PreviewCache.watch watcher)
    return .done

/-- The calls that lie between two states of a cache. -/
def made (before after : PreviewCache (Logged ι)) : List Exchange :=
  after.compiler.exchanges.drop before.compiler.exchanges.length

/-- The deeds so far, the latest first, and the cache after them. -/
inductive Run (first : PreviewCache (Logged ι)) : List Deed → PreviewCache (Logged ι) → Prop
  | start : Run first [] first
  | next {history : List Deed} {cache after : PreviewCache (Logged ι)} (step : Step)
    (answer : Answer) : Run first history cache → step.handle.perform cache = (.ok answer, after) →
      Run first (⟨step, answer, made cache after⟩ :: history) after

/-- A cache that nothing has been asked of. -/
def fresh (compiler : ι) (settings : Settings) : PreviewCache (Logged ι) :=
  { compiler := ⟨compiler, []⟩, settings }

/-! ## What each step does -/

omit [Compiler ι] in
/-- What is kept of a call is what its compilation stores. -/
theorem entry?_eq_toOption (compilation : Pending) (mode : Mode) :
    Exchange.entry? ⟨⟨mode, compilation.arguments, compilation.directory⟩, .ok compilation.outcome⟩ =
      compilation.entry.toOption := by
  obtain ⟨uri, directory, arguments, result | reason⟩ := compilation
  · rw [Exchange.entry?]
    dsimp only
    split
    · next hzero => exact (congrArg some (if_pos hzero)).symm
    · next hzero => exact (congrArg some (if_neg hzero)).symm
  · rw [Exchange.entry?, Pending.entry, Pending.result]
    dsimp only
    rcases Command.plainLine arguments with fault | command <;> rfl

/-- A preview with a logged compiler finds an entry, or makes one call and stores what it came to. -/
theorem generate_logged_cases {tree : FileTree} {document : Document}
    {cache after : PreviewCache (Logged ι)} {content : Text}
    (h : (PreviewCache.generate tree document).perform cache = (.ok content, after)) :
    (∃ entry, cache.get? document = some entry ∧ content = entry.content ∧ after = cache) ∨
    (cache.get? document = none ∧ ∃ exchange entry compiler,
      call? cache.settings tree document = some exchange.call ∧ exchange.entry? = some entry ∧
      content = entry.content ∧
      after = PreviewCache.store document.uri entry
        { cache with compiler := ⟨compiler, cache.compiler.exchanges ++ [exchange]⟩ }) := by
  rcases generate_eq_ok_iff.1 h with h | ⟨hget, result, directory, compiler, hcompiles, hcontent, rfl⟩
  · exact .inl h
  · obtain ⟨⟨uri, directory, arguments, outcome⟩, ⟨_, mode, hplan, hinvoke⟩, rfl, hresult⟩ := hcompiles
    rw [Logged.perform_invoke] at hinvoke
    rcases hinner : (Compiler.invoke mode arguments directory).perform cache.compiler.compiler with
      ⟨answer, inner⟩
    rw [hinner] at hinvoke
    cases hinvoke
    have hentry := entry?_eq_toOption ⟨uri, directory, arguments, outcome⟩ mode
    rw [Pending.entry, hresult] at hentry
    refine .inr ⟨hget, ⟨⟨mode, arguments, directory⟩, .ok outcome⟩, _, inner, ?_, hentry,
      hcontent, rfl⟩
    rw [call?, hplan]

end

/-! ## The account -/

/-- What a cache has to do with its history. -/
structure Tracks (settings : Settings) (history : List Deed) (cache : PreviewCache (Logged ι)) :
    Prop where
  settings : cache.settings = settings
  served : ∀ uri, cache.entries.get? uri = (latest? uri history).bind Exchange.entry?
  kept : ∀ uri, (cache.entries.get? uri).isSome = kept uri history
  nodup : cache.entries.keys.Nodup
  watchers : cache.watchers.listeners = subscribers history
  notices : cache.notices = told history

section
variable {uri : Text} {deed : Deed} {earlier : List Deed}

theorem kept_cons : kept uri (deed :: earlier) =
    (deed.step.previews uri || (!deed.step.drops uri && kept uri earlier)) := by
  unfold kept
  rw [List.find?_cons]
  by_cases hp : deed.step.previews uri = true
  · simp [hp]
  · by_cases hd : deed.step.drops uri = true
    · simp [hp, hd]
    · simp [hp, hd]

theorem latest?_of_drops (h : deed.step.drops uri = true) : latest? uri (deed :: earlier) = none := by
  simp [latest?, h]

theorem latest?_of_previews (h : deed.step.drops uri = false) (hp : deed.step.previews uri = true) :
    latest? uri (deed :: earlier) = deed.exchanges.getLast?.or (latest? uri earlier) := by
  unfold latest?
  simp only [List.takeWhile_cons, h, Bool.not_false, if_true, List.findSome?_cons, hp]
  cases deed.exchanges.getLast? <;> rfl

theorem latest?_of_other (h : deed.step.drops uri = false) (hp : deed.step.previews uri = false) :
    latest? uri (deed :: earlier) = latest? uri earlier := by
  unfold latest?
  simp [h, hp]

theorem subscribers_cons : subscribers (deed :: earlier) =
    if deed.step.isClose then [] else subscribers earlier ++ deed.step.watcher?.toList := by
  unfold subscribers
  by_cases hc : deed.step.isClose = true
  · simp [hc]
  · cases hw : deed.step.watcher? <;> simp [hc, hw]

theorem compiled_of_isClose (h : deed.step.isClose = true) : deed.compiled = [] := by
  unfold Deed.compiled
  unfold Step.isClose at h
  split at h
  · simp [*]
  · cases h

/-- The calls of one more deed are heard by a subscription as long as nothing closes the cache. -/
theorem calls_append_singleton (later : List Deed) (last : Deed) :
    ((later ++ [last]).takeWhile fun deed => !deed.step.isClose).flatMap Deed.compiled =
      (later.takeWhile fun deed => !deed.step.isClose).flatMap Deed.compiled ++
        if later.all fun deed => !deed.step.isClose then last.compiled else [] := by
  induction later with
  | nil =>
    by_cases hc : last.step.isClose = true
    · simp [hc, compiled_of_isClose hc]
    · simp [hc]
  | cons first later ih =>
    by_cases hc : first.step.isClose = true
    · simp [hc]
    · simp [hc, ih]

theorem count_subscribers_append_singleton (watcher : Text) (later : List Deed) (first : Deed) :
    (subscribers (later ++ [first])).count watcher = (subscribers later).count watcher +
      if later.all (fun deed => !deed.step.isClose) && first.step.watcher? = some watcher then 1
      else 0 := by
  induction later with
  | nil =>
    obtain ⟨step, answer, exchanges⟩ := first
    cases step with
    | watch other => by_cases hw : other = watcher <;> simp [subscribers, Step.isClose, Step.watcher?, hw]
    | _ => rfl
  | cons last later ih =>
    by_cases hc : last.step.isClose = true
    · simp [subscribers_cons, hc]
    · simp [subscribers_cons, hc, ih]
      omega

/-- One more deed is heard once for each call by each subscription. -/
theorem heard_append_singleton (watcher uri : Text) (deeds : List Deed) (last : Deed) :
    heard watcher uri (deeds ++ [last]) =
      heard watcher uri deeds +
        (subscribers deeds.reverse).count watcher * last.compiled.count uri := by
  induction deeds with
  | nil => simp [heard, subscribers]
  | cons first deeds ih =>
    rw [List.cons_append, heard, heard, ih, List.reverse_cons, count_subscribers_append_singleton,
      calls_append_singleton, List.all_reverse]
    by_cases hw : first.step.watcher? = some watcher
    · by_cases hc : (deeds.all fun deed => !deed.step.isClose) = true
      · simp only [hw, hc, if_true, List.count_append, Bool.true_and, decide_true, Nat.add_mul,
          Nat.one_mul]
        omega
      · simp [hw, hc, Nat.add_assoc]
    · simp [hw]

theorem count_flatMap_pairs (watcher uri : Text) (watchers uris : List Text) :
    (uris.flatMap fun uri => watchers.map fun watcher => (watcher, uri)).count (watcher, uri) =
      watchers.count watcher * uris.count uri := by
  induction uris with
  | nil => rfl
  | cons other uris ih =>
    rw [List.flatMap_cons, List.count_append, ih, List.count_cons, Nat.mul_add, Nat.add_comm]
    congr 1
    by_cases hu : other = uri
    · subst hu
      have hinj : Function.Injective fun watcher : Text => (watcher, other) :=
        fun _ _ h => congrArg Prod.fst h
      simpa using List.count_map_of_injective watchers _ hinj watcher
    · have hnot : (watcher, uri) ∉ watchers.map fun watcher => (watcher, other) := fun hmem => by
        obtain ⟨_, _, hpair⟩ := List.mem_map.1 hmem
        exact hu (congrArg Prod.snd hpair)
      simp [List.count_eq_zero.2 hnot, hu]

theorem count_told (watcher uri : Text) (history : List Deed) :
    (told history).count (watcher, uri) = heard watcher uri history.reverse := by
  induction history with
  | nil => rfl
  | cons deed earlier ih =>
    rw [told, List.count_append, ih, List.reverse_cons, heard_append_singleton, List.reverse_reverse,
      count_flatMap_pairs]

end
section
variable {settings : Settings} {history : List Deed} {cache after : PreviewCache (Logged ι)}

theorem made_self (cache : PreviewCache (Logged ι)) : made cache cache = [] := List.drop_length

/-- A step that drops nothing and previews nothing leaves what is served. -/
theorem Tracks.of_same_entries (h : Tracks settings history cache) (step : Step) (answer : Answer)
    (hd : ∀ uri, step.drops uri = false) (hp : ∀ uri, step.previews uri = false)
    (hs : after.settings = cache.settings) (he : after.entries = cache.entries)
    (hn : after.notices = cache.notices)
    (hw : after.watchers.listeners = subscribers (⟨step, answer, []⟩ :: history)) :
    Tracks settings (⟨step, answer, []⟩ :: history) after where
  settings := hs.trans h.settings
  served uri := by rw [he, latest?_of_other (hd uri) (hp uri), h.served]
  kept uri := by rw [he, kept_cons, hd, hp, h.kept, Bool.not_false, Bool.true_and, Bool.false_or]
  nodup := he ▸ h.nodup
  watchers := hw
  notices := by
    have hcompiled : Deed.compiled ⟨step, answer, []⟩ = [] := by cases step <;> rfl
    rw [hn, h.notices, told, hcompiled, List.flatMap_nil, List.append_nil]

/-- A preview that finds an entry. -/
theorem Tracks.hit (h : Tracks settings history cache) {tree : FileTree} {document : Document}
    {entry : Entry} (hget : cache.get? document = some entry) :
    let deed : Deed := ⟨.generate tree document, .content entry.content, []⟩
    deed.Follows settings history ∧ Tracks settings (deed :: history) cache := by
  intro deed
  have hkept : PreviewCache.kept document.uri history = true := by
    rw [← h.kept]
    exact Option.isSome_of_eq_some hget
  have hlatest : ∀ uri, latest? uri (deed :: history) = latest? uri history := by
    intro uri
    by_cases hu : document.uri = uri
    · exact latest?_of_previews rfl (decide_eq_true hu)
    · exact latest?_of_other rfl (decide_eq_false hu)
  refine ⟨⟨fun _ => rfl, fun hnone => ?_, entry, ?_, rfl⟩, ?_⟩
  · rw [hkept] at hnone
    cases hnone
  · rw [hlatest, ← h.served]
    exact hget
  · refine { h with served := fun uri => ?_, kept := fun uri => ?_, watchers := ?_, notices := ?_ }
    · rw [hlatest, h.served]
    · rw [kept_cons, h.kept]
      by_cases hu : document.uri = uri
      · subst hu
        simp [hkept, deed, Step.previews]
      · simp [deed, Step.previews, Step.drops, hu]
    · rw [h.watchers, subscribers_cons]
      simp [deed, Step.isClose, Step.watcher?]
    · rw [h.notices, told]
      simp [deed, Deed.compiled]

/-- A preview that calls the compiler. -/
theorem Tracks.miss (h : Tracks settings history cache) {tree : FileTree} {document : Document}
    {exchange : Exchange} {entry : Entry} (hget : cache.get? document = none)
    (hcall : call? settings tree document = some exchange.call)
    (hentry : exchange.entry? = some entry) (compiler : Logged ι) :
    let deed : Deed := ⟨.generate tree document, .content entry.content, [exchange]⟩
    deed.Follows settings history ∧
      Tracks settings (deed :: history)
        (store document.uri entry { cache with compiler }) := by
  intro deed
  have hkept : PreviewCache.kept document.uri history = false := by
    rw [← h.kept]
    exact Option.isSome_eq_false_iff.2 (Option.isNone_iff_eq_none.2 hget)
  have hlatest : latest? document.uri (deed :: history) = some exchange :=
    latest?_of_previews rfl (decide_eq_true rfl)
  refine ⟨⟨fun hsome => ?_, fun _ => ⟨exchange, rfl, hcall⟩, entry, ?_, rfl⟩, ?_⟩
  · rw [hkept] at hsome
    cases hsome
  · rw [hlatest]
    exact hentry
  · rw [store_eq]
    refine ⟨h.settings, fun uri => ?_, fun uri => ?_, ?_, ?_, ?_⟩
    · by_cases hu : uri = document.uri
      · subst hu
        rw [hlatest]
        exact (Table.get?_insert_self _ _ _).trans hentry.symm
      · have hother : latest? uri (deed :: history) = latest? uri history :=
          latest?_of_other rfl (decide_eq_false (Ne.symm hu))
        rw [hother, ← h.served]
        exact Table.get?_insert_of_ne hu _ _
    · rw [kept_cons, ← h.kept]
      change (cache.entries.insert document.uri entry).contains uri = _
      rw [Table.contains_insert]
      simp [deed, Step.previews, Step.drops, Table.contains, eq_comm]
    · exact Table.nodup_keys_insert h.nodup _ _
    · rw [subscribers_cons]
      simpa [deed, Step.isClose, Step.watcher?] using h.watchers
    · rw [told, ← h.notices]
      simp [deed, Deed.compiled, h.watchers]

theorem Tracks.dropped (h : Tracks settings history cache) (document : Document) :
    Tracks settings (⟨.delete document, .done, []⟩ :: history) (cache.delete document) := by
  generalize hdeed : (⟨.delete document, .done, []⟩ : Deed) = deed
  refine ⟨h.settings, fun uri => ?_, fun uri => ?_, ?_, ?_, ?_⟩
  · by_cases hu : uri = document.uri
    · have hdrops : deed.step.drops uri = true := hdeed ▸ decide_eq_true hu.symm
      rw [latest?_of_drops hdrops, hu]
      exact Table.get?_erase_self _ _
    · have hdrops : deed.step.drops uri = false := hdeed ▸ decide_eq_false (Ne.symm hu)
      rw [latest?_of_other hdrops (hdeed ▸ rfl), ← h.served]
      exact Table.get?_erase_of_ne hu _
  · rw [kept_cons, ← h.kept]
    change (cache.entries.erase document.uri).contains uri = _
    rw [Table.contains_erase, ← hdeed]
    simp [Step.previews, Step.drops, Table.contains, eq_comm]
  · exact Table.nodup_keys_erase h.nodup _
  · rw [subscribers_cons, ← hdeed]
    exact h.watchers.trans (List.append_nil _).symm
  · rw [← hdeed]
    exact h.notices.trans (List.append_nil _).symm

theorem Tracks.closed (h : Tracks settings history cache) :
    Tracks settings (⟨.close, .done, []⟩ :: history) cache.close where
  settings := h.settings
  served uri := by
    rw [latest?_of_drops rfl]
    rfl
  kept uri := by
    rw [kept_cons]
    rfl
  nodup := List.nodup_nil
  watchers := rfl
  notices := h.notices.trans (List.append_nil _).symm

variable [Compiler ι]

/-- **One step keeps the account.** -/
theorem tracks_next (h : Tracks settings history cache) {step : Step} {answer : Answer}
    (hs : step.handle.perform cache = (.ok answer, after)) :
    let deed : Deed := ⟨step, answer, made cache after⟩
    deed.Follows settings history ∧ Tracks settings (deed :: history) after := by
  cases step with
  | generate tree document =>
    obtain ⟨content, _, hg, hanswer⟩ := Attempt.perform_bind_eq_ok.1 hs
    cases hanswer
    rcases generate_logged_cases hg with ⟨entry, hget, rfl, rfl⟩ |
      ⟨hget, exchange, entry, compiler, hcall, hentry, rfl, rfl⟩
    · rw [made_self]
      exact h.hit hget
    · have hmade : made cache (store document.uri entry
          { cache with compiler := ⟨compiler, cache.compiler.exchanges ++ [exchange]⟩ }) =
          [exchange] := List.drop_left
      rw [hmade]
      exact h.miss hget (h.settings ▸ hcall) hentry _
  | get document =>
    cases hs
    rw [made_self]
    refine ⟨⟨rfl, congrArg Answer.entry (h.served document.uri)⟩, ?_⟩
    refine h.of_same_entries (.get document) _ (fun _ => rfl) (fun _ => rfl) rfl rfl rfl ?_
    rw [h.watchers, subscribers_cons]
    exact (List.append_nil _).symm
  | delete document =>
    cases hs
    have hmade : made cache (cache.delete document) = [] := made_self cache
    rw [hmade]
    exact ⟨⟨rfl, rfl⟩, h.dropped document⟩
  | close =>
    cases hs
    have hmade : made cache cache.close = [] := made_self cache
    rw [hmade]
    exact ⟨⟨rfl, rfl⟩, h.closed⟩
  | watch watcher =>
    cases hs
    have hmade : made cache (cache.watch watcher) = [] := made_self cache
    rw [hmade]
    refine ⟨⟨rfl, rfl⟩, ?_⟩
    refine h.of_same_entries (.watch watcher) _ (fun _ => rfl) (fun _ => rfl) rfl rfl rfl ?_
    rw [subscribers_cons, ← h.watchers]
    rfl

/-! ## Runs -/

omit [Compiler ι] in
theorem tracks_fresh (compiler : ι) (settings : Settings) :
    Tracks settings [] (fresh compiler settings) where
  settings := rfl
  served _ := rfl
  kept _ := rfl
  nodup := List.nodup_nil
  watchers := rfl
  notices := rfl

theorem Run.tracks {compiler : ι} (run : Run (fresh compiler settings) history cache) :
    Tracks settings history cache ∧
    ∀ later deed earlier, history = later ++ deed :: earlier → deed.Follows settings earlier := by
  induction run with
  | start => exact ⟨tracks_fresh compiler settings, fun later _ _ h => by cases later <;> cases h⟩
  | next step answer _ hs ih =>
    obtain ⟨hfollows, htracks⟩ := tracks_next ih.1 hs
    refine ⟨htracks, fun later deed earlier h => ?_⟩
    cases later with
    | nil =>
      obtain ⟨rfl, rfl⟩ := List.cons.inj h
      exact hfollows
    | cons last later => exact ih.2 later deed earlier (List.cons.inj h).2

/-- A preview fails only where it calls the compiler or has no call to make. -/
theorem Tracks.isOk_generate (h : Tracks settings history cache) (tree : FileTree)
    (document : Document) :
    ((PreviewCache.generate tree document).perform cache).1.isOk =
      (PreviewCache.kept document.uri history || ((call? settings tree document).bind fun call =>
        Exchange.entry? (call.exchange cache.compiler.compiler)).isSome) := by
  have hkept : (cache.get? document).isSome = PreviewCache.kept document.uri history :=
    h.kept document.uri
  rw [← hkept, perform_generate, perform_start, order, h.settings, call?]
  rcases cache.get? document with _ | entry
  · rcases plan settings tree document with fault | ⟨mode, arguments, directory⟩
    · rfl
    · simp only [Logged.perform_invoke, Call.exchange, Option.bind_some, Option.isSome_none,
        Bool.false_or]
      rcases ((Compiler.invoke mode arguments directory).perform cache.compiler.compiler).1 with
        fault | outcome
      · rfl
      · have hentry := entry?_eq_toOption ⟨document.uri, directory, arguments, outcome⟩ mode
        rw [hentry]
        simp only [Except.map, Ticket.answer, Pending.answer]
        rcases Pending.entry _ with fault | entry <;> rfl
  · rfl

/-- **A cache compiles when it must and serves nothing else.**  In every run a preview calls the
compiler once if the last thing done to its document was not a preview, and not at all otherwise; what
it and a look into the cache answer is what the most recent call since the document was dropped came
to.  It fails only where there is no call to make or the call comes to nothing.  The cache is as large
as there are documents that were previewed last.  Each call is told in turn to the subscriptions since
the cache was closed, so that a subscription hears each call made since exactly once, until the cache
is closed. -/
theorem Run.serves_latest {compiler : ι} (run : Run (fresh compiler settings) history cache) :
    (∀ later deed earlier, history = later ++ deed :: earlier → deed.Follows settings earlier) ∧
    (∀ document, cache.get? document =
        (latest? document.uri history).bind Exchange.entry? ∧
      (cache.get? document).isSome = PreviewCache.kept document.uri history) ∧
    (∀ tree document, ((PreviewCache.generate tree document).perform cache).1.isOk =
      (PreviewCache.kept document.uri history || ((call? settings tree document).bind fun call =>
        Exchange.entry? (call.exchange cache.compiler.compiler)).isSome)) ∧
    (∃ uris : List Text, uris.Nodup ∧ (∀ uri, uri ∈ uris ↔ PreviewCache.kept uri history = true) ∧
      cache.size = uris.length) ∧
    cache.notices = told history ∧
    ∀ watcher uri, cache.notices.count (watcher, uri) = heard watcher uri history.reverse := by
  obtain ⟨h, hfollows⟩ := run.tracks
  refine ⟨hfollows, fun document => ⟨h.served document.uri, h.kept document.uri⟩, h.isOk_generate, ?_,
    h.notices, fun watcher uri => h.notices ▸ count_told watcher uri history⟩
  refine ⟨cache.entries.keys, h.nodup, fun uri => ?_, (List.length_map _).symm⟩
  rw [Table.mem_keys, ← h.kept]
  rfl

end

/-- A document that is previewed twice, dropped and previewed again with a compiler that is refused
the second time. -/
theorem serves_latest_dropped :
    let document : Document := ⟨"file:///w/a".toList, "/w/a".toList⟩
    let script : Script := { answers := [.finished { stdout := ['1'] }, .refused ['x']] }
    let failure : Failure := ⟨"Command failed: /w/a\nx".toList, some "/w".toList⟩
    ∃ history cache, Run (fresh script {}) history cache ∧
      history.map Deed.answer = [.content [], .done, .content ['1'], .content ['1'], .done] ∧
      history.map (fun deed => deed.exchanges.length) = [1, 0, 0, 1, 0] ∧
      cache.get? document = some (.failed failure) ∧
      (latest? document.uri history).bind Exchange.entry? = some (.failed failure) ∧
      kept document.uri history = true ∧
      cache.notices.count (['w'], document.uri) = 2 := by
  intro document script failure
  let generate : Step := .generate {} document
  let watched : PreviewCache (Logged Script) := ((Step.watch ['w']).handle.perform (fresh script {})).2
  let first := (generate.handle.perform watched).2
  let again := (generate.handle.perform first).2
  let dropped := ((Step.delete document).handle.perform again).2
  have hwatch : (Step.watch ['w']).handle.perform (fresh script {}) = (.ok .done, watched) := rfl
  have hfirst : generate.handle.perform watched = (.ok (.content ['1']), first) :=
    Attempt.perform_eq_ok (by decide +kernel)
  have hagain : generate.handle.perform first = (.ok (.content ['1']), again) :=
    Attempt.perform_eq_ok (by decide +kernel)
  have hdelete : (Step.delete document).handle.perform again = (.ok .done, dropped) := rfl
  have hlast : generate.handle.perform dropped = (.ok (.content []), _) :=
    Attempt.perform_eq_ok (by decide +kernel)
  have run := Run.next _ _ (.next _ _ (.next _ _ (.next _ _ (.next _ _ .start hwatch) hfirst) hagain)
    hdelete) hlast
  obtain ⟨_, hserved, _, _, _, hheard⟩ := run.serves_latest
  obtain ⟨hget, hkept⟩ := hserved document
  have hfailed : (generate.handle.perform dropped).2.get? document = some (.failed failure) := by
    decide +kernel
  refine ⟨_, _, run, rfl, by decide +kernel, hfailed, hget.symm.trans hfailed, ?_, ?_⟩
  · rw [← hkept, hfailed]
    rfl
  · rw [hheard]
    decide +kernel

end PreviewCache
end JsonnetLens
