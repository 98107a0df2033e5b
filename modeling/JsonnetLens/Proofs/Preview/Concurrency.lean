import JsonnetLens.Proofs.Preview.Turns
/-!
# Previews of different documents do not disturb each other

`previews_agree` compares previews that take turns, in any order, with previews one after another:
each answers the same, the compiler is called the same, and the entries are the same.  Gathering all
of them is one such run, in which none passes another.
-/
namespace JsonnetLens.PreviewCache

variable {ι : Type} [Compiler ι]

/-! ## Gathering -/

/-- The compilations that have to be waited for. -/
def compilations (tickets : List (Except Fault Ticket)) : List Pending :=
  tickets.flatMap fun ticket =>
    match ticket with
    | .error _ => []
    | .ok ticket => ticket.compilation?.toList

/-- All halves in which previews begin, and then all in which they end. -/
theorem generateAll_putAll {documents : List Document} {waiting : List Pending}
    (h : (waiting.map Pending.uri ++ documents.map Document.uri).Nodup) (tree : FileTree)
    (cache : PreviewCache ι) :
    generateAll tree documents (cache.putAll waiting) =
      let (tickets, cache) := (performAll (documents.map (start tree))).run cache
      (tickets.map fun ticket => ticket.bind Ticket.answer,
        cache.putAll (waiting ++ compilations tickets)) := by
  induction documents generalizing waiting cache with
  | nil => exact congrArg (Prod.mk []) (congrArg cache.putAll (List.append_nil waiting).symm)
  | cons document documents ih =>
    have hfirst : document.uri ∉ waiting.map Pending.uri := fun hmem =>
      (List.nodup_append.1 h).2.2 _ hmem _ List.mem_cons_self rfl
    have huri : ∀ compilation cache', (start tree document).perform cache =
        (.ok (.pending compilation), cache') → compilation.uri = document.uri :=
      fun _ _ => uri_of_start
    rw [generateAll_cons, perform_generate_putAll hfirst, List.map_cons, run_performAll_cons]
    generalize (start tree document).perform cache = answer at huri ⊢
    have hrest : (waiting.map Pending.uri ++ documents.map Document.uri).Nodup :=
      h.sublist ((List.sublist_cons_self _ _).append_left _)
    obtain ⟨fault | content | compilation, cache'⟩ := answer
    · simp only [ih hrest]
      rfl
    · have hnone : waiting ++ (Ticket.ready content).compilation?.toList = waiting :=
        List.append_nil _
      simp only [hnone, ih hrest]
      rfl
    · have hwaiting : ((waiting ++ [compilation]).map Pending.uri ++
          documents.map Document.uri).Nodup := by
        rw [List.map_append, List.append_assoc, List.map_singleton, huri _ _ rfl]
        exact h
      have hsome : (Ticket.pending compilation).compilation?.toList = [compilation] := rfl
      simp only [hsome, ih hwaiting, List.append_assoc]
      rfl

/-- What the second halves answer. -/
def contents (tickets : List (Except Fault Ticket)) : List (Except Fault Text) :=
  tickets.filterMap fun ticket => (ticket.map Ticket.answer).toOption

omit [Compiler ι] in
theorem run_redeemAll (tickets : List (Except Fault Ticket)) (cache : PreviewCache ι) :
    (performAll (tickets.filterMap fun ticket => (ticket.map redeem).toOption)).run cache =
      (contents tickets, cache.putAll (compilations tickets)) := by
  induction tickets generalizing cache with
  | nil => rfl
  | cons ticket tickets ih =>
    obtain fault | ticket := ticket
    · exact ih cache
    · have hcons : ((.ok ticket :: tickets).filterMap fun ticket =>
          (ticket.map redeem).toOption : List (Attempt (PreviewCache ι) Text)) =
          redeem ticket :: tickets.filterMap fun ticket => (ticket.map redeem).toOption := rfl
      have hcompilations : compilations (.ok ticket :: tickets) =
          ticket.compilation?.toList ++ compilations tickets := rfl
      rw [hcons, run_performAll_cons, perform_redeem, ih, hcompilations, putAll_append]
      rfl

theorem perform_gather (tree : FileTree) (documents : List Document) (cache : PreviewCache ι) :
    (gather tree documents).perform cache =
      let (tickets, cache) := (performAll (documents.map (start tree))).run cache
      ((collect tickets).bind fun _ => collect (contents tickets),
        cache.putAll (compilations tickets)) := by
  have hgather : (gather tree documents).perform cache =
      let (tickets, cache) := (performAll (documents.map (start tree))).run cache
      let (contents, cache) :=
        (performAll (tickets.filterMap fun ticket => (ticket.map redeem).toOption)).run cache
      ((collect tickets).bind fun _ => collect contents, cache) := rfl
  rw [hgather]
  simp only [run_redeemAll]

omit [Compiler ι] in
theorem collect_cons_eq_ok {α : Type} {answer : Except Fault α} {rest : List (Except Fault α)}
    {all : List α} : collect (answer :: rest) = .ok all ↔
      ∃ a others, answer = .ok a ∧ collect rest = .ok others ∧ all = a :: others := by
  rcases answer with fault | a
  · simp [collect]
  · rcases hrest : collect rest with fault | others
    · simp [collect, hrest, Except.map]
    · simp [collect, hrest, Except.map, eq_comm]

/-- If no preview fails, gathering answers what they answer. -/
theorem collect_contents {tickets : List (Except Fault Ticket)} {answers : List Text}
    (h : collect (tickets.map fun ticket => ticket.bind Ticket.answer) = .ok answers) :
    ((collect tickets).bind fun _ => collect (contents tickets)) = .ok answers := by
  suffices hboth : (∃ all, collect tickets = .ok all) ∧ collect (contents tickets) = .ok answers by
    obtain ⟨⟨all, hall⟩, hanswers⟩ := hboth
    rw [hall]
    exact hanswers
  induction tickets generalizing answers with
  | nil => exact ⟨⟨[], rfl⟩, h⟩
  | cons ticket tickets ih =>
    obtain ⟨content, others, hcontent, hothers, rfl⟩ := collect_cons_eq_ok.1 h
    obtain ⟨⟨all, hall⟩, hrest⟩ := ih hothers
    rcases ticket with fault | ticket
    · cases hcontent
    · have hcons : contents (.ok ticket :: tickets) = ticket.answer :: contents tickets := rfl
      rw [hcons]
      exact ⟨⟨_, collect_cons_eq_ok.2 ⟨ticket, all, rfl, hall, rfl⟩⟩,
        collect_cons_eq_ok.2 ⟨content, others, hcontent, hrest, rfl⟩⟩

theorem gather_eq_generateAll {documents : List Document} (hd : (documents.map Document.uri).Nodup)
    (tree : FileTree) (cache : PreviewCache ι) :
    ((gather tree documents).perform cache).2 = (generateAll tree documents cache).2 ∧
    ∀ answers, collect (generateAll tree documents cache).1 = .ok answers →
      ((gather tree documents).perform cache).1 = .ok answers := by
  have hnone : (([] : List Pending).map Pending.uri ++ documents.map Document.uri).Nodup := hd
  have hall := generateAll_putAll hnone tree cache
  rw [putAll_nil] at hall
  rw [hall, perform_gather]
  exact ⟨rfl, fun answers h => collect_contents h⟩

/-! ## Calls and notices -/

/-- The documents of which nothing is there. -/
def missing (cache : PreviewCache ι) (documents : List Document) : List Document :=
  documents.filter fun document => !cache.contains document

/-- The notices that previews with these answers give. -/
def noticesFor (cache : PreviewCache ι) (documents : List Document)
    (answers : List (Except Fault Text)) : List (Text × Text) :=
  (documents.zip answers).flatMap fun (document, answer) =>
    if !cache.contains document && answer.isOk then
      cache.watchers.listeners.map fun watcher => (watcher, document.uri)
    else []

/-- What a preview does to the cache around its own document. -/
theorem generate_frame {tree : FileTree} {document : Document} {cache after : PreviewCache ι}
    {answer : Except Fault Text} (h : (generate tree document).perform cache = (answer, after)) :
    after.settings = cache.settings ∧ after.watchers = cache.watchers ∧
    (∀ uri, uri ≠ document.uri → after.entries.get? uri = cache.entries.get? uri) ∧
    after.notices = cache.notices ++ noticesFor cache [document] [answer] := by
  have hcontains : cache.contains document = (cache.get? document).isSome := rfl
  rw [perform_generate, perform_start] at h
  rcases hget : cache.get? document with _ | entry
  · rw [hget] at h hcontains
    rcases horder : order cache.settings tree document cache.compiler with
      ⟨fault | compilation, compiler⟩
    · rw [horder] at h
      cases h
      exact ⟨rfl, rfl, fun _ _ => rfl, by simp [noticesFor, Except.isOk, Except.toBool]⟩
    · rw [horder] at h
      cases h
      have huri : compilation.uri = document.uri := by
        have hstart := perform_start tree document cache
        rw [hget, horder] at hstart
        exact uri_of_start hstart
      refine ⟨?_, ?_, fun uri hne => ?_, ?_⟩
      · exact settings_put _ _
      · exact watchers_put _ _
      · exact get?_put_of_ne (huri ▸ hne) _
      · refine (notices_put _ _).trans ?_
        simp [noticesFor, hcontains, Ticket.answer, huri]
  · rw [hget] at h hcontains
    cases h
    exact ⟨rfl, rfl, fun _ _ => rfl, by simp [noticesFor, hcontains, Ticket.compilation?]⟩

omit [Compiler ι] in
theorem contains_of_frame {cache after : PreviewCache ι} {document other : Document}
    (h : ∀ uri, uri ≠ document.uri → after.entries.get? uri = cache.entries.get? uri)
    (hne : other.uri ≠ document.uri) : after.contains other = cache.contains other :=
  congrArg Option.isSome (h other.uri hne)

theorem notices_generateAll {documents : List Document} (hd : (documents.map Document.uri).Nodup)
    (tree : FileTree) (cache : PreviewCache ι) :
    (generateAll tree documents cache).2.notices =
      cache.notices ++ noticesFor cache documents (generateAll tree documents cache).1 := by
  induction documents generalizing cache with
  | nil => exact (List.append_nil _).symm
  | cons document documents ih =>
    obtain ⟨hnot, hrest⟩ := List.nodup_cons.1 hd
    rw [generateAll_cons]
    rcases hg : (generate tree document).perform cache with ⟨answer, after⟩
    obtain ⟨_, hwatchers, hentries, hnotices⟩ := generate_frame hg
    -- the first preview is of none of the other documents
    have hothers : noticesFor after documents (generateAll tree documents after).1 =
        noticesFor cache documents (generateAll tree documents after).1 := by
      unfold noticesFor
      refine List.flatMap_congr fun pair hpair => ?_
      obtain ⟨other, otherAnswer⟩ := pair
      have hmem := (List.of_mem_zip hpair).1
      have hne : other.uri ≠ document.uri := fun he => hnot (he ▸ List.mem_map_of_mem hmem)
      simp only [contains_of_frame hentries hne, hwatchers]
    have hcons : ∀ answers, noticesFor cache (document :: documents) (answer :: answers) =
        noticesFor cache [document] [answer] ++ noticesFor cache documents answers := by
      intro answers
      simp [noticesFor]
    simp only [ih hrest, hothers, hnotices, hcons, List.append_assoc]

theorem calls_generate (tree : FileTree) (document : Document) (cache : PreviewCache (Logged ι)) :
    ((generate tree document).perform cache).2.compiler.calls =
      cache.compiler.calls ++ (missing cache [document]).flatMap fun document =>
        (call? cache.settings tree document).toList := by
  have hcontains : cache.contains document = (cache.get? document).isSome := rfl
  have hcalls := calls_order cache.settings tree document cache.compiler
  rw [perform_generate, perform_start]
  rcases hget : cache.get? document with _ | entry
  · rw [hget] at hcontains
    generalize order cache.settings tree document cache.compiler = ordered at hcalls ⊢
    obtain ⟨fault | compilation, compiler⟩ := ordered
    · simpa [missing, hcontains, Except.map] using hcalls
    · simpa [missing, hcontains, Except.map] using hcalls
  · rw [hget] at hcontains
    simp [missing, hcontains, Ticket.compilation?]

theorem calls_generateAll {documents : List Document} (hd : (documents.map Document.uri).Nodup)
    (tree : FileTree) (cache : PreviewCache (Logged ι)) :
    (generateAll tree documents cache).2.compiler.calls =
      cache.compiler.calls ++ (missing cache documents).flatMap fun document =>
        (call? cache.settings tree document).toList := by
  induction documents generalizing cache with
  | nil => exact (List.append_nil _).symm
  | cons document documents ih =>
    obtain ⟨hnot, hrest⟩ := List.nodup_cons.1 hd
    have hcalls := calls_generate tree document cache
    rw [generateAll_cons]
    rcases hg : (generate tree document).perform cache with ⟨answer, after⟩
    obtain ⟨hsettings, _, hentries, _⟩ := generate_frame hg
    rw [hg] at hcalls
    have hothers : missing after documents = missing cache documents := by
      refine List.filter_congr fun other hother => ?_
      have hne : other.uri ≠ document.uri := fun he => hnot (he ▸ List.mem_map_of_mem hother)
      rw [contains_of_frame hentries hne]
    have hcons : missing cache (document :: documents) =
        missing cache [document] ++ missing cache documents :=
      List.filter_append [document] documents
    simp only [ih hrest, hothers, hsettings, hcalls, hcons, List.flatMap_append, List.append_assoc]

/-- **Previews of different documents do not disturb each other.**  Let them begin in this order and
end in any order: each answers what it answers when they are generated one after another, the compiler
is called in the same way, the entries are the same, and the same notices are given.  If none passes
another, as when they are gathered, nothing at all is different.  Only documents of which nothing is
there call the compiler and give notice. -/
theorem previews_agree (tree : FileTree) {documents : List Document}
    (hd : (documents.map Document.uri).Nodup) (cache : PreviewCache (Logged ι)) :
    let sequential := generateAll tree documents cache
    (∀ turns, PreviewLoop.started turns = documents →
      let last := PreviewLoop.run tree turns { cache }
      last.waiting = [] →
      last.answers.Perm ((documents.map Document.uri).zip sequential.1) ∧
      last.cache.compiler = sequential.2.compiler ∧
      (∀ uri, last.cache.entries.get? uri = sequential.2.entries.get? uri) ∧
      last.cache.notices.Perm sequential.2.notices ∧
      ((∀ turn ∈ turns, turn.isInOrder = true) → last.cache = sequential.2)) ∧
    ((gather tree documents).perform cache).2 = sequential.2 ∧
    (∀ answers, collect sequential.1 = .ok answers →
      ((gather tree documents).perform cache).1 = .ok answers) ∧
    sequential.2.compiler.calls = cache.compiler.calls ++
      (missing cache documents).flatMap (fun document =>
        (call? cache.settings tree document).toList) ∧
    sequential.2.notices = cache.notices ++ noticesFor cache documents sequential.1 := by
  intro sequential
  obtain ⟨hgather, hanswers⟩ := gather_eq_generateAll hd tree cache
  refine ⟨fun turns hturns => ?_, hgather, hanswers, calls_generateAll hd tree cache,
    notices_generateAll hd tree cache⟩
  intro last hdone
  have hdistinct : ({ cache } : PreviewLoop (Logged ι)).Distinct turns := by
    rw [PreviewLoop.Distinct, hturns]
    exact hd
  obtain ⟨halike, hdue, hinOrder⟩ := PreviewLoop.drained_run tree hdistinct
  have hdrained : last.drained = last.cache := by rw [PreviewLoop.drained, hdone, putAll_nil]
  have hlast : last.due = last.answers := by
    rw [PreviewLoop.due, hdone, List.map_nil, List.append_nil]
  rw [hturns] at halike hdue hinOrder
  rw [← hdrained, ← hlast]
  exact ⟨hdue, halike.compiler, halike.entries, halike.notices, hinOrder⟩

/-- Of three documents one is there, and the later of the other two is over first: its notice comes
first, and each document has the answer that it has without the others. -/
theorem previews_agree_crossing :
    let document := fun name : Text => (⟨"file:///w/".toList ++ name, "/w/".toList ++ name⟩ : Document)
    let a := document ['a']
    let b := document ['b']
    let c := document ['c']
    let script : Script := { answers := [.finished { stdout := ['1'] }, .refused ['x']] }
    let cache : PreviewCache (Logged Script) :=
      { compiler := ⟨script, []⟩, entries := [(a.uri, .output ['0'])]
        watchers := Emitter.subscribe {} ['w'] }
    let last := PreviewLoop.run {} [.starts b, .starts a, .starts c, .resumes 1, .resumes 0] { cache }
    let sequential := generateAll {} [b, a, c] cache
    last.answers.Perm [(b.uri, .ok ['1']), (a.uri, .ok ['0']), (c.uri, .ok [])] ∧
      last.cache.compiler.calls.map Call.arguments = [[.ofText b.path], [.ofText c.path]] ∧
      last.cache.notices = [(['w'], c.uri), (['w'], b.uri)] ∧
      sequential.2.notices = [(['w'], b.uri), (['w'], c.uri)] := by
  intro document a b c script cache last sequential
  have hd : ([b, a, c].map Document.uri).Nodup := by decide
  have hdone : last.waiting = [] := List.isEmpty_iff.1 (by decide +kernel)
  obtain ⟨hagree, _, _, hcalls, _⟩ := previews_agree {} hd cache
  obtain ⟨hanswers, hcompiler, _⟩ :=
    hagree [.starts b, .starts a, .starts c, .resumes 1, .resumes 0] rfl hdone
  have hsequential : sequential.1 = [.ok ['1'], .ok ['0'], .ok []] := by decide +kernel
  refine ⟨?_, ?_, by decide +kernel, by decide +kernel⟩
  · rw [hsequential] at hanswers
    exact hanswers
  · rw [hcompiler, hcalls]
    rfl

end JsonnetLens.PreviewCache
