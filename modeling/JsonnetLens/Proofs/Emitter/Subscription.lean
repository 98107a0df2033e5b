import JsonnetLens.Emitter
import Mathlib.Data.List.Infix
import Mathlib.Data.List.NodupEquivFin
/-!
# Subscriptions

A subscription is to last until its handle is first called or the emitter is cleared.  What the call
of a handle takes away is the earliest entry of its listener, though.  A listener that is subscribed
once is notified as its subscription says; for one that is subscribed again, which entry goes, and
whether one should go at all, depends on the others.
-/
namespace JsonnetLens.Emitter

variable {ι : Type}

/-- What is done with an emitter. -/
inductive Step (ι : Type) where
  | subscribe (listener : ι)
  | unsubscribe (handle : Nat)
  | clear
  | notify
  deriving DecidableEq, Repr

namespace Step

def listener? : Step ι → Option ι
  | .subscribe listener => some listener
  | _ => none

/-- Whether a step is to end the subscription of this handle. -/
def ends (handle : Nat) : Step ι → Bool
  | .unsubscribe called => called = handle
  | .clear => true
  | _ => false

end Step

/-! ## Live subscriptions -/

/-- The listeners of all subscriptions by their handles. -/
def subscribed (steps : List (Step ι)) : List ι := steps.filterMap Step.listener?

/-- The steps after the subscription of this handle. -/
def since : Nat → List (Step ι) → List (Step ι)
  | _, [] => []
  | 0, .subscribe _ :: rest => rest
  | handle + 1, .subscribe _ :: rest => since handle rest
  | handle, .unsubscribe _ :: rest => since handle rest
  | handle, .clear :: rest => since handle rest
  | handle, .notify :: rest => since handle rest

/-- The subscriptions that no step has ended since, in order: each listener with its handle. -/
def live (steps : List (Step ι)) : List (ι × Nat) :=
  (subscribed steps).zipIdx.filter fun s => !(since s.2 steps).any (Step.ends s.2)

theorem subscribed_concat (steps : List (Step ι)) (step : Step ι) :
    subscribed (steps ++ [step]) = subscribed steps ++ step.listener?.toList := by
  rw [subscribed, List.filterMap_append]
  cases step <;> rfl

theorem since_append {handle : Nat} {steps : List (Step ι)} (h : handle < (subscribed steps).length)
    (more : List (Step ι)) : since handle (steps ++ more) = since handle steps ++ more := by
  induction steps generalizing handle with
  | nil => exact absurd h (Nat.not_lt_zero handle)
  | cons step rest ih =>
    cases step with
    | subscribe listener =>
      cases handle with
      | zero => rfl
      | succ handle => exact ih (Nat.lt_of_succ_lt_succ h)
    | _ => exact ih h

theorem since_length_subscribed (steps more : List (Step ι)) :
    since (subscribed steps).length (steps ++ more) = since 0 more := by
  induction steps with
  | nil => rfl
  | cons step rest ih => cases step <;> exact ih

/-- A step ends the subscriptions that it is to end, and may add one. -/
theorem live_concat (steps : List (Step ι)) (step : Step ι) :
    live (steps ++ [step]) = (live steps).filter (fun s => !step.ends s.2) ++
      step.listener?.toList.map fun listener => (listener, (subscribed steps).length) := by
  rw [live, subscribed_concat, List.zipIdx_append, List.filter_append]
  congr 1
  · rw [live, List.filter_filter]
    refine List.filter_congr fun s hs => ?_
    have hlt : s.2 < (subscribed steps).length := by simpa using List.snd_lt_add_of_mem_zipIdx hs
    rw [since_append hlt, List.any_append, List.any_cons, List.any_nil, Bool.or_false, Bool.not_or,
      Bool.and_comm]
  · cases step with
    | subscribe listener => simp [Step.listener?, since_length_subscribed, since]
    | _ => rfl

@[simp] theorem live_subscribe (steps : List (Step ι)) (listener : ι) :
    live (steps ++ [.subscribe listener]) = live steps ++ [(listener, (subscribed steps).length)] := by
  rw [live_concat]
  simp [Step.ends, Step.listener?]

@[simp] theorem live_unsubscribe (steps : List (Step ι)) (handle : Nat) :
    live (steps ++ [.unsubscribe handle]) = (live steps).filter fun s => s.2 ≠ handle := by
  rw [live_concat]
  simp [Step.ends, Step.listener?, eq_comm]

@[simp] theorem live_clear (steps : List (Step ι)) : live (steps ++ [.clear]) = [] := by
  rw [live_concat]
  simp [Step.ends, Step.listener?]

@[simp] theorem live_notify (steps : List (Step ι)) : live (steps ++ [.notify]) = live steps := by
  rw [live_concat]
  simp [Step.ends, Step.listener?]

theorem getElem?_of_mem_live {steps : List (Step ι)} {s : ι × Nat} (h : s ∈ live steps) :
    (subscribed steps)[s.2]? = some s.1 :=
  List.mem_zipIdx_iff_getElem?.1 (List.mem_filter.1 h).1

theorem pairwise_live (steps : List (Step ι)) : (live steps).Pairwise fun s t => s.2 < t.2 := by
  refine List.Pairwise.filter _ (List.pairwise_map.1 ?_)
  rw [List.zipIdx_map_snd]
  exact List.pairwise_lt_range'

/-! ## Taking the earliest entry of a listener -/

/-- Among these subscriptions, to take away the earliest entry of the listener is to take away the
subscription of the handle: if there is an entry of the listener at all, then the handle's is one,
and up to that one from the earliest on there are no others. -/
def Exact (subscriptions : List (ι × Nat)) (listener : ι) (handle : Nat) : Prop :=
  ∀ s ∈ subscriptions, s.1 = listener → (∃ t ∈ subscriptions, t.2 = handle) ∧
    ∀ t ∈ subscriptions, s.2 ≤ t.2 → t.2 ≤ handle → t.1 = listener

instance [DecidableEq ι] (subscriptions : List (ι × Nat)) (listener : ι) (handle : Nat) :
    Decidable (Exact subscriptions listener handle) :=
  inferInstanceAs (Decidable (∀ s ∈ subscriptions, s.1 = listener → _ ∧ _))

section
variable {listener : ι} {handle : Nat} {subscriptions : List (ι × Nat)}

theorem filter_handle_of_lt (h : ∀ s ∈ subscriptions, handle < s.2) :
    subscriptions.filter (fun s => s.2 ≠ handle) = subscriptions :=
  List.filter_eq_self.2 fun s hs => decide_eq_true (Nat.ne_of_gt (h s hs))

theorem exists_handle_cons_iff {first : ι × Nat} (hne : first.2 ≠ handle) :
    (∃ s ∈ first :: subscriptions, s.2 = handle) ↔ ∃ s ∈ subscriptions, s.2 = handle := by
  rw [List.exists_mem_cons_iff]
  exact or_iff_right hne

/-- The entries are those without the handle's and with the listener in front. -/
theorem map_fst_eq_cons_filter_iff (hsorted : subscriptions.Pairwise fun s t => s.2 < t.2) :
    subscriptions.map Prod.fst =
        listener :: (subscriptions.filter fun s => s.2 ≠ handle).map Prod.fst ↔
      (∃ s ∈ subscriptions, s.2 = handle) ∧ ∀ s ∈ subscriptions, s.2 ≤ handle → s.1 = listener := by
  -- an entry that comes before the handle's has to be the listener, and is the one in front of the rest
  induction subscriptions generalizing listener with
  | nil => simp
  | cons first rest ih =>
    obtain ⟨hfirst, hrest⟩ := List.pairwise_cons.1 hsorted
    rw [List.forall_mem_cons]
    by_cases heq : first.2 = handle
    · have hlater : ∀ s ∈ rest, handle < s.2 := fun s hs => heq ▸ hfirst s hs
      rw [List.filter_cons_of_neg (by simpa using heq), filter_handle_of_lt hlater, List.map_cons,
        List.cons.injEq, and_iff_left rfl]
      constructor
      · intro hlistener
        exact ⟨⟨first, List.mem_cons_self, heq⟩, fun _ => hlistener,
          fun s hs hle => absurd hle (Nat.not_le.2 (hlater s hs))⟩
      · rintro ⟨-, hall, -⟩
        exact hall (Nat.le_of_eq heq)
    · rw [List.filter_cons_of_pos (by simpa using heq), List.map_cons, List.map_cons, List.cons.injEq,
        ih hrest, exists_handle_cons_iff heq]
      constructor
      · rintro ⟨rfl, hhandle, hall⟩
        exact ⟨hhandle, fun _ => rfl, hall⟩
      · rintro ⟨⟨s, hs, hhandle⟩, hthis, hall⟩
        have hlistener : first.1 = listener := hthis (hhandle ▸ Nat.le_of_lt (hfirst s hs))
        rw [hlistener]
        exact ⟨rfl, ⟨s, hs, hhandle⟩, hall⟩

theorem exact_cons_iff {first : ι × Nat} (hlistener : first.1 = listener)
    (hfirst : ∀ s ∈ subscriptions, first.2 < s.2) (hne : first.2 ≠ handle) :
    Exact (first :: subscriptions) listener handle ↔ (∃ s ∈ subscriptions, s.2 = handle) ∧
      ∀ s ∈ subscriptions, s.2 ≤ handle → s.1 = listener := by
  unfold Exact
  rw [exists_handle_cons_iff hne, List.forall_mem_cons]
  constructor
  · rintro ⟨h, -⟩
    obtain ⟨hhandle, hall⟩ := h hlistener
    exact ⟨hhandle, fun t ht => hall t (List.mem_cons_of_mem first ht) (Nat.le_of_lt (hfirst t ht))⟩
  · rintro ⟨hhandle, hall⟩
    have hblock : ∀ t ∈ first :: subscriptions, t.2 ≤ handle → t.1 = listener :=
      List.forall_mem_cons.2 ⟨fun _ => hlistener, hall⟩
    exact ⟨fun _ => ⟨hhandle, fun t ht _ => hblock t ht⟩, fun _ _ _ => ⟨hhandle, fun t ht _ => hblock t ht⟩⟩

theorem exact_cons_of_ne {first : ι × Nat} (hlistener : first.1 ≠ listener)
    (hfirst : ∀ s ∈ subscriptions, first.2 < s.2) (hne : first.2 ≠ handle) :
    Exact (first :: subscriptions) listener handle ↔ Exact subscriptions listener handle := by
  unfold Exact
  rw [exists_handle_cons_iff hne, List.forall_mem_cons, and_iff_right fun h => absurd h hlistener]
  refine forall₂_congr fun s hs => imp_congr_right fun _ => and_congr_right fun _ => ?_
  rw [List.forall_mem_cons]
  exact and_iff_right fun hle => absurd hle (Nat.not_le.2 (hfirst s hs))

/-- To take away the earliest entry of the listener comes to taking the handle's away just when the call is
exact: what is left is compared as a list of listeners. -/
theorem erase_map_fst_iff [DecidableEq ι] (hsorted : subscriptions.Pairwise fun s t => s.2 < t.2)
    (hhandle : ∀ s ∈ subscriptions, s.2 = handle → s.1 = listener) :
    (subscriptions.map Prod.fst).erase listener =
        (subscriptions.filter fun s => s.2 ≠ handle).map Prod.fst ↔
      Exact subscriptions listener handle := by
  induction subscriptions with
  | nil => simp [Exact]
  | cons first rest ih =>
    obtain ⟨hfirst, hrest⟩ := List.pairwise_cons.1 hsorted
    have hhandle' : ∀ s ∈ rest, s.2 = handle → s.1 = listener :=
      fun s hs => hhandle s (List.mem_cons_of_mem first hs)
    rw [List.map_cons]
    by_cases heq : first.2 = handle
    · have hlistener : first.1 = listener := hhandle first List.mem_cons_self heq
      have hlater : ∀ s ∈ rest, handle < s.2 := fun s hs => heq ▸ hfirst s hs
      rw [hlistener, List.erase_cons_head, List.filter_cons_of_neg (by simpa using heq),
        filter_handle_of_lt hlater]
      refine iff_of_true rfl fun s hs _ => ⟨⟨first, List.mem_cons_self, heq⟩, fun t ht _ hle => ?_⟩
      rcases List.mem_cons.1 ht with rfl | ht
      · exact hlistener
      · exact absurd hle (Nat.not_le.2 (hlater t ht))
    · rw [List.filter_cons_of_pos (by simpa using heq), List.map_cons]
      by_cases hlistener : first.1 = listener
      · rw [hlistener, List.erase_cons_head, exact_cons_iff hlistener hfirst heq]
        exact map_fst_eq_cons_filter_iff hrest
      · rw [List.erase_cons_tail (by simpa using hlistener), List.cons.injEq, and_iff_right rfl,
          exact_cons_of_ne hlistener hfirst heq]
        exact ih hrest hhandle'

end

/-! ## Runs -/

section
variable [DecidableEq ι] (react : ι → Attempt (Emitter ι) Unit)

/-- A listener that leaves the emitter alone, whether it fails or not. -/
def Passive (listener : ι) : Prop := ∀ e, ((react listener).perform e).2 = e

def next (e : Emitter ι) : Step ι → Emitter ι
  | .subscribe listener => e.subscribe listener
  | .unsubscribe handle => e.unsubscribe handle
  | .clear => e.clear
  | .notify => (e.notify react).2

def run (steps : List (Step ι)) : Emitter ι := steps.foldl (next react) {}

theorem run_concat (steps : List (Step ι)) (step : Step ι) :
    run react (steps ++ [step]) = next react (run react steps) step := by
  rw [run, List.foldl_append]
  rfl

variable {react} {steps : List (Step ι)}

omit [DecidableEq ι] in
theorem call_of_passive {listeners : List ι} (h : ∀ listener ∈ listeners, Passive react listener)
    (e : Emitter ι) : call react listeners e = (listeners, e) := by
  induction listeners with
  | nil => rfl
  | cons listener rest ih =>
    rw [call, h listener List.mem_cons_self e, ih fun l hl => h l (List.mem_cons_of_mem listener hl)]

theorem handles_unsubscribe (e : Emitter ι) (handle : Nat) :
    (e.unsubscribe handle).handles = e.handles := by
  rw [unsubscribe]
  cases e.handles[handle]? <;> rfl

theorem listeners_unsubscribe_subset (e : Emitter ι) (handle : Nat) :
    (e.unsubscribe handle).listeners ⊆ e.listeners := by
  rw [unsubscribe]
  cases e.handles[handle]? with
  | none => exact List.Subset.refl _
  | some listener => exact List.erase_subset

/-- The handles are those of all subscriptions, and who listens has subscribed. -/
theorem run_of_passive (h : ∀ listener ∈ subscribed steps, Passive react listener) :
    (run react steps).handles = subscribed steps ∧ (run react steps).listeners ⊆ subscribed steps := by
  induction steps using List.reverseRecOn with
  | nil => exact ⟨rfl, List.Subset.refl _⟩
  | append_singleton steps step ih =>
    rw [subscribed_concat] at h ⊢
    have hsteps : ∀ listener ∈ subscribed steps, Passive react listener :=
      fun listener hl => h listener (List.mem_append_left _ hl)
    obtain ⟨hhandles, hlisteners⟩ := ih hsteps
    rw [run_concat]
    cases step with
    | subscribe listener =>
      exact ⟨congrArg (· ++ [listener]) hhandles, List.append_subset.2
        ⟨List.subset_append_of_subset_left _ hlisteners, List.subset_append_right _ _⟩⟩
    | unsubscribe handle =>
      rw [next, handles_unsubscribe, hhandles]
      exact ⟨(List.append_nil _).symm, List.subset_append_of_subset_left _
        (List.Subset.trans (listeners_unsubscribe_subset _ handle) hlisteners)⟩
    | clear => exact ⟨hhandles.trans (List.append_nil _).symm, List.nil_subset _⟩
    | notify =>
      rw [next, notify, call_of_passive fun listener hl => hsteps listener (hlisteners hl)]
      exact ⟨hhandles.trans (List.append_nil _).symm, List.subset_append_of_subset_left _ hlisteners⟩

theorem notify_run_of_passive (h : ∀ listener ∈ subscribed steps, Passive react listener) :
    (run react steps).notify react = ((run react steps).listeners, run react steps) :=
  call_of_passive (fun listener hl => h listener ((run_of_passive h).2 hl)) _

theorem run_unsubscribe_of_some (h : ∀ listener ∈ subscribed steps, Passive react listener)
    {handle : Nat} {listener : ι} (hlistener : (subscribed steps)[handle]? = some listener) :
    run react (steps ++ [.unsubscribe handle]) =
      { run react steps with listeners := (run react steps).listeners.erase listener } := by
  have hhandle : (run react steps).handles[handle]? = some listener := by rw [(run_of_passive h).1, hlistener]
  rw [run_concat, next, unsubscribe]
  simp only [hhandle]

theorem run_unsubscribe_of_none (h : ∀ listener ∈ subscribed steps, Passive react listener)
    {handle : Nat} (hnone : (subscribed steps)[handle]? = none) :
    run react (steps ++ [.unsubscribe handle]) = run react steps := by
  have hhandle : (run react steps).handles[handle]? = none := by rw [(run_of_passive h).1, hnone]
  rw [run_concat, next, unsubscribe]
  simp only [hhandle]

/-- Where the listeners of a kind are those of the live subscriptions, they are so after one more step
as well, but for the call of a handle that is not exact among them. -/
theorem filter_listeners_concat_iff {step : Step ι} {P : ι → Bool}
    (h : ∀ listener ∈ subscribed steps, Passive react listener)
    (hlaw : (run react steps).listeners.filter P = ((live steps).map Prod.fst).filter P) :
    (run react (steps ++ [step])).listeners.filter P =
        ((live (steps ++ [step])).map Prod.fst).filter P ↔
      ∀ handle listener, step = .unsubscribe handle → (subscribed steps)[handle]? = some listener →
        Exact ((live steps).filter fun s => P s.1) listener handle := by
  cases step with
  | subscribe listener =>
    refine iff_of_true ?_ nofun
    rw [run_concat, next, subscribe, live_subscribe, List.filter_append, hlaw, List.map_append,
      List.filter_append]
    rfl
  | clear =>
    refine iff_of_true ?_ nofun
    rw [run_concat, next, clear, live_clear]
    rfl
  | notify =>
    refine iff_of_true ?_ nofun
    rw [run_concat, next, notify_run_of_passive h, live_notify, hlaw]
  | unsubscribe handle =>
    rw [live_unsubscribe]
    cases hlistener : (subscribed steps)[handle]? with
    | none =>
      have hkept : (live steps).filter (fun s => s.2 ≠ handle) = live steps := by
        refine List.filter_eq_self.2 fun s hs => decide_eq_true fun heq => ?_
        have hsome := getElem?_of_mem_live hs
        rw [heq, hlistener] at hsome
        cases hsome
      refine iff_of_true ?_ fun called listener heq hsome => ?_
      · rw [run_unsubscribe_of_none h hlistener, hkept, hlaw]
      · cases heq
        rw [hlistener] at hsome
        cases hsome
    | some listener =>
      have hhandle : ∀ s ∈ (live steps).filter (fun s => P s.1), s.2 = handle → s.1 = listener := by
        intro s hs heq
        have hsome := getElem?_of_mem_live (List.mem_filter.1 hs).1
        rw [heq, hlistener] at hsome
        exact (Option.some.inj hsome).symm
      have hexact := erase_map_fst_iff ((pairwise_live steps).filter fun s => P s.1) hhandle
      rw [run_unsubscribe_of_some h hlistener, ← List.erase_filter, hlaw, List.filter_map, List.filter_map,
        List.filter_comm]
      refine hexact.trans ⟨fun hthis called l heq hsome => ?_, fun hall => hall handle listener rfl hlistener⟩
      cases heq
      rw [hlistener] at hsome
      cases hsome
      exact hthis

theorem filter_listeners_iff {P : ι → Bool} (h : ∀ listener ∈ subscribed steps, Passive react listener) :
    (∀ before, before <+: steps →
      (run react before).listeners.filter P = ((live before).map Prod.fst).filter P) ↔
    ∀ before handle listener, before ++ [.unsubscribe handle] <+: steps →
      (subscribed before)[handle]? = some listener →
      Exact ((live before).filter fun s => P s.1) listener handle := by
  induction steps using List.reverseRecOn with
  | nil =>
    refine iff_of_true ?_ fun before handle listener hbefore _ => ?_
    · rintro before hbefore
      rw [List.prefix_nil.1 hbefore]
      rfl
    · cases List.append_ne_nil_of_right_ne_nil before (List.cons_ne_nil _ _) (List.prefix_nil.1 hbefore)
  | append_singleton steps step ih =>
    have hsteps : ∀ listener ∈ subscribed steps, Passive react listener := by
      intro listener hl
      rw [subscribed_concat] at h
      exact h listener (List.mem_append_left _ hl)
    have hlast : steps <+: steps ++ [step] := List.prefix_append steps [step]
    constructor
    · intro hlaw before handle listener hbefore hlistener
      rcases List.prefix_concat_iff.1 hbefore with heq | hbefore
      · obtain ⟨rfl, hstep⟩ := List.append_inj' heq rfl
        cases hstep
        exact (filter_listeners_concat_iff hsteps (hlaw before hlast)).1
          (hlaw _ (List.prefix_refl _)) handle listener rfl hlistener
      · exact (ih hsteps).1 (fun b hb => hlaw b (hb.trans hlast)) before handle listener hbefore hlistener
    · intro hexact before hbefore
      have hlaw := (ih hsteps).2 fun b handle listener hb => hexact b handle listener (hb.trans hlast)
      rcases List.prefix_concat_iff.1 hbefore with rfl | hbefore
      · refine (filter_listeners_concat_iff hsteps (hlaw steps (List.prefix_refl _))).2 ?_
        rintro handle listener rfl hlistener
        exact hexact steps handle listener (List.prefix_refl _) hlistener
      · exact hlaw before hbefore

/-! ## Listeners subscribed once -/

theorem eq_of_count_le_one {listeners : List ι} {listener : ι} {m n : Nat}
    (h : listeners.count listener ≤ 1) (hm : listeners[m]? = some listener)
    (hn : listeners[n]? = some listener) : m = n := by
  obtain ⟨hm, hm'⟩ := List.getElem?_eq_some_iff.1 hm
  obtain ⟨hn, hn'⟩ := List.getElem?_eq_some_iff.1 hn
  have hnot : ¬listeners.Duplicate listener := fun hdup =>
    Nat.not_le.2 (Nat.lt_succ_of_le h) (List.duplicate_iff_two_le_count.1 hdup)
  rw [List.duplicate_iff_exists_distinct_get] at hnot
  rcases Nat.lt_trichotomy m n with hlt | heq | hlt
  · exact absurd ⟨⟨m, hm⟩, ⟨n, hn⟩, hlt, hm'.symm, hn'.symm⟩ hnot
  · exact heq
  · exact absurd ⟨⟨n, hn⟩, ⟨m, hm⟩, hlt, hn'.symm, hm'.symm⟩ hnot

theorem exact_of_once {before : List (Step ι)} (hbefore : before <+: steps) {handle : Nat} {listener : ι}
    (hlistener : (subscribed before)[handle]? = some listener) :
    Exact ((live before).filter fun s => (subscribed steps).count s.1 = 1) listener handle := by
  have hlater : ∀ (n : Nat) (l : ι), (subscribed before)[n]? = some l → (subscribed steps)[n]? = some l := by
    intro n l hl
    obtain ⟨hn, rfl⟩ := List.getElem?_eq_some_iff.1 hl
    exact List.prefix_iff_getElem?.1 (hbefore.filterMap _) n hn
  rintro s hs rfl
  obtain ⟨hlive, honce⟩ := List.mem_filter.1 hs
  have heq : s.2 = handle := eq_of_count_le_one (Nat.le_of_eq (of_decide_eq_true honce))
    (hlater _ _ (getElem?_of_mem_live hlive)) (hlater _ _ hlistener)
  refine ⟨⟨s, hs, heq⟩, fun t ht hle hge => ?_⟩
  have hsame : t.2 = handle := Nat.le_antisymm hge (heq ▸ hle)
  have htlive := getElem?_of_mem_live (List.mem_filter.1 ht).1
  rw [hsame, hlistener] at htlive
  exact (Option.some.inj htlive).symm

/-- **What a notification reaches, and what the handles do.**  With listeners that leave the emitter
alone it reaches the live subscriptions at every point of a history if and only if each call of a
handle up to there is exact.  Listeners that are subscribed once it reaches as their subscriptions say,
whatever is done with the others.  A call, of a live subscription or not, makes no difference just
where its listener has no entry left. -/
theorem notify_eq_live_iff (h : ∀ listener ∈ subscribed steps, Passive react listener) :
    ((∀ before, before <+: steps →
        (run react before).notify react = ((live before).map Prod.fst, run react before) ∧
        (run react before).size = (live before).length) ↔
      ∀ before handle listener, before ++ [.unsubscribe handle] <+: steps →
        (subscribed before)[handle]? = some listener → Exact (live before) listener handle) ∧
    ((run react steps).notify react).1.filter (fun listener => (subscribed steps).count listener = 1) =
      ((live steps).map Prod.fst).filter (fun listener => (subscribed steps).count listener = 1) ∧
    ∀ handle listener, (subscribed steps)[handle]? = some listener →
      (run react (steps ++ [.unsubscribe handle]) = run react steps ↔
        listener ∉ ((run react steps).notify react).1) := by
  refine ⟨?_, ?_, fun handle listener hlistener => ?_⟩
  · have hall := filter_listeners_iff (P := fun _ => true) h
    simp only [List.filter_true] at hall
    rw [← hall]
    refine forall₂_congr fun before hbefore => ?_
    have hpassive : ∀ listener ∈ subscribed before, Passive react listener :=
      fun listener hl => h listener ((hbefore.filterMap _).subset hl)
    rw [notify_run_of_passive hpassive]
    constructor
    · intro hlaw
      exact (Prod.mk.inj hlaw.1).1
    · intro hlaw
      rw [size, hlaw, List.length_map]
      exact ⟨rfl, rfl⟩
  · rw [notify_run_of_passive h]
    exact (filter_listeners_iff h).2 (fun before handle listener hbefore hlistener =>
      exact_of_once ((List.prefix_append _ _).trans hbefore) hlistener) steps (List.prefix_refl _)
  · rw [notify_run_of_passive h, run_unsubscribe_of_some h hlistener, ← List.erase_eq_self_iff]
    constructor
    · intro heq
      exact congrArg listeners heq
    · intro heq
      rw [heq]

end

/-- A history in which a listener is subscribed three times and every call is exact, and one in which
a handle is called again while the listener is still subscribed. -/
theorem notify_eq_live_iff_repeated :
    let a : Listener := ⟨['a'], .ignore⟩
    let b : Listener := ⟨['b'], .fail⟩
    let steps : List (Step Listener) := [.subscribe a, .subscribe a, .unsubscribe 0, .subscribe b, .notify,
      .clear, .unsubscribe 2, .subscribe a, .unsubscribe 3]
    let again : List (Step Listener) := [.subscribe a, .subscribe a, .subscribe b, .unsubscribe 0,
      .unsubscribe 0]
    (∀ listener ∈ [a, b], Passive Listener.react listener) ∧
    (∀ before, before <+: steps →
      (run Listener.react before).notify Listener.react =
        ((live before).map Prod.fst, run Listener.react before) ∧
      (run Listener.react before).size = (live before).length) ∧
    (¬∀ before, before <+: again →
      (run Listener.react before).notify Listener.react =
        ((live before).map Prod.fst, run Listener.react before) ∧
      (run Listener.react before).size = (live before).length) ∧
    ((run Listener.react again).notify Listener.react).1.filter
      (fun listener => (subscribed again).count listener = 1) = [b] ∧
    run Listener.react (again ++ [.unsubscribe 0]) = run Listener.react again := by
  intro a b steps again
  have hpassive : ∀ listener ∈ [a, b], Passive Listener.react listener := by
    intro listener hl
    rcases List.mem_pair.1 hl with rfl | rfl <;> exact fun _ => rfl
  have hall : ∀ history, subscribed history ⊆ [a, b] →
      ∀ listener ∈ subscribed history, Passive Listener.react listener :=
    fun history hsubset listener hl => hpassive listener (hsubset hl)
  obtain ⟨hsteps, -, -⟩ := notify_eq_live_iff (hall steps (by decide))
  obtain ⟨hagain, honce, hcall⟩ := notify_eq_live_iff (hall again (by decide))
  refine ⟨hpassive, hsteps.2 ?_, fun hlaw => ?_, ?_, ?_⟩
  · intro before handle listener hbefore hlistener
    have hcalls : ∀ calls ∈ steps.inits, ∀ handle < 4, calls.getLast? = some (.unsubscribe handle) →
        ∀ listener ∈ (subscribed calls.dropLast)[handle]?, Exact (live calls.dropLast) listener handle := by
      decide +kernel
    have hsteps : before <+: steps := (List.prefix_append before _).trans hbefore
    have hhandle : handle < 4 := Nat.lt_of_lt_of_le (List.getElem?_eq_some_iff.1 hlistener).1
      (hsteps.filterMap Step.listener?).length_le
    have hexact := hcalls _ ((List.mem_inits _ _).2 hbefore) handle hhandle List.getLast?_concat
    rw [List.dropLast_concat] at hexact
    exact hexact listener hlistener
  · have hexact := hagain.1 hlaw (again.take 4) 0 a (by decide) (by decide)
    exact absurd hexact (by decide)
  · exact honce.trans (by decide)
  · exact (hcall 0 a (by decide)).2 (by decide)

/-- A handle called twice, a handle called after the emitter was cleared, and a handle whose listener has
an earlier subscription. -/
theorem not_notify_eq_live :
    let a : Listener := ⟨['a'], .ignore⟩
    let b : Listener := ⟨['b'], .ignore⟩
    let twice : List (Step Listener) := [.subscribe a, .subscribe a, .unsubscribe 0, .unsubscribe 0]
    let late : List (Step Listener) := [.subscribe a, .clear, .subscribe a, .unsubscribe 0]
    let crossed : List (Step Listener) := [.subscribe a, .subscribe b, .subscribe a, .unsubscribe 2]
    (∀ listener ∈ [a, b], Passive Listener.react listener) ∧
    (live twice = [(a, 1)] ∧ ((run Listener.react twice).notify Listener.react).1 = [] ∧
      (run Listener.react twice).size = 0 ∧
      ((run Listener.react twice.dropLast).notify Listener.react).1 = [a]) ∧
    (live late = [(a, 1)] ∧ ((run Listener.react late).notify Listener.react).1 = [] ∧
      (run Listener.react late).size = 0 ∧
      ((run Listener.react late.dropLast).notify Listener.react).1 = [a]) ∧
    (live crossed = [(a, 0), (b, 1)] ∧ ((run Listener.react crossed).notify Listener.react).1 = [b, a]) := by
  intro a b twice late crossed
  refine ⟨fun listener hl => ?_, by decide, by decide, by decide⟩
  rcases List.mem_pair.1 hl with rfl | rfl <;> exact fun _ => rfl

end JsonnetLens.Emitter
