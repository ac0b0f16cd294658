import GlobalScheduler.Cluster
import GlobalScheduler.Transition
import GlobalScheduler.WorkQueue

/-! The work queues of cluster events.

The scheduler and the cluster controller feed their workers in the same way. The
handlers of cluster events add pairs of key and event type; a worker gets one, hands it
to the sync handler, puts it back with a delay if that failed, and calls `Done` when it
is through. -/
namespace GlobalScheduler.ClusterQueue

open Clusterv1 Transition WorkQueue Finset

/-- The values the queue is used with: it takes any, and `Done` is called with the key. -/
inductive Item where
  | event (e : KeyWithEventType)
  | key (k : String)
deriving DecidableEq, Repr

/-- The queue, what waits there for its delay to pass, and what the workers have in hand. -/
structure State where
  queue : WorkQueue Item := {}
  waiting : Finset KeyWithEventType := ∅
  running : List KeyWithEventType := []

inductive Event where
  /-- `Enqueue`. -/
  | enqueue (e : KeyWithEventType)
  /-- A worker gets the item and calls the sync handler. -/
  | take (e : KeyWithEventType)
  /-- `AddRateLimited`, by a sync handler that failed or by the worker that called it. -/
  | retry (e : KeyWithEventType)
  /-- The delay of a retry has passed. -/
  | ready (e : KeyWithEventType)
  /-- The worker is through with the item. -/
  | finish (e : KeyWithEventType)
deriving DecidableEq, Repr

/-- `Enqueue`, the steps of `processNextClusterItem` and of `processNextWorkItem`, and those
of the delaying queue; nothing when the event cannot happen. -/
def step (s : State) : Event → Option State
  | .enqueue e => some { s with queue := s.queue.add (.event e) }
  | .take e =>
    match s.queue.get with
    | some (item, queue) =>
      if item = .event e then some { s with queue := queue, running := e :: s.running } else none
    | none => none
  | .retry e => if e ∈ s.running then some { s with waiting := insert e s.waiting } else none
  | .ready e =>
    if e ∈ s.waiting then
      some { s with queue := s.queue.add (.event e), waiting := s.waiting.erase e }
    else none
  | .finish e =>
    if e ∈ s.running then
      -- The deferred call passes the key of the item and not the item.
      some { s with queue := s.queue.done (.key e.key), running := s.running.erase e }
    else none

def init : State := {}

/-- The runs whose events meet a condition. -/
abbrev Runs (cond : State → Event → Prop) :=
  Run (fun s e s' => step s e = some s') cond init

/-- There is nothing to get, now or later, and no worker is running. -/
def Idle (s : State) : Prop :=
  s.queue.queue = [] ∧ s.waiting = ∅ ∧ s.running = []

instance (s : State) : Decidable (Idle s) :=
  inferInstanceAs (Decidable (_ ∧ _ ∧ _))

def Asks (e : KeyWithEventType) (event : Event) : Prop :=
  event = .enqueue e ∨ event = .retry e

def Serves (e : KeyWithEventType) (event : Event) : Prop :=
  event = .take e

/-- Some event asked for the pair to be handled, and the handler was not given it since. -/
abbrev Owed (e : KeyWithEventType) : List Event → Prop :=
  Outstanding (Asks e) (Serves e)

/-- When all is quiet, every pair was handled after it was last asked for. -/
def NothingLost (es : List Event) (s : State) : Prop :=
  Idle s → ∀ e, ¬ Owed e es

/-! ### The runs in which nothing is lost -/

/-- A pair is not added again once a worker has got it. -/
def AddsOnce (s : State) : Event → Prop
  | .enqueue e => .event e ∉ s.queue.processing
  | .ready e => .event e ∉ s.queue.processing
  | _ => True

/-- What is owed is marked in the queue or waits for its delay, and what is marked is not
also in processing. No key is ever in the queue, so that `Done` finds none. -/
structure Kept (es : List Event) (s : State) : Prop where
  isOpen : s.queue.shuttingDown = false
  noKeys : ∀ k, .key k ∉ s.queue.dirty ∧ .key k ∉ s.queue.processing
  apart : ∀ x ∈ s.queue.dirty, x ∉ s.queue.processing
  owed : ∀ e, Owed e es → .event e ∈ s.queue.dirty ∨ e ∈ s.waiting

theorem Kept.start : Kept [] init where
  isOpen := rfl
  noKeys := by simp [init]
  apart := by simp [init]
  owed := fun _ h => absurd h not_outstanding_nil

section
variable {es : List Event} {s s' : State} {e : KeyWithEventType}

/-- Adding a pair that no worker has keeps everything, whatever asked for it. -/
theorem Kept.add (h : Kept es s) (hfresh : .event e ∉ s.queue.processing) {event : Event}
    (hasks : ∀ e', Asks e' event → e' = e) {waiting : Finset KeyWithEventType}
    (hwaiting : ∀ e' ∈ s.waiting, e' ≠ e → e' ∈ waiting) :
    Kept (es ++ [event]) { s with queue := s.queue.add (.event e), waiting := waiting } where
  isOpen := by simp [h.isOpen]
  noKeys := by
    intro k
    simpa [dirty_add h.isOpen] using h.noKeys k
  apart := by
    intro x hx
    rw [dirty_add h.isOpen] at hx
    rw [processing_add]
    rcases mem_insert.mp hx with rfl | hx
    · exact hfresh
    · exact h.apart x hx
  owed := by
    intro e' howed
    rw [dirty_add h.isOpen]
    by_cases he : e' = e
    · subst he
      exact Or.inl (mem_insert_self _ _)
    · rcases howed.of_snoc with hasked | ⟨hbefore, -⟩
      · exact absurd (hasks e' hasked) he
      · rcases h.owed e' hbefore with hdirty | hwaits
        · exact Or.inl (mem_insert_of_mem hdirty)
        · exact Or.inr (hwaiting e' hwaits he)

theorem Kept.take (h : Kept es s) (hstep : step s (.take e) = some s') : Kept (es ++ [.take e]) s' := by
  simp only [step] at hstep
  split at hstep
  case h_2 => cases hstep
  case h_1 item queue hget =>
    split at hstep
    case isFalse => cases hstep
    case isTrue hitem =>
      cases hstep
      subst hitem
      obtain ⟨_, hdirty, hprocessing, hshut⟩ := got hget
      constructor
      · exact hshut.trans h.isOpen
      · intro k
        simpa [hdirty, hprocessing] using h.noKeys k
      · intro x hx
        rw [hdirty] at hx
        obtain ⟨hne, hx⟩ := mem_erase.mp hx
        rw [hprocessing, mem_insert, not_or]
        exact ⟨hne, h.apart x hx⟩
      · intro e' howed
        rcases howed.of_snoc with hasked | ⟨hbefore, hserves⟩
        · rcases hasked with hasked | hasked <;> cases hasked
        · have hne : e' ≠ e := fun he => hserves (by rw [he]; rfl)
          rcases h.owed e' hbefore with hmarked | hwaits
          · rw [hdirty]
            exact Or.inl (mem_erase.mpr ⟨by simpa using hne, hmarked⟩)
          · exact Or.inr hwaits

theorem Kept.retry (h : Kept es s) (hstep : step s (.retry e) = some s') : Kept (es ++ [.retry e]) s' := by
  simp only [step] at hstep
  split at hstep
  case isFalse => cases hstep
  case isTrue =>
    cases hstep
    refine ⟨h.isOpen, h.noKeys, h.apart, fun e' howed => ?_⟩
    rcases howed.of_snoc with hasked | ⟨hbefore, -⟩
    · rcases hasked with hasked | hasked
      · cases hasked
      · cases hasked
        exact Or.inr (mem_insert_self _ _)
    · exact (h.owed e' hbefore).imp_right mem_insert_of_mem

/-- **`Done` with the key changes nothing in the queue.** -/
theorem Kept.finish (h : Kept es s) (hstep : step s (.finish e) = some s') : Kept (es ++ [.finish e]) s' := by
  simp only [step] at hstep
  split at hstep
  case isFalse => cases hstep
  case isTrue =>
    cases hstep
    rw [done_of_notMem (h.noKeys e.key).1 (h.noKeys e.key).2]
    refine ⟨h.isOpen, h.noKeys, h.apart, fun e' howed => ?_⟩
    rcases howed.of_snoc with hasked | ⟨hbefore, -⟩
    · rcases hasked with hasked | hasked <;> cases hasked
    · exact h.owed e' hbefore

theorem Kept.step {event : Event} (h : Kept es s) (hmeets : AddsOnce s event)
    (hstep : ClusterQueue.step s event = some s') : Kept (es ++ [event]) s' := by
  cases event with
  | enqueue e =>
    cases hstep
    refine h.add hmeets (fun e' hasked => ?_) (fun e' hwaits _ => hwaits)
    rcases hasked with hasked | hasked <;> cases hasked
    rfl
  | take e => exact h.take hstep
  | retry e => exact h.retry hstep
  | ready e =>
    simp only [ClusterQueue.step] at hstep
    split at hstep
    case isFalse => cases hstep
    case isTrue =>
      cases hstep
      refine h.add hmeets (fun e' hasked => ?_)
        (fun e' hwaits hne => mem_erase.mpr ⟨hne, hwaits⟩)
      rcases hasked with hasked | hasked <;> cases hasked
  | finish e => exact h.finish hstep

theorem Runs.kept (h : Runs AddsOnce es s) : Kept es s := by
  induction h with
  | nil => exact Kept.start
  | snoc _ meets last ih => exact ih.step meets last

end

/-- **Nothing is lost** in the runs that add no pair again once a worker has got it. -/
theorem runs_nothingLost (es : List Event) (s : State) (h : Runs AddsOnce es s) :
    NothingLost es s := by
  rintro ⟨hempty, hnoneWaits, -⟩ e howed
  have hkept := Runs.kept h
  rcases hkept.owed e howed with hdirty | hwaits
  · rw [dirty_eq_empty hempty hkept.apart] at hdirty
    exact notMem_empty _ hdirty
  · rw [hnoneWaits] at hwaits
    exact notMem_empty _ hwaits

theorem runs_nothingLost_one_update :
    ∃ es s, Runs AddsOnce es s ∧ es.length = 3 ∧ Idle s ∧ NothingLost es s := by
  have hrun : Runs AddsOnce [.enqueue ⟨.update, "n/c"⟩, .take ⟨.update, "n/c"⟩, .finish ⟨.update, "n/c"⟩] _ :=
    .cons (notMem_empty _) rfl <| .cons trivial rfl <| .cons trivial rfl (.nil _)
  exact ⟨_, _, hrun, rfl, by decide, runs_nothingLost _ _ hrun⟩

/-- A second update of a cluster is lost, also when the first was handled long before. -/
theorem runs_lose_second_update :
    ∃ es s, Runs (fun _ _ => True) es s ∧ ¬ NothingLost es s := by
  have hrun : Runs (fun _ _ => True)
      [.enqueue ⟨.update, "n/c"⟩, .take ⟨.update, "n/c"⟩, .finish ⟨.update, "n/c"⟩, .enqueue ⟨.update, "n/c"⟩] _ :=
    .cons trivial rfl <| .cons trivial rfl <| .cons trivial rfl <| .cons trivial rfl (.nil _)
  refine ⟨_, _, hrun, fun hkept => hkept (by decide) ⟨.update, "n/c"⟩ ?_⟩
  exact ⟨[_, _, _], _, [], rfl, Or.inl rfl, by simp⟩

/-! ### All runs -/

theorem once_step {s s' : State} {event : Event} {e : KeyWithEventType} {takes : Nat}
    (h : s.queue.Once (.event e) takes) (hstep : step s event = some s') :
    s'.queue.Once (.event e) (takes + [event].count (.take e)) := by
  cases event with
  | enqueue e' =>
    cases hstep
    exact h.add _
  | take e' =>
    simp only [step] at hstep
    split at hstep
    case h_2 => cases hstep
    case h_1 item queue hget =>
      split at hstep
      case isFalse => cases hstep
      case isTrue hitem =>
        cases hstep
        rw [hitem] at hget
        by_cases heq : e' = e
        · subst heq
          rw [List.count_singleton_self]
          exact h.get hget
        · have htake : [Event.take e'].count (.take e) = 0 := List.count_eq_zero_of_not_mem (by simp [Ne.symm heq])
          rw [htake]
          exact h.same (get_sameAt hget (by simpa using heq))
  | retry e' =>
    obtain ⟨-, hs⟩ := Option.ite_none_right_eq_some.mp hstep
    cases hs
    exact h
  | ready e' =>
    obtain ⟨-, hs⟩ := Option.ite_none_right_eq_some.mp hstep
    cases hs
    exact h.add _
  | finish e' =>
    obtain ⟨-, hs⟩ := Option.ite_none_right_eq_some.mp hstep
    cases hs
    -- `Done` is called with a key, which is no pair.
    exact h.same (done_sameAt (by simp))

/-- **A pair is handled once at most.** However often it is asked for, in any run it is given
to one worker at most, and is not in the queue after that. -/
theorem runs_take_once (es : List Event) (s : State) (h : Runs (fun _ _ => True) es s) (e : KeyWithEventType) :
    es.count (.take e) + s.queue.queue.count (.event e) ≤ 1 := by
  have honce : s.queue.Once (.event e) (es.count (.take e)) := by
    induction h with
    | nil => exact ⟨Nat.zero_le 1, fun _ _ => rfl⟩
    | snoc _ _ last ih =>
      rw [List.count_append]
      exact once_step ih last
  exact honce.atMost

theorem runs_take_once_two_updates :
    ∃ es s, Runs (fun _ _ => True) es s ∧ es.count (.enqueue ⟨.update, "n/c"⟩) = 2 ∧
      es.count (.take ⟨.update, "n/c"⟩) = 1 ∧
      es.count (.take ⟨.update, "n/c"⟩) + s.queue.queue.count (.event ⟨.update, "n/c"⟩) ≤ 1 := by
  have hrun : Runs (fun _ _ => True)
      [.enqueue ⟨.update, "n/c"⟩, .take ⟨.update, "n/c"⟩, .enqueue ⟨.update, "n/c"⟩] _ :=
    .cons trivial rfl <| .cons trivial rfl <| .cons trivial rfl (.nil _)
  exact ⟨_, _, hrun, by decide, by decide, runs_take_once _ _ hrun _⟩

end GlobalScheduler.ClusterQueue
