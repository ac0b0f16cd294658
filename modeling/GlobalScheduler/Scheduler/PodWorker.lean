import GlobalScheduler.Transition
import GlobalScheduler.Scheduler.SchedulingQueue

/-! The loop of a pod worker.

`runPodWorker` calls `scheduleOne` until it returns false. Once the queue is closed and
nothing is left in it, `Pop` returns an error instead of a stack. `scheduleOne` looks at the
stack first and returns true where there is none, so that the error is never looked at: the
worker goes on asking the closed queue. -/
namespace GlobalScheduler.PodWorker

open Go Transition SchedulingQueue

/-! ### The next stack -/

def queueClosed : String := "scheduling queue is closed"

/-- What a call of `Pop` comes to: it waits on the condition, or it returns. -/
inductive Reply where
  | waits
  | returns (stack : Option PodStack) (err : Option String) (queue : PriorityQueue)

section
variable (comp : StackInfo → StackInfo → Bool)

/-- `Pop`, from where it looks at the length of `activeQ`. -/
def pop (queue : PriorityQueue) : Reply :=
  match queue.pop comp with
  | some (stack, queue) => .returns (some stack) none queue
  | none => if queue.closed then .returns none (some queueClosed) queue else .waits

/-- The function that `MakeNextStackFunc` gives. -/
def nextStack (queue : PriorityQueue) : Reply :=
  match pop comp queue with
  | .waits => .waits
  | .returns stack none queue => .returns stack none queue
  | .returns _ (some err) queue => .returns none (some err) queue

/-- The first tests of `scheduleOne`: the stack that is to be scheduled, or what the call
returns. -/
def scheduleOneTests : Option PodStack → Option String → Except Bool PodStack
  | none, _ => .error true
  | some _, some _ => .error false
  | some stack, none => .ok stack

/-! ### The worker among the users of the queue -/

inductive Phase where
  | popping
  | waiting
  | scheduling (stack : PodStack)
  | returned
deriving DecidableEq

/-- Who waits on the condition looks at the queue again. -/
def Phase.woken : Phase → Phase
  | .waiting => .popping
  | phase => phase

/-- The queue, where the worker is, and how many calls of `scheduleOne` have returned. -/
structure Loop where
  queue : PriorityQueue
  phase : Phase := .popping
  rounds : Nat := 0

/-- The worker goes on, the queue is closed, or someone else changes it. -/
inductive Event where
  | works
  | closes
  | changes (queue : PriorityQueue) (broadcasts : Bool)

def Event.isWork : Event → Bool
  | .works => true
  | _ => false

namespace Loop

/-- A call of `scheduleOne` returns. -/
def next (goesOn : Bool) (s : Loop) : Loop :=
  { s with phase := if goesOn then .popping else .returned, rounds := s.rounds + 1 }

/-- The next step of the worker. Once there is a stack to schedule, `scheduleOne` returns
true, whether the stack can be scheduled or not. -/
def work (s : Loop) : Option Loop :=
  match s.phase with
  | .popping =>
    match nextStack comp s.queue with
    | .waits => some { s with phase := .waiting }
    | .returns stack err queue =>
      match scheduleOneTests stack err with
      | .ok stack => some { s with queue := queue, phase := .scheduling stack }
      | .error goesOn => some ({ s with queue := queue }.next goesOn)
  | .waiting => none
  | .scheduling _ => some (s.next true)
  | .returned => none

/-- `Close` wakes who waits. -/
def close (s : Loop) : Loop :=
  { s with queue := { s.queue with closed := true }, phase := s.phase.woken }

def step (s : Loop) : Event → Option Loop
  | .works => s.work comp
  | .closes => some s.close
  | .changes queue broadcasts =>
    if queue.closed = s.queue.closed then
      some { s with queue := queue, phase := if broadcasts then s.phase.woken else s.phase }
    else none

def Step (s : Loop) (e : Event) (t : Loop) : Prop := s.step comp e = some t

/-- Nobody puts a stack into `activeQ`. -/
def StaysEmpty (_ : Loop) : Event → Prop
  | .changes queue _ => queue.activeQ.queue = []
  | _ => True

/-- The loop may return while `activeQ` stays empty. -/
def Returns (s : Loop) : Prop := ∃ es t, Run (Step comp) StaysEmpty s es t ∧ t.phase = .returned

end Loop

end

/-! ### No step returns -/

section
variable {comp : StackInfo → StackInfo → Bool} {queue queue' : PriorityQueue}

theorem pop_closed {stack : PodStack} (h : queue.pop comp = some (stack, queue')) :
    queue'.closed = queue.closed := by
  unfold PriorityQueue.pop at h
  split at h
  · cases h
  · cases h
    rfl

theorem nextStack_cases (comp : StackInfo → StackInfo → Bool) (queue : PriorityQueue) :
    (nextStack comp queue = .waits ∧ queue.closed = false) ∨
    (∃ stack queue', nextStack comp queue = .returns (some stack) none queue' ∧
      queue.pop comp = some (stack, queue')) ∨
    (nextStack comp queue = .returns none (some queueClosed) queue ∧ queue.closed = true) := by
  unfold nextStack pop
  cases hpop : queue.pop comp with
  | some popped => exact Or.inr (Or.inl ⟨popped.1, popped.2, rfl, rfl⟩)
  | none =>
    cases hclosed : queue.closed with
    | true => exact Or.inr (Or.inr ⟨rfl, rfl⟩)
    | false => exact Or.inl ⟨rfl, rfl⟩

theorem pop_of_empty (hempty : queue.activeQ.queue = []) : queue.pop comp = none := by
  unfold PriorityQueue.pop
  split
  · rfl
  · next pInfo activeQ hheap =>
    have hmem := (Heap.pop_eq_some comp hheap).1
    rw [hempty] at hmem
    cases hmem

theorem nextStack_of_empty (hempty : queue.activeQ.queue = []) : nextStack comp queue =
    if queue.closed then .returns none (some queueClosed) queue else .waits := by
  unfold nextStack pop
  rw [pop_of_empty hempty]
  cases queue.closed <;> rfl

namespace Loop
variable {s t : Loop} {e : Event} {es : List Event}

/-- The loop has not returned, and nobody waits on a closed queue. -/
structure Going (s : Loop) : Prop where
  notReturned : s.phase ≠ .returned
  notWaiting : s.queue.closed = true → s.phase ≠ .waiting

theorem woken_ne_returned {phase : Phase} (h : phase ≠ .returned) : phase.woken ≠ .returned := by
  cases phase <;> simp_all [Phase.woken]

theorem woken_ne_waiting (phase : Phase) : phase.woken ≠ .waiting := by
  cases phase <;> simp [Phase.woken]

theorem work_cases (h : s.work comp = some t) :
    (t = { s with phase := .waiting } ∧ s.queue.closed = false) ∨
    (∃ stack queue, t = { s with queue := queue, phase := .scheduling stack } ∧
      queue.closed = s.queue.closed) ∨
    t = s.next true := by
  unfold work at h
  split at h
  · rcases nextStack_cases comp s.queue with ⟨hnext, hopen⟩ | ⟨stack, queue', hnext, hpop⟩ | ⟨hnext, -⟩
    · rw [hnext] at h
      cases h
      exact Or.inl ⟨rfl, hopen⟩
    · rw [hnext] at h
      cases h
      exact Or.inr (Or.inl ⟨stack, queue', rfl, pop_closed hpop⟩)
    · rw [hnext] at h
      cases h
      exact Or.inr (Or.inr rfl)
  · cases h
  · cases h
    exact Or.inr (Or.inr rfl)
  · cases h

theorem step_changes {broadcasts : Bool} (h : Step comp s (.changes queue broadcasts) t) :
    queue.closed = s.queue.closed ∧
      t = { s with queue := queue, phase := if broadcasts then s.phase.woken else s.phase } := by
  have hstep : (if queue.closed = s.queue.closed then
      some { s with queue := queue, phase := if broadcasts then s.phase.woken else s.phase }
    else none) = some t := h
  split at hstep
  · next hclosed => exact ⟨hclosed, (Option.some.inj hstep).symm⟩
  · cases hstep

theorem Going.step (hgoing : s.Going) (hstep : Step comp s e t) : t.Going := by
  cases e with
  | works =>
    rcases work_cases hstep with ⟨rfl, hopen⟩ | ⟨stack, queue, rfl, -⟩ | rfl
    · exact ⟨nofun, fun hclosed => absurd (hopen.symm.trans hclosed) nofun⟩
    · exact ⟨nofun, fun _ => nofun⟩
    · exact ⟨nofun, fun _ => nofun⟩
  | closes =>
    cases hstep
    exact ⟨woken_ne_returned hgoing.notReturned, fun _ => woken_ne_waiting _⟩
  | changes queue broadcasts =>
    obtain ⟨hclosed, rfl⟩ := step_changes hstep
    cases broadcasts with
    | true => exact ⟨woken_ne_returned hgoing.notReturned, fun _ => woken_ne_waiting _⟩
    | false => exact ⟨hgoing.notReturned, fun h => hgoing.notWaiting (hclosed.symm.trans h)⟩

/-- The queue is closed and has nothing to pop, and the loop goes on. -/
structure Polls (s : Loop) : Prop extends s.Going where
  closed : s.queue.closed = true
  empty : s.queue.activeQ.queue = []

theorem Polls.work (h : s.Polls) : s.work comp = some (s.next true) := by
  unfold Loop.work
  split
  · rw [nextStack_of_empty h.empty, if_pos h.closed]
    rfl
  · next hphase => exact absurd hphase (h.notWaiting h.closed)
  · rfl
  · next hphase => exact absurd hphase h.notReturned

theorem Polls.step (h : s.Polls) (hempty : StaysEmpty s e) (hstep : Step comp s e t) :
    t.Polls ∧ t.rounds = s.rounds + if e.isWork then 1 else 0 := by
  have hgoing : t.Going := h.toGoing.step hstep
  cases e with
  | works =>
    cases hstep.symm.trans h.work
    exact ⟨⟨hgoing, h.closed, h.empty⟩, rfl⟩
  | closes =>
    cases hstep
    exact ⟨⟨hgoing, rfl, h.empty⟩, rfl⟩
  | changes queue broadcasts =>
    obtain ⟨hclosed, rfl⟩ := step_changes hstep
    exact ⟨⟨hgoing, hclosed.trans h.closed, hempty⟩, rfl⟩

/-- **Every step of the worker is another call.** -/
theorem Polls.run (h : s.Polls) (hrun : Run (Step comp) StaysEmpty s es t) :
    t.Polls ∧ t.rounds = s.rounds + es.countP Event.isWork := by
  induction hrun with
  | nil => exact ⟨h, rfl⟩
  | snoc _ hempty last ih =>
    obtain ⟨hpolls, hrounds⟩ := ih
    obtain ⟨hpolls', hlast⟩ := hpolls.step hempty last
    refine ⟨hpolls', ?_⟩
    rw [hlast, hrounds, List.countP_append, List.countP_singleton, Nat.add_assoc]

theorem Polls.not_returns (h : s.Polls) : ¬ s.Returns comp := by
  rintro ⟨es, t, hrun, hreturned⟩
  exact (h.run hrun).1.notReturned hreturned

/-- **The loop never returns.** Whatever the queue was when the worker began and whatever was
done to it since: once it is closed, as long as `activeQ` stays empty, no step ends the loop,
and there is always a next one, which is another call of `scheduleOne`. -/
theorem polls_forever (comp : StackInfo → StackInfo → Bool) {queue : PriorityQueue} {before : List Event}
    (hbefore : Run (Step comp) (fun _ _ => True) { queue := queue } before s)
    (hclosed : s.queue.closed = true) (hempty : s.queue.activeQ.queue = []) :
    ¬ s.Returns comp ∧ ∀ es t, Run (Step comp) StaysEmpty s es t →
      t.rounds = s.rounds + es.countP Event.isWork ∧
        ∃ u, Step comp t .works u ∧ u.phase = .popping ∧ u.rounds = t.rounds + 1 := by
  have hgoing : s.Going := by
    refine hbefore.invariant (fun _ _ _ hs _ hstep => hs.step hstep) ?_
    exact ⟨nofun, fun _ => nofun⟩
  have hpolls : s.Polls := ⟨hgoing, hclosed, hempty⟩
  refine ⟨hpolls.not_returns, ?_⟩
  intro es t hrun
  obtain ⟨ht, hrounds⟩ := hpolls.run hrun
  exact ⟨hrounds, t.next true, ht.work, rfl, rfl⟩

/-- A worker that waited on a queue when it was closed. -/
def closedOn (queue : PriorityQueue) : Loop := { queue := { queue with closed := true } }

theorem closedOn_reached :
    Run (Step activeQComp) (fun _ _ => True) { queue := {} } [.works, .closes] (closedOn {}) := by
  have hwaits : Step activeQComp { queue := {} } .works { queue := {}, phase := .waiting } := by
    simp [Step, step, work, nextStack_of_empty]
  exact ((Run.nil _).snoc trivial hwaits).snoc trivial rfl

theorem polls_forever_closedOn :
    (closedOn {}).queue.closed = true ∧ (closedOn {}).queue.activeQ.queue = [] ∧
      ¬ (closedOn {}).Returns activeQComp :=
  ⟨rfl, rfl, (polls_forever activeQComp closedOn_reached rfl rfl).1⟩

/-- **A worker that does not end**: the calls after `Close` return true. -/
theorem closedOn_goes_on :
    Run (Step activeQComp) (fun _ _ => True) { queue := {} } [.works, .closes] (closedOn {}) ∧
      Step activeQComp (closedOn {}) .works { closedOn {} with rounds := 1 } ∧
      ¬ (closedOn {}).Returns activeQComp := by
  have hpolls : (closedOn {}).Polls := ⟨⟨nofun, fun _ => nofun⟩, rfl, rfl⟩
  exact ⟨closedOn_reached, hpolls.work, hpolls.not_returns⟩

end Loop

end

end GlobalScheduler.PodWorker
