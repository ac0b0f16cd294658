import GlobalScheduler.Scheduler.SchedulingQueueProofs

/-! Move requests and the stacks that are being scheduled.

A stack is popped with a scheduling cycle and may come back as unschedulable. If something
happened in between that may have made it schedulable, a move request, it must not be left
in `unschedulableQ`, from which the request has already fetched the others. The queue knows
by two counters: the number of Pops, and what it was at the last move request. -/
namespace GlobalScheduler.SchedulingQueue

open Go Transition Outcome PriorityQueue UnschedulableStacksMap

/-! ### Histories with the stacks that are out -/

/-- A stack that was popped, the scheduling cycle it was popped with, and whether there has been
a move request since. -/
structure Ticket where
  stack : PodStack
  cycle : Int
  moved : Bool
deriving DecidableEq

/-- All that happens to the queue: the operations of a run, an update without an old stack,
`Close`, and the calls that only concern the nominated stacks. -/
inductive Event where
  | operation (op : Operation)
  | updateNew (newStack : PodStack) (clock : Clock)
  | close
  | nominate (nominatedStacks : NominatedStackMap)

structure History where
  state : State
  tickets : List Ticket := []

section
variable (comp : StackInfo → StackInfo → Bool)

def ticketsAfter (s : State) (op : Operation) (tickets : List Ticket) : List Ticket :=
  match op with
  | .pop =>
    match s.queue.pop comp with
    | none => tickets
    | some (stack, queue) => ⟨stack, queue.schedulingCycle, false⟩ :: tickets
  | op => if Requests s op then tickets.map fun ticket => { ticket with moved := true } else tickets

namespace History

def next (h : History) : Event → Outcome History
  | .operation op => do
    let state ← step comp h.state op
    pure ⟨state, ticketsAfter comp h.state op h.tickets⟩
  | .updateNew newStack clock => do
    let queue ← h.state.queue.update comp clock none newStack
    pure { h with state.queue := queue }
  | .close => pure { h with state.queue.closed := true }
  | .nominate nominatedStacks => pure { h with state.queue.nominatedStacks := nominatedStacks }

def Step (h : History) (e : Event) (h' : History) : Prop := h.next comp e = .ok h'

end History

end

/-! ### What a step does to the counters and the tickets -/

namespace History
variable {comp : StackInfo → StackInfo → Bool} {h h' : History} {e : Event}

def markMoved (tickets : List Ticket) : List Ticket := tickets.map fun ticket => { ticket with moved := true }

/-- A step leaves counters and tickets alone, or is a Pop, or a move request. -/
inductive Advances (h h' : History) : Prop where
  | rests (cycles : h'.state.queue.cycles = h.state.queue.cycles) (tickets : h'.tickets = h.tickets)
  | pops (stack : PodStack)
      (cycles : h'.state.queue.cycles = (h.state.queue.schedulingCycle + 1, h.state.queue.moveRequestCycle))
      (tickets : h'.tickets = ⟨stack, h.state.queue.schedulingCycle + 1, false⟩ :: h.tickets)
  | moves (cycles : h'.state.queue.cycles = (h.state.queue.schedulingCycle, h.state.queue.schedulingCycle))
      (tickets : h'.tickets = markMoved h.tickets)

theorem advances_operation {op : Operation} {state : State} (hstep : step comp h.state op = .ok state) :
    Advances h ⟨state, ticketsAfter comp h.state op h.tickets⟩ := by
  have hwritten := @step_written h.state state comp op (fun _ => True) (fun _ _ _ _ _ => trivial) hstep
  have hcycles := hwritten.cycles
  unfold Operation.counters at hcycles
  split at hcycles
  · cases hpop : h.state.queue.pop comp with
    | none =>
      rw [hpop] at hcycles
      exact .rests hcycles (by simp [ticketsAfter, hpop])
    | some popped =>
      rw [hpop] at hcycles
      simp only [step, hpop] at hstep
      cases hstep
      have hcycle : popped.2.schedulingCycle = _ := congrArg Prod.fst hcycles
      exact .pops popped.1 hcycles (by simp [ticketsAfter, hpop, hcycle])
  · next hnot =>
    split at hcycles
    · next hrequests => exact .moves hcycles (by simp [ticketsAfter, hrequests, markMoved])
    · next hrests => exact .rests hcycles (by simp [ticketsAfter, hrests])

theorem Step.advances (hstep : Step comp h e h') : Advances h h' := by
  cases e with
  | operation op =>
    obtain ⟨state, hstate, hstep⟩ := bind_ok.mp hstep
    cases hstep
    exact advances_operation hstate
  | updateNew newStack clock =>
    obtain ⟨queue, hqueue, hstep⟩ := bind_ok.mp hstep
    cases hstep
    have hwritten : PriorityQueue.Written comp (fun _ => True) {nsNameForStack newStack} False _ _ queue :=
      written_update rfl (fun h => h.elim) hqueue
    exact .rests hwritten.cycles rfl
  | close | nominate nominatedStacks =>
    cases hstep
    exact .rests rfl rfl

/-- The counters `cycles` tell of every stack that is out whether there was a move request since. -/
structure Tells (cycles : Int × Int) (tickets : List Ticket) : Prop where
  requested : cycles.2 ≤ cycles.1
  issued : ∀ ticket ∈ tickets, ticket.cycle ≤ cycles.1
  moved : ∀ ticket ∈ tickets, (ticket.moved = true ↔ ticket.cycle ≤ cycles.2)

section
variable {cycles : Int × Int} {tickets : List Ticket}

theorem Tells.pop (htells : Tells cycles tickets) (stack : PodStack) :
    Tells (cycles.1 + 1, cycles.2) (⟨stack, cycles.1 + 1, false⟩ :: tickets) := by
  have hrequested := htells.requested
  refine ⟨by dsimp only; omega, fun ticket hmem => ?_, fun ticket hmem => ?_⟩
  · rcases List.mem_cons.mp hmem with rfl | hmem
    · exact le_rfl
    · have := htells.issued ticket hmem
      omega
  · rcases List.mem_cons.mp hmem with rfl | hmem
    · -- No move request can have noted a Pop that has only now been counted.
      simp only [Bool.false_eq_true, false_iff, not_le]
      omega
    · exact htells.moved ticket hmem

theorem Tells.move (htells : Tells cycles tickets) : Tells (cycles.1, cycles.1) (markMoved tickets) := by
  have hissued : ∀ ticket ∈ markMoved tickets, ticket.moved = true ∧ ticket.cycle ≤ cycles.1 := by
    intro ticket hmem
    obtain ⟨before, hbefore, rfl⟩ := List.mem_map.mp hmem
    exact ⟨rfl, htells.issued before hbefore⟩
  refine ⟨le_rfl, fun ticket hmem => (hissued ticket hmem).2, fun ticket hmem => ?_⟩
  exact iff_of_true (hissued ticket hmem).1 (hissued ticket hmem).2

end

theorem Advances.tells (hadvances : Advances h h') (htells : Tells h.state.queue.cycles h.tickets) :
    Tells h'.state.queue.cycles h'.tickets := by
  cases hadvances with
  | rests cycles tickets => rwa [cycles, tickets]
  | pops stack cycles tickets =>
    rw [cycles, tickets]
    exact htells.pop stack
  | moves cycles tickets =>
    rw [cycles, tickets]
    exact htells.move

/-- **The counters over a run.** -/
theorem tells_of_run {es : List Event} (hrun : Run (Step comp) (fun _ _ => True) { state := {} } es h) :
    Tells h.state.queue.cycles h.tickets := by
  apply hrun.invariant (I := fun h => Tells h.state.queue.cycles h.tickets)
  · intro h e h' htells _ hstep
    exact (Step.advances hstep).tells htells
  · exact ⟨by decide, by simp, by simp⟩

end History

/-! ### The stack comes back -/

namespace PriorityQueue
variable {p : PriorityQueue} {clock : Clock} {stack : PodStack}

/-- The queue takes another stack for this one: one with its name and namespace in
`unschedulableQ`, or with its key in one of the heaps. -/
def Mistakes (p : PriorityQueue) (stack : PodStack) : Prop :=
  (∃ a ∈ p.unschedulableQ.list, getStackFullName a.stack = getStackFullName stack) ∨
    ∃ a, (a ∈ p.activeQ.queue ∨ a ∈ p.stackBackoffQ.queue) ∧
      stackInfoKeyFunc a = stackKey stack

/-- The stack is taken back: into `stackBackoffQ` exactly if there was a move request, and into
`unschedulableQ` otherwise. -/
def TakesBack (p : PriorityQueue) (clock : Clock) (stack : PodStack) (cycle : Int) (moved : Bool) : Prop :=
  ∃ p', p.addUnschedulableIfNotPresent clock stack cycle = .ok p' ∧
    (p'.Has .backoffQ (nsNameForStack stack) ↔ moved = true) ∧
    (p'.Has .unschedulableQ (nsNameForStack stack) ↔ moved = false)

theorem heap_get_isSome (heap : Heap stackInfoKeyFunc) : (heap.get (newStackInfo clock stack)).isSome ↔
    ∃ a ∈ heap.queue, stackInfoKeyFunc a = stackKey stack := by
  rw [Option.isSome_iff_exists]
  exact exists_congr fun a => Heap.getByKey_eq_some

theorem occupied_iff : p.Occupied clock stack ↔ p.Mistakes stack := by
  have hmap : (p.unschedulableQ.get stack).isSome ↔
      ∃ a ∈ p.unschedulableQ.list, getStackFullName a.stack = getStackFullName stack := by
    rw [Option.isSome_iff_exists]
    exact exists_congr fun a => get_eq_some
  rw [Occupied, Mistakes, hmap, heap_get_isSome, heap_get_isSome, ← exists_or]
  simp only [or_and_right]

theorem takesBack_of_not_mistakes {cycle : Int} {moved : Bool} (hfree : ¬ p.Mistakes stack)
    (habsent : ∀ place, ¬ p.Has place (nsNameForStack stack))
    (hmoved : moved = true ↔ cycle ≤ p.moveRequestCycle) : p.TakesBack clock stack cycle moved := by
  rw [← @occupied_iff p clock stack] at hfree
  simp only [Occupied, not_or] at hfree
  obtain ⟨stackBackoff, hbackoff⟩ := backoffStack_eq clock stack p
  unfold TakesBack addUnschedulableIfNotPresent
  rw [if_neg hfree.1, if_neg hfree.2.1, if_neg hfree.2.2, hbackoff]
  refine ⟨_, rfl, ?_⟩
  unfold setAside
  by_cases hcycle : cycle ≤ p.moveRequestCycle
  · rw [if_pos hcycle, hmoved.mpr hcycle]
    refine ⟨iff_of_true ⟨newStackInfo clock stack, ?_, rfl⟩ rfl,
      iff_of_false (habsent .unschedulableQ) Bool.true_eq_false.mp⟩
    exact (Heap.mem_added _).mpr (Or.inl rfl)
  · rw [if_neg hcycle, Bool.not_eq_true _ |>.mp (mt hmoved.mp hcycle)]
    refine ⟨iff_of_false (habsent .backoffQ) Bool.false_ne_true,
      iff_of_true ⟨newStackInfo clock stack, ?_, rfl⟩ rfl⟩
    exact mem_addOrUpdate.mpr (Or.inl rfl)

theorem not_takesBack_of_mistakes {cycle : Int} {moved : Bool} (hmistakes : p.Mistakes stack) :
    ¬ p.TakesBack clock stack cycle moved := by
  rintro ⟨p', hcall, -⟩
  obtain ⟨e, he⟩ := addUnschedulable_of_occupied cycle (occupied_iff.mpr hmistakes)
  cases he.symm.trans hcall

end PriorityQueue

/-- **No stack sleeps through a move request.** After any run, a stack that was popped and is
at none of the three places is put into `stackBackoffQ` if there was a move request since its
Pop, and into `unschedulableQ` if there was none; but only if the queue does not take another
stack for it. -/
theorem takesBack_iff {comp : StackInfo → StackInfo → Bool} {es : List Event} {h : History}
    (hrun : Run (History.Step comp) (fun _ _ => True) { state := {} } es h) {ticket : Ticket}
    (hticket : ticket ∈ h.tickets)
    (habsent : ∀ place, ¬ h.state.queue.Has place (nsNameForStack ticket.stack)) (clock : Clock) :
    h.state.queue.TakesBack clock ticket.stack ticket.cycle ticket.moved ↔
      ¬ h.state.queue.Mistakes ticket.stack := by
  constructor
  · intro htakes hmistakes
    exact not_takesBack_of_mistakes hmistakes htakes
  · intro hfree
    exact takesBack_of_not_mistakes hfree habsent
      ((History.tells_of_run hrun).moved ticket hticket)

theorem run_of_foldlM {es : List Event} {unschedulable : List StackInfo} {tickets : List Ticket}
    (hend : (es.foldlM (History.next activeQComp) { state := {} }).map (fun h =>
      (h.state.queue.activeQ.queue, h.state.queue.stackBackoffQ.queue,
        h.state.queue.unschedulableQ.list, h.tickets)) = .ok ([], [], unschedulable, tickets)) :
    ∃ h : History, Run (History.Step activeQComp) (fun _ _ => True) { state := {} } es h ∧
      h.state.queue.activeQ.queue = [] ∧ h.state.queue.stackBackoffQ.queue = [] ∧
      h.state.queue.unschedulableQ.list = unschedulable ∧ h.tickets = tickets := by
  cases hfold : es.foldlM (History.next activeQComp) { state := {} } with
  | error d =>
    rw [hfold] at hend
    cases hend
  | ok h =>
    rw [hfold] at hend
    have hparts := Except.ok.inj hend
    simp only [Prod.mk.injEq] at hparts
    exact ⟨h, Run.of_foldlM hfold, hparts⟩

/-- A stack is popped, and everything is moved before it comes back. -/
def popThenMove : List Event :=
  [.operation (.add (web "a") atZero), .operation .pop, .operation (.moveAllToActiveQueue [] atZero)]

/-- The stack comes back into `stackBackoffQ`. -/
theorem takesBack_popThenMove : ∃ h : History,
    Run (History.Step activeQComp) (fun _ _ => True) { state := {} } popThenMove h ∧
      h.tickets = [⟨web "a", 1, true⟩] ∧ h.state.queue.TakesBack atZero (web "a") 1 true := by
  obtain ⟨h, hrun, hactive, hbackoff, hunschedulable, htickets⟩ :=
    @run_of_foldlM popThenMove [] [⟨web "a", 1, true⟩] (by with_unfolding_all rfl)
  have habsent : ∀ place, ¬ h.state.queue.Has place (nsNameForStack (web "a")) := by
    intro place
    cases place <;> simp [PriorityQueue.Has, infos, Heap.list, hactive, hbackoff, hunschedulable]
  have hfree : ¬ h.state.queue.Mistakes (web "a") := by
    simp [PriorityQueue.Mistakes, hactive, hbackoff, hunschedulable]
  have hticket : (⟨web "a", 1, true⟩ : Ticket) ∈ h.tickets := by simp [htickets]
  exact ⟨h, hrun, htickets, (takesBack_iff hrun hticket habsent atZero).mpr hfree⟩

/-- Two tenants' stacks of one name are popped, and the first comes back. -/
def popBoth : List Event :=
  [.operation (.add (web "a") atZero), .operation .pop, .operation (.add (web "b") atZero), .operation .pop,
    .operation (.addUnschedulableIfNotPresent (web "a") 1 atZero)]

/-- The second stack is in none of the queues and is not taken back: the call fails, and the
stack is lost. -/
theorem second_stack_lost : ∃ h : History,
    Run (History.Step activeQComp) (fun _ _ => True) { state := {} } popBoth h ∧
      (⟨web "b", 2, false⟩ : Ticket) ∈ h.tickets ∧
      (∀ place, ¬ h.state.queue.Has place (nsNameForStack (web "b"))) ∧
      ¬ h.state.queue.TakesBack atZero (web "b") 2 false := by
  obtain ⟨h, hrun, hactive, hbackoff, hunschedulable, htickets⟩ :=
    @run_of_foldlM popBoth [⟨web "a", 0⟩] [⟨web "b", 2, false⟩, ⟨web "a", 1, false⟩]
      (by with_unfolding_all rfl)
  have hother : StackInfo.identity ⟨web "a", 0⟩ ≠ nsNameForStack (web "b") := by decide
  have habsent : ∀ place, ¬ h.state.queue.Has place (nsNameForStack (web "b")) := by
    intro place
    cases place <;>
      simp [PriorityQueue.Has, infos, Heap.list, hactive, hbackoff, hunschedulable, hother]
  have hmistakes : h.state.queue.Mistakes (web "b") := by
    refine Or.inl ⟨⟨web "a", 0⟩, ?_, by decide⟩
    rw [hunschedulable]
    exact List.mem_singleton_self _
  exact ⟨h, hrun, by simp [htickets], habsent, not_takesBack_of_mistakes hmistakes⟩

end GlobalScheduler.SchedulingQueue
