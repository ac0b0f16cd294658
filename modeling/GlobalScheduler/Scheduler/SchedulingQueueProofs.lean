import GlobalScheduler.Scheduler.SchedulingQueuePlaces

/-! Which stacks are pending.

A history of the scheduling queue says which stacks are pending: those added and since
neither popped nor deleted. The queue holds just these, each at one place, for as long as no
operation meets another stack in `unschedulableQ`; and an operation that does so while its
own stack is not where the operation looks first loses one of the two. -/
namespace GlobalScheduler.SchedulingQueue

open Go Transition Placement PriorityQueue UnschedulableStacksMap StackInfo PriorityQueue.Puts List

/-! ### What the loops write -/

namespace PriorityQueue
variable {p p' : PriorityQueue} {comp : StackInfo → StackInfo → Bool} {clock : Clock} {x : StackInfo}

section
variable {shows : Time → Prop} {names : Set NamespacedName} {valid : Prop}

section
variable (hx : x.identity ∈ names)
include hx

theorem written_requeue : Written comp shows names valid p.cycles p (p.requeue comp clock x) := by
  rw [requeue]
  split
  · exact written_addBackoff hx
  · exact written_addActive hx

theorem written_moved : Written comp shows names valid p.cycles p (p.moved comp clock x) := by
  have hrequeued : Written comp shows names valid p.cycles p (p.requeue comp clock x) := written_requeue hx
  refine ⟨hrequeued.activeQ, hrequeued.backoff, fun a ha => ?_, hrequeued.cycles⟩
  exact hrequeued.unschedulableQ a (mem_delete.mp ha).1

theorem written_flushed {rest : Heap stackInfoKeyFunc}
    (hpop : p.stackBackoffQ.pop (stacksCompareBackoffCompleted p.stackBackoff) = some (x, rest)) :
    Written comp shows names valid p.cycles p
      { p with stackBackoffQ := rest, activeQ := p.activeQ.add comp x } :=
  ⟨.single (.add hx), .single (.heap (.pop hpop)), fun _ ha => Or.inl ha, rfl⟩

end

theorem Written.foldl {f : PriorityQueue → StackInfo → PriorityQueue} (list : List StackInfo)
    (hround : ∀ p, ∀ x ∈ list, Written comp shows names valid p.cycles p (f p x)) :
    Written comp shows names valid p.cycles p (list.foldl f p) := by
  induction list generalizing p with
  | nil => exact .refl p
  | cons x rest ih =>
    exact (hround p x mem_cons_self).trans (ih fun q y hy => hround q y (mem_cons_of_mem x hy))

theorem flushBackoffQCompleted_rule {I : PriorityQueue → Prop} (hround : ∀ p x stackBackoffQ, I p →
      p.stackBackoffQ.pop (stacksCompareBackoffCompleted p.stackBackoff) = some (x, stackBackoffQ) →
      I { p with stackBackoffQ := stackBackoffQ, activeQ := p.activeQ.add comp x }) (hp : I p) :
    I (p.flushBackoffQCompleted comp clock) := by
  unfold flushBackoffQCompleted
  fun_induction flushBackoffQ comp clock p with
  | case1 => exact hp
  | case2 => exact hp
  | case3 => exact hp
  | case4 p x hpeek _ _ _ _ y stackBackoffQ hpop _ ih =>
    obtain ⟨h', hpop'⟩ := Heap.pop_of_peek (stacksCompareBackoffCompleted p.stackBackoff) hpeek
    cases hpop.symm.trans hpop'
    exact ih (hround p x stackBackoffQ hp hpop)

section
variable (hnames : ∀ place i, p.Has place i → i ∈ names)
include hnames

theorem written_moveAllToActiveQueue (ord : List String) : Written comp shows names valid
    (p.schedulingCycle, p.schedulingCycle) p (p.moveAllToActiveQueue comp ord clock) := by
  have hloop : Written comp shows names valid p.cycles p
      ((p.unschedulableQ.range ord).foldl (fun p x => p.requeue comp clock x) p) := by
    refine .foldl _ fun q x hx => written_requeue ?_
    exact hnames .unschedulableQ _ ⟨x, mem_range.mp hx, rfl⟩
  have hpops := congrArg Prod.fst hloop.cycles
  refine ⟨hloop.activeQ, hloop.backoff, fun a ha => ?_, Prod.ext hpops hpops⟩
  cases ha

theorem written_flushUnschedulableQLeftover (ord : List String) (currentTime : Time) :
    Written comp shows names valid
      (if (p.unschedulableQ.range ord).any fun pInfo =>
          currentTime - pInfo.timestamp > unschedulableQTimeInterval then
        (p.schedulingCycle, p.schedulingCycle)
      else p.cycles) p (p.flushUnschedulableQLeftover comp ord currentTime clock) := by
  unfold flushUnschedulableQLeftover
  dsimp only
  split
  · next hany =>
    obtain ⟨x, hx, hold⟩ := any_eq_true.mp hany
    rw [if_neg (ne_nil_of_mem (mem_filter.mpr ⟨hx, hold⟩))]
    have hloop : Written comp shows names valid p.cycles p (((p.unschedulableQ.range ord).filter fun pInfo =>
        currentTime - pInfo.timestamp > unschedulableQTimeInterval).foldl
          (fun p x => p.moved comp clock x) p) := by
      refine .foldl _ fun q x hx => written_moved (hnames .unschedulableQ _ ⟨x, ?_, rfl⟩)
      exact mem_range.mp (mem_filter.mp hx).1
    have hpops := congrArg Prod.fst hloop.cycles
    exact ⟨hloop.activeQ, hloop.backoff, hloop.unschedulableQ, Prod.ext hpops hpops⟩
  · next hnone =>
    rw [if_pos (filter_eq_nil_iff.mpr fun x hx hold => hnone (any_eq_true.mpr ⟨x, hx, hold⟩))]
    exact .refl p

theorem written_flushBackoffQCompleted :
    Written comp shows names valid p.cycles p (p.flushBackoffQCompleted comp clock) := by
  refine flushBackoffQCompleted_rule (I := Written comp shows names valid p.cycles p) ?_ (.refl p)
  intro q x rest hq hpop
  refine hq.trans (written_flushed ?_ hpop)
  rcases hq.comes .backoffQ x (Heap.pop_eq_some _ hpop).1 with hold | hcame
  · exact hnames .backoffQ _ ⟨x, hold, rfl⟩
  · exact hcame

end

theorem written_pop {stack : PodStack} (hpop : p.pop comp = some (stack, p')) :
    Written comp shows names valid (p.schedulingCycle + 1, p.moveRequestCycle) p p' := by
  rw [pop] at hpop
  split at hpop
  · cases hpop
  · next hheap =>
    cases hpop
    exact ⟨.single (.pop hheap), .refl, fun _ ha => Or.inl ha, rfl⟩

end

/-! ### The loops -/

variable {pending : Set NamespacedName} {held : Place → Set StackInfo}

theorem named_round (hnamed : p.Named) (hx : x.identity.Slashless)
    (h : Written comp (fun _ => True) {x.identity} True p.cycles p p') : p'.Named := by
  refine h.comes.named (fun i hi => ?_) hnamed
  cases Set.mem_singleton_iff.mp hi
  exact hx

theorem ne_of_listed (place : Place) {rest : List StackInfo} (hexact : Exact identity held pending)
    (hnodup : (x :: rest).Nodup) (hlist : ∀ a ∈ x :: rest, a ∈ held place) :
    ∀ a ∈ rest, a.identity ≠ x.identity := by
  intro a ha hident
  have hsame := hexact.once place place a x (hlist a (mem_cons_of_mem x ha))
    (hlist x mem_cons_self) hident
  exact (nodup_cons.mp hnodup).1 (hsame.2 ▸ ha)

/-- The stacks are pending as before, and none of them is gone. -/
def Moves (held held' : Place → Set StackInfo) (pending : Set NamespacedName) : Prop :=
  Exact identity held' pending ∧ ∀ place a, a ∈ held place → ∃ place', a ∈ held' place'

theorem Moves.trans {held' held'' : Place → Set StackInfo} (h : Moves held held' pending)
    (h' : Moves held' held'' pending) : Moves held held'' pending := by
  refine ⟨h'.1, fun place a ha => ?_⟩
  obtain ⟨place', ha'⟩ := h.2 place a ha
  exact h'.2 place' a ha'

theorem Moves.othersKept {held' : Place → Set StackInfo} (h : Moves held held' pending) :
    OthersKept identity held held' none :=
  fun place a ha _ => h.2 place a ha

/-- The loop of `moveAllToActiveQueue`: what is still to be moved stands in the place of
`unschedulableQ`. -/
theorem requeue_all (list : List StackInfo) (hnamed : p.Named)
    (hslash : ∀ x ∈ list, x.identity.Slashless) (hnodup : list.Nodup)
    (hexact : Exact identity (p.heldWith {a | a ∈ list}) pending) :
    Moves (p.heldWith {a | a ∈ list})
      ((list.foldl (fun p x => p.requeue comp clock x) p).heldWith {a | a ∈ ([] : List StackInfo)})
      pending := by
  induction list generalizing p with
  | nil => exact ⟨hexact, fun place a ha => ⟨place, ha⟩⟩
  | cons x rest ih =>
    have hx := hslash x mem_cons_self
    have hrest : ∀ a, a ∈ {a | a ∈ rest} ↔ a ∈ {a | a ∈ x :: rest} ∧ a.identity ≠ x.identity := by
      intro a
      constructor
      · intro ha
        exact ⟨mem_cons_of_mem x ha,
          ne_of_listed .unschedulableQ hexact hnodup (fun a ha => ha) a ha⟩
      · rintro ⟨ha, hident⟩
        exact (mem_cons.mp ha).resolve_left fun heq => hident (congrArg identity heq)
    have hfirst : Moves _ _ pending := requeue_moves comp clock hnamed hexact
      (mem_cons_self : x ∈ x :: rest) hx hrest
    exact hfirst.trans (ih (named_round hnamed hx (written_requeue rfl))
      (fun y hy => hslash y (mem_cons_of_mem x hy)) (nodup_cons.mp hnodup).2 hfirst.1)

theorem moveAllToActiveQueue_moves (comp : StackInfo → StackInfo → Bool) (ord : List String)
    (clock : Clock) (hnamed : p.Named) (hexact : Exact identity p.held pending) :
    Moves p.held (p.moveAllToActiveQueue comp ord clock).held pending := by
  have hlisted : {a | a ∈ p.unschedulableQ.range ord} = {a | a ∈ p.unschedulableQ.list} :=
    Set.ext fun a => mem_range
  have hmoves := @requeue_all p comp clock pending (p.unschedulableQ.range ord) hnamed
    (fun x hx => hnamed.unschedulable x (mem_range.mp hx)) (nodup_range ord _)
  rw [hlisted] at hmoves
  exact hmoves hexact

theorem moved_unschedulableQ (p : PriorityQueue) (x : StackInfo) :
    (p.moved comp clock x).unschedulableQ = p.unschedulableQ.delete x.stack := by
  rw [moved, requeue]
  split <;> rfl

theorem mem_moved_unschedulableQ {a : StackInfo} (hx : x ∈ p.unschedulableQ.list) :
    a ∈ (p.moved comp clock x).unschedulableQ.list ↔
      a ∈ p.unschedulableQ.list ∧ a.identity ≠ x.identity := by
  rw [moved_unschedulableQ]
  refine mem_map_delete fun b hb hname => ?_
  rw [eq_of_fullName hb hx hname]
  rfl

theorem moved_all (list : List StackInfo) (hnamed : p.Named) (hnodup : list.Nodup)
    (hlist : ∀ x ∈ list, x ∈ p.unschedulableQ.list) (hexact : Exact identity p.held pending) :
    Moves p.held (list.foldl (fun p x => p.moved comp clock x) p).held pending := by
  induction list generalizing p with
  | nil => exact ⟨hexact, fun place a ha => ⟨place, ha⟩⟩
  | cons x rest ih =>
    have hx := hlist x mem_cons_self
    have hslash := hnamed.unschedulable x hx
    have hfirst : Moves p.held (p.moved comp clock x).held pending :=
      requeue_moves comp clock hnamed hexact hx hslash fun a => mem_moved_unschedulableQ hx
    refine hfirst.trans (ih (named_round hnamed hslash (written_moved rfl)) (nodup_cons.mp hnodup).2 ?_ hfirst.1)
    intro y hy
    exact (mem_moved_unschedulableQ hx).mpr ⟨hlist y (mem_cons_of_mem x hy),
      ne_of_listed .unschedulableQ hexact hnodup hlist y hy⟩

theorem flushUnschedulableQLeftover_moves (comp : StackInfo → StackInfo → Bool) (ord : List String)
    (currentTime : Time) (clock : Clock) (hnamed : p.Named) (hexact : Exact identity p.held pending) :
    Moves p.held (p.flushUnschedulableQLeftover comp ord currentTime clock).held pending := by
  rw [flushUnschedulableQLeftover]
  split
  · exact ⟨hexact, fun place a ha => ⟨place, ha⟩⟩
  · refine moved_all _ hnamed ((nodup_range ord _).filter _) (fun x hx => ?_) hexact
    exact mem_range.mp (mem_filter.mp hx).1

theorem flushed_moves {stackBackoffQ : Heap stackInfoKeyFunc} (hnamed : p.Named)
    (hexact : Exact identity p.held pending)
    (hpop : p.stackBackoffQ.pop (stacksCompareBackoffCompleted p.stackBackoff) = some (x, stackBackoffQ)) :
    Moves p.held
      ({ p with stackBackoffQ := stackBackoffQ, activeQ := p.activeQ.add comp x } : PriorityQueue).held
      pending := by
  obtain ⟨hx, hmem, -⟩ := Heap.pop_eq_some _ hpop
  have hslash := hnamed.backoff x hx
  have habsent : ∀ a ∈ p.held .unschedulableQ, a.identity ≠ x.identity := fun a ha hident => by
    have hsame := hexact.once .unschedulableQ .backoffQ a x ha hx hident
    cases hsame.1
  have hputs : Puts identity p.held
      ({ p with stackBackoffQ := stackBackoffQ, activeQ := p.activeQ.add comp x } : PriorityQueue).held
      .activeQ x := by
    refine Puts.of_place (fun a => mem_heap_add hnamed.active hslash) ?_
    rintro (_ | _ | _) hne a
    · exact absurd rfl hne
    · refine (hmem a).trans (and_congr_right fun ha => not_congr ?_)
      exact stackInfoKeyFunc_eq_iff (hnamed.backoff a ha) hslash
    · exact mem_and_ne habsent a
  exact hexact.moves (p := .backoffQ) hx hputs

theorem flushBackoffQCompleted_moves (comp : StackInfo → StackInfo → Bool) (clock : Clock) (hnamed : p.Named)
    (hexact : Exact identity p.held pending) :
    Moves p.held (p.flushBackoffQCompleted comp clock).held pending := by
  suffices h : (p.flushBackoffQCompleted comp clock).Named ∧
      Moves p.held (p.flushBackoffQCompleted comp clock).held pending from h.2
  refine flushBackoffQCompleted_rule (I := fun q => q.Named ∧ Moves p.held q.held pending) ?_
    ⟨hnamed, hexact, fun place a ha => ⟨place, ha⟩⟩
  intro q x stackBackoffQ hq hpop
  exact ⟨named_round hq.1 (hq.1.backoff x (Heap.pop_eq_some _ hpop).1)
    (written_flushed (Set.mem_singleton _) hpop), hq.2.trans (flushed_moves hq.1 hq.2.1 hpop)⟩

end PriorityQueue

/-! ### Histories -/

/-- The queue, and which identities were added and since neither popped nor deleted. -/
structure State where
  queue : PriorityQueue := {}
  pending : Finset NamespacedName := ∅

inductive Operation where
  | add (stack : PodStack) (clock : Clock)
  | addIfNotPresent (stack : PodStack) (clock : Clock)
  | addUnschedulableIfNotPresent (stack : PodStack) (cycle : Int) (clock : Clock)
  | update (oldStack newStack : PodStack) (clock : Clock)
  | delete (stack : PodStack)
  | pop
  | moveAllToActiveQueue (ord : List String) (clock : Clock)
  | flushBackoffQCompleted (clock : Clock)
  | flushUnschedulableQLeftover (ord : List String) (currentTime : Time) (clock : Clock)

/-- An operation on a stack without slashes; an update is of one stack. -/
def Valid (_ : State) : Operation → Prop
  | .add stack _ => (nsNameForStack stack).Slashless
  | .addIfNotPresent stack _ => (nsNameForStack stack).Slashless
  | .addUnschedulableIfNotPresent stack _ _ => (nsNameForStack stack).Slashless
  | .update oldStack newStack _ =>
    (nsNameForStack newStack).Slashless ∧ nsNameForStack oldStack = nsNameForStack newStack
  | .delete stack => (nsNameForStack stack).Slashless
  | _ => True

section
variable (comp : StackInfo → StackInfo → Bool)

def step (s : State) : Operation → Outcome State
  | .add stack clock =>
    pure ⟨s.queue.add comp clock stack, insert (nsNameForStack stack) s.pending⟩
  | .addIfNotPresent stack clock =>
    pure ⟨s.queue.addIfNotPresent comp clock stack, insert (nsNameForStack stack) s.pending⟩
  | .addUnschedulableIfNotPresent stack cycle clock =>
    let queue := match s.queue.addUnschedulableIfNotPresent clock stack cycle with
      | .ok queue => queue
      | .error _ => s.queue
    pure ⟨queue, insert (nsNameForStack stack) s.pending⟩
  | .update oldStack newStack clock => do
    let queue ← s.queue.update comp clock (some oldStack) newStack
    pure ⟨queue, insert (nsNameForStack newStack) s.pending⟩
  | .delete stack => pure ⟨s.queue.delete comp stack, s.pending.erase (nsNameForStack stack)⟩
  | .pop =>
    match s.queue.pop comp with
    | none => pure s
    | some (stack, queue) => pure ⟨queue, s.pending.erase (nsNameForStack stack)⟩
  | .moveAllToActiveQueue ord clock =>
    pure { s with queue := s.queue.moveAllToActiveQueue comp ord clock }
  | .flushBackoffQCompleted clock =>
    pure { s with queue := s.queue.flushBackoffQCompleted comp clock }
  | .flushUnschedulableQLeftover ord currentTime clock =>
    pure { s with queue := s.queue.flushUnschedulableQLeftover comp ord currentTime clock }

def Step (s : State) (op : Operation) (t : State) : Prop := step comp s op = .ok t

/-- The identity the operation is about, if it is about one. -/
def Operation.subject (s : State) : Operation → Option NamespacedName
  | .add stack _ => some (nsNameForStack stack)
  | .addIfNotPresent stack _ => some (nsNameForStack stack)
  | .addUnschedulableIfNotPresent stack _ _ => some (nsNameForStack stack)
  | .update _ newStack _ => some (nsNameForStack newStack)
  | .delete stack => some (nsNameForStack stack)
  | .pop => (s.queue.pop comp).map fun popped => nsNameForStack popped.1
  | _ => none

end

/-- The queue has the pending stacks, each at one place. -/
structure State.Exact (s : State) : Prop where
  listed : ∀ i, i ∈ s.queue.pendingStacks.map nsNameForStack ↔ i ∈ s.pending
  once : ∀ i ∈ s.pending, ∃! place, s.queue.Has place i

/-- The operation does not meet another stack in `unschedulableQ`, or its own is where it
looks first. -/
def Keeps (s : State) : Operation → Prop
  | .add stack _ => ¬ s.queue.Collides stack
  | .addIfNotPresent stack _ => s.queue.Collides stack →
    s.queue.Has .activeQ (nsNameForStack stack) ∨ s.queue.Has .backoffQ (nsNameForStack stack)
  | .addUnschedulableIfNotPresent stack _ _ => s.queue.Collides stack →
    s.queue.Has .activeQ (nsNameForStack stack) ∨ s.queue.Has .backoffQ (nsNameForStack stack)
  | .update _ newStack _ => s.queue.Collides newStack →
    s.queue.Has .activeQ (nsNameForStack newStack) ∨ s.queue.Has .backoffQ (nsNameForStack newStack)
  | .delete stack => s.queue.Collides stack → s.queue.Has .activeQ (nsNameForStack stack)
  | _ => True

/-! ### What an operation writes -/

/-- The operation is a move request: `MoveAllToActiveQueue`, or a flush that moves a stack. -/
def Requests (s : State) : Operation → Bool
  | .moveAllToActiveQueue _ _ => true
  | .flushUnschedulableQLeftover ord currentTime _ =>
    (s.queue.unschedulableQ.range ord).any fun pInfo =>
      currentTime - pInfo.timestamp > unschedulableQTimeInterval
  | _ => false

/-- The names of the stacks that may come into one of the containers. -/
def Operation.names (s : State) : Operation → Set NamespacedName
  | .add stack _ | .addIfNotPresent stack _ | .addUnschedulableIfNotPresent stack _ _ | .delete stack =>
    {nsNameForStack stack}
  | .update _ newStack _ => {nsNameForStack newStack}
  | _ => {i | ∃ place, s.queue.Has place i}

/-- A Pop is counted, and a move request notes the count. -/
def Operation.counters (comp : StackInfo → StackInfo → Bool) (s : State) (op : Operation) : Int × Int :=
  match op with
  | .pop =>
    if (s.queue.pop comp).isSome then (s.queue.schedulingCycle + 1, s.queue.moveRequestCycle)
    else s.queue.cycles
  | op => if Requests s op then (s.queue.schedulingCycle, s.queue.schedulingCycle) else s.queue.cycles

section
variable {s t : State} {comp : StackInfo → StackInfo → Bool} {op : Operation}

theorem step_written {shows : Time → Prop} (hshows : ∀ stack cycle clock,
      op = .addUnschedulableIfNotPresent stack cycle clock → ∀ i, shows (clock .cleanedUp i))
    (hstep : Step comp s op t) : PriorityQueue.Written comp shows (op.names s) (Valid s op)
      (op.counters comp s) s.queue t.queue := by
  have hheld : ∀ place i, s.queue.Has place i → i ∈ {i | ∃ place, s.queue.Has place i} :=
    fun place _ hhas => ⟨place, hhas⟩
  cases op with
  | add stack clock =>
    cases hstep
    exact written_add rfl
  | addIfNotPresent stack clock =>
    cases hstep
    exact written_addIfNotPresent rfl
  | addUnschedulableIfNotPresent stack cycle clock =>
    cases hstep
    split
    · next queue hqueue => exact written_addUnschedulable rfl (hshows _ _ _ rfl) hqueue
    · exact .refl _
  | update oldStack newStack clock =>
    obtain ⟨queue, hqueue, hstep⟩ := Outcome.bind_ok.mp hstep
    cases hstep
    refine written_update rfl (fun hvalid old hold => ?_) hqueue
    cases hold
    exact hvalid.2
  | delete stack =>
    cases hstep
    exact written_delete
  | pop =>
    simp only [Step, step, Operation.counters] at hstep ⊢
    cases hpop : s.queue.pop comp with
    | none =>
      rw [hpop] at hstep
      cases hstep
      exact .refl _
    | some popped =>
      rw [hpop] at hstep
      cases hstep
      exact written_pop hpop
  | moveAllToActiveQueue ord clock =>
    cases hstep
    exact written_moveAllToActiveQueue hheld ord
  | flushBackoffQCompleted clock =>
    cases hstep
    exact written_flushBackoffQCompleted hheld
  | flushUnschedulableQLeftover ord currentTime clock =>
    cases hstep
    exact written_flushUnschedulableQLeftover hheld ord currentTime

theorem names_slashless (hnamed : s.queue.Named) (hvalid : Valid s op) : ∀ i ∈ op.names s, i.Slashless := by
  intro i hi
  cases op with
  | add | addIfNotPresent | addUnschedulableIfNotPresent | delete =>
    cases Set.mem_singleton_iff.mp hi
    exact hvalid
  | update =>
    cases Set.mem_singleton_iff.mp hi
    exact hvalid.1
  | pop | moveAllToActiveQueue | flushBackoffQCompleted | flushUnschedulableQLeftover =>
    obtain ⟨place, a, ha, rfl⟩ := hi
    exact hnamed.held (mem_held.mpr ha)

end

theorem step_named {comp : StackInfo → StackInfo → Bool} (s : State) (op : Operation) (t : State)
    (hnamed : s.queue.Named) (hvalid : Valid s op) (hstep : Step comp s op t) : t.queue.Named := by
  have hwritten := @step_written s t comp op (fun _ => True) (fun _ _ _ _ _ => trivial) hstep
  exact hwritten.comes.named (names_slashless hnamed hvalid) hnamed

/-! ### Which operations keep the queue exact -/

section
variable {s t : State} {comp : StackInfo → StackInfo → Bool} {op : Operation}

theorem mem_pendingStacks {p : PriorityQueue} {i : NamespacedName} :
    i ∈ p.pendingStacks.map nsNameForStack ↔ ∃ place, p.Has place i := by
  have hplaces : (∃ place, p.Has place i) ↔
      p.Has .activeQ i ∨ p.Has .backoffQ i ∨ p.Has .unschedulableQ i := by
    constructor
    · rintro ⟨_ | _ | _, h⟩
      · exact Or.inl h
      · exact Or.inr (Or.inl h)
      · exact Or.inr (Or.inr h)
    · rintro (h | h | h)
      · exact ⟨_, h⟩
      · exact ⟨_, h⟩
      · exact ⟨_, h⟩
  rw [hplaces]
  simp only [pendingStacks, map_append, map_map, mem_append, mem_map, or_assoc]
  exact Iff.rfl

theorem State.exact_iff (hnamed : s.queue.Named) :
    s.Exact ↔ Placement.Exact identity s.queue.held (s.pending : Set NamespacedName) := by
  have hheld : ∀ i, (∃ place, s.queue.Has place i) ↔ ∃ place, ∃ a ∈ s.queue.held place, a.identity = i := by
    intro i
    simp [PriorityQueue.Has, mem_held]
  constructor
  · intro h
    refine ⟨fun i => ?_, fun place place' a a' ha ha' hident => ?_⟩
    · rw [← hheld, ← mem_pendingStacks, h.listed]
      exact Iff.rfl
    · have hhas : s.queue.Has place a.identity := ⟨a, mem_held.mp ha, rfl⟩
      have hhas' : s.queue.Has place' a.identity :=
        ⟨a', mem_held.mp ha', hident.symm⟩
      have hpending := (h.listed a.identity).mp (mem_pendingStacks.mpr ⟨place, hhas⟩)
      have hplace : place = place' := (h.once _ hpending).unique hhas hhas'
      subst hplace
      refine ⟨rfl, ?_⟩
      cases place with
      | activeQ =>
        exact s.queue.activeQ.eq_of_key ha ha'
          ((stackInfoKeyFunc_eq_iff (hnamed.active a ha) (hnamed.active a' ha')).mpr hident)
      | backoffQ =>
        exact s.queue.stackBackoffQ.eq_of_key ha ha'
          ((stackInfoKeyFunc_eq_iff (hnamed.backoff a ha) (hnamed.backoff a' ha')).mpr hident)
      | unschedulableQ =>
        exact eq_of_fullName ha ha' (getStackFullName_of_identity hident)
  · intro h
    refine ⟨fun i => ?_, fun i hi => ?_⟩
    · rw [mem_pendingStacks, hheld, ← h.listed]
      exact Iff.rfl
    · obtain ⟨place, a, ha, hident⟩ := (h.listed i).mp hi
      refine ⟨place, ⟨a, mem_held.mp ha, hident⟩, ?_⟩
      rintro place' ⟨a', ha', hident'⟩
      exact (h.once place' place a' a (mem_held.mpr ha') ha (hident'.trans hident.symm)).1

/-- The queue of a step has the pending stacks, and those the operation is not about are the
same as before. -/
theorem step_follows (hnamed : s.queue.Named)
    (hexact : Placement.Exact identity s.queue.held (s.pending : Set NamespacedName))
    (hvalid : Valid s op) (hkeeps : Keeps s op) (hstep : Step comp s op t) :
    Placement.Exact identity t.queue.held (t.pending : Set NamespacedName) ∧
      OthersKept identity s.queue.held t.queue.held (op.subject comp s) := by
  cases op with
  | add stack clock =>
    cases hstep
    rw [Finset.coe_insert]
    exact kept (add_puts hnamed hvalid hkeeps) rfl hexact
  | addIfNotPresent stack clock =>
    cases hstep
    rw [Finset.coe_insert]
    exact addIfNotPresent_kept hnamed hvalid hexact hkeeps
  | addUnschedulableIfNotPresent stack cycle clock =>
    cases hstep
    rw [Finset.coe_insert]
    by_cases hoccupied : s.queue.Occupied clock stack
    · obtain ⟨e, he⟩ := addUnschedulable_of_occupied cycle hoccupied
      obtain ⟨place, hhas⟩ := hoccupied.has hnamed hvalid hkeeps
      simp only [he]
      exact hhas.present hexact
    · obtain ⟨p', place, hok, hputs⟩ := addUnschedulable_puts cycle hoccupied hnamed hvalid
      simp only [hok]
      exact kept hputs rfl hexact
  | update oldStack newStack clock =>
    obtain ⟨p', hok, hstep⟩ := Outcome.bind_ok.mp hstep
    cases hstep
    rw [Finset.coe_insert]
    by_cases hhas : s.queue.Has .activeQ (nsNameForStack newStack) ∨
        s.queue.Has .backoffQ (nsNameForStack newStack)
    · obtain ⟨q, info, hok', hident, hputs⟩ :=
        update_of_heap comp clock hnamed hvalid.1 hvalid.2 hexact hhas
      cases hok.symm.trans hok'
      exact kept hputs hident hexact
    · have hnot := not_or.mp hhas
      rw [update_of_not_heap hnamed hvalid.1 hvalid.2 hnot.1 hnot.2] at hok
      obtain ⟨q, place, info, hok', hident, hputs⟩ :=
        updateUnqueued_puts hnamed hvalid.1 hnot.1 hnot.2 fun h => hhas (hkeeps h)
      cases hok.symm.trans hok'
      exact kept hputs hident hexact
  | delete stack =>
    have hdrops := delete_drops hexact comp hnamed hvalid hkeeps
    cases hstep
    rw [Finset.coe_erase]
    exact ⟨hexact.drops hdrops, hdrops.othersKept⟩
  | pop =>
    rw [Step, step] at hstep
    rw [Operation.subject]
    cases hpop : s.queue.pop comp with
    | none =>
      rw [hpop] at hstep
      cases hstep
      exact ⟨hexact, fun place a ha _ => ⟨place, ha⟩⟩
    | some popped =>
      have hdrops := pop_drops hexact hnamed hpop
      rw [hpop] at hstep
      cases hstep
      rw [Finset.coe_erase]
      exact ⟨hexact.drops hdrops, hdrops.othersKept⟩
  | moveAllToActiveQueue ord clock =>
    cases hstep
    have hmoves := moveAllToActiveQueue_moves comp ord clock hnamed hexact
    exact ⟨hmoves.1, hmoves.othersKept⟩
  | flushBackoffQCompleted clock =>
    cases hstep
    have hmoves := flushBackoffQCompleted_moves comp clock hnamed hexact
    exact ⟨hmoves.1, hmoves.othersKept⟩
  | flushUnschedulableQLeftover ord currentTime clock =>
    cases hstep
    have hmoves := flushUnschedulableQLeftover_moves comp ord currentTime clock hnamed hexact
    exact ⟨hmoves.1, hmoves.othersKept⟩

theorem not_exact_of_absent {p : PriorityQueue} {stack : PodStack} {pending : Set NamespacedName}
    (hcollides : p.Collides stack)
    (hhas : ¬ (p.Has .activeQ (nsNameForStack stack) ∨ p.Has .backoffQ (nsNameForStack stack))) :
    ¬ Placement.Exact identity p.held (insert (nsNameForStack stack) pending) := by
  intro hexact
  obtain ⟨place, hplace⟩ := PriorityQueue.Has.of_exact hexact
  cases place with
  | activeQ => exact hhas (Or.inl hplace)
  | backoffQ => exact hhas (Or.inr hplace)
  | unschedulableQ => exact hcollides.not_has hplace

theorem step_loses (hnamed : s.queue.Named)
    (hexact : Placement.Exact identity s.queue.held (s.pending : Set NamespacedName))
    (hvalid : Valid s op) (hkeeps : ¬ Keeps s op) (hstep : Step comp s op t) :
    ¬ Placement.Exact identity t.queue.held (t.pending : Set NamespacedName) := by
  cases op with
  | add stack clock =>
    cases hstep
    rw [Finset.coe_insert]
    exact add_lost hexact (not_not.mp hkeeps)
  | addIfNotPresent stack clock =>
    obtain ⟨hcollides, hhas⟩ := Classical.not_imp.mp hkeeps
    cases hstep
    rw [Finset.coe_insert, addIfNotPresent_of_occupied (hcollides.occupied clock)]
    exact not_exact_of_absent hcollides hhas
  | addUnschedulableIfNotPresent stack cycle clock =>
    obtain ⟨hcollides, hhas⟩ := Classical.not_imp.mp hkeeps
    obtain ⟨e, he⟩ := addUnschedulable_of_occupied cycle (hcollides.occupied clock)
    cases hstep
    rw [Finset.coe_insert]
    simp only [he]
    exact not_exact_of_absent hcollides hhas
  | update oldStack newStack clock =>
    obtain ⟨hcollides, hhas⟩ := Classical.not_imp.mp hkeeps
    have hnot := not_or.mp hhas
    obtain ⟨p', hok, hlost⟩ := updateUnqueued_lost hexact comp clock oldStack hcollides
    rw [Step, step, update_of_not_heap hnamed hvalid.1 hvalid.2 hnot.1 hnot.2, hok] at hstep
    cases hstep
    rw [Finset.coe_insert]
    exact hlost
  | delete stack =>
    obtain ⟨hcollides, hactive⟩ := Classical.not_imp.mp hkeeps
    cases hstep
    rw [Finset.coe_erase]
    exact delete_lost hexact hnamed hvalid hcollides hactive
  | pop | moveAllToActiveQueue | flushBackoffQCompleted | flushUnschedulableQLeftover =>
    exact absurd trivial hkeeps

theorem step_exact_iff (hnamed : s.queue.Named) (hexact : s.Exact) (hvalid : Valid s op)
    (hstep : Step comp s op t) :
    (t.Exact ↔ Keeps s op) ∧ (Keeps s op →
      OthersKept identity s.queue.held t.queue.held (op.subject comp s)) := by
  rw [State.exact_iff hnamed] at hexact
  rw [State.exact_iff (step_named s op t hnamed hvalid hstep)]
  by_cases hkeeps : Keeps s op
  · have hfollows := step_follows hnamed hexact hvalid hkeeps hstep
    exact ⟨iff_of_true hfollows.1 hkeeps, fun _ => hfollows.2⟩
  · exact ⟨iff_of_false (step_loses hnamed hexact hvalid hkeeps hstep) hkeeps, fun h => absurd h hkeeps⟩

theorem update_total (p : PriorityQueue) (comp : StackInfo → StackInfo → Bool) (clock : Clock)
    (oldStack newStack : PodStack) : ∃ p', p.update comp clock (some oldStack) newStack = .ok p' := by
  simp only [update, updateUnqueued]
  split
  · exact ⟨_, rfl⟩
  · split
    · exact ⟨_, rfl⟩
    · split
      · split
        · exact ⟨_, rfl⟩
        · exact ⟨_, rfl⟩
      · exact ⟨_, rfl⟩

theorem step_total (comp : StackInfo → StackInfo → Bool) (s : State) (op : Operation) : ∃ t, Step comp s op t := by
  cases op with
  | update oldStack newStack clock =>
    obtain ⟨p', hp'⟩ := update_total s.queue comp clock oldStack newStack
    exact ⟨⟨p', insert (nsNameForStack newStack) s.pending⟩, by rw [Step, step, hp']; rfl⟩
  | pop =>
    cases hpop : s.queue.pop comp with
    | none => exact ⟨s, by rw [Step, step, hpop]; rfl⟩
    | some popped => exact ⟨⟨popped.2, _⟩, by rw [Step, step, hpop]; rfl⟩
  | _ => exact ⟨_, rfl⟩

theorem start_named : ({} : State).queue.Named := by
  refine ⟨fun a ha => ?_, fun a ha => ?_, fun a ha => ?_⟩ <;> cases ha

theorem start_exact : ({} : State).Exact where
  listed i := by simp [pendingStacks, Heap.list, list]
  once i hi := absurd hi (Finset.notMem_empty i)

end

/-- **The pending stacks.** After operations that each keep the queue exact, the pending
stacks are those added and since neither popped nor deleted, each at one place. From any
state in which this is so, however it was reached, the next operation keeps it so, and every
stack it is not about as it was, exactly if it does not meet another stack in
`unschedulableQ` or its own is where it looks first. -/
theorem pending_exact_iff (comp : StackInfo → StackInfo → Bool) {ops : List Operation} {s : State}
    (h : Run (Step comp) Valid {} ops s) :
    (Run (Step comp) (fun s op => Valid s op ∧ Keeps s op) {} ops s → s.Exact) ∧
      ∀ op, Valid s op → ∃ t, Step comp s op t ∧ (s.Exact →
        (t.Exact ∧ OthersKept identity s.queue.held t.queue.held (op.subject comp s) ↔
          Keeps s op)) := by
  have hkept := Run.kept_iff (I := fun s => s.queue.Named) (R := State.Exact) step_named
    (fun s op t hnamed hexact hvalid hstep => (step_exact_iff hnamed hexact hvalid hstep).1) h
    start_named start_exact
  refine ⟨hkept.1, fun op hvalid => ?_⟩
  obtain ⟨t, hstep⟩ := step_total comp s op
  refine ⟨t, hstep, fun hexact => ?_⟩
  obtain ⟨hiff, hothers⟩ := step_exact_iff (h.invariant step_named start_named) hexact hvalid hstep
  exact ⟨fun ht => hiff.mp ht.1, fun hkeeps => ⟨hiff.mpr hkeeps, hothers hkeeps⟩⟩

/-- The stack of a tenant, with the name and namespace of every other tenant's. -/
def web (tenant : String) : PodStack := { tenant := tenant, podNamespace := "default", podName := "web" }

def atZero : Clock := fun _ _ => 0

theorem web_slashless : (nsNameForStack (web "a")).Slashless ∧ (nsNameForStack (web "b")).Slashless :=
  ⟨⟨by decide, by decide, by decide⟩, ⟨by decide, by decide, by decide⟩⟩

/-- A stack that could not be scheduled is pending. To add it again would keep it so; to add
the other tenant's loses it. -/
theorem pending_exact_unschedulable : ∃ s : State,
    Run (Step activeQComp) (fun s op => Valid s op ∧ Keeps s op) {}
      [.addUnschedulableIfNotPresent (web "a") 0 atZero] s ∧ s.Exact ∧
    (∃ t, Step activeQComp s (.add (web "a") atZero) t ∧ t.Exact) ∧
    (∃ t, Step activeQComp s (.add (web "b") atZero) t ∧
      ¬ (t.Exact ∧ OthersKept identity s.queue.held t.queue.held
        (some (nsNameForStack (web "b"))))) := by
  have hfresh : Keeps {} (.addUnschedulableIfNotPresent (web "a") 0 atZero) := by
    rintro ⟨info, hget, -⟩
    cases hget
  obtain ⟨s, hs⟩ : ∃ s, step activeQComp {} (.addUnschedulableIfNotPresent (web "a") 0 atZero) = .ok s :=
    ⟨_, rfl⟩
  have hkept : Run (Step activeQComp) (fun s op => Valid s op ∧ Keeps s op) {}
      [.addUnschedulableIfNotPresent (web "a") 0 atZero] s := .cons ⟨web_slashless.1, hfresh⟩ hs (.nil s)
  have hvalid := hkept.mono fun _ _ h => h.1
  obtain ⟨hexact, hnext⟩ := pending_exact_iff activeQComp hvalid
  have hentry : s.queue.unschedulableQ.get (web "a") = some ⟨web "a", 0⟩ := by
    cases hs
    rfl
  refine ⟨s, hkept, hexact hkept, ?_, ?_⟩
  · obtain ⟨t, ht, hiff⟩ := hnext (.add (web "a") atZero) web_slashless.1
    refine ⟨t, ht, ((hiff (hexact hkept)).mpr ?_).1⟩
    rintro ⟨info, hget, hne⟩
    rw [hentry] at hget
    cases hget
    exact hne rfl
  · obtain ⟨t, ht, hiff⟩ := hnext (.add (web "b") atZero) web_slashless.2
    refine ⟨t, ht, fun h => (hiff (hexact hkept)).mp h ⟨⟨web "a", 0⟩, hentry, by decide⟩⟩

/-- Tenant a's stack is unschedulable when tenant b's of the same name is added. It was never
popped nor deleted, and is gone. -/
theorem other_tenants_stack_lost : ∃ s : State,
    Run (Step activeQComp) Valid {}
      [.addUnschedulableIfNotPresent (web "a") 0 atZero, .add (web "b") atZero] s ∧
    nsNameForStack (web "a") ∈ s.pending ∧
    s.queue.pendingStacks.map nsNameForStack = [nsNameForStack (web "b")] ∧ ¬ s.Exact := by
  obtain ⟨s, hs⟩ : ∃ s, step activeQComp {} (.addUnschedulableIfNotPresent (web "a") 0 atZero) = .ok s :=
    ⟨_, rfl⟩
  obtain ⟨t, ht⟩ : ∃ t, step activeQComp s (.add (web "b") atZero) = .ok t := ⟨_, rfl⟩
  have hpending : nsNameForStack (web "a") ∈ t.pending ∧
      t.queue.pendingStacks.map nsNameForStack = [nsNameForStack (web "b")] := by
    cases hs
    cases ht
    decide +kernel
  refine ⟨t, .cons web_slashless.1 hs (.cons web_slashless.2 ht (.nil t)), hpending.1, hpending.2, fun h => ?_⟩
  have hmem := (h.listed _).mpr hpending.1
  rw [hpending.2] at hmem
  revert hmem
  decide

end GlobalScheduler.SchedulingQueue
