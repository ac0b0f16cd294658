import GlobalScheduler.Scheduler.Rollback
import GlobalScheduler.Scheduler.SchedulingQueuePlaces

/-! One round of a pod worker.

`scheduleOne` takes a stack off the scheduling queue, schedules it and binds what was
placed. A pod that could not be scheduled is marked. A pod whose Bind the API server
rejects is only forgotten by the scheduler's cache: nothing marks it and nothing puts its
stack back, so it is lost to the scheduler. -/
namespace GlobalScheduler.ScheduleOne

open Go Schedule Outcome SchedulingQueue

/-! ### The code -/

structure Binding where
  tenant : String
  nameSpace : String
  name : String
  uid : String
  targetKind : String := "Cluster"
  targetName : String
deriving DecidableEq

/-- How the API server answers: the `i`-th Bind, the Get of the pod and the patch of its
status. -/
structure Answers where
  bind : Nat → Binding → Bool
  getPod : Bool := true
  patchPodStatus : Bool := true

/-- What a round has done: the queue it leaves, the Binds accepted, the pods set to
NoSchedule, and the stacks the cache was told to forget. -/
structure Effects where
  queue : PriorityQueue
  accepted : List Binding := []
  noSchedule : List PodStack := []
  forgotten : List PodStack := []

def generateAllocationFromStack (id : String) (stack : PodStack) : Allocation :=
  { id := id, stack := stack.toStack, replicas := 1, selector := stack.selector }

/-- A stack of the result: the popped one, with what scheduling has written to it. -/
def assumedStack (stack : PodStack) (placed : Stack) : PodStack :=
  { stack with selected := placed.selected, resources := placed.resources }

def bindingOf (clusterName : String) (assumed : PodStack) : Binding where
  tenant := assumed.tenant
  nameSpace := assumed.podNamespace
  name := assumed.podName
  uid := assumed.uid
  targetName := clusterName

section
variable (answers : Answers)

def setPodScheduleErr (stack : PodStack) (effects : Effects) : Effects :=
  if answers.getPod && answers.patchPodStatus then
    { effects with noSchedule := effects.noSchedule ++ [stack] }
  else effects

def bindToSite (i : Nat) (clusterName : String) (assumed : PodStack) (effects : Effects) :
    Effects :=
  let binding := bindingOf clusterName assumed
  if answers.bind i binding then { effects with accepted := effects.accepted ++ [binding] }
  else { effects with forgotten := effects.forgotten ++ [assumed] }

def bindStacks : List PodStack → Nat → Effects → Effects
  | [], _, effects => effects
  | newStack :: rest, i, effects =>
    bindStacks rest (i + 1) (bindToSite answers i newStack.selected.clusterName newStack effects)

/-- A round, with whether the worker goes on; `schedule` is what `Schedule` gives, and `comp` the
order of the queue. Where nothing is popped, the queue is closed. -/
def scheduleOne (schedule : Allocation → Outcome Result) (comp : StackInfo → StackInfo → Bool) (id : String)
    (queue : PriorityQueue) : Outcome (Effects × Bool) :=
  match queue.pop comp with
  | none => pure ({ queue := queue }, true)
  | some (stack, queue) => do
    let result ← schedule (generateAllocationFromStack id stack)
    match result.err with
    | some _ => pure (setPodScheduleErr answers stack { queue := queue }, true)
    | none =>
      let stackList := result.stackList.map (assumedStack stack)
      pure (bindStacks answers stackList 0 { queue := queue }, true)

end

/-! ### What becomes of a popped stack -/

namespace Effects
variable (effects : Effects) (stack : PodStack)

def Bound : Prop :=
  ∃ binding ∈ effects.accepted, binding.tenant = stack.tenant ∧
    binding.nameSpace = stack.podNamespace ∧ binding.name = stack.podName

def Marked : Prop := stack ∈ effects.noSchedule

def Queued : Prop := ∃ place, ∃ info ∈ effects.queue.infos place, info.identity = nsNameForStack stack

/-- The pod is bound, marked or queued again, and only one of these. -/
def Settled : Prop :=
  (effects.Bound stack ∧ ¬ effects.Marked stack ∧ ¬ effects.Queued stack) ∨
  (¬ effects.Bound stack ∧ effects.Marked stack ∧ ¬ effects.Queued stack) ∨
  (¬ effects.Bound stack ∧ ¬ effects.Marked stack ∧ effects.Queued stack)

variable {effects stack} in
theorem settled_of_not_marked (h : ¬ effects.Marked stack) :
    effects.Settled stack ↔ (effects.Bound stack ↔ ¬ effects.Queued stack) := by
  unfold Settled
  tauto

end Effects

/-- Some Bind of the round is accepted. -/
def AcceptsSome (answers : Answers) (stack : PodStack) (placed : List Stack) : Prop :=
  ∃ (i : Nat) (s : Stack), placed[i]? = some s ∧
    answers.bind i (bindingOf s.selected.clusterName (assumedStack stack s)) = true

/-- Scheduling fails and the pod can be read, or it returns stacks of which one is bound. -/
def Answered (answers : Answers) (schedule : Allocation → Outcome Result) (id : String)
    (stack : PodStack) : Prop :=
  ∃ r, schedule (generateAllocationFromStack id stack) = .ok r ∧
    (r.err ≠ none ∧ answers.getPod = true ∨
      r.err = none ∧ AcceptsSome answers stack r.stackList)

/-! ### The queue -/

/-- The queue has the stack at another place than `activeQ`. -/
def Elsewhere (q : PriorityQueue) (stack : PodStack) : Prop :=
  ∃ place, place ≠ .activeQ ∧ q.Has place (nsNameForStack stack)

theorem queued_of_pop {comp : StackInfo → StackInfo → Bool} {q q' : PriorityQueue} {stack : PodStack}
    (hpop : q.pop comp = some (stack, q')) : Effects.Queued { queue := q' } stack ↔ Elsewhere q stack := by
  unfold PriorityQueue.pop at hpop
  split at hpop
  · cases hpop
  · next pInfo activeQ hheap =>
    cases hpop
    obtain ⟨-, hothers, -⟩ := Heap.pop_eq_some comp hheap
    constructor
    · rintro ⟨place, info, hinfo, hsame⟩
      cases place with
      | activeQ => exact absurd (stackInfoKeyFunc_congr hsame) ((hothers info).mp hinfo).2
      | backoffQ => exact ⟨.backoffQ, by decide, info, hinfo, hsame⟩
      | unschedulableQ => exact ⟨.unschedulableQ, by decide, info, hinfo, hsame⟩
    · rintro ⟨place, hne, info, hinfo, hsame⟩
      cases place with
      | activeQ => exact absurd rfl hne
      | backoffQ => exact ⟨.backoffQ, info, hinfo, hsame⟩
      | unschedulableQ => exact ⟨.unschedulableQ, info, hinfo, hsame⟩

/-! ### The Binds -/

section Binds
variable (answers : Answers)

@[simp] theorem bindToSite_queue (i : Nat) (clusterName : String) (assumed : PodStack)
    (effects : Effects) :
    (bindToSite answers i clusterName assumed effects).queue = effects.queue := by
  simp only [bindToSite]
  split <;> rfl

@[simp] theorem bindToSite_noSchedule (i : Nat) (clusterName : String) (assumed : PodStack)
    (effects : Effects) :
    (bindToSite answers i clusterName assumed effects).noSchedule = effects.noSchedule := by
  simp only [bindToSite]
  split <;> rfl

theorem bindStacks_frame (stackList : List PodStack) (i : Nat) (effects : Effects) :
    (bindStacks answers stackList i effects).queue = effects.queue ∧
      (bindStacks answers stackList i effects).noSchedule = effects.noSchedule := by
  induction stackList generalizing i effects with
  | nil => exact ⟨rfl, rfl⟩
  | cons newStack rest ih =>
    obtain ⟨hqueue, hmarked⟩ := ih (i + 1) (bindToSite answers i newStack.selected.clusterName newStack effects)
    exact ⟨hqueue.trans (by simp), hmarked.trans (by simp)⟩

theorem bindToSite_bound (i : Nat) (stack : PodStack) (placed : Stack) (effects : Effects) :
    (bindToSite answers i placed.selected.clusterName (assumedStack stack placed) effects).Bound stack ↔
      effects.Bound stack ∨
        answers.bind i (bindingOf placed.selected.clusterName (assumedStack stack placed)) = true := by
  simp only [bindToSite]
  split
  case isTrue haccepts =>
    refine iff_of_true ?_ (Or.inr haccepts)
    exact ⟨_, List.mem_append_right _ (List.mem_singleton.mpr rfl), rfl, rfl, rfl⟩
  case isFalse hrejects => simp [hrejects, Effects.Bound]

theorem bindStacks_bound (stack : PodStack) (placed : List Stack) (i : Nat) (effects : Effects) :
    (bindStacks answers (placed.map (assumedStack stack)) i effects).Bound stack ↔
      effects.Bound stack ∨ ∃ (k : Nat) (s : Stack), placed[k]? = some s ∧
        answers.bind (i + k) (bindingOf s.selected.clusterName (assumedStack stack s)) = true := by
  induction placed generalizing i effects with
  | nil => simp [bindStacks]
  | cons s rest ih =>
    have hfirst : (bindToSite answers i (assumedStack stack s).selected.clusterName
        (assumedStack stack s) effects).Bound stack ↔ effects.Bound stack ∨
          answers.bind i (bindingOf s.selected.clusterName (assumedStack stack s)) = true :=
      bindToSite_bound answers i stack s effects
    rw [List.map_cons, bindStacks, ih, hfirst, or_assoc]
    refine or_congr_right ?_
    constructor
    · intro h
      cases h with
      | inl hhead => exact ⟨0, s, rfl, hhead⟩
      | inr htail =>
        obtain ⟨k, s', hget, haccepts⟩ := htail
        exact ⟨k + 1, s', hget, by rwa [← Nat.add_assoc, Nat.add_right_comm]⟩
    · intro h
      obtain ⟨k, s', hget, haccepts⟩ := h
      cases k with
      | zero =>
        cases hget
        exact Or.inl haccepts
      | succ k => exact Or.inr ⟨k, s', hget, by rwa [Nat.add_right_comm, Nat.add_assoc]⟩

end Binds

/-! ### The round -/

/-- **A popped pod is settled exactly if** scheduling fails and the pod can be read to be
marked, or one of the Binds is accepted; and where the queue has it at a second place, exactly
if neither. -/
theorem settled_iff (answers : Answers) (schedule : Allocation → Outcome Result)
    (comp : StackInfo → StackInfo → Bool) (id : String) (q q' : PriorityQueue) (stack : PodStack)
    (effects : Effects) (goesOn : Bool) (hpop : q.pop comp = some (stack, q'))
    (hpatch : answers.patchPodStatus = true)
    (h : scheduleOne answers schedule comp id q = .ok (effects, goesOn)) :
    effects.Settled stack ↔ (Answered answers schedule id stack ↔ ¬ Elsewhere q stack) := by
  rw [← queued_of_pop hpop]
  simp only [scheduleOne, hpop] at h
  obtain ⟨r, hcall, h⟩ := bind_ok.mp h
  have hanswered : Answered answers schedule id stack ↔ (r.err ≠ none ∧ answers.getPod = true ∨
      r.err = none ∧ AcceptsSome answers stack r.stackList) := by
    simp [Answered, hcall]
  rw [hanswered]
  cases herr : r.err with
  | some e =>
    -- No Bind is tried, and the patch of a pod that was read succeeds.
    simp only [herr] at h
    cases h
    cases hget : answers.getPod <;>
      simp [setPodScheduleErr, hpatch, hget, Effects.Settled, Effects.Bound, Effects.Marked, Effects.Queued]
  | none =>
    simp only [herr] at h
    cases h
    obtain ⟨hqueue, hmarked⟩ := bindStacks_frame answers (r.stackList.map (assumedStack stack)) 0
      { queue := q' }
    have hnone : ¬ Effects.Bound { queue := q' } stack := by simp [Effects.Bound]
    have hbound := bindStacks_bound answers stack r.stackList 0 { queue := q' }
    simp only [Nat.zero_add, hnone, false_or] at hbound
    have hunmarked : ¬ Effects.Marked (bindStacks answers (r.stackList.map (assumedStack stack)) 0
        { queue := q' }) stack := by
      simp [Effects.Marked, hmarked]
    rw [Effects.settled_of_not_marked hunmarked, hbound]
    simp [Effects.Queued, hqueue, AcceptsSome]

/-! ### One machine -/

/-- A pod of one machine of flavor `f`. -/
def onePod : PodStack where
  podName := "p"
  uid := "u"
  resources := (request 1).stack.resources

/-- It was added before another one. -/
def onePodQueue : PriorityQueue :=
  (PriorityQueue.add activeQComp (fun _ _ => 0) onePod {}).add activeQComp (fun _ _ => 1)
    { onePod with podName := "p2" }

theorem pop_onePodQueue : ∃ q', onePodQueue.pop activeQComp = some (onePod, q') := by
  have hpeek : onePodQueue.activeQ.peek = some ⟨onePod, 0⟩ := by with_unfolding_all rfl
  obtain ⟨activeQ, hpop⟩ := Heap.pop_of_peek activeQComp hpeek
  unfold PriorityQueue.pop
  rw [hpop]
  exact ⟨_, rfl⟩

theorem not_elsewhere_onePodQueue : ¬ Elsewhere onePodQueue onePod := by
  have hbackoff : onePodQueue.infos .backoffQ = [] := by decide +kernel
  have hunschedulable : onePodQueue.infos .unschedulableQ = [] := by decide +kernel
  rintro ⟨place, hne, info, hinfo, -⟩
  cases place with
  | activeQ => exact hne rfl
  | backoffQ =>
    rw [hbackoff] at hinfo
    cases hinfo
  | unschedulableQ =>
    rw [hunschedulable] at hinfo
    cases hinfo

/-- A site of cluster `c` with room for one machine. -/
def oneSite : Snapshot :=
  let info : SiteCacheInfo := { freshSite "a" 1 with site := some {
    siteID := "r--a", regionAzMap := ⟨"r", "a"⟩, status := "Normal", clusterName := "c" } }
  Snapshot.empty.put "r--a" info (by simp [info])

/-- The pod is scheduled to that site, and every Bind gets the same answer. -/
def oneRound (accepts : Bool) : Outcome (Effects × Bool) :=
  scheduleOne ⟨fun _ _ => accepts, true, true⟩ (scheduleShipped {} {} oneSite) activeQComp "i"
    onePodQueue

/-- What is left waiting after a round. -/
def waiting (effects : Effects) : List (List String) :=
  [Place.activeQ, .backoffQ, .unschedulableQ].map fun place =>
    (effects.queue.infos place).map fun info => info.stack.podName

theorem not_queued_of_waiting {effects : Effects} (h : waiting effects = [["p2"], [], []]) :
    ¬ effects.Queued onePod := by
  rintro ⟨place, info, hinfo, hsame⟩
  have hname : info.stack.podName = "p" := congrArg NamespacedName.name hsame
  have hmem : "p" ∈ (effects.queue.infos place).map fun info => info.stack.podName :=
    List.mem_map.mpr ⟨info, hinfo, hname⟩
  simp only [waiting, List.map_cons, List.map_nil, List.cons.injEq, and_true] at h
  obtain ⟨hactive, hbackoff, hunschedulable⟩ := h
  cases place with
  | activeQ =>
    rw [hactive] at hmem
    exact absurd hmem (by decide)
  | backoffQ =>
    rw [hbackoff] at hmem
    cases hmem
  | unschedulableQ =>
    rw [hunschedulable] at hmem
    cases hmem

theorem settled_iff_accepted :
    ∃ effects goesOn, oneRound true = .ok (effects, goesOn) ∧ effects.Settled onePod ∧
      Answered ⟨fun _ _ => true, true, true⟩ (scheduleShipped {} {} oneSite) "i" onePod := by
  have hrun : (oneRound true).map (fun r => (r.1.accepted, r.1.noSchedule, waiting r.1)) =
      .ok ([⟨"", "", "p", "u", "Cluster", "c"⟩], [], [["p2"], [], []]) := by
    decide +kernel
  obtain ⟨⟨effects, goesOn⟩, hr, heq⟩ := map_ok.mp hrun
  simp only [Prod.mk.injEq] at heq
  obtain ⟨haccepted, hmarked, hqueue⟩ := heq
  have hsettled : effects.Settled onePod := by
    refine Or.inl ⟨⟨⟨"", "", "p", "u", "Cluster", "c"⟩, ?_, rfl, rfl, rfl⟩, ?_, not_queued_of_waiting hqueue⟩
    · rw [haccepted]
      exact List.mem_singleton.mpr rfl
    · simp [Effects.Marked, hmarked]
  obtain ⟨q', hpop⟩ := pop_onePodQueue
  have hiff := (settled_iff _ _ _ _ _ _ _ _ _ hpop rfl hr).mp hsettled
  exact ⟨effects, goesOn, hr, hsettled, hiff.mpr not_elsewhere_onePodQueue⟩

/-- **A rejected Bind loses the pod**: it is scheduled, the API server rejects the Bind, and
the round returns with the pod neither bound nor marked nor queued. -/
theorem rejected_pod_lost :
    ∃ effects, oneRound false = .ok (effects, true) ∧
      (∃ q', onePodQueue.pop activeQComp = some (onePod, q')) ∧
      ¬ effects.Bound onePod ∧ ¬ effects.Marked onePod ∧ ¬ effects.Queued onePod ∧
      ¬ effects.Settled onePod := by
  have hrun : (oneRound false).map (fun r => (r.1.accepted, r.1.noSchedule, waiting r.1, r.2)) =
      .ok ([], [], [["p2"], [], []], true) := by
    decide +kernel
  obtain ⟨⟨effects, goesOn⟩, hr, heq⟩ := map_ok.mp hrun
  simp only [Prod.mk.injEq] at heq
  obtain ⟨haccepted, hmarked, hqueue, rfl⟩ := heq
  have hbound : ¬ effects.Bound onePod := by simp [Effects.Bound, haccepted]
  have hnot : ¬ effects.Marked onePod := by simp [Effects.Marked, hmarked]
  have hgone := not_queued_of_waiting hqueue
  exact ⟨effects, hr, pop_onePodQueue, hbound, hnot, hgone, by simp [Effects.Settled, hbound, hnot, hgone]⟩

end GlobalScheduler.ScheduleOne
