import GlobalScheduler.Scheduler.MoveRequests

/-! The order of `stackBackoffQ`.

The heap compares stacks by the ends of their backoffs, which it looks up in a map that
changes under it: the record of a stack is dropped some time after its backoff has run
out, and from then on the stack goes before all others. So the heap is not in the order
of the backoff times. But stacks whose backoff has run out need no order among each
other, and the clock does not go back: with every backoff time that is past replaced by
the present, the heap is in order at all times. -/
namespace GlobalScheduler

open Go Go.Heap Transition AList Heap

namespace SchedulingQueue

/-! ### The records -/

namespace StackBackoffMap
variable {pbm pbm' : StackBackoffMap} {i j : NamespacedName} {now : Time}

theorem doubled_le {maxDuration backoffDuration : Time} (hle : backoffDuration ≤ maxDuration) (attempts : Nat) :
    doubled maxDuration attempts backoffDuration ≤ maxDuration := by
  induction attempts generalizing backoffDuration with
  | zero => exact hle
  | succ attempts ih =>
    unfold doubled
    split
    · exact le_rfl
    · next hnot => exact ih (not_lt.mp hnot)

theorem calculateBackoffDuration_le (hdurations : pbm.initialDuration ≤ pbm.maxDuration) (i : NamespacedName) :
    pbm.calculateBackoffDuration i ≤ pbm.maxDuration := by
  unfold calculateBackoffDuration
  split
  · exact doubled_le hdurations _
  · exact hdurations

theorem getBackoffTime_congr (hinitial : pbm'.initialDuration = pbm.initialDuration)
    (hmax : pbm'.maxDuration = pbm.maxDuration)
    (hattempts : pbm'.stackAttempts.lookup i = pbm.stackAttempts.lookup i)
    (htime : pbm'.stackLastUpdateTime.lookup i = pbm.stackLastUpdateTime.lookup i) :
    pbm'.getBackoffTime i = pbm.getBackoffTime i := by
  unfold getBackoffTime calculateBackoffDuration
  rw [hattempts, htime, hinitial, hmax]

theorem getBackoffTime_clear_self : (pbm.clearStackBackoff i).getBackoffTime i = none := by
  simp [clearStackBackoff, getBackoffTime, lookup_erase]

theorem getBackoffTime_clear_ne (hne : j ≠ i) :
    (pbm.clearStackBackoff i).getBackoffTime j = pbm.getBackoffTime j :=
  getBackoffTime_congr rfl rfl (lookup_erase_ne hne) (lookup_erase_ne hne)

theorem getBackoffTime_backoffStack_ne {clock : Clock} (hne : j ≠ i) :
    (pbm.backoffStack clock i).getBackoffTime j = pbm.getBackoffTime j :=
  getBackoffTime_congr rfl rfl (lookup_insert_ne hne) (lookup_insert_ne hne)

theorem getBackoffTime_le {time boTime : Time} (hdurations : pbm.initialDuration ≤ pbm.maxDuration)
    (htime : pbm.stackLastUpdateTime.lookup i = some time) (hboTime : pbm.getBackoffTime i = some boTime) :
    boTime ≤ time + pbm.maxDuration := by
  unfold getBackoffTime at hboTime
  split at hboTime
  · cases hboTime
  · cases hboTime
    rw [htime, Option.getD_some]
    exact Int.add_le_add_left (calculateBackoffDuration_le hdurations i) time

/-- What a clean-up leaves: every record, but for some that are past. -/
structure Cleaned (pbm : StackBackoffMap) (now : Time) (pbm' : StackBackoffMap) : Prop where
  initialDuration : pbm'.initialDuration = pbm.initialDuration
  maxDuration : pbm'.maxDuration = pbm.maxDuration
  backoffTime : ∀ i, pbm'.getBackoffTime i = pbm.getBackoffTime i ∨
    pbm'.getBackoffTime i = none ∧ ∀ boTime, pbm.getBackoffTime i = some boTime → boTime ≤ now

theorem Cleaned.clear (hcleaned : Cleaned pbm now pbm')
    (hpast : ∀ boTime, pbm.getBackoffTime i = some boTime → boTime ≤ now) :
    Cleaned pbm now (pbm'.clearStackBackoff i) where
  initialDuration := hcleaned.initialDuration
  maxDuration := hcleaned.maxDuration
  backoffTime j := by
    by_cases hji : j = i
    · subst hji
      exact Or.inr ⟨getBackoffTime_clear_self, hpast⟩
    · rw [getBackoffTime_clear_ne hji]
      exact hcleaned.backoffTime j

theorem cleaned_cleanup {clock : Clock} (hdurations : pbm.initialDuration ≤ pbm.maxDuration)
    (hclock : ∀ i, clock .cleanedUp i ≤ now) :
    Cleaned pbm now (pbm.cleanupStacksCompletesBackingoff clock) := by
  -- The loop is over the entries that were there at the start.
  have hloop : ∀ entries : List (Sigma fun _ : NamespacedName => Time),
      (∀ entry ∈ entries, pbm.stackLastUpdateTime.lookup entry.1 = some entry.2) →
      ∀ pbm', Cleaned pbm now pbm' → Cleaned pbm now (entries.foldl (fun pbm' entry =>
        if entry.2 + pbm.maxDuration < clock .cleanedUp entry.1 then pbm'.clearStackBackoff entry.1
        else pbm') pbm') := by
    intro entries
    induction entries with
    | nil => exact fun _ pbm' hcleaned => hcleaned
    | cons entry rest ih =>
      intro hentries pbm' hcleaned
      rw [List.foldl_cons]
      apply ih fun entry' hmem => hentries entry' (List.mem_cons_of_mem entry hmem)
      split
      · next hpast =>
        apply hcleaned.clear
        intro boTime hboTime
        have hle := getBackoffTime_le hdurations (hentries entry List.mem_cons_self) hboTime
        exact hle.trans (hpast.le.trans (hclock entry.1))
      · exact hcleaned
  apply hloop
  · intro entry hmem
    exact mem_lookup_iff.mpr hmem
  · exact ⟨rfl, rfl, fun i => Or.inl rfl⟩

end StackBackoffMap

/-! ### When a stack is due -/

/-- The end of the backoff of a stack, or the present if that is past. -/
def due (pbm : StackBackoffMap) (now : Time) (info : StackInfo) : Time :=
  max ((pbm.getBackoffTime info.identity).getD 0) now

section
variable {pbm pbm' : StackBackoffMap} {now later : Time} {info : StackInfo}

theorem agrees_due (pbm : StackBackoffMap) (now : Time) :
    Agrees (stacksCompareBackoffCompleted pbm) (due pbm now) where
  before _ _ hless := max_le_max_right now (of_decide_eq_true hless).le
  after _ _ hless := max_le_max_right now (not_lt.mp (of_decide_eq_false hless))

theorem due_later (hlater : now ≤ later) : due pbm later info = max (due pbm now info) later := by
  unfold due
  rw [max_assoc, max_eq_right hlater]

theorem due_congr (hsame : pbm'.getBackoffTime info.identity = pbm.getBackoffTime info.identity) :
    due pbm' now info = due pbm now info := by
  unfold due
  rw [hsame]

theorem StackBackoffMap.Cleaned.due_eq (hcleaned : pbm.Cleaned now pbm') (hnow : 0 ≤ now) :
    due pbm' now info = due pbm now info := by
  cases hcleaned.backoffTime info.identity with
  | inl hsame => exact due_congr hsame
  | inr hgone =>
    have hpast : (pbm.getBackoffTime info.identity).getD 0 ≤ now := by
      cases hrecord : pbm.getBackoffTime info.identity with
      | none => exact hnow
      | some boTime => exact hgone.2 boTime hrecord
    unfold due
    rw [hgone.1, Option.getD_none, max_eq_right hnow, max_eq_right hpast]

end

/-! ### The operations keep the order -/

namespace PriorityQueue
variable {p p' : PriorityQueue} {comp : StackInfo → StackInfo → Bool} {clock : Clock} {stack : PodStack}
  {now now' : Time} {x : StackInfo}

/-- The stacks of `stackBackoffQ` are in the order in which they are due. -/
structure InOrder (p : PriorityQueue) (now : Time) : Prop where
  durations : p.stackBackoff.initialDuration ≤ p.stackBackoff.maxDuration
  ordered : Ordered (due p.stackBackoff now) p.stackBackoffQ.queue

theorem InOrder.later (h : p.InOrder now) (hlater : now ≤ now') : p.InOrder now' where
  durations := h.durations
  ordered := by
    have hsame : due p.stackBackoff now' = fun info => max (due p.stackBackoff now info) now' :=
      funext fun info => due_later hlater
    rw [hsame]
    exact h.ordered.map fun a b hab => max_le_max_right now' hab

theorem InOrder.records {pbm : StackBackoffMap} (h : p.InOrder now)
    (hdurations : pbm.initialDuration ≤ pbm.maxDuration)
    (hsame : ∀ a ∈ p.stackBackoffQ.queue, due pbm now a = due p.stackBackoff now a) :
    ({ p with stackBackoff := pbm } : PriorityQueue).InOrder now :=
  ⟨hdurations, (ordered_congr hsame).mpr h.ordered⟩

theorem InOrder.backoffStack (h : p.InOrder now) (hnow : 0 ≤ now) (hclock : ∀ i, clock .cleanedUp i ≤ now)
    (habsent : ∀ a ∈ p.stackBackoffQ.queue, a.identity ≠ nsNameForStack stack) :
    (p.backoffStack clock stack).InOrder now := by
  have hcleaned := StackBackoffMap.cleaned_cleanup h.durations hclock
  have hdurations : (p.stackBackoff.cleanupStacksCompletesBackingoff clock).initialDuration ≤
      (p.stackBackoff.cleanupStacksCompletesBackingoff clock).maxDuration := by
    rw [hcleaned.initialDuration, hcleaned.maxDuration]
    exact h.durations
  have hrenewed : ({ p with
      stackBackoff := StackBackoffMap.backoffStack clock (nsNameForStack stack)
        (p.stackBackoff.cleanupStacksCompletesBackingoff clock) } : PriorityQueue).InOrder now := by
    apply h.records
    · exact hdurations
    intro a ha
    rw [← hcleaned.due_eq hnow]
    exact due_congr (StackBackoffMap.getBackoffTime_backoffStack_ne (habsent a ha))
  unfold PriorityQueue.backoffStack
  dsimp only
  split
  · exact hrenewed
  · split
    · exact hrenewed
    · exact h.records hdurations fun a _ => hcleaned.due_eq hnow

theorem InOrder.flushed {rest : Heap stackInfoKeyFunc} (h : p.InOrder now)
    (hpop : p.stackBackoffQ.pop (stacksCompareBackoffCompleted p.stackBackoff) = some (x, rest)) :
    ({ p with stackBackoffQ := rest, activeQ := p.activeQ.add comp x } : PriorityQueue).InOrder now :=
  ⟨h.durations, pop_ordered (agrees_due p.stackBackoff now) h.ordered hpop⟩

/-- `p` with other records and another heap. -/
def withBackoff (p : PriorityQueue) (b : StackBackoffMap × Heap stackInfoKeyFunc) : PriorityQueue :=
  { p with stackBackoff := b.1, stackBackoffQ := b.2 }

variable {shows : Time → Prop} {names : Set NamespacedName} {valid : Prop}

theorem BackoffWrite.inOrder {b b' : StackBackoffMap × Heap stackInfoKeyFunc}
    (hwrite : BackoffWrite shows names valid b b') (hnow : 0 ≤ now)
    (hshows : ∀ time, shows time → time ≤ now) (hvalid : valid) (h : (p.withBackoff b).InOrder now) :
    (p.withBackoff b').InOrder now := by
  cases hwrite with
  | heap write => exact ⟨h.durations, write.ordered (agrees_due _ now) h.ordered⟩
  | @backoffStack q clock stack shown absent =>
    have hnoted : (q.backoffStack clock stack).InOrder now :=
      InOrder.backoffStack ⟨h.durations, h.ordered⟩ hnow (fun i => hshows _ (shown i)) absent
    obtain ⟨stackBackoff, hbackoff⟩ := backoffStack_eq clock stack q
    rw [hbackoff] at hnoted ⊢
    exact ⟨hnoted.durations, hnoted.ordered⟩
  | clear absent =>
    exact h.records h.durations fun a ha => due_congr (StackBackoffMap.getBackoffTime_clear_ne (absent hvalid a ha))
  | drop pbm heap x =>
    -- The record is cleared first: the stack is out of order when it is deleted from the heap.
    refine ⟨h.durations, deleteIfPresent_ordered (agrees_due _ now) h.ordered fun a _ hkey => ?_⟩
    refine (due_congr (StackBackoffMap.getBackoffTime_clear_ne fun hident => hkey ?_)).symm
    exact stackInfoKeyFunc_congr hident

theorem Written.inOrder {counters : Int × Int}
    (hwritten : Written comp shows names valid counters p p') (hnow : 0 ≤ now)
    (hshows : ∀ time, shows time → time ≤ now) (hvalid : valid) (h : p.InOrder now) : p'.InOrder now := by
  have hall : (p.withBackoff (p'.stackBackoff, p'.stackBackoffQ)).InOrder now := by
    refine Relation.ReflTransGen.recOn (motive := fun b _ => (p.withBackoff b).InOrder now) hwritten.backoff
      ⟨h.durations, h.ordered⟩ ?_
    exact fun _ hwrite hb => hwrite.inOrder hnow hshows hvalid hb
  exact ⟨hall.durations, hall.ordered⟩

end PriorityQueue

/-! ### The order of `activeQ`

Its stacks are compared by what does not change while they are in the heap, so that it is in
order at all times, whatever stacks the calls are about. -/

section
variable {comp : StackInfo → StackInfo → Bool} {β : Type} [LinearOrder β] {rank : StackInfo → β} {h h' : History}
  {e : Event}

theorem PriorityQueue.Written.activeQ_ordered {shows : Time → Prop} {names : Set NamespacedName} {valid : Prop}
    {counters : Int × Int} {p p' : PriorityQueue} (hwritten : p.Written comp shows names valid counters p')
    (hagrees : Agrees comp rank) (hordered : Ordered rank p.activeQ.queue) : Ordered rank p'.activeQ.queue := by
  refine Relation.ReflTransGen.recOn (motive := fun q _ => Ordered rank q.queue) hwritten.activeQ hordered ?_
  exact fun _ hwrite hq => hwrite.ordered hagrees hq

theorem History.Step.activeQ_ordered (hagrees : Agrees comp rank) (hstep : History.Step comp h e h')
    (hordered : Ordered rank h.state.queue.activeQ.queue) : Ordered rank h'.state.queue.activeQ.queue := by
  cases e with
  | operation op =>
    obtain ⟨state, hstate, hstep⟩ := Outcome.bind_ok.mp hstep
    cases hstep
    have hwritten := @step_written h.state state comp op (fun _ => True) (fun _ _ _ _ _ => trivial) hstate
    exact hwritten.activeQ_ordered hagrees hordered
  | updateNew newStack clock =>
    obtain ⟨queue, hqueue, hstep⟩ := Outcome.bind_ok.mp hstep
    cases hstep
    have hwritten : PriorityQueue.Written comp (fun _ => True) {nsNameForStack newStack} False _ _ queue :=
      PriorityQueue.written_update rfl (fun h => h.elim) hqueue
    exact hwritten.activeQ_ordered hagrees hordered
  | close | nominate _ =>
    cases hstep
    exact hordered

/-- **Pop takes the first.** After any run, what `Pop` takes is before or beside all that is in
`activeQ`, by every order that the comparison agrees with, and only it is gone from there. -/
theorem pop_first (hagrees : Agrees comp rank) {es : List Event}
    (hrun : Run (History.Step comp) (fun _ _ => True) { state := {} } es h) {stack : PodStack} {p' : PriorityQueue}
    (hpop : h.state.queue.pop comp = some (stack, p')) :
    ∃ info ∈ h.state.queue.activeQ.queue, info.stack = stack ∧
      (∀ other ∈ h.state.queue.activeQ.queue, rank info ≤ rank other) ∧
      ∀ other, other ∈ p'.activeQ.queue ↔
        other ∈ h.state.queue.activeQ.queue ∧ stackInfoKeyFunc other ≠ stackInfoKeyFunc info := by
  have hordered : Ordered rank h.state.queue.activeQ.queue :=
    hrun.invariant (I := fun h => Ordered rank h.state.queue.activeQ.queue)
      (fun _ _ _ hordered _ hstep => hstep.activeQ_ordered hagrees hordered) ordered_nil
  unfold PriorityQueue.pop at hpop
  split at hpop
  · cases hpop
  · next info activeQ hheap =>
    cases hpop
    obtain ⟨hinfo, hrest, -⟩ := pop_eq_some comp hheap
    exact ⟨info, hinfo, rfl, fun other hother => hordered.head_le (peek_of_pop comp hheap) hother, hrest⟩

end

theorem agrees_activeQComp : Agrees activeQComp StackInfo.timestamp where
  before a b hless := by
    have hearlier : a.timestamp < b.timestamp := by simpa [activeQComp, getStackPriority] using hless
    exact hearlier.le
  after a b hless := by
    simpa [activeQComp, getStackPriority] using hless

/-- Of two stacks the one with the earlier timestamp is popped, though it was added later. -/
theorem pop_first_earlier : ∃ h : History,
    Run (History.Step activeQComp) (fun _ _ => True) { state := {} }
      [.operation (.add (web "a") fun _ _ => 2), .operation (.add (web "b") fun _ _ => 1)] h ∧
    ∃ p', h.state.queue.pop activeQComp = some (web "b", p') ∧
      ∃ info : StackInfo, info.stack = web "b" ∧
        ∀ other ∈ h.state.queue.activeQ.queue, info.timestamp ≤ other.timestamp := by
  have hend : ([.operation (.add (web "a") fun _ _ => 2), .operation (.add (web "b") fun _ _ => 1)].foldlM
      (History.next activeQComp) { state := {} }).map (fun h => (h.state.queue.pop activeQComp).map Prod.fst) =
      .ok (some (web "b")) := by
    with_unfolding_all rfl
  obtain ⟨h, hfold, hpopped⟩ := Outcome.map_ok.mp hend
  obtain ⟨⟨stack, p'⟩, hpop, rfl⟩ := Option.map_eq_some_iff.mp hpopped
  obtain ⟨info, -, hstack, hfirst, -⟩ := pop_first agrees_activeQComp (Run.of_foldlM hfold) hpop
  exact ⟨h, Run.of_foldlM hfold, p', hpop, info, hstack, hfirst⟩

end SchedulingQueue

end GlobalScheduler
