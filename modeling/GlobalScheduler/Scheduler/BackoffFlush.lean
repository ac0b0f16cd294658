import GlobalScheduler.Scheduler.BackoffOrder

/-! The flush of `stackBackoffQ`.

A flush takes the stacks out one by one, as long as the backoff of the next has run out,
and reads the clock for each. The stack at which it stops is due after the flush began, so
all that are behind it are. -/
namespace GlobalScheduler.SchedulingQueue

open Go Transition Outcome Heap List

/-! ### The rounds of a flush -/

namespace PriorityQueue
variable {p p' : PriorityQueue} {comp : StackInfo → StackInfo → Bool} {clock : Clock} {readings : List Time}
  {x : StackInfo}

/-- What a flush can do: the readings it makes, and the queue it leaves. -/
inductive Flushes (comp : StackInfo → StackInfo → Bool) (clock : Clock) :
    PriorityQueue → List Time → PriorityQueue → Prop where
  | empty {p : PriorityQueue} (peek : p.stackBackoffQ.peek = none) : Flushes comp clock p [] p
  | waits {p : PriorityQueue} {x : StackInfo} {boTime : Time} (peek : p.stackBackoffQ.peek = some x)
      (record : p.stackBackoff.getBackoffTime x.identity = some boTime)
      (early : clock .checked x.identity < boTime) : Flushes comp clock p [clock .checked x.identity] p
  | unrecorded {p p' : PriorityQueue} {x : StackInfo} {rest : Heap stackInfoKeyFunc} {readings : List Time}
      (pop : p.stackBackoffQ.pop (stacksCompareBackoffCompleted p.stackBackoff) = some (x, rest))
      (record : p.stackBackoff.getBackoffTime x.identity = none)
      (others : Flushes comp clock { p with stackBackoffQ := rest, activeQ := p.activeQ.add comp x } readings p') :
      Flushes comp clock p readings p'
  | completed {p p' : PriorityQueue} {x : StackInfo} {rest : Heap stackInfoKeyFunc} {readings : List Time}
      {boTime : Time}
      (pop : p.stackBackoffQ.pop (stacksCompareBackoffCompleted p.stackBackoff) = some (x, rest))
      (record : p.stackBackoff.getBackoffTime x.identity = some boTime)
      (late : boTime ≤ clock .checked x.identity)
      (others : Flushes comp clock { p with stackBackoffQ := rest, activeQ := p.activeQ.add comp x } readings p') :
      Flushes comp clock p (clock .checked x.identity :: readings) p'

theorem flushes_flushBackoffQCompleted (comp : StackInfo → StackInfo → Bool) (clock : Clock) (p : PriorityQueue) :
    Flushes comp clock p (p.flushReadings comp clock) (p.flushBackoffQCompleted comp clock) := by
  unfold flushBackoffQCompleted flushReadings
  fun_induction flushBackoffQ comp clock p with
  | case1 p hpeek => exact .empty hpeek
  | case2 p x hpeek nsStack read waits hwaits =>
    cases hrecord : p.stackBackoff.getBackoffTime nsStack with
    | none => simp [waits, hrecord] at hwaits
    | some boTime =>
      have hread : read = [clock .checked nsStack] := by simp [read, hrecord]
      have hearly : clock .checked nsStack < boTime := by simpa [waits, hrecord] using hwaits
      rw [hread]
      exact .waits hpeek hrecord hearly
  | case3 p x hpeek _ _ _ _ hpop =>
    obtain ⟨rest, hrest⟩ := pop_of_peek (stacksCompareBackoffCompleted p.stackBackoff) hpeek
    cases hpop.symm.trans hrest
  | case4 p x hpeek nsStack read waits hwaits y rest hpop flushed ih =>
    obtain ⟨rest', hrest⟩ := pop_of_peek (stacksCompareBackoffCompleted p.stackBackoff) hpeek
    cases hpop.symm.trans hrest
    cases hrecord : p.stackBackoff.getBackoffTime nsStack with
    | none =>
      have hread : read = [] := by simp [read, hrecord]
      rw [hread]
      exact .unrecorded hpop hrecord ih
    | some boTime =>
      have hread : read = [clock .checked nsStack] := by simp [read, hrecord]
      have hlate : boTime ≤ clock .checked nsStack := by simpa [waits, hrecord] using hwaits
      rw [hread]
      exact .completed hpop hrecord hlate ih

/-! ### What a flush leaves -/

theorem Flushes.subset (hflushes : Flushes comp clock p readings p') (hx : x ∈ p'.stackBackoffQ.queue) :
    x ∈ p.stackBackoffQ.queue := by
  induction hflushes with
  | empty | waits => exact hx
  | unrecorded hpop _ _ ih | completed hpop _ _ _ ih => exact (((pop_eq_some _ hpop).2.1 x).mp (ih hx)).1

/-- Whoever waits behind a stack that is due after `start` is due after `start` as well. -/
theorem InOrder.behind {now start boTime : Time} {head : StackInfo} (h : p.InOrder now) (hnow : 0 ≤ now)
    (hstart : now ≤ start) (hpeek : p.stackBackoffQ.peek = some head)
    (hrecord : p.stackBackoff.getBackoffTime head.identity = some boTime) (hdue : start < boTime)
    (hx : x ∈ p.stackBackoffQ.queue) :
    ∃ boTime, p.stackBackoff.getBackoffTime x.identity = some boTime ∧ start < boTime := by
  have hle := h.ordered.head_le hpeek hx
  simp only [due, hrecord, Option.getD_some] at hle
  have hlater : start < (p.stackBackoff.getBackoffTime x.identity).getD 0 := by
    apply (lt_max_iff.mp (hdue.trans_le ((le_max_left boTime now).trans hle))).resolve_right
    exact not_lt.mpr hstart
  cases hrecordx : p.stackBackoff.getBackoffTime x.identity with
  | none =>
    rw [hrecordx] at hlater
    exact absurd hlater (not_lt.mpr (hnow.trans hstart))
  | some boTimex =>
    rw [hrecordx] at hlater
    exact ⟨boTimex, rfl, hlater⟩

theorem Flushes.stays {now start : Time} (hflushes : Flushes comp clock p readings p') (h : p.InOrder now)
    (hnow : 0 ≤ now) (hstart : now ≤ start) (hreadings : ∀ reading ∈ readings, start ≤ reading)
    (hx : x ∈ p'.stackBackoffQ.queue) :
    ∃ boTime, p.stackBackoff.getBackoffTime x.identity = some boTime ∧ start < boTime := by
  induction hflushes with
  | empty hpeek =>
    rw [peek, head?_eq_none_iff] at hpeek
    rw [hpeek] at hx
    cases hx
  | waits hpeek hrecord hearly =>
    have hread := hreadings _ mem_cons_self
    exact h.behind hnow hstart hpeek hrecord (hread.trans_lt hearly) hx
  | unrecorded hpop _ _ ih => exact ih (h.flushed hpop) hreadings hx
  | completed hpop _ _ _ ih =>
    exact ih (h.flushed hpop) (fun reading hmem => hreadings reading (mem_cons_of_mem _ hmem)) hx

theorem Flushes.active (hflushes : Flushes comp clock p readings p') (hx : x ∈ p.activeQ.queue)
    (hkey : ∀ y ∈ p.stackBackoffQ.queue, stackInfoKeyFunc y ≠ stackInfoKeyFunc x) : x ∈ p'.activeQ.queue := by
  induction hflushes with
  | empty => exact hx
  | waits => exact hx
  | unrecorded hpop _ _ ih | completed hpop _ _ _ ih =>
    obtain ⟨hy, hrest, -⟩ := pop_eq_some _ hpop
    apply ih
    · exact (mem_added comp).mpr (Or.inr ⟨hx, (hkey _ hy).symm⟩)
    · intro z hz
      exact hkey z ((hrest z).mp hz).1

theorem Flushes.popped {y : StackInfo} {rest : Heap stackInfoKeyFunc}
    (hothers : Flushes comp clock { p with stackBackoffQ := rest, activeQ := p.activeQ.add comp y } readings p')
    (hpop : p.stackBackoffQ.pop (stacksCompareBackoffCompleted p.stackBackoff) = some (y, rest)) :
    y ∈ p'.activeQ.queue := by
  obtain ⟨-, hrest, -⟩ := pop_eq_some _ hpop
  apply hothers.active
  · exact (mem_added comp).mpr (Or.inl rfl)
  · exact fun z hz => ((hrest z).mp hz).2

/-- A stack that leaves goes to `activeQ`, and its backoff had run out at a reading. -/
theorem Flushes.left (hflushes : Flushes comp clock p readings p') (hx : x ∈ p.stackBackoffQ.queue)
    (hleft : x ∉ p'.stackBackoffQ.queue) : x ∈ p'.activeQ.queue ∧
      ∀ boTime, p.stackBackoff.getBackoffTime x.identity = some boTime →
        ∃ reading ∈ readings, boTime ≤ reading := by
  induction hflushes with
  | empty | waits => exact absurd hx hleft
  | @unrecorded p p' y rest readings hpop hrecord hothers ih =>
    obtain ⟨hy, hrest, -⟩ := pop_eq_some _ hpop
    by_cases hkey : stackInfoKeyFunc x = stackInfoKeyFunc y
    · cases p.stackBackoffQ.eq_of_key hx hy hkey
      exact ⟨hothers.popped hpop, fun boTime hboTime => by cases hrecord.symm.trans hboTime⟩
    · exact ih ((hrest x).mpr ⟨hx, hkey⟩) hleft
  | @completed p p' y rest readings boTime hpop hrecord hlate hothers ih =>
    obtain ⟨hy, hrest, -⟩ := pop_eq_some _ hpop
    by_cases hkey : stackInfoKeyFunc x = stackInfoKeyFunc y
    · cases p.stackBackoffQ.eq_of_key hx hy hkey
      refine ⟨hothers.popped hpop, fun boTime' hboTime => ?_⟩
      cases hrecord.symm.trans hboTime
      exact ⟨_, mem_cons_self, hlate⟩
    · obtain ⟨hactive, hreading⟩ := ih ((hrest x).mpr ⟨hx, hkey⟩) hleft
      refine ⟨hactive, fun boTime' hboTime => ?_⟩
      obtain ⟨reading, hmem, hle⟩ := hreading boTime' hboTime
      exact ⟨reading, mem_cons_of_mem _ hmem, hle⟩

/-- A flush from `p` to `p'`, which began at `start` and made these readings, was right. -/
structure FlushRight (p p' : PriorityQueue) (start : Time) (readings : List Time) : Prop where
  /-- Who stays has a record, and a backoff that ends after the start. -/
  stays : ∀ info ∈ p'.stackBackoffQ.queue, info ∈ p.stackBackoffQ.queue ∧
    ∃ boTime, p.stackBackoff.getBackoffTime info.identity = some boTime ∧ start < boTime
  /-- Whose backoff ends after the last reading stays. -/
  waits : ∀ info ∈ p.stackBackoffQ.queue, ∀ boTime,
    p.stackBackoff.getBackoffTime info.identity = some boTime →
    (∀ last ∈ readings.getLast?, last < boTime) → info ∈ p'.stackBackoffQ.queue
  /-- Who leaves is in `activeQ`. -/
  leaves : ∀ info ∈ p.stackBackoffQ.queue, info ∉ p'.stackBackoffQ.queue → info ∈ p'.activeQ.queue

theorem le_getLast {last reading : Time} (hreadings : readings.Pairwise (· ≤ ·))
    (hlast : readings.getLast? = some last) (hmem : reading ∈ readings) : reading ≤ last := by
  obtain ⟨earlier, rfl⟩ := getLast?_eq_some_iff.mp hlast
  rcases mem_append.mp hmem with hearlier | hsame
  · exact (pairwise_append.mp hreadings).2.2 reading hearlier last (mem_singleton_self last)
  · exact (mem_singleton.mp hsame).le

/-- **A flush of a queue that is in order is right.** -/
theorem Flushes.right {now start : Time} (hflushes : Flushes comp clock p readings p') (h : p.InOrder now)
    (hnow : 0 ≤ now) (hstart : now ≤ start) (hreadings : (start :: readings).Pairwise (· ≤ ·)) :
    FlushRight p p' start readings where
  stays info hinfo := ⟨hflushes.subset hinfo,
    hflushes.stays h hnow hstart (pairwise_cons.mp hreadings).1 hinfo⟩
  waits info hinfo boTime hrecord hlast := by
    by_contra hleft
    obtain ⟨reading, hmem, hle⟩ := (hflushes.left hinfo hleft).2 boTime hrecord
    obtain ⟨last, hgetLast⟩ :=
      Option.isSome_iff_exists.mp (getLast?_isSome.mpr (ne_nil_of_mem hmem))
    have hlater : reading ≤ last := le_getLast (pairwise_cons.mp hreadings).2 hgetLast hmem
    exact absurd (hlast last hgetLast) (not_lt.mpr (hle.trans hlater))
  leaves info hinfo hleft := (hflushes.left hinfo hleft).1

end PriorityQueue

/-! ### Runs with a clock -/

/-- The queue with its history, and the present. -/
structure Timed where
  history : History
  now : Time

/-- The clock is seen to show this time. -/
def Shows (clock : Clock) (time : Time) : Prop := ∃ reading i, clock reading i = time

def Operation.Shows : Operation → Time → Prop
  | .add _ clock, time => SchedulingQueue.Shows clock time
  | .addIfNotPresent _ clock, time => SchedulingQueue.Shows clock time
  | .addUnschedulableIfNotPresent _ _ clock, time => SchedulingQueue.Shows clock time
  | .update _ _ clock, time => SchedulingQueue.Shows clock time
  | .delete _, _ => False
  | .pop, _ => False
  | .moveAllToActiveQueue _ clock, time => SchedulingQueue.Shows clock time
  | .flushBackoffQCompleted clock, time => SchedulingQueue.Shows clock time
  | .flushUnschedulableQLeftover _ currentTime clock, time =>
    time = currentTime ∨ SchedulingQueue.Shows clock time

def Event.Shows : Event → Time → Prop
  | .operation op, time => op.Shows time
  | .updateNew _ clock, time => SchedulingQueue.Shows clock time
  | .close, _ => False
  | .nominate _, _ => False

namespace Timed
variable {comp : StackInfo → StackInfo → Bool} {s t : Timed} {e : Event}

/-- A step takes some time, and the clock does not go back. -/
structure Step (comp : StackInfo → StackInfo → Bool) (s : Timed) (e : Event) (t : Timed) : Prop where
  later : s.now ≤ t.now
  shows : ∀ time, e.Shows time → s.now ≤ time ∧ time ≤ t.now
  next : History.Step comp s.history e t.history

/-- Stacks have no slashes, and an update has an old stack, of the identity of the new one. -/
def Valid (s : Timed) : Event → Prop
  | .operation op => SchedulingQueue.Valid s.history.state op
  | .updateNew _ _ => False
  | .close => True
  | .nominate _ => True

/-- A queue is made at the zero time at the earliest. -/
def start (queue : PriorityQueue) : Timed := ⟨{ state := { queue := queue } }, 0⟩

/-- What a run keeps. -/
structure Kept (s : Timed) : Prop where
  now : 0 ≤ s.now
  named : s.history.state.queue.Named
  inOrder : s.history.state.queue.InOrder s.now

theorem kept_step (hkept : s.Kept) (hvalid : s.Valid e) (hstep : Step comp s e t) : t.Kept := by
  have hlater := hkept.inOrder.later hstep.later
  obtain ⟨hnext, now⟩ := t
  obtain ⟨hle, hshows, hnext⟩ := hstep
  have hnow : 0 ≤ now := hkept.now.trans hle
  cases e with
  | operation op =>
    obtain ⟨state, hstate, hnext⟩ := bind_ok.mp hnext
    cases hnext
    have hnamed := step_named s.history.state op state hkept.named hvalid hstate
    have hwritten : PriorityQueue.Written comp op.Shows _ _ _ _ state.queue :=
      step_written (fun stack cycle clock hop i => by rw [hop]; exact ⟨_, i, rfl⟩) hstate
    exact ⟨hnow, hnamed, hwritten.inOrder hnow (fun time h => (hshows time h).2) hvalid hlater⟩
  | updateNew newStack clock => exact hvalid.elim
  | close | nominate _ =>
    cases hnext
    exact ⟨hnow, ⟨hkept.named.active, hkept.named.backoff, hkept.named.unschedulable⟩,
      hlater.durations, hlater.ordered⟩

/-- **The order over a run.** -/
theorem kept_of_run {queue : PriorityQueue} {es : List Event} (hempty : (start queue).Kept)
    (hrun : Run (Step comp) Valid (start queue) es s) : s.Kept :=
  hrun.invariant (I := Kept) (fun _ _ _ hkept hvalid hstep => kept_step hkept hvalid hstep) hempty

theorem run_of_still {es : List Event} {h h' : History} {now : Time}
    (hshows : ∀ e ∈ es, ∀ time, e.Shows time → time = now) (hvalid : ∀ e ∈ es, ∀ s, Valid s e)
    (hrun : Run (History.Step comp) (fun _ _ => True) h es h') :
    Run (Step comp) Valid ⟨h, now⟩ es ⟨h', now⟩ := by
  induction hrun with
  | nil => exact .nil _
  | @snoc _ _ es e _ _ hlast ih =>
    have hall : ∀ e' ∈ es, e' ∈ es ++ [e] := fun e' => mem_append_left [e]
    have hmem : e ∈ es ++ [e] := mem_append_right es (mem_singleton_self e)
    apply (ih (fun e' he' => hshows e' (hall e' he')) fun e' he' => hvalid e' (hall e' he')).snoc
    · exact hvalid e hmem _
    · refine ⟨le_refl now, fun time htime => ?_, hlast⟩
      exact ⟨(hshows e hmem time htime).ge, (hshows e hmem time htime).le⟩

end Timed

/-- **Flushes are right**, in every state that operations lead to from an empty queue, under a
clock that does not go back: of the stacks of `stackBackoffQ` those stay that have a record
and are due after the flush began; those that are due after its last reading stay; and those
that leave are in `activeQ`. -/
theorem flushBackoffQCompleted_right {comp : StackInfo → StackInfo → Bool} {initialDuration maxDuration : Time}
    (hdurations : initialDuration ≤ maxDuration) {es : List Event} {s : Timed}
    (hrun : Run (Timed.Step comp) Timed.Valid
      (.start { stackBackoff := { initialDuration := initialDuration, maxDuration := maxDuration } }) es s)
    {clock : Clock} {start : Time} (hstart : s.now ≤ start)
    (hreadings : (start :: s.history.state.queue.flushReadings comp clock).Pairwise (· ≤ ·)) :
    PriorityQueue.FlushRight s.history.state.queue (s.history.state.queue.flushBackoffQCompleted comp clock)
      start (s.history.state.queue.flushReadings comp clock) := by
  have hkept : s.Kept := by
    apply Timed.kept_of_run _ hrun
    exact ⟨le_rfl, ⟨start_named.active, start_named.backoff, start_named.unschedulable⟩, hdurations,
      ordered_nil⟩
  exact (PriorityQueue.flushes_flushBackoffQCompleted comp clock _).right hkept.inOrder hkept.now hstart hreadings

/-- Two stacks are popped, and the first is found unschedulable after a move request. -/
def backsOff : List Event :=
  [.operation (.add (web "a") atZero), .operation (.add (web "b") atZero), .operation .pop, .operation .pop,
    .operation (.moveAllToActiveQueue [] atZero), .operation (.addUnschedulableIfNotPresent (web "a") 1 atZero)]

/-- A second later the other one is. -/
def backsOffLater : Event := .operation (.addUnschedulableIfNotPresent (web "b") 2 fun _ _ => second)

/-- Only the first backoff has run out when a flush begins. -/
theorem flushBackoffQCompleted_right_backsOff : ∃ h : History,
    Run (Timed.Step activeQComp) Timed.Valid
      (.start { stackBackoff := { initialDuration := second, maxDuration := 10 * second } })
      (backsOff ++ [backsOffLater]) ⟨h, second⟩ ∧
    h.state.queue.stackBackoffQ.queue = [⟨web "a", 0⟩, ⟨web "b", second⟩] ∧
    (h.state.queue.flushBackoffQCompleted activeQComp fun _ _ => second).stackBackoffQ.queue =
      [⟨web "b", second⟩] ∧
    PriorityQueue.FlushRight h.state.queue
      (h.state.queue.flushBackoffQCompleted activeQComp fun _ _ => second) second [second, second] := by
  have hend : (do
      let h ← backsOff.foldlM (History.next activeQComp)
        { state := { queue := { stackBackoff := { initialDuration := second, maxDuration := 10 * second } } } }
      let h' ← h.next activeQComp backsOffLater
      pure (h'.state.queue.stackBackoffQ.queue,
        (h'.state.queue.flushBackoffQCompleted activeQComp fun _ _ => second).stackBackoffQ.queue,
        h'.state.queue.flushReadings activeQComp fun _ _ => second) : Outcome _) =
      .ok ([⟨web "a", 0⟩, ⟨web "b", second⟩], [⟨web "b", second⟩], [second, second]) := by
    with_unfolding_all rfl
  obtain ⟨h, hfold, hend⟩ := bind_ok.mp hend
  obtain ⟨h', hlater, hend⟩ := bind_ok.mp hend
  obtain ⟨hqueue, hends⟩ := Prod.mk.inj (pure_ok.mp hend)
  obtain ⟨hflushed, hreadings⟩ := Prod.mk.inj hends
  have hstill : Run (Timed.Step activeQComp) Timed.Valid
      (.start { stackBackoff := { initialDuration := second, maxDuration := 10 * second } }) backsOff ⟨h, 0⟩ := by
    apply Timed.run_of_still _ _ (Run.of_foldlM hfold)
    · simp [backsOff, Event.Shows, Operation.Shows, Shows, atZero, eq_comm]
    · simp [backsOff, Timed.Valid, Valid, web_slashless.1, web_slashless.2]
  have hrun : Run (Timed.Step activeQComp) Timed.Valid
      (.start { stackBackoff := { initialDuration := second, maxDuration := 10 * second } })
      (backsOff ++ [backsOffLater]) ⟨h', second⟩ := by
    have hpassed : (0 : Time) ≤ second := by decide
    refine hstill.snoc (e := backsOffLater) web_slashless.2 ⟨hpassed, fun time htime => ?_, hlater⟩
    obtain ⟨-, -, rfl⟩ := htime
    exact ⟨hpassed, le_rfl⟩
  have hright := @flushBackoffQCompleted_right _ _ _ (by decide) _ _ hrun (fun _ _ => second) second le_rfl
    (by rw [hreadings]; decide)
  rw [hreadings] at hright
  exact ⟨h', hrun, hqueue, hflushed, hright⟩

end GlobalScheduler.SchedulingQueue
