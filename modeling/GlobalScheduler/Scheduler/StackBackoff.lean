import GlobalScheduler.Scheduler.BackoffOrder

/-! The durations of the backoffs, in 64 bits.

The duration doubles with each attempt until it passes the longest one. The loop leaves as
soon as it does, so that no product is larger than twice the longest duration, however
many attempts are recorded. -/
namespace GlobalScheduler.SchedulingQueue.StackBackoffMap

open Go Transition AList

def newStackBackoffMap (initialDuration maxDuration : Time) : StackBackoffMap where
  initialDuration := initialDuration
  maxDuration := maxDuration

/-! ### The loop -/

/-- The products of the loop, before they are cut to 64 bits. -/
def products (maxDuration : Time) : Nat → Time → List Int
  | 0, _ => []
  | attempts + 1, backoffDuration =>
    backoffDuration * 2 ::
      if int64 (backoffDuration * 2) > maxDuration then []
      else products maxDuration attempts (int64 (backoffDuration * 2))

/-- The durations with which no product wraps around. -/
structure Durations (initialDuration maxDuration : Int) : Prop where
  positive : 0 < initialDuration
  le : initialDuration ≤ maxDuration
  half : maxDuration ≤ 0x7fffffffffffffff / 2

section Doubling
variable {maxDuration backoffDuration : Time}

section
variable (h : Durations backoffDuration maxDuration)
include h

theorem fits64_double : Fits64 (backoffDuration * 2) := by
  obtain ⟨hpositive, hle, hhalf⟩ := h
  constructor <;> omega

theorem Durations.double (hle : backoffDuration * 2 ≤ maxDuration) :
    Durations (backoffDuration * 2) maxDuration :=
  ⟨Int.mul_pos h.positive (by decide), hle, h.half⟩

theorem fits64_products (attempts : Nat) :
    ∀ product ∈ products maxDuration attempts backoffDuration, Fits64 product := by
  induction attempts generalizing backoffDuration with
  | zero =>
    intro product hproduct
    cases hproduct
  | succ attempts ih =>
    intro product hproduct
    unfold products at hproduct
    rw [int64_of_fits (fits64_double h), List.mem_cons] at hproduct
    cases hproduct with
    | inl hfirst =>
      rw [hfirst]
      exact fits64_double h
    | inr hrest =>
      split at hrest
      · cases hrest
      · next hnot => exact ih (h.double (not_lt.mp hnot)) product hrest

theorem doubled_eq_min (attempts : Nat) :
    doubled maxDuration attempts backoffDuration = min maxDuration (backoffDuration * 2 ^ attempts) := by
  induction attempts generalizing backoffDuration with
  | zero =>
    rw [pow_zero, mul_one, min_eq_right h.le]
    rfl
  | succ attempts ih =>
    unfold doubled
    rw [int64_of_fits (fits64_double h)]
    split
    · next hpast =>
      have hgrows : backoffDuration * 2 ≤ backoffDuration * 2 * 2 ^ attempts :=
        le_mul_of_one_le_right (Int.mul_pos h.positive (by decide)).le (one_le_pow₀ (by decide))
      rw [pow_succ', ← mul_assoc, min_eq_left (le_trans (le_of_lt hpast) hgrows)]
    · next hnot => rw [ih (h.double (not_lt.mp hnot)), pow_succ', mul_assoc]

end

end Doubling

/-! ### Runs of calls -/

inductive Call where
  | backoffStack (clock : Clock) (nsStack : NamespacedName)
  | clearStackBackoff (nsStack : NamespacedName)
  | cleanupStacksCompletesBackingoff (clock : Clock)

def call (pbm : StackBackoffMap) : Call → StackBackoffMap
  | .backoffStack clock nsStack => pbm.backoffStack clock nsStack
  | .clearStackBackoff nsStack => pbm.clearStackBackoff nsStack
  | .cleanupStacksCompletesBackingoff clock => pbm.cleanupStacksCompletesBackingoff clock

/-- A call that may drop the record of a stack. -/
def Call.Drops (nsStack : NamespacedName) : Call → Prop
  | .backoffStack _ _ => False
  | .clearStackBackoff other => other = nsStack
  | .cleanupStacksCompletesBackingoff _ => True

def attempts (pbm : StackBackoffMap) (nsStack : NamespacedName) : Nat :=
  (pbm.stackAttempts.lookup nsStack).getD 0

/-- What every state has in common with the one it came from. -/
structure SameDurations (pbm pbm' : StackBackoffMap) : Prop where
  initial : pbm'.initialDuration = pbm.initialDuration
  max : pbm'.maxDuration = pbm.maxDuration
  positive : ∀ nsStack n, pbm'.stackAttempts.lookup nsStack = some n → 1 ≤ n

section Calls
variable {pbm pbm' : StackBackoffMap} {i : NamespacedName}

theorem SameDurations.clear (h : SameDurations pbm pbm') (i : NamespacedName) :
    SameDurations pbm (pbm'.clearStackBackoff i) := by
  refine ⟨h.initial, h.max, fun j n hn => ?_⟩
  unfold clearStackBackoff at hn
  by_cases hj : j = i
  · rw [hj, lookup_erase] at hn
    cases hn
  · rw [lookup_erase_ne hj] at hn
    exact h.positive j n hn

theorem SameDurations.backoff (h : SameDurations pbm pbm') (clock : Clock) (i : NamespacedName) :
    SameDurations pbm (pbm'.backoffStack clock i) := by
  refine ⟨h.initial, h.max, fun j n hn => ?_⟩
  unfold backoffStack at hn
  by_cases hj : j = i
  · rw [hj, lookup_insert] at hn
    cases hn
    omega
  · rw [lookup_insert_ne hj] at hn
    exact h.positive j n hn

theorem SameDurations.cleanup (h : SameDurations pbm pbm') (clock : Clock) :
    SameDurations pbm (pbm'.cleanupStacksCompletesBackingoff clock) := by
  apply List.foldlRecOn (motive := SameDurations pbm) _ _ h
  intro pbm'' h'' entry _
  split
  · exact h''.clear entry.1
  · exact h''

theorem SameDurations.call (h : SameDurations pbm pbm') (c : Call) : SameDurations pbm (pbm'.call c) := by
  cases c with
  | backoffStack clock nsStack => exact h.backoff clock nsStack
  | clearStackBackoff nsStack => exact h.clear nsStack
  | cleanupStacksCompletesBackingoff clock => exact h.cleanup clock

/-- A call that does not drop the record of a stack takes no attempt from it. -/
theorem attempts_le_call {c : Call} (hkeeps : ¬ c.Drops i) : pbm.attempts i ≤ (pbm.call c).attempts i := by
  cases c with
  | backoffStack clock nsStack =>
    unfold attempts call backoffStack
    by_cases hi : i = nsStack
    · rw [hi, lookup_insert, Option.getD_some]
      exact Nat.le_succ _
    · rw [lookup_insert_ne hi]
  | clearStackBackoff nsStack =>
    have hi : i ≠ nsStack := fun hi => hkeeps hi.symm
    unfold attempts call clearStackBackoff
    rw [lookup_erase_ne hi]
  | cleanupStacksCompletesBackingoff clock => exact absurd trivial hkeeps

theorem calculateBackoffDuration_eq (h : Durations pbm.initialDuration pbm.maxDuration) (i : NamespacedName) :
    pbm.calculateBackoffDuration i = min pbm.maxDuration (pbm.initialDuration * 2 ^ (pbm.attempts i - 1)) := by
  unfold calculateBackoffDuration attempts
  cases pbm.stackAttempts.lookup i with
  | none => exact (min_eq_right (by simpa using h.le)).symm.trans (by simp)
  | some n => exact doubled_eq_min h (n - 1)

theorem calculateBackoffDuration_mono (h : Durations pbm.initialDuration pbm.maxDuration)
    (hsame : SameDurations pbm pbm') (hle : pbm.attempts i ≤ pbm'.attempts i) :
    pbm.calculateBackoffDuration i ≤ pbm'.calculateBackoffDuration i := by
  have h' : Durations pbm'.initialDuration pbm'.maxDuration := by
    rw [hsame.initial, hsame.max]
    exact h
  rw [calculateBackoffDuration_eq h, calculateBackoffDuration_eq h', hsame.initial, hsame.max]
  apply min_le_min_left
  exact Int.mul_le_mul_of_nonneg_left (pow_le_pow_right₀ (by decide) (by omega)) h.positive.le

end Calls

/-- The states after calls, of which each meets the guard. -/
abbrev Calls (guard : Call → Prop) : StackBackoffMap → List Call → StackBackoffMap → Prop :=
  Run (fun pbm c pbm' => pbm' = pbm.call c) fun _ c => guard c

variable {guard : Call → Prop} {pbm pbm' : StackBackoffMap} {calls : List Call}

theorem Calls.sameDurations {start : StackBackoffMap} (hrun : Calls guard pbm calls pbm')
    (h : SameDurations start pbm) : SameDurations start pbm' := by
  refine Run.invariant (fun s c s' hs _ hstep => ?_) hrun h
  rw [hstep]
  exact SameDurations.call hs c

theorem Calls.attempts_le {i : NamespacedName} (hrun : Calls (fun c => ¬ c.Drops i) pbm calls pbm') :
    pbm.attempts i ≤ pbm'.attempts i := by
  refine Run.invariant (I := fun s => pbm.attempts i ≤ s.attempts i) (fun s c s' hs hkeeps hstep => ?_) hrun le_rfl
  rw [hstep]
  exact hs.trans (attempts_le_call hkeeps)

/-- **The duration doubles up to the longest one**, no product on the way wraps around, and
as long as the record of a stack is not dropped its duration does not go back. -/
theorem backoffDuration_of_calls {initialDuration maxDuration : Time} (h : Durations initialDuration maxDuration)
    {calls : List Call} {pbm : StackBackoffMap}
    (hrun : Calls (fun _ => True) (newStackBackoffMap initialDuration maxDuration) calls pbm) (i : NamespacedName) :
    (∀ n, pbm.stackAttempts.lookup i = some n → 1 ≤ n ∧
      pbm.calculateBackoffDuration i = min maxDuration (initialDuration * 2 ^ (n - 1))) ∧
    (∀ n, ∀ product ∈ products pbm.maxDuration n pbm.initialDuration, Fits64 product) ∧
    ∀ later pbm', Calls (fun c => ¬ c.Drops i) pbm later pbm' →
      pbm.calculateBackoffDuration i ≤ pbm'.calculateBackoffDuration i := by
  have hstart : SameDurations (newStackBackoffMap initialDuration maxDuration)
      (newStackBackoffMap initialDuration maxDuration) :=
    ⟨rfl, rfl, fun _ _ hn => by cases hn⟩
  have hsame := Calls.sameDurations hrun hstart
  have hinitial : pbm.initialDuration = initialDuration := hsame.initial
  have hmax : pbm.maxDuration = maxDuration := hsame.max
  have hdurations : Durations pbm.initialDuration pbm.maxDuration := by
    rw [hinitial, hmax]
    exact h
  refine ⟨fun n hn => ⟨hsame.positive i n hn, ?_⟩, fun n => fits64_products hdurations n, ?_⟩
  · rw [calculateBackoffDuration_eq hdurations, hinitial, hmax, attempts, hn, Option.getD_some]
  · intro later pbm' hlater
    exact calculateBackoffDuration_mono hdurations
      (Calls.sameDurations hlater ⟨rfl, rfl, hsame.positive⟩) (Calls.attempts_le hlater)

theorem Calls.twice (pbm : StackBackoffMap) (c : Call) (hc : guard c) :
    Calls guard pbm [c, c] ((pbm.call c).call c) :=
  ((Run.nil pbm).snoc hc rfl).snoc hc rfl

/-- Two attempts, with the durations of the queue. -/
theorem backoffDuration_of_two_attempts :
    (((newStackBackoffMap (1 * second) (10 * second)).call (.backoffStack (fun _ _ => 0) ⟨"t", "n", "s"⟩)).call
        (.backoffStack (fun _ _ => 0) ⟨"t", "n", "s"⟩)).calculateBackoffDuration ⟨"t", "n", "s"⟩ =
      min (10 * second) (1 * second * 2 ^ (2 - 1)) :=
  ((backoffDuration_of_calls ⟨by decide, by decide, by decide⟩ (Calls.twice _ _ trivial) ⟨"t", "n", "s"⟩).1 2
    (by decide)).2

end GlobalScheduler.SchedulingQueue.StackBackoffMap
