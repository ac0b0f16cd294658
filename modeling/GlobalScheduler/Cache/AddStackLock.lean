import GlobalScheduler.Cache.SchedulerCache

/-! `AddStack` and the lock of the cache.

The lock is not reentrant. A stack that was assumed on one site and is added on another is
first taken from the site it was assumed on, and then `AddStack` calls itself. It still holds
the lock, which its own call waits for, and all other callers of the cache with it. -/
namespace GlobalScheduler.Cache.SchedulerCache

open Go Transition

/-! ### The code, step by step -/

/-- Where a call of `AddStack` is: before the lock, in the switch, or after the call of itself. -/
inductive Frame where
  | enter
  | body
  | resume
deriving DecidableEq

/-- The innermost call, with how many calls have called themselves; or the end of the first. -/
inductive Control where
  | running (frame : Frame) (callers : Nat)
  | returned (err : Option String)
  | panicked
deriving DecidableEq

/-- A call returns to the one that called it, which does not look at the error. -/
def Control.return (err : Option String) : Nat → Control
  | 0 => .returned err
  | callers + 1 => .running .resume callers

structure Config where
  locked : Bool
  cache : SiteCache
  control : Control

/-- The caller goes on, or another one has had the lock and has left the cache changed. -/
inductive Event where
  | goesOn
  | another (cache : SiteCache)

def Event.isOwn : Event → Bool
  | .goesOn => true
  | .another _ => false

namespace Config

def leave (cache : SiteCache) (err : Option String) (callers : Nat) : Config where
  locked := false
  cache := cache
  control := .return err callers

section
variable (stack : PodStack)

/-- The switch of `AddStack`, under the lock. -/
def body (s : Config) (callers : Nat) : Config :=
  match addStackSwitch stack stack.uid s.cache with
  | .inl cache => { s with cache := cache, control := .running .enter (callers + 1) }
  | .inr (cache, err) => leave cache err callers

/-- The next step of the caller; there is none while it waits for the lock. -/
def next (s : Config) : Option Config :=
  match s.control with
  | .running .enter callers =>
    match getStackKey stack with
    | .error err => some { s with control := .return (some err) callers }
    | .ok _ => if s.locked then none else some { s with locked := true, control := .running .body callers }
  | .running .body callers => some (s.body stack callers)
  | .running .resume callers =>
    if stack.uid ∈ s.cache.stackStates then some (leave (confirm stack stack.uid s.cache) none callers)
    else some { s with control := .panicked }
  | .returned _ => none
  | .panicked => none

def step (s : Config) : Event → Option Config
  | .goesOn => s.next stack
  | .another cache => if s.locked then none else some { s with cache := cache }

def Step (s : Config) (e : Event) (t : Config) : Prop := s.step stack e = some t

end

def start (c : SiteCache) : Config where
  locked := false
  cache := c
  control := .running .enter 0

end Config

/-- The stack is assumed with another selection. (`AssumeStack` takes no stack without an ID.) -/
def AssumedElsewhere (stack : PodStack) (c : SiteCache) : Prop :=
  stack.uid ≠ "" ∧ ∃ state, c.stackStates.lookup stack.uid = some state ∧ isAssumed stack.uid c ∧
    state.stack.selected ≠ stack.selected

/-- While the lock is free, another caller may change the cache, but leaves the stack assumed. -/
def StaysAssumed (stack : PodStack) (_ : Config) : Event → Prop
  | .goesOn => True
  | .another cache => AssumedElsewhere stack cache

def listedOn (c : SiteCache) (siteID : String) : List PodStack := (c.recordOf siteID).stackList

/-- The call has returned and the lock is free; the stack is on record as it was given, is not
assumed any more, and is listed on its new site and not on the old one. -/
structure Corrected (stack : PodStack) (oldSiteID : String) (s : Config) : Prop where
  returned : ∃ err, s.control = .returned err
  free : s.locked = false
  recorded : s.cache.stackStates.lookup stack.uid = some ⟨stack⟩
  confirmed : isAssumed stack.uid s.cache = false
  listed : stack ∈ listedOn s.cache stack.selected.siteID
  unlisted : ∀ other ∈ listedOn s.cache oldSiteID, other.uid ≠ stack.uid

/-! ### The call as a whole -/

section
variable {stack : PodStack} {c : SiteCache} {s t : Config} {es : List Event} {n : Nat}

theorem next_enter (huid : stack.uid ≠ "") :
    (Config.start c).next stack = some ⟨true, c, .running .body 0⟩ := by
  simp [Config.next, Config.start, getStackKey_of_ne huid]

theorem body_eq (huid : stack.uid ≠ "") (c : SiteCache) :
    (∃ r, addStack stack c = some r ∧
      Config.body stack ⟨true, c, .running .body 0⟩ 0 = ⟨false, r.1, .returned r.2⟩) ∨
    (∃ c', addStack stack c = none ∧
      Config.body stack ⟨true, c, .running .body 0⟩ 0 = ⟨true, c', .running .enter 1⟩) := by
  unfold addStack Config.body
  rw [getStackKey_of_ne huid]
  dsimp only
  cases addStackSwitch stack stack.uid c with
  | inl c' => exact Or.inr ⟨c', rfl, rfl⟩
  | inr r => exact Or.inl ⟨r, rfl, rfl⟩

/-- The states of a call that is alone. -/
inductive Alone (stack : PodStack) (c : SiteCache) : Config → Prop where
  | enter : Alone stack c (.start c)
  | body (huid : stack.uid ≠ "") : Alone stack c ⟨true, c, .running .body 0⟩
  | returned {r : SiteCache × Option String} (hcall : addStack stack c = some r) :
    Alone stack c ⟨false, r.1, .returned r.2⟩
  | stuck {c' : SiteCache} (huid : stack.uid ≠ "") (hcall : addStack stack c = none) :
    Alone stack c ⟨true, c', .running .enter 1⟩

theorem Alone.next (h : Alone stack c s) (hnext : s.next stack = some t) : Alone stack c t := by
  cases h with
  | enter =>
    by_cases huid : stack.uid = ""
    · have hcall : addStack stack c = some (c, some "Cannot get cache key for stack with empty UID") := by
        rw [addStack, getStackKey_empty huid]
      simp only [Config.next, Config.start, getStackKey_empty huid, Option.some.injEq] at hnext
      rw [← hnext]
      exact .returned hcall
    · cases (next_enter huid).symm.trans hnext
      exact .body huid
  | body huid =>
    cases hnext
    rcases body_eq huid c with ⟨r, hcall, hbody⟩ | ⟨c', hcall, hbody⟩
    · rw [hbody]
      exact .returned hcall
    · rw [hbody]
      exact .stuck huid hcall
  | returned hcall => cases hnext
  | stuck huid hcall =>
    simp only [Config.next, getStackKey_of_ne huid] at hnext
    cases hnext

/-- **The steps and the call**: what `addStack` gives is what a call that is alone returns. -/
theorem addStack_eq_some_iff {r : SiteCache × Option String} :
    addStack stack c = some r ↔
      ∃ es t, Run (Config.Step stack) (fun _ e => e = .goesOn) (.start c) es t ∧
        t = ⟨false, r.1, .returned r.2⟩ := by
  constructor
  · intro hcall
    by_cases huid : stack.uid = ""
    · rw [addStack, getStackKey_empty huid] at hcall
      cases hcall
      have hnext : (Config.start c).next stack =
          some ⟨false, c, .returned (some "Cannot get cache key for stack with empty UID")⟩ := by
        rw [Config.next, getStackKey_empty huid]
        rfl
      exact ⟨_, _, (Run.nil _).snoc rfl hnext, rfl⟩
    · rcases body_eq huid c with ⟨r', hcall', hbody⟩ | ⟨c', hcall', -⟩
      · cases hcall.symm.trans hcall'
        have henter : Run (Config.Step stack) (fun _ e => e = .goesOn) (.start c) [.goesOn]
            ⟨true, c, .running .body 0⟩ := (Run.nil _).snoc rfl (next_enter huid)
        exact ⟨_, _, henter.snoc rfl (congrArg some hbody), rfl⟩
      · cases hcall.symm.trans hcall'
  · rintro ⟨es, t, hrun, rfl⟩
    have halone : Alone stack c ⟨false, r.1, .returned r.2⟩ := by
      refine hrun.invariant ?_ .enter
      rintro s e t hs rfl hstep
      exact hs.next hstep
    generalize hend : (⟨false, r.1, .returned r.2⟩ : Config) = t at halone
    cases halone with
    | enter => cases hend
    | body => cases hend
    | @returned r' hcall =>
      obtain ⟨hcache, herr⟩ : r.1 = r'.1 ∧ r.2 = r'.2 := by simpa using hend
      rw [hcall, Prod.ext hcache herr]
    | stuck => cases hend

/-! ### The lock that is waited for -/

/-- The call is before the lock, has just taken it, or waits for it while it holds it; with how
many steps it has made. -/
inductive Waits (stack : PodStack) : Nat → Config → Prop where
  | enter {c : SiteCache} (h : AssumedElsewhere stack c) : Waits stack 0 (.start c)
  | body {c : SiteCache} (h : AssumedElsewhere stack c) : Waits stack 1 ⟨true, c, .running .body 0⟩
  | stuck (huid : stack.uid ≠ "") (c : SiteCache) : Waits stack 2 ⟨true, c, .running .enter 1⟩

theorem not_step_of_stuck (huid : stack.uid ≠ "") (c : SiteCache) (e : Event) :
    ¬ Config.Step stack ⟨true, c, .running .enter 1⟩ e t := by
  intro hstep
  cases e with
  | goesOn => simp [Config.Step, Config.step, Config.next, getStackKey_of_ne huid] at hstep
  | another cache => cases hstep

theorem Waits.step (h : Waits stack n s) {e : Event} (hstays : StaysAssumed stack s e)
    (hstep : s.Step stack e t) : Waits stack (n + if e.isOwn then 1 else 0) t := by
  cases h with
  | stuck huid c => exact absurd hstep (not_step_of_stuck huid c e)
  | @enter c hc =>
    cases e with
    | goesOn =>
      cases hstep.symm.trans (next_enter hc.1)
      exact .body hc
    | another cache =>
      cases hstep
      exact .enter hstays
  | @body c hc =>
    cases e with
    | goesOn =>
      obtain ⟨huid, state, hlook, hassumed, hne⟩ := hc
      have hbody : Config.body stack ⟨true, c, .running .body 0⟩ 0 =
          ⟨true, c.removeStack state.stack, .running .enter 1⟩ := by
        simp [Config.body, addStackSwitch, hlook, hassumed, hne]
      cases hstep
      rw [hbody]
      exact .stuck huid _
    | another cache => cases hstep

theorem Waits.run (h : Waits stack n s) (hrun : Run (Config.Step stack) (StaysAssumed stack) s es t) :
    Waits stack (n + es.countP Event.isOwn) t := by
  induction hrun with
  | nil => exact h
  | snoc _ hstays last ih =>
    have hlast := ih.step hstays last
    rwa [Nat.add_assoc, ← List.countP_singleton, ← List.countP_append] at hlast

theorem Waits.not_returned (h : Waits stack n s) (err : Option String) : s.control ≠ .returned err := by
  cases h <;> nofun

theorem Waits.not_corrected (h : Waits stack n s) (oldSiteID : String) : ¬ Corrected stack oldSiteID s := by
  intro hcorrected
  obtain ⟨err, herr⟩ := hcorrected.returned
  exact h.not_returned err herr

/-- **`AddStack` does not return.** If the stack is assumed with another selection, whatever
other callers do before it takes the lock: no state it comes to is what the call is for. It
takes two steps, and after that nobody who uses the cache takes any. -/
theorem addStack_deadlocks (hassumed : AssumedElsewhere stack c) (oldSiteID : String)
    (hrun : Run (Config.Step stack) (StaysAssumed stack) (.start c) es t) :
    ¬ Corrected stack oldSiteID t ∧ (∀ err, t.control ≠ .returned err) ∧
      es.countP Event.isOwn ≤ 2 ∧ (es.countP Event.isOwn = 2 → ∀ e u, ¬ t.Step stack e u) := by
  have hwaits := (Waits.enter hassumed).run hrun
  rw [Nat.zero_add] at hwaits
  refine ⟨hwaits.not_corrected oldSiteID, hwaits.not_returned, ?_⟩
  generalize es.countP Event.isOwn = steps at hwaits
  cases hwaits with
  | enter | body => exact ⟨by decide, nofun⟩
  | stuck huid c => exact ⟨Nat.le_refl 2, fun _ e u => not_step_of_stuck huid c e⟩

theorem assumedElsewhere_of_assumeStack {assumed : PodStack} (h : (assumeStack assumed c).2 = none)
    (huid : stack.uid = assumed.uid) (hne : assumed.selected ≠ stack.selected) :
    AssumedElsewhere stack (assumeStack assumed c).1 := by
  unfold assumeStack at h ⊢
  by_cases hempty : assumed.uid = ""
  · rw [getStackKey_empty hempty] at h
    cases h
  · rw [getStackKey_of_ne hempty] at h ⊢
    dsimp only at h ⊢
    split at h
    · cases h
    · next hnew =>
      rw [if_neg hnew]
      refine ⟨huid ▸ hempty, ⟨assumed⟩, ?_, ?_, hne⟩
      · rw [huid, AList.lookup_insert]
      · rw [isAssumed, huid, AList.lookup_insert]
        rfl

end

def podOn (siteID : String) : PodStack := { uid := "u", selected := { siteID := siteID } }

/-- It is assumed on the site `a`. -/
def assumedOnA : SiteCache := (assumeStack (podOn "a") {}).1

theorem assumedOnA_elsewhere : AssumedElsewhere (podOn "b") assumedOnA :=
  assumedElsewhere_of_assumeStack rfl rfl (by decide)

def waiting : Config := ⟨true, assumedOnA.removeStack (podOn "a"), .running .enter 1⟩

theorem waiting_reached :
    Run (Config.Step (podOn "b")) (StaysAssumed (podOn "b")) (.start assumedOnA) [.goesOn, .goesOn]
      waiting := by
  have henter : Run (Config.Step (podOn "b")) (StaysAssumed (podOn "b")) (.start assumedOnA) [.goesOn]
      ⟨true, assumedOnA, .running .body 0⟩ := (Run.nil _).snoc trivial rfl
  exact henter.snoc trivial rfl

theorem addStack_deadlocks_moved :
    AssumedElsewhere (podOn "b") assumedOnA ∧ ∀ e u, ¬ waiting.Step (podOn "b") e u :=
  ⟨assumedOnA_elsewhere, (addStack_deadlocks assumedOnA_elsewhere "a" waiting_reached).2.2.2 rfl⟩

/-- **A stack that is added elsewhere**: the call that would correct it holds the lock and
waits for it. -/
theorem moved_stack_waits :
    Run Step (fun _ _ => True) {} [.assumeStack (podOn "a")] { cache := assumedOnA } ∧
      AssumedElsewhere (podOn "b") assumedOnA ∧
      Run (Config.Step (podOn "b")) (StaysAssumed (podOn "b")) (.start assumedOnA) [.goesOn, .goesOn]
        waiting ∧
      ∀ es t, Run (Config.Step (podOn "b")) (StaysAssumed (podOn "b")) (.start assumedOnA) es t →
        ¬ Corrected (podOn "b") "a" t := by
  refine ⟨(Run.nil _).snoc trivial rfl, assumedOnA_elsewhere, waiting_reached, ?_⟩
  intro es t hrun
  exact ((Waits.enter assumedOnA_elsewhere).run hrun).not_corrected "a"

end GlobalScheduler.Cache.SchedulerCache
