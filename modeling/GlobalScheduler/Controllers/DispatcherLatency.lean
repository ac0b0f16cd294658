import GlobalScheduler.Transition
import GlobalScheduler.Controllers.DispatcherProcessProofs

/-! The latencies a dispatcher process reports.

For every pod and every allocation that is made or deleted the process adds the time it
took to a total and divides that by a number of its own. There are four numbers. The
handler of a deleted allocation divides by that of the deleted pods, and counts the
allocation a second time as a made one. -/
namespace GlobalScheduler.DispatcherProcess

open Go Transition Outcome State

/-! ### Pods -/

structure Pod where
  clusterName : String
  clusterInstanceId : String := ""

/-- What is left to a goroutine: a machine is deleted, or made for a pod. -/
inductive PodTask where
  | delete (deletion : Deletion)
  | create (host token : String) (pod : Pod)

/-- The process with what it keeps of pods. -/
structure Dispatcher extends State where
  totalPodCreateNum : Nat := 0
  tasks : List PodTask := []

/-- `NewProcess`. -/
def newProcess (name : String) : Dispatcher := { name := name }

section
variable (answers : Answers)

/-- A round of the loop of `init`. An error is logged. -/
def initCluster (p : Dispatcher) (cluster : String × String) : Outcome Dispatcher := do
  let s := { p.toState with clusterIpMap := p.clusterIpMap.insert cluster.1 cluster.2 }
  let (s, _) ← getToken answers cluster.2 s
  pure { p with toState := s }

/-- `init`, with the names and addresses of the clusters. -/
def init (clusters : List (String × String)) (p : Dispatcher) : Outcome Dispatcher :=
  clusters.foldlM (initCluster answers) p

/-- `SendPodToCluster`, for a pod that is marked for deletion or not; the duration is the
time since the mark, or since the pod was made. There is no average where a lookup fails. -/
def sendPodToCluster (deletion : Bool) (duration : Int) (pod : Pod) (p : Dispatcher) :
    Outcome (Dispatcher × Option Average) := do
  match ← lookUp answers pod.clusterName p.toState with
  | (s, none) => pure ({ p with toState := s }, none)
  | (s, some (host, token)) =>
    if deletion then
      let s := { s with
        totalPodDeleteNum := s.totalPodDeleteNum + 1
        totalDeleteLatency := s.totalDeleteLatency + duration }
      let averageDeleteLatency ← quo s.totalDeleteLatency s.totalPodDeleteNum
      let task := .delete ⟨host, token, pod.clusterInstanceId⟩
      pure ({ p with toState := s, tasks := p.tasks ++ [task] },
        some ⟨s.totalPodDeleteNum, averageDeleteLatency⟩)
    else
      let s := { s with totalCreateLatency := s.totalCreateLatency + duration }
      let totalPodCreateNum := p.totalPodCreateNum + 1
      let averageCreateLatency ← quo s.totalCreateLatency totalPodCreateNum
      let task := .create host token pod
      pure ({ toState := s, totalPodCreateNum := totalPodCreateNum, tasks := p.tasks ++ [task] },
        some ⟨totalPodCreateNum, averageCreateLatency⟩)

end

/-! ### Events -/

/-- Something is made or deleted; the duration is the time it took. -/
inductive Event where
  | pod (deletion : Bool) (duration : Int) (pod : Pod)
  | allocation (deletion : Bool) (duration : Int) (alloc : Allocv1.Allocation)

inductive Kind where
  | podCreate
  | podDelete
  | allocationCreate
  | allocationDelete
deriving DecidableEq

def Event.kind : Event → Kind
  | .pod false _ _ => .podCreate
  | .pod true _ _ => .podDelete
  | .allocation false _ _ => .allocationCreate
  | .allocation true _ _ => .allocationDelete

/-- The process, and how many events of each kind it has handled: they came to an average. -/
structure History where
  process : Dispatcher
  handled : Kind → Nat := fun _ => 0

section
variable (answers : Answers)

def latency (e : Event) (p : Dispatcher) : Outcome (Dispatcher × Option Average) :=
  match e with
  | .pod deletion duration pod => sendPodToCluster answers deletion duration pod p
  | .allocation deletion duration alloc => do
    let (s, average) ← allocationLatency answers deletion duration alloc p.toState
    pure ({ p with toState := s }, some average)

def rest (e : Event) (p : Dispatcher) : Outcome Dispatcher :=
  match e with
  | .pod _ _ _ => pure p
  | .allocation deletion _ alloc => do
    let alloc := { alloc with status := { alloc.status with dispatcherName := p.name } }
    let (s, _) ← allocationRest answers deletion alloc p.toState
    pure { p with toState := s }

/-- The event is handled. -/
def Handles (h : History) (e : Event) (h' : History) : Prop :=
  ∃ p average, latency answers e h.process = .ok (p, average) ∧ rest answers e p = .ok h'.process ∧
    h'.handled = if average = none then h.handled
      else Function.update h.handled e.kind (h.handled e.kind + 1)

/-- The event's average is no division by zero, and divides by the number of events of its
kind, itself included. -/
def Right (h : History) (e : Event) : Prop :=
  latency answers e h.process ≠ .error .divideByZero ∧
    ∀ p average, latency answers e h.process = .ok (p, some average) →
      average.number = h.handled e.kind + 1

end

/-- An allocation is made before any is deleted, and one is deleted when one more pod than
allocations was. -/
def Meets (h : History) : Event → Prop
  | .pod _ _ _ => True
  | .allocation false _ _ => h.handled .allocationDelete = 0
  | .allocation true _ _ => h.handled .podDelete = h.handled .allocationDelete + 1

/-- No lookup of a deleted allocation panics: the event comes to its average. -/
def Reaches (answers : Answers) (h : History) : Event → Prop
  | .allocation true _ alloc => ∃ s, deleteAllocationResources answers alloc
      { h.process.toState with
        totalAllocationDeleteNum := h.process.totalAllocationDeleteNum + 1 } = .ok s
  | _ => True

/-! ### What leaves the numbers alone -/

section Frames
variable {answers : Answers} {s t : State}

theorem deleteInstances_numbers {cis : List Allocv1.ClusterInstance}
    (h : deleteInstances answers cis s = .ok t) : t.numbers = s.numbers := by
  induction cis generalizing s with
  | nil =>
    cases h
    rfl
  | cons ci cis ih =>
    unfold deleteInstances at h
    split at h
    · obtain ⟨⟨s₁, found⟩, hlook, h⟩ := bind_ok.mp h
      have hsame := (lookUp_made hlook).1.numbers
      cases found with
      | none =>
        cases h
        exact hsame
      | some found =>
        obtain ⟨s₂, hdelete, h⟩ := bind_ok.mp h
        obtain ⟨-, rfl⟩ := deleteInstance_ok.mp hdelete
        exact (ih h).trans hsame
    · exact ih h

/-- The rest of an allocation's handler counts a deleted allocation as a made one. -/
theorem allocationRest_numbers {deletion : Bool} {alloc alloc' : Allocv1.Allocation}
    (h : allocationRest answers deletion alloc s = .ok (t, alloc')) :
    t.numbers = (s.totalPodDeleteNum,
      if deletion then s.totalAllocationCreateNum + 1 else s.totalAllocationCreateNum,
      s.totalAllocationDeleteNum) := by
  cases deletion with
  | true =>
    cases h
    rfl
  | false =>
    obtain ⟨⟨s₁, alloc₁, all⟩, hcreate, h⟩ := bind_ok.mp h
    obtain ⟨⟨s₂, resources, all'⟩, hloop, hcreate⟩ := bind_ok.mp hcreate
    cases hcreate
    obtain ⟨_, _, hfilled⟩ := createResources_filled hloop
    have hsame := hfilled.made.numbers
    cases all with
    | true =>
      cases h
      exact hsame
    | false =>
      obtain ⟨s₃, hdelete, h⟩ := bind_ok.mp h
      cases h
      exact (deleteInstances_numbers hdelete).trans hsame

end Frames

/-! ### One event -/

theorem quo_succ (a : Int) (n : Nat) : quo a (n + 1 : Nat) = .ok (a.tdiv (n + 1 : Nat)) :=
  quo_ok.mpr ⟨by omega, rfl⟩

theorem quo_error {a b : Int} {panic : Panic} (h : quo a b = .error panic) : panic = .divideByZero := by
  unfold quo at h
  split at h
  all_goals
    cases h
    try rfl

section
variable {answers : Answers} {p p' : Dispatcher} {s t : State} {duration : Int} {deletion : Bool}
  {alloc : Allocv1.Allocation}

theorem sendPodToCluster_average {pod : Pod} {average : Option Average}
    (h : sendPodToCluster answers deletion duration pod p = .ok (p', average)) :
    (average = none ∧ p'.numbers = p.numbers ∧ p'.totalPodCreateNum = p.totalPodCreateNum) ∨
    (∃ value, deletion = true ∧ average = some ⟨p.totalPodDeleteNum + 1, value⟩ ∧
      p'.numbers = (p.totalPodDeleteNum + 1, p.totalAllocationCreateNum, p.totalAllocationDeleteNum) ∧
      p'.totalPodCreateNum = p.totalPodCreateNum) ∨
    ∃ value, deletion = false ∧ average = some ⟨p.totalPodCreateNum + 1, value⟩ ∧
      p'.numbers = p.numbers ∧ p'.totalPodCreateNum = p.totalPodCreateNum + 1 := by
  obtain ⟨⟨s₁, found⟩, hlook, h⟩ := bind_ok.mp h
  have hsame : s₁.numbers = p.numbers := (lookUp_made hlook).1.numbers
  cases found with
  | none =>
    cases h
    exact Or.inl ⟨rfl, hsame, rfl⟩
  | some found =>
    simp only [numbers, Prod.mk.injEq] at hsame
    cases deletion with
    | true =>
      obtain ⟨value, -, h⟩ := bind_ok.mp h
      cases h
      exact Or.inr (Or.inl ⟨value, rfl, by simp [hsame], by simp [numbers, hsame], rfl⟩)
    | false =>
      obtain ⟨value, -, h⟩ := bind_ok.mp h
      cases h
      exact Or.inr (Or.inr ⟨value, rfl, rfl, by simp [numbers, hsame], rfl⟩)

/-- An allocation that is made is counted first. One that is deleted is counted as well, but
what its average divides by is the number of deleted pods. -/
theorem allocationLatency_average {average : Average}
    (h : allocationLatency answers deletion duration alloc s = .ok (t, average)) :
    (deletion = true ∧ average.number = s.totalPodDeleteNum ∧ s.totalPodDeleteNum ≠ 0 ∧
      t.numbers = (s.totalPodDeleteNum, s.totalAllocationCreateNum, s.totalAllocationDeleteNum + 1)) ∨
    (deletion = false ∧ average.number = s.totalAllocationCreateNum + 1 ∧
      t.numbers = (s.totalPodDeleteNum, s.totalAllocationCreateNum + 1, s.totalAllocationDeleteNum)) := by
  cases deletion with
  | true =>
    obtain ⟨s₁, hdelete, h⟩ := bind_ok.mp h
    obtain ⟨value, hquo, h⟩ := bind_ok.mp h
    cases h
    have hsame := deleteInstances_numbers hdelete
    simp only [numbers, Prod.mk.injEq] at hsame
    have hdivisor : (s₁.totalPodDeleteNum : Int) ≠ 0 := (quo_ok.mp hquo).1
    exact Or.inl ⟨rfl, hsame.1, by omega, by simp [numbers, hsame]⟩
  | false =>
    obtain ⟨value, -, h⟩ := bind_ok.mp h
    cases h
    exact Or.inr ⟨rfl, rfl, rfl⟩

/-! ### Division by zero -/

theorem requestToken_divideByZero (host : String) (reply : Option TokenReply) :
    requestToken answers host reply ≠ .error .divideByZero := by
  intro h
  unfold requestToken at h
  repeat' split at h
  · cases h
  · cases h
  · rcases bind_error.mp h with h | ⟨token, -, h⟩
    · cases index_error h
    · cases h
  · cases h

theorem lookUp_divideByZero {clusterName : String} :
    lookUp answers clusterName s ≠ .error .divideByZero := by
  intro h
  unfold lookUp at h
  split at h
  · cases h
  · rcases bind_error.mp h with h | ⟨token, -, h⟩
    · unfold getToken at h
      split at h
      · cases h
      · rcases bind_error.mp h with h | ⟨token, -, h⟩
        · exact requestToken_divideByZero _ _ h
        · cases token <;> cases h
    · cases h

theorem deleteInstances_divideByZero {cis : List Allocv1.ClusterInstance} :
    deleteInstances answers cis s ≠ .error .divideByZero := by
  induction cis generalizing s with
  | nil => nofun
  | cons ci cis ih =>
    intro h
    unfold deleteInstances at h
    split at h
    · rcases bind_error.mp h with h | ⟨⟨s₁, found⟩, -, h⟩
      · exact lookUp_divideByZero h
      · cases found with
        | none => cases h
        | some found =>
          rcases bind_error.mp h with h | ⟨s₂, -, h⟩
          · unfold deleteInstance at h
            split at h <;> cases h
          · exact ih h
    · exact ih h

theorem sendPodToCluster_divideByZero {pod : Pod} :
    sendPodToCluster answers deletion duration pod p ≠ .error .divideByZero := by
  intro h
  rcases bind_error.mp h with h | ⟨⟨s₁, found⟩, -, h⟩
  · exact lookUp_divideByZero h
  · cases found with
    | none => cases h
    | some found =>
      -- The number was raised just before, whatever it was.
      cases deletion with
      | true => cases h
      | false => cases h

theorem allocationLatency_error {panic : Panic}
    (hreaches : deletion = true → ∃ t, deleteAllocationResources answers alloc
      { s with totalAllocationDeleteNum := s.totalAllocationDeleteNum + 1 } = .ok t)
    (h : allocationLatency answers deletion duration alloc s = .error panic) : panic = .divideByZero := by
  cases deletion with
  | true =>
    obtain ⟨t, ht⟩ := hreaches rfl
    rcases bind_error.mp h with h | ⟨s₁, -, h⟩
    · rw [ht] at h
      cases h
    · rcases bind_error.mp h with h | ⟨value, -, h⟩
      · exact quo_error h
      · cases h
  | false =>
    rcases bind_error.mp h with h | ⟨value, -, h⟩
    · exact quo_error h
    · cases h

/-- An allocation's average divides by zero exactly if the allocation is deleted, its lookups
do not panic, and no pod was deleted. -/
theorem allocationLatency_divideByZero :
    allocationLatency answers deletion duration alloc s = .error .divideByZero ↔
      deletion = true ∧ s.totalPodDeleteNum = 0 ∧
        ∃ t, deleteAllocationResources answers alloc
          { s with totalAllocationDeleteNum := s.totalAllocationDeleteNum + 1 } = .ok t := by
  cases deletion with
  | true =>
    unfold allocationLatency
    rw [if_pos rfl, bind_error]
    constructor
    · intro h
      rcases h with h | ⟨s₁, hdelete, h⟩
      · exact absurd h deleteInstances_divideByZero
      · refine ⟨rfl, ?_, s₁, hdelete⟩
        have hsame := deleteInstances_numbers hdelete
        simp only [numbers, Prod.mk.injEq] at hsame
        rcases bind_error.mp h with h | ⟨value, -, h⟩
        · by_contra hpods
          rw [quo_ok.mpr ⟨by simpa [hsame] using hpods, rfl⟩] at h
          cases h
        · cases h
    · intro h
      obtain ⟨-, hpods, s₁, hdelete⟩ := h
      have hsame := deleteInstances_numbers hdelete
      simp only [numbers, Prod.mk.injEq] at hsame
      refine Or.inr ⟨s₁, hdelete, bind_error.mpr (Or.inl ?_)⟩
      simp [quo, hsame, hpods]
      rfl
  | false =>
    unfold allocationLatency
    dsimp only
    rw [quo_succ]
    simp [bind, Except.bind, pure, Except.pure]

end

/-! ### Runs -/

/-- The numbers and the events they stand for. A deleted allocation counts as a made one. -/
structure Counted (h : History) : Prop where
  podCreate : h.process.totalPodCreateNum = h.handled .podCreate
  podDelete : h.process.totalPodDeleteNum = h.handled .podDelete
  allocationCreate :
    h.process.totalAllocationCreateNum = h.handled .allocationCreate + h.handled .allocationDelete
  allocationDelete : h.process.totalAllocationDeleteNum = h.handled .allocationDelete

section
variable {answers : Answers} {h h' : History} {e : Event}

variable {deletion : Bool} {duration : Int}

theorem Counted.pod (hcount : Counted h) {pod : Pod}
    (hstep : Handles answers h (.pod deletion duration pod) h') : Counted h' := by
  obtain ⟨p, average, hlatency, hrest, hhandled⟩ := hstep
  obtain ⟨process, handled⟩ := h'
  dsimp only at hrest hhandled
  cases hrest
  subst hhandled
  obtain ⟨hc, hd, hac, had⟩ := hcount
  rcases sendPodToCluster_average hlatency with ⟨rfl, hsame, hpods⟩ | ⟨value, rfl, rfl, hsame, hpods⟩ |
    ⟨value, rfl, rfl, hsame, hpods⟩
  all_goals
    simp only [numbers, Prod.mk.injEq] at hsame
    constructor <;> simp [hsame, hpods, Event.kind, hc, hd, hac, had]

theorem Counted.allocation (hcount : Counted h) {alloc : Allocv1.Allocation}
    (hstep : Handles answers h (.allocation deletion duration alloc) h') :
    Counted h' := by
  obtain ⟨p, average, hlatency, hrest, hhandled⟩ := hstep
  obtain ⟨⟨s₁, made⟩, hmade, hlatency⟩ := bind_ok.mp hlatency
  cases hlatency
  obtain ⟨⟨s₂, alloc'⟩, hallocation, hrest⟩ := bind_ok.mp hrest
  obtain ⟨process, handled⟩ := h'
  cases hrest
  subst hhandled
  obtain ⟨hc, hd, hac, had⟩ := hcount
  have hlast := allocationRest_numbers hallocation
  rcases allocationLatency_average hmade with ⟨rfl, -, -, hsame⟩ | ⟨rfl, -, hsame⟩
  all_goals
    simp only [numbers, Prod.mk.injEq] at hsame hlast
    constructor <;> simp [hlast, hsame, Event.kind, hc, hd, hac, had]
  · omega
  · omega

theorem Counted.step (hcount : Counted h) (hstep : Handles answers h e h') : Counted h' := by
  cases e with
  | pod deletion duration pod => exact hcount.pod hstep
  | allocation deletion duration alloc => exact hcount.allocation hstep

theorem init_counted {name : String} {clusters : List (String × String)} {p : Dispatcher}
    (h : init answers clusters (newProcess name) = .ok p) : Counted { process := p } := by
  have hzero : p.numbers = (0, 0, 0) ∧ p.totalPodCreateNum = 0 := by
    refine foldlM_keeps (fun p => p.numbers = (0, 0, 0) ∧ p.totalPodCreateNum = 0) ?_ ⟨rfl, rfl⟩ h
    intro p cluster p' _ hp hround
    obtain ⟨⟨s₁, token⟩, htoken, hround⟩ := bind_ok.mp hround
    cases hround
    exact ⟨(getToken_made htoken).1.numbers.trans hp.1, hp.2⟩
  simp only [numbers, Prod.mk.injEq] at hzero
  constructor <;> simp [hzero]

theorem right_of_meets (hcount : Counted h) (hmeets : Meets h e) : Right answers h e := by
  cases e with
  | pod deletion duration pod =>
    refine ⟨sendPodToCluster_divideByZero, ?_⟩
    intro p average hlatency
    rcases sendPodToCluster_average hlatency with ⟨hnone, -⟩ | ⟨value, rfl, hsome, -⟩ |
      ⟨value, rfl, hsome, -⟩
    · cases hnone
    · cases hsome
      exact congrArg (· + 1) hcount.podDelete
    · cases hsome
      exact congrArg (· + 1) hcount.podCreate
  | allocation deletion duration alloc =>
    constructor
    · intro herror
      rcases bind_error.mp herror with herror | ⟨made, -, herror⟩
      · obtain ⟨rfl, hpods, -⟩ := allocationLatency_divideByZero.mp herror
        have hdeleted : h.handled .podDelete = h.handled .allocationDelete + 1 := hmeets
        have := hcount.podDelete
        omega
      · cases herror
    · intro p average hlatency
      obtain ⟨⟨s₁, made⟩, hmade, hlatency⟩ := bind_ok.mp hlatency
      cases hlatency
      rcases allocationLatency_average hmade with ⟨rfl, hnumber, -⟩ | ⟨rfl, hnumber, -⟩
      · exact hnumber.trans (hcount.podDelete.trans hmeets)
      · have hnone : h.handled .allocationDelete = 0 := hmeets
        have := hcount.allocationCreate
        show average.number = h.handled .allocationCreate + 1
        omega

theorem meets_of_right (hcount : Counted h) (hreaches : Reaches answers h e) (hright : Right answers h e) :
    Meets h e := by
  cases e with
  | pod => trivial
  | allocation deletion duration alloc =>
    cases hlatency : allocationLatency answers deletion duration alloc h.process.toState with
    | error panic =>
      have hreaches' : deletion = true → ∃ t, deleteAllocationResources answers alloc
          { h.process.toState with
            totalAllocationDeleteNum := h.process.totalAllocationDeleteNum + 1 } = .ok t := by
        rintro rfl
        exact hreaches
      obtain rfl := allocationLatency_error hreaches' hlatency
      exact absurd (bind_error.mpr (Or.inl hlatency)) hright.1
    | ok made =>
      have hnumber := hright.2 _ made.2 (bind_ok.mpr ⟨made, hlatency, rfl⟩)
      rcases allocationLatency_average hlatency with ⟨rfl, hpods, -⟩ | ⟨rfl, hmade, -⟩
      · exact hcount.podDelete.symm.trans (hpods.symm.trans hnumber)
      · have := hcount.allocationCreate
        have hmade' : made.2.number = h.handled .allocationCreate + 1 := hnumber
        show h.handled .allocationDelete = 0
        omega

end

/-- **The averages of a dispatcher process.** As long as every allocation is made before any
is deleted, and every allocation is deleted when one more pod than allocations was, each
average divides by the number of events of its kind, which is not zero. The first event that
comes to its average otherwise divides by zero or by another number. -/
theorem averages_right {answers : Answers} {name : String} {clusters : List (String × String)}
    {p : Dispatcher} (hinit : init answers clusters (newProcess name) = .ok p) {es : List Event}
    {h : History} (hrun : Run (Handles answers) (fun _ _ => True) { process := p } es h) :
    (Run (Handles answers) Meets { process := p } es h →
      Run (Handles answers) (Right answers) { process := p } es h) ∧
    ∀ e, (Meets h e → Right answers h e) ∧ (Reaches answers h e → (Right answers h e ↔ Meets h e)) := by
  have hstart : Counted { process := p } := init_counted hinit
  have hcount : Counted h := hrun.invariant (fun _ _ _ hs _ hstep => hs.step hstep) hstart
  constructor
  · intro hmeets
    apply Run.mono_of_invariant (I := Counted) _ _ hmeets hstart
    · intro h e h' hs _ hstep
      exact hs.step hstep
    · intro h e hs hmeets
      exact right_of_meets hs hmeets
  · intro e
    refine ⟨right_of_meets hcount, fun hreaches => ?_⟩
    exact ⟨meets_of_right hcount hreaches, right_of_meets hcount⟩

/-- All clusters are at one host, which gives a token. -/
def oneHost : Answers where
  parses := fun _ => true
  cluster := fun _ _ => some "10.0.0.1"
  token := fun _ _ => some ⟨201, ["t"]⟩
  create := fun _ _ _ _ => .unreadable

/-- The process after the deletion of a pod that took 5 milliseconds. -/
def afterPod : History where
  process := { name := "d", clusterIpMap := (∅ : Map String String).insert "a" "10.0.0.1",
               tokenMap := (∅ : Map String String).insert "10.0.0.1" "t", requests := 2,
               totalPodDeleteNum := 1, totalDeleteLatency := 5,
               tasks := [.delete ⟨"10.0.0.1", "t", "i"⟩] }
  handled := Function.update (fun _ => 0) .podDelete 1

/-- Once a pod was deleted, an allocation may be. -/
theorem averages_right_afterPod :
    Run (Handles oneHost) Meets { process := newProcess "d" } [.pod true 5 ⟨"a", "i"⟩] afterPod ∧
      Right oneHost afterPod (.allocation true 7 {}) := by
  have hinit : init oneHost [] (newProcess "d") = .ok (newProcess "d") := rfl
  have hpod : Handles oneHost { process := newProcess "d" } (.pod true 5 ⟨"a", "i"⟩) afterPod :=
    ⟨afterPod.process, some ⟨1, 5⟩, rfl, rfl, rfl⟩
  have hmeets : Run (Handles oneHost) Meets { process := newProcess "d" } [.pod true 5 ⟨"a", "i"⟩]
      afterPod := (Run.nil _).snoc trivial hpod
  have hrun := hmeets.mono (fun _ _ _ => trivial)
  exact ⟨hmeets, ((averages_right hinit hrun).2 _).1 rfl⟩

/-- **A division by zero**: the first thing that is deleted is an allocation. -/
theorem averages_right_fails :
    init oneHost [] (newProcess "d") = .ok (newProcess "d") ∧
      latency oneHost (.allocation true 5 {}) (newProcess "d") = .error .divideByZero ∧
      ¬ Right oneHost { process := newProcess "d" } (.allocation true 5 {}) := by
  refine ⟨rfl, rfl, ?_⟩
  intro h
  exact h.1 rfl

end GlobalScheduler.DispatcherProcess
