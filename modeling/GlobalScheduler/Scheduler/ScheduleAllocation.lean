import GlobalScheduler.Scheduler.Conversion
import GlobalScheduler.Scheduler.Rollback

/-! Scheduling an allocation of several kinds of machines.

The kinds are scheduled one after the other, each in a cycle of its own that books what
it places. If one of them fails, the allocation is not scheduled; what the cycles before
have placed and booked stays. -/
namespace GlobalScheduler.ScheduleAllocation

open Go Schedule Outcome Progress

/-! ### The code -/

def allocationOf (alloc : Allocv1.Allocation) (resource : Allocv1.Resources) : Allocation :=
  let stack : Stack := {
    podName := resource.name
    selector := getStackSelectorFromAllocation alloc.spec.selector
    resources := getStackResourcesFromAllocationResource resource }
  { id := alloc.uid, stack := stack, replicas := alloc.spec.replicas, selector := stack.selector }

def instancesOf (stackList : List Stack) : List Allocv1.ClusterInstance :=
  stackList.map fun stack => ⟨stack.selected.clusterName, ""⟩

def gain (resource : Allocv1.Resources) (gained : List Allocv1.ClusterInstance) :
    Allocv1.Resources :=
  { resource with virtualMachine := { resource.virtualMachine with
      clusterInstances := resource.virtualMachine.clusterInstances ++ gained } }

section
variable (settings : Settings) (ords : Nat → MapOrders) (alloc : Allocv1.Allocation)

/-- The loop of `scheduleAllocation`: the resources as it leaves them, the names of the
clusters, and whether it came to its end. -/
def scheduleResources : List Allocv1.Resources → Nat → Snapshot →
    Outcome (Snapshot × List Allocv1.Resources × List String × Bool)
  | [], _, snap => pure (snap, [], [], true)
  | resource :: rest, idx, snap =>
    if resource.resourceType = "vm" then do
      let result ← scheduleShipped settings (ords idx) snap (allocationOf alloc resource)
      match result.err with
      | some _ => pure (result.snapshot, resource :: rest, [], false)
      | none => do
        let gained := instancesOf result.stackList
        let (snap, rest, names, done) ← scheduleResources rest (idx + 1) result.snapshot
        pure (snap, gain resource gained :: rest, gained.map (·.clusterName) ++ names, done)
    else do
      let (snap, rest, names, done) ← scheduleResources rest (idx + 1) snap
      pure (snap, resource :: rest, names, done)

def scheduleAllocation (snap : Snapshot) : Outcome (Snapshot × Allocv1.Allocation) := do
  let (snap, resources, clusterNames, done) ←
    scheduleResources settings ords alloc alloc.spec.resources 0 snap
  let alloc := { alloc with spec := { alloc.spec with resources := resources } }
  if done then
    pure (snap, { alloc with status := { alloc.status with
      phase := .bound, clusterNames := clusterNames } })
  else
    pure (snap, { alloc with status := { alloc.status with phase := .notScheduled } })

end

/-! ### All or nothing -/

/-- The books of every site are the same. -/
def SameBooks (snap snap' : Snapshot) : Prop :=
  ∀ siteID, (snap'.siteCacheInfoMap.lookup siteID).map books =
    (snap.siteCacheInfoMap.lookup siteID).map books

/-- Every machine has gained as many instances as there are replicas, nothing else has gained
any, and the names are those of the instances gained, in order. -/
inductive AllGained (replicas : Int) :
    List Allocv1.Resources → List Allocv1.Resources → List String → Prop where
  | nil : AllGained replicas [] [] []
  | vm {resource rest rest' names} (gained : List Allocv1.ClusterInstance)
      (type : resource.resourceType = "vm") (length : (gained.length : Int) = replicas)
      (tail : AllGained replicas rest rest' names) :
      AllGained replicas (resource :: rest) (gain resource gained :: rest')
        (gained.map (·.clusterName) ++ names)
  | other {resource rest rest' names} (type : resource.resourceType ≠ "vm")
      (tail : AllGained replicas rest rest' names) :
      AllGained replicas (resource :: rest) (resource :: rest') names

/-- A bound allocation has all it asked for; one that is not scheduled has nothing, and
nothing is booked for it. -/
def AllOrNothing (snap : Snapshot) (alloc : Allocv1.Allocation) (snap' : Snapshot)
    (alloc' : Allocv1.Allocation) : Prop :=
  (alloc'.status.phase = .bound →
    AllGained alloc.spec.replicas alloc.spec.resources alloc'.spec.resources
      alloc'.status.clusterNames) ∧
  (alloc'.status.phase = .notScheduled →
    alloc'.spec.resources = alloc.spec.resources ∧ SameBooks snap snap')

/-! ### What a cycle finds -/

section
variable (settings : Settings)

section
variable (ord : MapOrders) (snap : Snapshot) (request : Allocation)

/-- In this state the strategies hand out these sites for the request. -/
def HandsOut (sites : List SiteScore) : Prop :=
  ∃ prio status, prioritize (shipped settings ord (snap.updateFlavor settings)) ord.sites
      (snap.updateFlavor settings) request = .ok (.ok prio) ∧
    Framework.runStrategyPlugins prio.state (withSelector request)
      (shipped settings ord (snap.updateFlavor settings)).strategyPlugins prio.priorityList =
        .ok (sites, status) ∧ status.isSuccess = true

/-- In this state a strategy refuses the request. -/
def Refused : Prop :=
  StrategyRefuses (shipped settings ord (snap.updateFlavor settings)) ord.sites
    (snap.updateFlavor settings) request

/-- There are slots for all replicas, and none on the first site for a request without replicas
(which is tried before the replicas are counted). -/
def Fits : Prop :=
  (∃ sites, HandsOut settings ord snap request sites ∧
    (1 ≤ request.replicas ∧ request.replicas ≤ (slots sites).length ∨
      request.replicas = 0 ∧ slots (sites.take 1) = [])) ∨
  request.replicas = 0 ∧ Refused settings ord snap request

/-- Nothing is placed, which is no error: a strategy refuses, or no replica is asked for and there
is no slot on the first site. -/
def Skipped : Prop :=
  Refused settings ord snap request ∨
  ∃ sites, HandsOut settings ord snap request sites ∧ request.replicas ≤ 0 ∧ slots (sites.take 1) = []

/-- No site is left for the request by the filters, or the strategies hand out no slot. -/
def NoSlot : Prop :=
  (∃ e, prioritize (shipped settings ord (snap.updateFlavor settings)) ord.sites
    (snap.updateFlavor settings) request = .ok (.error e)) ∨
  ∃ sites, HandsOut settings ord snap request sites ∧ slots sites = [] ∧ 1 ≤ request.replicas

/-- There are some slots, but fewer than replicas. -/
def Short : Prop :=
  ShortOfSlots (shipped settings ord (snap.updateFlavor settings)) ord.sites
    (snap.updateFlavor settings) request

end

variable (ords : Nat → MapOrders) (alloc : Allocv1.Allocation)

/-- Each cycle fits in the state it comes to. -/
def AllFit : List Allocv1.Resources → Nat → Snapshot → Prop
  | [], _, _ => True
  | resource :: rest, idx, snap =>
    if resource.resourceType = "vm" then
      Fits settings (ords idx) snap (allocationOf alloc resource) ∧
        ∀ r, scheduleShipped settings (ords idx) snap (allocationOf alloc resource) = .ok r →
          AllFit rest (idx + 1) r.snapshot
    else AllFit rest (idx + 1) snap

/-- The cycles before one that is stopped are skipped, so that the sites are as they were. -/
def StoppedAt (stop : MapOrders → Snapshot → Allocation → Prop) :
    List Allocv1.Resources → Nat → Snapshot → Prop
  | [], _, _ => False
  | resource :: rest, idx, snap =>
    if resource.resourceType = "vm" then
      stop (ords idx) snap (allocationOf alloc resource) ∨
        Skipped settings (ords idx) snap (allocationOf alloc resource) ∧
          StoppedAt stop rest (idx + 1) (snap.updateFlavor settings)
    else StoppedAt stop rest (idx + 1) snap

end

/-- **A cycle**, by what it finds: it has placed all, nothing, or it fails. -/
structure Verdict (settings : Settings) (ord : MapOrders) (snap : Snapshot) (request : Allocation)
    (r : Result) : Prop where
  fits : Fits settings ord snap request ↔ r.err = none ∧ (r.stackList.length : Int) = request.replicas
  skipped : Skipped settings ord snap request ↔ r.err = none ∧ r.stackList = []
  fails : NoSlot settings ord snap request ∨ Short settings ord snap request ↔ r.err ≠ none
  kept : NoSlot settings ord snap request ∨ Skipped settings ord snap request →
    r.snapshot = snap.updateFlavor settings

section Cycle
variable {settings : Settings} {ord : MapOrders} {snap : Snapshot} {request : Allocation} {prio : Prioritized}
  {sites : List SiteScore} {status : Status}

section
variable (hprio : prioritize (shipped settings ord (snap.updateFlavor settings)) ord.sites
      (snap.updateFlavor settings) request = .ok (.ok prio))
include hprio

section
variable (hstrat : Framework.runStrategyPlugins prio.state (withSelector request)
      (shipped settings ord (snap.updateFlavor settings)).strategyPlugins prio.priorityList =
        .ok (sites, status))
include hstrat

theorem handsOut_iff (P : List SiteScore → Prop) :
    (∃ sites, HandsOut settings ord snap request sites ∧ P sites) ↔ status.isSuccess = true ∧ P sites := by
  constructor
  · rintro ⟨sites', ⟨prio', status', hprio', hstrat', hok⟩, hP⟩
    cases hprio.symm.trans hprio'
    cases hstrat.symm.trans hstrat'
    exact ⟨hok, hP⟩
  · rintro ⟨hok, hP⟩
    exact ⟨sites, ⟨prio, status, hprio, hstrat, hok⟩, hP⟩

theorem refused_iff : Refused settings ord snap request ↔ status.isSuccess = false := by
  constructor
  · rintro ⟨prio', sites', status', hprio', hstrat', hfail⟩
    cases hprio.symm.trans hprio'
    cases hstrat.symm.trans hstrat'
    exact hfail
  · exact fun hfail => ⟨prio, sites, status, hprio, hstrat, hfail⟩

end

end

theorem short_iff : Short settings ord snap request ↔
    ∃ sites, HandsOut settings ord snap request sites ∧ 0 < (slots sites).length ∧
      ((slots sites).length : Int) < request.replicas := by
  constructor
  · rintro ⟨prio, sites, status, hprio, hstrat, hok, hshort⟩
    exact ⟨sites, ⟨prio, status, hprio, hstrat, hok⟩, hshort⟩
  · rintro ⟨sites, ⟨prio, status, hprio, hstrat, hok⟩, hshort⟩
    exact ⟨prio, sites, status, hprio, hstrat, hok, hshort⟩

theorem length_boundSlots :
    1 ≤ request.replicas ∧ ((boundSlots request.replicas sites).length : Int) =
      min request.replicas (slots sites).length ∨
    request.replicas ≤ 0 ∧ (boundSlots request.replicas sites).length =
      min 1 (slots (sites.take 1)).length := by
  unfold boundSlots
  split
  · rw [List.length_take]
    omega
  · rw [List.length_take]
    omega

/-- **The cycle that returns is judged by the state before it.** -/
theorem scheduleShipped_verdict {r : Result} (h : scheduleShipped settings ord snap request = .ok r) :
    Verdict settings ord snap request r := by
  rcases schedule_ok h with ⟨e, hprio, rfl⟩ | ⟨hrefuses, rfl⟩ | ⟨prio, sites, err, p, hprio, hplaced, rfl⟩
  · have hearly : ∀ sites, ¬ HandsOut settings ord snap request sites := by
      rintro sites ⟨prio, status, hprio', -⟩
      cases hprio.symm.trans hprio'
    have hnot : ¬ Refused settings ord snap request := by
      rintro ⟨prio, sites, status, hprio', -⟩
      cases hprio.symm.trans hprio'
    constructor
    · simp [Fits, hearly, hnot]
    · simp [Skipped, hearly, hnot]
    · exact iff_of_true (Or.inl (Or.inl ⟨e, hprio⟩)) (Option.some_ne_none e)
    · exact fun _ => rfl
  · obtain ⟨prio, sites, status, hprio, hstrat, hfail⟩ := id hrefuses
    constructor
    · rw [Fits, handsOut_iff hprio hstrat, refused_iff hprio hstrat, hfail]
      simp only [Bool.false_eq_true, false_and, false_or, and_true, List.length_nil, Nat.cast_zero, true_and]
      exact eq_comm
    · exact iff_of_true (Or.inl hrefuses) ⟨rfl, rfl⟩
    · rw [NoSlot, short_iff, handsOut_iff hprio hstrat, handsOut_iff hprio hstrat, hprio, hfail]
      simp
    · exact fun _ => rfl
  · obtain ⟨status, hstrat, hok⟩ := hplaced.strategies
    obtain ⟨rfl, hbinds⟩ := hplaced.binds_all hprio
    have hcount : p.count = (boundSlots request.replicas sites).length := by
      simpa [count] using hbinds.count
    have hlength : (shown p).length = (boundSlots request.replicas sites).length := by
      rw [shown, List.length_map]
      exact Int.ofNat_inj.mp hcount
    have herr : (none.or (if p.count < request.replicas then some "not find suit host" else none)
        : Option String) = none ↔ request.replicas ≤ p.count := by
      rw [Option.none_or, ite_eq_right_iff]
      simp
    have hkept : boundSlots request.replicas sites = [] → p.snapshot = snap.updateFlavor settings := by
      intro hnone
      rw [hnone] at hbinds
      cases hbinds
      rfl
    rw [← List.length_eq_zero_iff] at hkept
    have hslots := @length_boundSlots request sites
    constructor
    · rw [Fits, handsOut_iff hprio hstrat, refused_iff hprio hstrat, hok, herr, ← List.length_eq_zero_iff]
      simp only [Bool.true_eq_false, and_false, or_false, true_and]
      omega
    · rw [Skipped, handsOut_iff hprio hstrat, refused_iff hprio hstrat, hok, herr]
      rw [← List.length_eq_zero_iff, ← List.length_eq_zero_iff]
      simp only [Bool.true_eq_false, false_or, true_and]
      omega
    · rw [NoSlot, short_iff, handsOut_iff hprio hstrat, handsOut_iff hprio hstrat, hprio, hok, ne_eq, herr,
        ← List.length_eq_zero_iff]
      simp only [Except.ok.injEq, reduceCtorEq, exists_false, false_or, true_and]
      omega
    · intro hnone
      apply hkept
      rw [NoSlot, Skipped, handsOut_iff hprio hstrat, handsOut_iff hprio hstrat, refused_iff hprio hstrat,
        hprio, hok, ← List.length_eq_zero_iff, ← List.length_eq_zero_iff] at hnone
      simp only [Except.ok.injEq, reduceCtorEq, exists_false, false_or, true_and, Bool.true_eq_false] at hnone
      omega

end Cycle

/-! ### What is gained -/

theorem gain_injective (resource : Allocv1.Resources) : Function.Injective (gain resource) := by
  intro gained gained' heq
  have hinstances := congrArg (·.virtualMachine.clusterInstances) heq
  exact List.append_cancel_left hinstances

variable {resource : Allocv1.Resources} {gained : List Allocv1.ClusterInstance}

theorem gain_eq_self : gain resource gained = resource ↔ gained = [] := by
  have hnil : gain resource [] = resource := by simp [gain]
  constructor
  · intro heq
    exact gain_injective resource (heq.trans hnil.symm)
  · intro heq
    rw [heq, hnil]

section Gained
variable {replicas : Int} {resource : Allocv1.Resources} {rest rest' : List Allocv1.Resources} {names : List String}

theorem allGained_vm_iff (htype : resource.resourceType = "vm") :
    AllGained replicas (resource :: rest) (gain resource gained :: rest')
        (gained.map (·.clusterName) ++ names) ↔
      (gained.length : Int) = replicas ∧ AllGained replicas rest rest' names := by
  constructor
  · intro h
    generalize hafter : gain resource gained :: rest' = after at h
    generalize hnames : gained.map (·.clusterName) ++ names = names' at h
    cases h with
    | vm gained' _ hlength htail =>
      obtain ⟨hhead, rfl⟩ := List.cons.inj hafter
      cases gain_injective resource hhead
      cases List.append_cancel_left hnames
      exact ⟨hlength, htail⟩
    | other hother _ => exact absurd htype hother
  · intro h
    exact .vm gained htype h.1 h.2

theorem allGained_other_iff (htype : resource.resourceType ≠ "vm") :
    AllGained replicas (resource :: rest) (resource :: rest') names ↔
      AllGained replicas rest rest' names := by
  constructor
  · intro h
    generalize hafter : resource :: rest' = after at h
    cases h with
    | vm gained hvm _ _ => exact absurd hvm htype
    | other _ htail =>
      obtain ⟨-, rfl⟩ := List.cons.inj hafter
      exact htail
  · exact .other htype

end Gained

/-! ### The loop -/

section Loop
variable {settings : Settings} {ords : Nat → MapOrders} {alloc : Allocv1.Allocation} {snap snap' : Snapshot}

theorem sameBooks_updateFlavor : SameBooks (snap.updateFlavor settings) snap' ↔ SameBooks snap snap' :=
  Iff.rfl

/-- **What the loop leaves**, by what its cycles find. One that comes to its end has gained all
exactly if every cycle fits. One that is stopped has gained and booked nothing if the cycle
that stops it finds no slot and those before it are skipped; and where it has gained nothing,
those before it are skipped. -/
structure Judged (settings : Settings) (ords : Nat → MapOrders) (alloc : Allocv1.Allocation)
    (resources : List Allocv1.Resources) (idx : Nat) (snap snap' : Snapshot)
    (resources' : List Allocv1.Resources) (names : List String) (done : Bool) : Prop where
  gained : done = true → (AllGained alloc.spec.replicas resources resources' names ↔
    AllFit settings ords alloc resources idx snap)
  goesOn : done = true → ¬ StoppedAt settings ords alloc (NoSlot settings) resources idx snap
  short : done = false → ¬ AllFit settings ords alloc resources idx snap
  kept : done = false → StoppedAt settings ords alloc (NoSlot settings) resources idx snap →
    resources' = resources ∧ SameBooks snap snap'
  cause : done = false → resources' = resources →
    StoppedAt settings ords alloc (NoSlot settings) resources idx snap ∨
      StoppedAt settings ords alloc (Short settings) resources idx snap

variable {resource : Allocv1.Resources} {resources resources' : List Allocv1.Resources} {idx : Nat}
  {names : List String} {done : Bool}

theorem Judged.other (htype : resource.resourceType ≠ "vm")
    (h : Judged settings ords alloc resources (idx + 1) snap snap' resources' names done) :
    Judged settings ords alloc (resource :: resources) idx snap snap' (resource :: resources') names done := by
  constructor <;> simp only [AllFit, StoppedAt, if_neg htype, allGained_other_iff htype, List.cons_inj_right]
  · exact h.gained
  · exact h.goesOn
  · exact h.short
  · exact h.kept
  · exact h.cause

section
variable {r : Result} (htype : resource.resourceType = "vm")
  (hcall : scheduleShipped settings (ords idx) snap (allocationOf alloc resource) = .ok r)
include htype hcall

theorem Judged.stopped (hfails : r.err ≠ none) :
    Judged settings ords alloc (resource :: resources) idx snap r.snapshot (resource :: resources) [] false := by
  have hverdict := scheduleShipped_verdict hcall
  constructor <;> simp only [AllFit, StoppedAt, if_pos htype]
  · exact fun hdone => absurd hdone Bool.false_ne_true
  · exact fun hdone => absurd hdone Bool.false_ne_true
  · exact fun _ hall => hfails (hverdict.fits.mp hall.1).1
  · intro _ hstop
    have hnone := hstop.resolve_right fun hskips => hfails (hverdict.skipped.mp hskips.1).1
    rw [hverdict.kept (Or.inl hnone)]
    exact ⟨trivial, fun _ => rfl⟩
  · exact fun _ _ => (hverdict.fails.mpr hfails).imp Or.inl Or.inl

theorem Judged.vm (herr : r.err = none)
    (h : Judged settings ords alloc resources (idx + 1) r.snapshot snap' resources' names done) :
    Judged settings ords alloc (resource :: resources) idx snap snap'
      (gain resource (instancesOf r.stackList) :: resources')
      ((instancesOf r.stackList).map (·.clusterName) ++ names) done := by
  have hverdict := scheduleShipped_verdict hcall
  have hfits : Fits settings (ords idx) snap (allocationOf alloc resource) ↔
      (r.stackList.length : Int) = alloc.spec.replicas :=
    hverdict.fits.trans (and_iff_right herr)
  have hskips : Skipped settings (ords idx) snap (allocationOf alloc resource) ↔ r.stackList = [] :=
    hverdict.skipped.trans (and_iff_right herr)
  have hslot : ¬ NoSlot settings (ords idx) snap (allocationOf alloc resource) :=
    fun hnone => hverdict.fails.mp (Or.inl hnone) herr
  -- After a cycle that is skipped the loop goes on in the state that `StoppedAt` names.
  have hsame : Skipped settings (ords idx) snap (allocationOf alloc resource) →
      r.snapshot = snap.updateFlavor settings := fun hskipped => hverdict.kept (Or.inr hskipped)
  constructor <;> simp only [AllFit, StoppedAt, if_pos htype, hcall, Except.ok.injEq, forall_eq']
  · intro hdone
    rw [allGained_vm_iff htype, h.gained hdone, hfits]
    simp [instancesOf]
  · rintro hdone (hnone | ⟨hskipped, hstop⟩)
    · exact hslot hnone
    · exact h.goesOn hdone (hsame hskipped ▸ hstop)
  · exact fun hdone hall => h.short hdone hall.2
  · rintro hdone (hnone | ⟨hskipped, hstop⟩)
    · exact absurd hnone hslot
    · obtain ⟨hrest, hbooks⟩ := h.kept hdone (hsame hskipped ▸ hstop)
      rw [hsame hskipped, sameBooks_updateFlavor] at hbooks
      rw [hrest, hskips.mp hskipped]
      exact ⟨congrArg (· :: resources) (gain_eq_self.mpr rfl), hbooks⟩
  · intro hdone hnothing
    obtain ⟨hhead, hrest⟩ := List.cons.inj hnothing
    have hskipped := hskips.mpr (List.map_eq_nil_iff.mp (gain_eq_self.mp hhead))
    have hstop := h.cause hdone hrest
    rw [hsame hskipped] at hstop
    exact hstop.imp (fun h => Or.inr ⟨hskipped, h⟩) fun h => Or.inr ⟨hskipped, h⟩

end

theorem scheduleResources_judged
    (h : scheduleResources settings ords alloc resources idx snap = .ok (snap', resources', names, done)) :
    Judged settings ords alloc resources idx snap snap' resources' names done := by
  induction resources generalizing idx snap resources' names with
  | nil =>
    cases h
    exact ⟨fun _ => iff_of_true .nil trivial, fun _ => id, nofun, nofun, nofun⟩
  | cons resource resources ih =>
    unfold scheduleResources at h
    by_cases htype : resource.resourceType = "vm"
    · rw [if_pos htype] at h
      obtain ⟨r, hcall, h⟩ := bind_ok.mp h
      cases herr : r.err with
      | some e =>
        simp only [herr] at h
        cases h
        exact .stopped htype hcall (by simp [herr])
      | none =>
        simp only [herr] at h
        obtain ⟨⟨snap'', rest', names', done'⟩, hloop, h⟩ := bind_ok.mp h
        cases h
        exact .vm htype hcall herr (ih hloop)
    · rw [if_neg htype] at h
      obtain ⟨⟨snap'', rest', names', done'⟩, hloop, h⟩ := bind_ok.mp h
      cases h
      exact .other htype (ih hloop)

end Loop

/-- **Scheduling an allocation is all or nothing if** every cycle finds slots for all replicas in
the state it comes to, or one finds none at all and those before it are skipped. Else it is
not, but for a cycle after skipped ones that is short of slots: what that books stays, and may
by chance change nothing. -/
theorem allOrNothing_when (settings : Settings) (ords : Nat → MapOrders) (alloc : Allocv1.Allocation)
    (snap snap' : Snapshot) (alloc' : Allocv1.Allocation)
    (h : scheduleAllocation settings ords alloc snap = .ok (snap', alloc')) :
    (AllFit settings ords alloc alloc.spec.resources 0 snap ∨
        StoppedAt settings ords alloc (NoSlot settings) alloc.spec.resources 0 snap →
      AllOrNothing snap alloc snap' alloc') ∧
    (AllOrNothing snap alloc snap' alloc' →
      AllFit settings ords alloc alloc.spec.resources 0 snap ∨
        StoppedAt settings ords alloc (NoSlot settings) alloc.spec.resources 0 snap ∨
        StoppedAt settings ords alloc (Short settings) alloc.spec.resources 0 snap) := by
  obtain ⟨⟨snap'', resources, names, done⟩, hloop, h⟩ := bind_ok.mp h
  have hjudged := scheduleResources_judged hloop
  cases done with
  | true =>
    cases h
    refine ⟨fun hcond => ⟨fun _ => ?_, fun hphase => ?_⟩, fun hall => ?_⟩
    · exact (hjudged.gained rfl).mpr (hcond.resolve_right (hjudged.goesOn rfl))
    · cases hphase
    · exact Or.inl ((hjudged.gained rfl).mp (hall.1 rfl))
  | false =>
    cases h
    refine ⟨fun hcond => ⟨fun hphase => ?_, fun _ => ?_⟩, fun hnothing => ?_⟩
    · cases hphase
    · exact hjudged.kept rfl (hcond.resolve_left (hjudged.short rfl))
    · exact Or.inr (hjudged.cause rfl (hnothing.2 rfl).1)

/-! ### Two kinds of machines -/

/-- Two kinds of machines of flavor `f`, in so many copies each. -/
def twoKinds (replicas : Int) : Allocv1.Allocation where
  spec := {
    resources := [
      { name := "r1", resourceType := "vm", flavors := ["f"] },
      { name := "r2", resourceType := "vm", flavors := ["f"] }]
    replicas := replicas }

theorem allOrNothing_when_room_for_both :
    ∃ snap' alloc', scheduleAllocation {} (fun _ => {}) (twoKinds 1) (freshSites [("a", 2)]) =
        .ok (snap', alloc') ∧ alloc'.status.phase = .bound ∧
      AllFit {} (fun _ => {}) (twoKinds 1) (twoKinds 1).spec.resources 0 (freshSites [("a", 2)]) ∧
      AllOrNothing (freshSites [("a", 2)]) (twoKinds 1) snap' alloc' := by
  have hrun : (scheduleAllocation {} (fun _ => {}) (twoKinds 1) (freshSites [("a", 2)])).map
      (fun r => r.2.status.phase) = .ok .bound := by
    decide +kernel
  obtain ⟨⟨snap', alloc'⟩, hr, hphase⟩ := map_ok.mp hrun
  have hcycles : (do
      let r ← scheduleShipped {} {} (freshSites [("a", 2)]) (allocationOf (twoKinds 1)
        { name := "r1", resourceType := "vm", flavors := ["f"] })
      let r' ← scheduleShipped {} {} r.snapshot (allocationOf (twoKinds 1)
        { name := "r2", resourceType := "vm", flavors := ["f"] })
      pure [(r.err, r.stackList.length), (r'.err, r'.stackList.length)] : Outcome _) =
        .ok [(none, 1), (none, 1)] := by
    decide +kernel
  obtain ⟨r₁, hr₁, hcycles⟩ := bind_ok.mp hcycles
  obtain ⟨r₂, hr₂, hcycles⟩ := bind_ok.mp hcycles
  have hcounts := pure_ok.mp hcycles
  simp only [List.cons.injEq, Prod.mk.injEq, and_true] at hcounts
  obtain ⟨⟨herr₁, hlen₁⟩, herr₂, hlen₂⟩ := hcounts
  have hfit : AllFit {} (fun _ => {}) (twoKinds 1) (twoKinds 1).spec.resources 0 (freshSites [("a", 2)]) := by
    refine ⟨(scheduleShipped_verdict hr₁).fits.mpr ⟨herr₁, by rw [hlen₁]; rfl⟩, fun r hr => ?_⟩
    cases hr₁.symm.trans hr
    exact ⟨(scheduleShipped_verdict hr₂).fits.mpr ⟨herr₂, by rw [hlen₂]; rfl⟩, fun _ _ => trivial⟩
  exact ⟨snap', alloc', hr, hphase, hfit, (allOrNothing_when _ _ _ _ _ _ hr).1 (Or.inl hfit)⟩

/-- **Half an allocation stays**: there is room for one machine, the first kind takes it, the
second fails, and the allocation is not scheduled with an instance and a booking of the
first. -/
theorem first_kind_stays :
    ∃ snap' alloc', scheduleAllocation {} (fun _ => {}) (twoKinds 1) (freshSites [("a", 1)]) =
        .ok (snap', alloc') ∧ alloc'.status.phase = .notScheduled ∧
      alloc'.spec.resources ≠ (twoKinds 1).spec.resources ∧
      ¬ SameBooks (freshSites [("a", 1)]) snap' ∧
      ¬ AllOrNothing (freshSites [("a", 1)]) (twoKinds 1) snap' alloc' := by
  have hrun : (scheduleAllocation {} (fun _ => {}) (twoKinds 1) (freshSites [("a", 1)])).map
      (fun r => (r.2.status.phase, r.2.spec.resources.map (·.virtualMachine.clusterInstances.length),
        (r.1.siteCacheInfoMap.lookup "r--a").map (fun info => info.allocatableFlavor.lookup "f"))) =
      .ok (.notScheduled, [1, 0], some (some 0)) := by
    decide +kernel
  obtain ⟨⟨snap', alloc'⟩, hr, heq⟩ := map_ok.mp hrun
  simp only [Prod.mk.injEq] at heq
  obtain ⟨hphase, hgained, hflavor⟩ := heq
  have hresources : alloc'.spec.resources ≠ (twoKinds 1).spec.resources := by
    intro hsame
    rw [hsame] at hgained
    exact absurd hgained (by decide)
  have hbooks : ¬ SameBooks (freshSites [("a", 1)]) snap' := by
    intro hsame
    have hkept := congrArg (Option.map fun b => b.2.2.2.lookup "f") (hsame "r--a")
    rw [Option.map_map, Option.map_map] at hkept
    have hbefore : ((freshSites [("a", 1)]).siteCacheInfoMap.lookup "r--a").map
        (fun info => info.allocatableFlavor.lookup "f") = some (some 1) := by
      decide +kernel
    exact absurd (hflavor.symm.trans (hkept.trans hbefore)) (by decide)
  exact ⟨snap', alloc', hr, hphase, hresources, hbooks, fun hall => hbooks (hall.2 hphase).2⟩

end GlobalScheduler.ScheduleAllocation
