import GlobalScheduler.Controllers.SchedulerControllerProofs
import GlobalScheduler.Requests

/-! The distributor.

It gives every pod and allocation to a scheduler that has a cluster where the request
wants to run. What it reads is the union that the scheduler controller has written, so
its choice is right as far as the union is that of the clusters the scheduler serves. -/
namespace GlobalScheduler.Distributor

open Clusterv1 Schedulers
open ClusterUnion (Filed)

/-! ### The code -/

variable (geoLocation : GeolocationInfo)

/-- The comparison of a place with the fields of a selector. -/
def geoMatches (country area province city : String) : Bool :=
  if area = "" ∧ city = "" ∧ province = "" ∧ country = "" then true
  else if country ≠ "" ∧ geoLocation.country ≠ country then false
  else if area ≠ "" ∧ geoLocation.area ≠ area then false
  else if province ≠ "" ∧ geoLocation.province ≠ province then false
  else if city ≠ "" ∧ geoLocation.city ≠ city then false
  else true

def matchGeoLocation (podLoc : Podv1.ResourceGeoLocation) : Bool :=
  geoMatches geoLocation podLoc.country podLoc.area podLoc.province podLoc.city

def isAllocationGeoLocationMatched (allocGeoLocation : Allocv1.GeoLocation) : Bool :=
  geoMatches geoLocation allocGeoLocation.country allocGeoLocation.area allocGeoLocation.province
    allocGeoLocation.city

def geoLocationPredicate (scheduler : Scheduler) (selector : Podv1.ResourceSelector) : Bool :=
  scheduler.union.geoLocation.any (matchGeoLocation · selector.geoLocation)

/-- `runPredicates`, with the one predicate there is. -/
def runPredicates (schedulers : List Scheduler) (selector : Podv1.ResourceSelector) :
    List Scheduler :=
  schedulers.filter (geoLocationPredicate · selector)

/-- The loop of `findScheduler`. -/
def matchedSchedulers (schedulers : List Scheduler) (allocation : Allocv1.Allocation) :
    List Scheduler :=
  schedulers.filter fun scheduler => scheduler.union.geoLocation.any
    (isAllocationGeoLocationMatched · allocation.spec.selector.geoLocation)

def choose (rand : Nat) (filteredSchedulers : List Scheduler) (err : String) : Except String String :=
  match filteredSchedulers[rand % filteredSchedulers.length]? with
  | none => .error err
  | some scheduler => .ok scheduler.name

def findFit (rand : Nat) (schedulers : List Scheduler) (selector : Podv1.ResourceSelector) :
    Except String String :=
  choose rand (runPredicates schedulers selector) "failed to find a scheduler that fits pod"

def findScheduler (rand : Nat) (schedulers : List Scheduler) (allocation : Allocv1.Allocation) :
    Except String String :=
  choose rand (matchedSchedulers schedulers allocation)
    "failed to find a scheduler that fits allocation"

/-! ### What a selector asks for -/

/-- The place agrees with every field of the selector that is filled in. -/
def Agrees (country area province city : String) : Prop :=
  (country ≠ "" → geoLocation.country = country) ∧ (area ≠ "" → geoLocation.area = area) ∧
    (province ≠ "" → geoLocation.province = province) ∧ (city ≠ "" → geoLocation.city = city)

variable {country area province city : String}

theorem geoMatches_iff {geoLocation : GeolocationInfo} :
    geoMatches geoLocation country area province city = true ↔
      Agrees geoLocation country area province city := by
  unfold geoMatches Agrees
  split_ifs with hempty hcountry harea hprovince hcity
  · obtain ⟨rfl, rfl, rfl, rfl⟩ := hempty
    simp
  all_goals grind

/-- The scheduler serves a cluster in such a place. -/
def ServesPlace (s : State) (scheduler : Scheduler) (country area province city : String) : Prop :=
  ∃ c ∈ s.clusters.live, c.name ∈ scheduler.cluster ∧
    Agrees c.spec.geoLocation country area province city

/-! ### What the controller has written -/

/-- A scheduler that was written has clusters there are, and the union of what they offer. -/
def WrittenServe (s : State) : Prop :=
  ∀ scheduler ∈ s.written, ∃ handed : Cluster → Prop,
    (∀ c, handed c → c ∈ s.clusters.live) ∧ Serves handed scheduler

variable {s : State} {es : List Event} {schedulers : List Scheduler}

theorem writtenServe_of_rebalanced {s' : State} (h : Rebalanced s s') : WrittenServe s' := by
  obtain ⟨handed, hdivides, hdealt⟩ := h.dealt
  intro scheduler hmem
  obtain ⟨i, hi, hserves⟩ := hdealt.written scheduler hmem
  have hsome : s.schedulers ≠ [] := by
    intro hnil
    rw [State.count, hnil, List.length_nil, Nat.zero_min] at hi
    exact absurd hi (Nat.not_lt_zero i)
  refine ⟨handed i, ?_, hserves⟩
  rw [h.clusters]
  exact (hdivides hsome).sub i hi

theorem runs_writtenServe (h : Runs es s) : WrittenServe s := by
  cases h with
  | nil =>
    intro scheduler hmem
    cases hmem
  | snoc before hallowed hstep =>
    exact writtenServe_of_rebalanced ((Runs.tracks before).step hallowed hstep)

section
variable {s : State} {scheduler : Scheduler} {handed : Cluster → Prop}

/-- The union has a place that will do exactly if a cluster of the scheduler is in one. -/
theorem any_geoMatches_iff (hfiled : Filed s.clusters.live)
    (hlive : ∀ c, handed c → c ∈ s.clusters.live) (hserves : Serves handed scheduler)
    :
    scheduler.union.geoLocation.any (geoMatches · country area province city) = true ↔
      ServesPlace s scheduler country area province city := by
  simp only [List.any_eq_true, geoMatches_iff, ServesPlace]
  constructor
  · rintro ⟨geoLocation, hmem, hagrees⟩
    obtain ⟨c, hc, rfl⟩ := (hserves.geoLocation geoLocation).mp hmem
    exact ⟨c, hlive c hc, (hserves.cluster c.name).mpr ⟨c, hc, rfl⟩, hagrees⟩
  · rintro ⟨c, hc, hname, hagrees⟩
    -- The list has names; that of a cluster is its own.
    obtain ⟨c', hc', heq⟩ := (hserves.cluster c.name).mp hname
    rw [hfiled.names c' (hlive c' hc') c hc heq] at hc'
    exact ⟨c.spec.geoLocation, (hserves.geoLocation _).mpr ⟨c, hc', rfl⟩, hagrees⟩

theorem servesPlace_empty (hlive : ∀ c, handed c → c ∈ s.clusters.live) (hserves : Serves handed scheduler) :
    ServesPlace s scheduler "" "" "" "" ↔ scheduler.cluster ≠ [] := by
  constructor
  · rintro ⟨c, -, hname, -⟩
    exact List.ne_nil_of_mem hname
  · intro hne
    obtain ⟨name, hname⟩ := List.exists_mem_of_ne_nil _ hne
    obtain ⟨c, hc, rfl⟩ := (hserves.cluster name).mp hname
    exact ⟨c, hlive c hc, hname, by simp [Agrees]⟩

end

theorem any_geoMatches_written (h : Runs es s) {scheduler : Scheduler} (hwritten : scheduler ∈ s.written) :
    scheduler.union.geoLocation.any (geoMatches · country area province city) = true ↔
      ServesPlace s scheduler country area province city := by
  obtain ⟨handed, hlive, hserves⟩ := runs_writtenServe h scheduler hwritten
  exact any_geoMatches_iff h.tracks.1 hlive hserves

/-- **A scheduler is considered exactly if it serves a cluster where the request wants to
run**, for pods and for allocations; a request that does not say where is for every
scheduler that serves a cluster. -/
theorem runs_considered_iff (es : List Event) (s : State) (h : Runs es s) (scheduler : Scheduler)
    (hwritten : scheduler ∈ s.written) :
    (∀ selector : Podv1.ResourceSelector, geoLocationPredicate scheduler selector = true ↔
      ServesPlace s scheduler selector.geoLocation.country selector.geoLocation.area
        selector.geoLocation.province selector.geoLocation.city) ∧
    (∀ allocation schedulers, scheduler ∈ schedulers →
      (scheduler ∈ matchedSchedulers schedulers allocation ↔
        ServesPlace s scheduler allocation.spec.selector.geoLocation.country
          allocation.spec.selector.geoLocation.area allocation.spec.selector.geoLocation.province
          allocation.spec.selector.geoLocation.city)) ∧
    (ServesPlace s scheduler "" "" "" "" ↔ scheduler.cluster ≠ []) := by
  obtain ⟨handed, hlive, hserves⟩ := runs_writtenServe h scheduler hwritten
  refine ⟨fun selector => any_geoMatches_written h hwritten, ?_, servesPlace_empty hlive hserves⟩
  intro allocation schedulers hmem
  rw [matchedSchedulers, List.mem_filter, and_iff_right hmem]
  exact any_geoMatches_written h hwritten

/-- A scheduler with a cluster in the city `x`. -/
theorem runs_considered_city :
    ∃ es s scheduler, Runs es s ∧ scheduler ∈ s.written ∧
      geoLocationPredicate scheduler { geoLocation := { city := "x" } } = true ∧
      (geoLocationPredicate scheduler { geoLocation := { city := "y" } } = true ↔
        ServesPlace s scheduler "" "" "" "y") := by
  have hrun : Runs [(Change.addScheduler ⟨"", "a", [], {}⟩).event,
      (Change.addCluster (ClusterUnion.cityCluster "x" "k1" "f")).event] _ :=
    .cons (by decide : ("", "a") ∉ init.api.stored) rfl <|
      .cons ⟨by decide, fun c hc => absurd hc (Finset.notMem_empty c)⟩ rfl (.nil _)
  refine ⟨_, _, _, hrun, List.mem_singleton.mpr rfl, by decide, ?_⟩
  exact (runs_considered_iff _ _ hrun _ (List.mem_singleton.mpr rfl)).1 { geoLocation := { city := "y" } }

/-! ### The choice -/

/-- An answer names a scheduler that serves such a place, and there is one if any does. -/
def Fits (s : State) (schedulers : List Scheduler) (country area province city : String) :
    Except String String → Prop
  | .ok name => ∃ scheduler ∈ schedulers, scheduler.name = name ∧
    ServesPlace s scheduler country area province city
  | .error _ => ∀ scheduler ∈ schedulers, ¬ ServesPlace s scheduler country area province city

theorem choose_fits (h : Runs es s)
    (hwritten : ∀ scheduler ∈ schedulers, scheduler ∈ s.written) (rand : Nat) (err : String)
    (country area province city : String) :
    Fits s schedulers country area province city (choose rand
      (schedulers.filter (·.union.geoLocation.any (geoMatches · country area province city))) err) := by
  obtain ⟨filtered, hfiltered⟩ : ∃ filtered, filtered =
      schedulers.filter (·.union.geoLocation.any (geoMatches · country area province city)) := ⟨_, rfl⟩
  have hserves : ∀ scheduler, scheduler ∈ filtered ↔ scheduler ∈ schedulers ∧
      ServesPlace s scheduler country area province city := by
    intro scheduler
    rw [hfiltered, List.mem_filter]
    exact and_congr_right fun hmem => any_geoMatches_written h (hwritten scheduler hmem)
  rw [← hfiltered, choose]
  cases hchosen : filtered[rand % filtered.length]? with
  | some scheduler =>
    obtain ⟨hmem, hplace⟩ := (hserves scheduler).mp (List.mem_of_getElem? hchosen)
    exact ⟨scheduler, hmem, rfl, hplace⟩
  | none =>
    -- The index is in range unless there is nothing to choose from.
    have hnone : filtered = [] := by
      by_contra hne
      have hlength := List.length_pos_iff.mpr hne
      have hlt := Nat.mod_lt rand hlength
      exact absurd (List.getElem?_eq_none_iff.mp hchosen) (Nat.not_le.mpr hlt)
    intro scheduler hmem hplace
    have hin := (hserves scheduler).mpr ⟨hmem, hplace⟩
    rw [hnone] at hin
    cases hin

/-- **A pod and an allocation go to a scheduler that serves a cluster where they want to run**,
if there is one. -/
theorem found_fits (h : Runs es s) (hwritten : ∀ scheduler ∈ schedulers, scheduler ∈ s.written) (rand : Nat) :
    (∀ selector : Podv1.ResourceSelector, Fits s schedulers selector.geoLocation.country
      selector.geoLocation.area selector.geoLocation.province selector.geoLocation.city
      (findFit rand schedulers selector)) ∧
    ∀ allocation : Allocv1.Allocation, Fits s schedulers allocation.spec.selector.geoLocation.country
      allocation.spec.selector.geoLocation.area allocation.spec.selector.geoLocation.province
      allocation.spec.selector.geoLocation.city (findScheduler rand schedulers allocation) :=
  ⟨fun _ => choose_fits h hwritten rand _ _ _ _ _, fun _ => choose_fits h hwritten rand _ _ _ _ _⟩

theorem found_fits_city : ∃ es, Runs es firstCity ∧
    findFit 5 firstCity.written { geoLocation := { city := "x" } } = .ok "a" ∧
    Fits firstCity firstCity.written "" "" "" "y" (findFit 5 firstCity.written { geoLocation := { city := "y" } }) := by
  obtain ⟨es, hrun⟩ := exists_run_firstCity
  have h : Runs es firstCity := hrun.mono fun _ _ hapart => hapart.1
  exact ⟨es, h, by decide, (found_fits h (fun _ hmem => hmem) 5).1 { geoLocation := { city := "y" } }⟩

end GlobalScheduler.Distributor
