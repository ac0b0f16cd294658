import GlobalScheduler.Collector.RegionCache
import GlobalScheduler.Transition
import GlobalScheduler.Types

/-! Cluster profiles sent to the resource collector.

The cluster controller tells the collector of every cluster that is created or deleted. A
created cluster adds its region and its zone. A deleted one removes its zone and then, in
every case, the region with whatever other zones it has: what the collector knows of a
region are the zones created in it since the last cluster was deleted from it. -/
namespace GlobalScheduler.Collector

open Go Transition RegionResourceCache Map

/-! ### The code -/

structure ClusterSpecInfo where
  clusterIpAddress : String := ""
  geoLocation : Option GeoLocation := none
  region : Option RegionAzMap := none
deriving DecidableEq

structure ClusterProfile where
  clusterNameSpace : String
  clusterName : String
  clusterSpec : Option ClusterSpecInfo := none
  clusterStatus : String
deriving DecidableEq

inductive ReturnCode where
  | ok
  | error
deriving DecidableEq, Repr

structure ReturnMessage where
  clusterNameSpace : String
  clusterName : String
  returnCode : ReturnCode
  message : String
deriving DecidableEq, Repr

def getReturnMessageFromError (ns name err : String) : ReturnMessage :=
  ⟨ns, name, .error, "Grpc call failed: " ++ err⟩

/-- An aggregate of hosts, all in one zone. -/
structure Aggregate where
  hosts : List String
  availabilityZone : String
deriving DecidableEq, Repr

/-- What a cloud answers to the question for its aggregates. -/
inductive Listing where
  | noClient
  | failed
  | aggregates (list : List Aggregate)

/-- What a call finds: whether the collector has been set up, the answer of the cloud at an
address, and the order in which regions are gone through. -/
structure Env where
  initialised : Bool := true
  listing : String → Listing := fun _ => .noClient
  ord : List String := []

/-- The hosts of every region, filed with their zones. When the aggregates cannot be listed
the pages are nil, and reading them ends the process. -/
def buildHostAzMap (env : Env) (r : RegionResourceCache) : Option RegionResourceCache :=
  (entriesBy env.ord r.regionResourceMap).foldlM (fun r entry =>
    match env.listing entry.2.eipNetworkID with
    | .noClient => some r
    | .failed => none
    | .aggregates list => some (list.foldl (fun r aggregate =>
        r.addHostAz entry.2.regionName aggregate.hosts aggregate.availabilityZone) r)) r

/-- The address, region and zone of a profile that is complete. -/
def checkProfile (profile : ClusterProfile) : Except String (String × String × String) :=
  match profile.clusterSpec with
  | none => .error "clusterSpec information is incomplete"
  | some spec =>
    match spec.geoLocation, spec.region with
    | some _, some region =>
      if spec.clusterIpAddress = "" then .error "cluster ip is not set"
      else if region.region = "" ∨ region.availabilityZone = "" then
        .error "cluster region or az is invalid"
      else .ok (spec.clusterIpAddress, region.region, region.availabilityZone)
    | _, _ => .error "clusterSpec information is incomplete"

/-- The errors of both removals are only logged. -/
def sendClusterProfile (env : Env) (r : RegionResourceCache) (profile : ClusterProfile) :
    Option (RegionResourceCache × ReturnMessage) :=
  let ns := profile.clusterNameSpace
  let name := profile.clusterName
  match checkProfile profile with
  | .error err => some (r, getReturnMessageFromError ns name err)
  | .ok (ip, region, az) =>
    if env.initialised = false then
      some (r, getReturnMessageFromError ns name "server internal error")
    else if profile.clusterStatus = "Created" then do
      let r := r.addRegionResource { regionName := region, eipNetworkID := ip }
      let r := r.addAvailabilityZone region az
      let r ← buildHostAzMap env r
      some (r, ⟨ns, name, .ok, "ok"⟩)
    else if profile.clusterStatus = "Deleted" then
      let r := (r.removeAvailabilityZone region az).1
      let r := (r.removeRegionResource region).1
      some (r, ⟨ns, name, .ok, "ok"⟩)
    else some (r, getReturnMessageFromError ns name "status error")

/-! ### Histories -/

/-- A profile, or a capacity found by a round of the collector. -/
inductive Event where
  | profile (env : Env) (sent : ClusterProfile)
  | cpuAndMem (region az : String) (new : CpuAndMemResource)
  | volumes (region : String) (new : List VolumeResource)

/-- What an event says about clusters: nothing, if it is no profile or is turned down. -/
inductive Change where
  | nothing
  | created (cluster : String × String) (region az : String)
  | deleted (cluster : String × String) (region az : String)
deriving DecidableEq

def Event.change : Event → Change
  | .profile env sent =>
    let cluster := (sent.clusterNameSpace, sent.clusterName)
    match checkProfile sent with
    | .error _ => .nothing
    | .ok (_, region, az) =>
      if env.initialised = false then .nothing
      else if sent.clusterStatus = "Created" then .created cluster region az
      else if sent.clusterStatus = "Deleted" then .deleted cluster region az
      else .nothing
  | _ => .nothing

namespace Change

/-- The live clusters, each with its region and zone. -/
def live (live : Map (String × String) (String × String)) : Change →
    Map (String × String) (String × String)
  | nothing => live
  | created cluster region az => live.insert cluster (region, az)
  | deleted cluster _ _ => live.erase cluster

/-- The zones created in each region since a cluster was last deleted from it. -/
def since (zones : String → Finset String) : Change → String → Finset String
  | nothing => zones
  | created _ region az => Function.update zones region (insert az (zones region))
  | deleted _ region _ => Function.update zones region ∅

end Change

structure State where
  regionResources : RegionResourceCache := newRegionCache
  live : Map (String × String) (String × String) := ∅

def handle (r : RegionResourceCache) : Event → Option RegionResourceCache
  | .profile env sent => (sendClusterProfile env r sent).map Prod.fst
  | .cpuAndMem region az new => some (r.updateCpuAndMemResource region az new).1
  | .volumes region new => some (r.updateVolumeResource region new).1

variable (s : State)

def step (e : Event) (s' : State) : Prop :=
  handle s.regionResources e = some s'.regionResources ∧ s'.live = e.change.live s.live

def init : State := {}

/-- A cluster that is deleted is live, in the region and the zone its profile gives. -/
def Allowed (e : Event) : Prop :=
  ∀ cluster region az, e.change = .deleted cluster region az →
    s.live.lookup cluster = some (region, az)

abbrev Runs := Run step Allowed init

/-- Some live cluster is in the zone. -/
def State.Inhabited (region az : String) : Prop :=
  ∃ cluster, s.live.lookup cluster = some (region, az)

/-- The regions are those of the live clusters, and so are the zones of each. -/
def Matches : Prop :=
  (∀ region, region ∈ s.regionResources.regionResourceMap ↔ ∃ az, s.Inhabited region az) ∧
    ∀ region info, s.regionResources.regionResourceMap.lookup region = some info →
      ∀ az, az ∈ info.cpuAndMemResources ↔ s.Inhabited region az

/-- The zones created in a region since a cluster was last deleted from it, in a history. -/
def createdSince (es : List Event) : String → Finset String :=
  es.foldl (fun zones e => e.change.since zones) fun _ => ∅

/-! ### One event -/

variable {r r' : RegionResourceCache}

theorem zones_buildHostAzMap {env : Env} (h : buildHostAzMap env r = some r') : r'.zones = r.zones := by
  -- The regions gone through are there all along.
  suffices hloop : ∀ (entries : List (String × RegionResource)) (r₁ : RegionResourceCache),
      (∀ entry ∈ entries, (r.zones entry.2.regionName).isSome) → r₁.zones = r.zones →
      entries.foldlM (fun r entry => match env.listing entry.2.eipNetworkID with
        | .noClient => some r
        | .failed => none
        | .aggregates list => some (list.foldl (fun r aggregate =>
            r.addHostAz entry.2.regionName aggregate.hosts aggregate.availabilityZone) r)) r₁ = some r' →
      r'.zones = r.zones by
    refine hloop _ r (fun entry hentry => ?_) rfl h
    have hlook := mem_entriesBy.mp hentry
    rw [r.named _ _ hlook, ← mem_iff_zones]
    exact mem_of_lookup hlook
  intro entries
  induction entries with
  | nil =>
    intro r₁ _ hsame hrun
    cases hrun
    exact hsame
  | cons entry rest ih =>
    intro r₁ hthere hsame hrun
    have hrest : ∀ entry ∈ rest, (r.zones entry.2.regionName).isSome :=
      fun e he => hthere e (List.mem_cons_of_mem entry he)
    rw [List.foldlM_cons] at hrun
    cases hlisting : env.listing entry.2.eipNetworkID with
    | noClient =>
      rw [hlisting] at hrun
      exact ih r₁ hrest hsame hrun
    | failed =>
      rw [hlisting] at hrun
      cases hrun
    | aggregates list =>
      rw [hlisting] at hrun
      refine ih _ hrest ?_ hrun
      have hregion := hthere entry List.mem_cons_self
      clear hrun hlisting
      induction list generalizing r₁ with
      | nil => exact hsame
      | cons aggregate others ihlist =>
        refine ihlist _ ?_
        rw [zones_addHostAz (mem_iff_zones.mpr (by rw [hsame]; exact hregion)), hsame]

def Change.zones (zones : String → Option (Finset String)) : Change → String → Option (Finset String)
  | nothing => zones
  | created _ region az => Function.update zones region (some (insert az ((zones region).getD ∅)))
  | deleted _ region _ => Function.update zones region none

/-- What a profile does: it is accepted exactly if it says something about a cluster, and then
the zones change as it says. -/
theorem sendClusterProfile_spec {env : Env} {sent : ClusterProfile}
    {reply : ReturnMessage} (h : sendClusterProfile env r sent = some (r', reply)) :
    (reply.returnCode = .ok ↔ (Event.profile env sent).change ≠ .nothing) ∧
      r'.zones = (Event.profile env sent).change.zones r.zones := by
  cases hcheck : checkProfile sent with
  | error err =>
    simp only [sendClusterProfile, hcheck] at h
    cases h
    simp [Event.change, hcheck, getReturnMessageFromError, Change.zones]
  | ok place =>
    obtain ⟨ip, region, az⟩ := place
    simp only [sendClusterProfile, Event.change, hcheck] at h ⊢
    split_ifs at h ⊢ with hready hcreated hdeleted
    · cases h
      simp [getReturnMessageFromError, Change.zones]
    · obtain ⟨r₁, hbuild, h⟩ := Option.bind_eq_some_iff.mp h
      cases h
      exact ⟨by simp, (zones_buildHostAzMap hbuild).trans (zones_created ip region az)⟩
    · cases h
      exact ⟨by simp, zones_deleted region az⟩
    · cases h
      simp [getReturnMessageFromError, Change.zones]

theorem zones_handle {e : Event} (h : handle r e = some r') : r'.zones = e.change.zones r.zones := by
  cases e with
  | profile env sent =>
    obtain ⟨⟨r₁, reply⟩, hcall, rfl⟩ := Option.map_eq_some_iff.mp h
    exact (sendClusterProfile_spec hcall).2
  | cpuAndMem region az new =>
    cases h
    exact zones_updateCpuAndMemResource region az new
  | volumes region new =>
    cases h
    exact zones_updateVolumeResource region new

/-! ### Histories and zones -/

/-- A region is there once a cluster was created in it, with the zones since. -/
def Holds (zones : String → Option (Finset String)) (since : String → Finset String) : Prop :=
  ∀ region, zones region = if since region = ∅ then none else some (since region)

theorem Holds.change {zones : String → Option (Finset String)} {since : String → Finset String}
    (h : Holds zones since) (change : Change) : Holds (change.zones zones) (change.since since) := by
  cases change with
  | nothing => exact h
  | created cluster region az =>
    intro region'
    by_cases hregion : region' = region
    · subst hregion
      have hbefore : (zones region').getD ∅ = since region' := by
        rw [h region']
        split
        case isTrue hempty => rw [hempty, Option.getD_none]
        case isFalse => rfl
      simp [Change.zones, Change.since, hbefore]
    · simp [Change.zones, Change.since, Function.update_of_ne hregion, h region']
  | deleted cluster region az =>
    intro region'
    by_cases hregion : region' = region
    · subst hregion
      simp [Change.zones, Change.since]
    · simp [Change.zones, Change.since, Function.update_of_ne hregion, h region']

/-- In every history, what the collector knows of a region is what was created there since. -/
theorem Runs.holds {es : List Event} {s : State} (h : Runs es s) :
    Holds s.regionResources.zones (createdSince es) := by
  induction h with
  | nil => exact fun region => rfl
  | snoc before meets last ih =>
    rw [zones_handle last.1, createdSince, List.foldl_append]
    exact ih.change _

/-- **The regions and zones are those of the live clusters exactly if** the zones created in
each region since the last deletion there are the zones of its live clusters. -/
theorem runs_match_iff (es : List Event) (s : State) (h : Runs es s) :
    Matches s ↔ ∀ region az, az ∈ createdSince es region ↔ s.Inhabited region az := by
  have hholds := h.holds
  have hmem : ∀ region, region ∈ s.regionResources.regionResourceMap ↔
      ∃ az, az ∈ createdSince es region := by
    intro region
    rw [mem_iff_zones, hholds region, ← Finset.Nonempty, Finset.nonempty_iff_ne_empty]
    split
    case isTrue hempty => simp [hempty]
    case isFalse hnonempty => simp [hnonempty]
  have hzones : ∀ region info, s.regionResources.regionResourceMap.lookup region = some info →
      ∀ az, az ∈ info.cpuAndMemResources ↔ az ∈ createdSince es region := by
    intro region info hlook az
    have heq := (zones_of_lookup hlook).symm.trans (hholds region)
    split at heq
    case isTrue => cases heq
    case isFalse =>
      rw [← Option.some.inj heq, List.mem_toFinset, AList.mem_keys]
  constructor
  · intro hmatches region az
    constructor
    · intro hsince
      have hregion := (hmem region).mpr ⟨az, hsince⟩
      obtain ⟨info, hlook⟩ := exists_lookup hregion
      exact (hmatches.2 region info hlook az).mp ((hzones region info hlook az).mpr hsince)
    · intro hlive
      have hregion := (hmatches.1 region).mpr ⟨az, hlive⟩
      obtain ⟨info, hlook⟩ := exists_lookup hregion
      exact (hzones region info hlook az).mp ((hmatches.2 region info hlook az).mpr hlive)
  · intro hsame
    refine ⟨fun region => ?_, fun region info hlook az => ?_⟩
    · rw [hmem]
      exact exists_congr (hsame region)
    · rw [hzones region info hlook]
      exact hsame region az

/-! ### Two clusters in a region -/

/-- A profile of a cluster in region `r`. -/
def inRegion (name az status : String) : Event :=
  .profile {} { clusterNameSpace := "n", clusterName := name, clusterStatus := status
                clusterSpec := some ⟨"10.0.0.1", some {}, some ⟨"r", az⟩⟩ }

/-- The state after a profile that does not end the process. -/
def after (e : Event) : State :=
  { regionResources := (handle s.regionResources e).getD s.regionResources
    live := e.change.live s.live }

theorem step_after {s : State} {e : Event} (h : handle s.regionResources e ≠ none) : step s e (after s e) :=
  ⟨(Option.getD_of_ne_none h _).symm, rfl⟩

/-- Two clusters are created in region `r`, in zones `a` and `b`. -/
def twoInRegion : State :=
  after (after init (inRegion "k" "a" "Created")) (inRegion "l" "b" "Created")

theorem runs_twoInRegion : Runs [inRegion "k" "a" "Created", inRegion "l" "b" "Created"] twoInRegion := by
  have hcreated : ∀ s name az, Allowed s (inRegion name az "Created") := by
    intro s name az cluster region az' h
    by_cases haz : az = "" <;> simp [Event.change, inRegion, checkProfile, haz] at h
  have hfirst : Runs ([] ++ [inRegion "k" "a" "Created"]) (after init (inRegion "k" "a" "Created")) :=
    .snoc (.nil init) (hcreated _ _ _) (step_after (by decide +kernel))
  exact .snoc hfirst (hcreated _ _ _) (step_after (by decide +kernel))

theorem twoInRegion_inhabited (region az : String) :
    twoInRegion.Inhabited region az ↔ region = "r" ∧ (az = "a" ∨ az = "b") := by
  have hlive : twoInRegion.live =
      ((∅ : Map _ _).insert ("n", "k") ("r", "a")).insert ("n", "l") ("r", "b") := by
    simp [twoInRegion, after, init, Event.change, inRegion, checkProfile, Change.live]
  rw [State.Inhabited, hlive]
  constructor
  · rintro ⟨cluster, hlook⟩
    by_cases hl : cluster = ("n", "l")
    · rw [hl, AList.lookup_insert] at hlook
      cases hlook
      exact ⟨rfl, Or.inr rfl⟩
    · rw [AList.lookup_insert_ne hl] at hlook
      by_cases hk : cluster = ("n", "k")
      · rw [hk, AList.lookup_insert] at hlook
        cases hlook
        exact ⟨rfl, Or.inl rfl⟩
      · rw [AList.lookup_insert_ne hk] at hlook
        cases hlook
  · rintro ⟨rfl, rfl | rfl⟩
    · exact ⟨("n", "k"), by decide⟩
    · exact ⟨("n", "l"), by decide⟩

theorem runs_match_iff_two :
    (∀ region az, az ∈ createdSince [inRegion "k" "a" "Created", inRegion "l" "b" "Created"] region ↔
        twoInRegion.Inhabited region az) ∧
      Matches twoInRegion := by
  have hsame : ∀ region az,
      az ∈ createdSince [inRegion "k" "a" "Created", inRegion "l" "b" "Created"] region ↔
        twoInRegion.Inhabited region az := by
    intro region az
    rw [twoInRegion_inhabited]
    by_cases hregion : region = "r" <;>
      simp [createdSince, Event.change, inRegion, checkProfile, Change.since, hregion, or_comm]
  exact ⟨hsame, (runs_match_iff _ _ runs_twoInRegion).mpr hsame⟩

/-- **A deleted cluster takes the region along**: of two clusters in a region, in zones of
their own, one is deleted, and the region is gone. -/
theorem region_gone :
    ∃ s, Runs ([inRegion "k" "a" "Created", inRegion "l" "b" "Created"] ++
        [inRegion "k" "a" "Deleted"]) s ∧
      s.Inhabited "r" "b" ∧ "r" ∉ s.regionResources.regionResourceMap ∧ ¬ Matches s := by
  have hlive : (after twoInRegion (inRegion "k" "a" "Deleted")).Inhabited "r" "b" :=
    ⟨("n", "l"), by decide +kernel⟩
  have hgone : "r" ∉ (after twoInRegion (inRegion "k" "a" "Deleted")).regionResources.regionResourceMap := by
    decide +kernel
  refine ⟨after twoInRegion (inRegion "k" "a" "Deleted"), .snoc runs_twoInRegion ?_
    (step_after (by decide +kernel)), hlive, hgone, fun h => hgone ((h.1 "r").mpr ⟨"b", hlive⟩)⟩
  intro cluster region az h
  have hchange : (inRegion "k" "a" "Deleted").change = .deleted ("n", "k") "r" "a" := by decide
  cases hchange.symm.trans h
  decide +kernel

end GlobalScheduler.Collector
