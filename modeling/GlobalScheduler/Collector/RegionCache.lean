import GlobalScheduler.Go.Float
import GlobalScheduler.Go.Map

/-! What the resource collector knows about regions.

A region has a record, filed under its name, with the zones it has and the capacity of
each. Clusters that come and go add and remove regions and zones; the collector's rounds
write the capacities. -/
namespace GlobalScheduler.Collector

open Go AList Option Function

structure CpuAndMemResource where
  totalVCPUs : Int
  totalMem : Int
deriving DecidableEq, Repr

structure VolumeResource where
  totalCapacityGb : Fp
  volumeType : String
deriving DecidableEq

/-- The record of a region; `volumeResources` is nil until it is written. -/
structure RegionResource where
  regionName : String
  eipNetworkID : String := ""
  hostAzMap : Map String String := ∅
  cpuAndMemResources : Map String CpuAndMemResource := ∅
  volumeResources : Option (List VolumeResource) := none
deriving DecidableEq

/-- The records, each under the name of its region. -/
structure RegionResourceCache where
  regionResourceMap : Map String RegionResource := ∅
  named : ∀ key info, regionResourceMap.lookup key = some info → info.regionName = key

namespace RegionResourceCache

def newRegionCache : RegionResourceCache where
  named := by intro key info h; cases h

def put (r : RegionResourceCache) (info : RegionResource) : RegionResourceCache where
  regionResourceMap := r.regionResourceMap.insert info.regionName info
  named := by
    intro key info' hlook
    by_cases hkey : key = info.regionName
    · subst hkey
      rw [lookup_insert] at hlook
      cases hlook
      rfl
    · rw [lookup_insert_ne hkey] at hlook
      exact r.named key info' hlook

def drop (r : RegionResourceCache) (regionName : String) : RegionResourceCache where
  regionResourceMap := r.regionResourceMap.erase regionName
  named := by
    intro key info hlook
    by_cases hkey : key = regionName
    · subst hkey
      rw [lookup_erase] at hlook
      cases hlook
    · rw [lookup_erase_ne hkey] at hlook
      exact r.named key info hlook

/-! ### The code -/

def addRegionResource (r : RegionResourceCache) (region : RegionResource) : RegionResourceCache :=
  if region.regionName ∈ r.regionResourceMap then r else r.put region

def removeRegionResource (r : RegionResourceCache) (regionName : String) :
    RegionResourceCache × Option String :=
  if regionName ∈ r.regionResourceMap then (r.drop regionName, none)
  else (r, some ("Region " ++ regionName ++ " is not found"))

def addAvailabilityZone (r : RegionResourceCache) (regionName availabilityZone : String) :
    RegionResourceCache :=
  match r.regionResourceMap.lookup regionName with
  | none => r
  | some info => r.put { info with
      cpuAndMemResources := info.cpuAndMemResources.insert availabilityZone ⟨0, 0⟩ }

def removeAvailabilityZone (r : RegionResourceCache) (regionName availabilityZone : String) :
    RegionResourceCache × Option String :=
  match r.regionResourceMap.lookup regionName with
  | none => (r, some ("regionName " ++ regionName ++ " is not found"))
  | some info =>
    if availabilityZone ∈ info.cpuAndMemResources then
      (r.put { info with cpuAndMemResources := info.cpuAndMemResources.erase availabilityZone }, none)
    else (r, some ("availabilityZone " ++ availabilityZone ++ " is not found"))

def updateCpuAndMemResource (r : RegionResourceCache) (regionName availabilityZone : String)
    (new : CpuAndMemResource) : RegionResourceCache × Bool :=
  match r.regionResourceMap.lookup regionName with
  | none => (r, false)
  | some info =>
    match info.cpuAndMemResources.lookup availabilityZone with
    | none => (r, false)
    | some old =>
      if old = new then (r, false)
      else (r.put { info with
        cpuAndMemResources := info.cpuAndMemResources.insert availabilityZone new }, true)

def updateVolumeResource (r : RegionResourceCache) (regionName : String)
    (new : List VolumeResource) : RegionResourceCache × Bool :=
  match r.regionResourceMap.lookup regionName with
  | none => (r, false)
  | some info =>
    if info.volumeResources = some new then (r, false)
    else (r.put { info with volumeResources := some new }, true)

def addHostAz (r : RegionResourceCache) (regionName : String) (hosts : List String) (az : String) :
    RegionResourceCache :=
  let info := (r.regionResourceMap.lookup regionName).getD { regionName := regionName }
  r.put { info with
    hostAzMap := hosts.foldl (fun hostAzMap host => hostAzMap.insert host az) info.hostAzMap }

/-! ### Regions and their zones -/

/-- The zones of a region, if it is there, as the keys of its capacities. -/
def zones (r : RegionResourceCache) (region : String) : Option (Finset String) :=
  (r.regionResourceMap.lookup region).map fun info => info.cpuAndMemResources.keys.toFinset

variable {r : RegionResourceCache} {region : String} {info : RegionResource}

theorem mem_iff_zones : region ∈ r.regionResourceMap ↔ (r.zones region).isSome = true := by
  rw [zones, isSome_map, lookup_isSome]

theorem zones_put (info : RegionResource) : (r.put info).zones =
      update r.zones info.regionName (some info.cpuAndMemResources.keys.toFinset) := by
  funext region
  simp only [zones, put, update_apply]
  split
  case isTrue heq => rw [heq, lookup_insert, map_some]
  case isFalse hne => rw [lookup_insert_ne hne]

theorem zones_drop (name : String) : (r.drop name).zones = update r.zones name none := by
  funext region
  simp only [zones, drop, update_apply]
  split
  case isTrue heq => rw [heq, lookup_erase, map_none]
  case isFalse hne => rw [lookup_erase_ne hne]

theorem zones_of_lookup (h : r.regionResourceMap.lookup region = some info) :
    r.zones region = some info.cpuAndMemResources.keys.toFinset := by
  rw [zones, h, map_some]

theorem zones_rewrite {info' : RegionResource}
    (h : r.regionResourceMap.lookup region = some info) (hname : info'.regionName = info.regionName)
    (hzones : info'.cpuAndMemResources.keys.toFinset = info.cpuAndMemResources.keys.toFinset) :
    (r.put info').zones = r.zones := by
  rw [zones_put, hname, r.named region info h, hzones, ← zones_of_lookup h, update_eq_self]

theorem keys_insert_toFinset {V : Type} (m : Map String V) (k : String) (v : V) :
    (m.insert k v).keys.toFinset = insert k m.keys.toFinset := by
  ext k'
  rw [List.mem_toFinset, Finset.mem_insert, List.mem_toFinset, ← mem_keys, ← mem_keys, mem_insert]

theorem zones_addRegionResource (info : RegionResource) :
    (r.addRegionResource info).zones = update r.zones info.regionName
      (some ((r.zones info.regionName).getD info.cpuAndMemResources.keys.toFinset)) := by
  unfold addRegionResource
  split
  case isTrue hmem =>
    obtain ⟨zones, hzones⟩ := isSome_iff_exists.mp (mem_iff_zones.mp hmem)
    rw [hzones, getD_some, ← hzones, update_eq_self]
  case isFalse hnew =>
    have hnone : r.zones info.regionName = none := by
      rw [← not_isSome_iff_eq_none, ← mem_iff_zones]
      exact hnew
    rw [zones_put, hnone, getD_none]

theorem zones_addAvailabilityZone {zones : Finset String} (h : r.zones region = some zones) (az : String) :
    (r.addAvailabilityZone region az).zones = update r.zones region (some (insert az zones)) := by
  obtain ⟨info, hlook, rfl⟩ := map_eq_some_iff.mp h
  rw [addAvailabilityZone, hlook]
  show (r.put _).zones = _
  rw [zones_put, keys_insert_toFinset, r.named region info hlook]

/-- What a created cluster does: its region has its zone besides those it had. -/
theorem zones_created (ip region az : String) :
    ((r.addRegionResource { regionName := region, eipNetworkID := ip }).addAvailabilityZone
      region az).zones = update r.zones region
        (some (insert az ((r.zones region).getD ∅))) := by
  have hadded := zones_addRegionResource (r := r) { regionName := region, eipNetworkID := ip }
  rw [zones_addAvailabilityZone (by rw [hadded, update_self]), hadded, update_idem]
  rfl

theorem zones_deleted (region az : String) :
    ((r.removeAvailabilityZone region az).1.removeRegionResource region).1.zones =
      update r.zones region none := by
  have hremove : ∀ r' : RegionResourceCache,
      (r'.removeRegionResource region).1.zones = update r'.zones region none := by
    intro r'
    unfold removeRegionResource
    split
    case isTrue => exact zones_drop region
    case isFalse habsent =>
      have hnone : r'.zones region = none := by
        rw [← not_isSome_iff_eq_none, ← mem_iff_zones]
        exact habsent
      rw [← hnone, update_eq_self]
  rw [hremove]
  unfold removeAvailabilityZone
  split
  · rfl
  · rename_i info hlook
    split
    · show update (r.put _).zones region none = _
      rw [zones_put, r.named region info hlook, update_idem]
    · rfl

def capacityAt (r : RegionResourceCache) (region az : String) : Option CpuAndMemResource :=
  (r.regionResourceMap.lookup region).bind fun info => info.cpuAndMemResources.lookup az

/-- A write of a capacity changes nothing, or it is to a zone that had another one. -/
theorem updateCpuAndMemResource_cases (r : RegionResourceCache) (region az : String) (new : CpuAndMemResource) :
    (r.updateCpuAndMemResource region az new = (r, false) ∧
        ∀ old, r.capacityAt region az = some old → old = new) ∨
      ∃ info old, r.regionResourceMap.lookup region = some info ∧
        info.cpuAndMemResources.lookup az = some old ∧ old ≠ new ∧
        r.updateCpuAndMemResource region az new = (r.put { info with
          cpuAndMemResources := info.cpuAndMemResources.insert az new }, true) := by
  unfold updateCpuAndMemResource capacityAt
  cases hlook : r.regionResourceMap.lookup region with
  | none => simp
  | some info =>
    cases hold : info.cpuAndMemResources.lookup az with
    | none => simp [hold]
    | some old =>
      by_cases hsame : old = new
      · simp [hold, hsame]
      · exact Or.inr ⟨info, old, rfl, hold, hsame, by simp [hold, hsame]⟩

theorem zones_updateCpuAndMemResource (region az : String) (new : CpuAndMemResource) :
    (r.updateCpuAndMemResource region az new).1.zones = r.zones := by
  rcases r.updateCpuAndMemResource_cases region az new with
    ⟨heq, _⟩ | ⟨info, old, hlook, hold, _, heq⟩
  · rw [heq]
  · rw [heq]
    refine zones_rewrite hlook rfl ?_
    have hmem : az ∈ info.cpuAndMemResources := Map.mem_of_lookup hold
    rw [keys_insert_toFinset, Finset.insert_eq_of_mem]
    exact List.mem_toFinset.mpr (mem_keys.mp hmem)

theorem zones_updateVolumeResource (region : String) (new : List VolumeResource) :
    (r.updateVolumeResource region new).1.zones = r.zones := by
  unfold updateVolumeResource
  split
  · rfl
  · rename_i info hlook
    split
    · rfl
    · exact zones_rewrite hlook rfl rfl

theorem zones_addHostAz (h : region ∈ r.regionResourceMap) (hosts : List String)
    (az : String) : (r.addHostAz region hosts az).zones = r.zones := by
  obtain ⟨info, hlook⟩ := Map.exists_lookup h
  rw [addHostAz, hlook]
  exact zones_rewrite hlook rfl rfl

/-! ### What the writes leave -/

theorem capacityAt_updateCpuAndMemResource (region az : String) (new : CpuAndMemResource) (az' : String) :
    (r.updateCpuAndMemResource region az new).1.capacityAt region az' =
      if az' = az then (r.capacityAt region az).map fun _ => new else r.capacityAt region az' := by
  rcases r.updateCpuAndMemResource_cases region az new with
    ⟨heq, hsame⟩ | ⟨info, old, hlook, hold, _, heq⟩
  · rw [heq]
    split
    case isTrue haz =>
      rw [haz]
      cases hcap : r.capacityAt region az with
      | none => rfl
      | some old => rw [hsame old hcap]; rfl
    case isFalse => rfl
  · have hname := r.named region info hlook
    subst hname
    rw [heq]
    by_cases haz : az' = az
    · subst haz
      simp [capacityAt, put, hlook, hold]
    · simp [capacityAt, put, hlook, haz, lookup_insert_ne haz]

theorem updateCpuAndMemResource_changed (region az : String) (new : CpuAndMemResource) :
    (r.updateCpuAndMemResource region az new).2 = true ↔
      ∃ old, r.capacityAt region az = some old ∧ old ≠ new := by
  rcases r.updateCpuAndMemResource_cases region az new with
    ⟨heq, hsame⟩ | ⟨info, old, hlook, hold, hne, heq⟩
  · rw [heq]
    refine iff_of_false (by simp) ?_
    rintro ⟨old, hcap, hne⟩
    exact hne (hsame old hcap)
  · rw [heq]
    exact iff_of_true rfl ⟨old, by rw [capacityAt, hlook, bind_some, hold], hne⟩

theorem lookup_updateCpuAndMemResource {other : String} (h : other ≠ region) (az : String)
    (new : CpuAndMemResource) :
    (r.updateCpuAndMemResource region az new).1.regionResourceMap.lookup other =
      r.regionResourceMap.lookup other := by
  rcases r.updateCpuAndMemResource_cases region az new with ⟨heq, _⟩ | ⟨info, _, hlook, _, _, heq⟩
  · rw [heq]
  · rw [heq]
    have hname := r.named region info hlook
    exact lookup_insert_ne (by rw [hname]; exact h)

theorem volumes_updateCpuAndMemResource (region az : String) (new : CpuAndMemResource) :
    ((r.updateCpuAndMemResource region az new).1.regionResourceMap.lookup region).map
        (·.volumeResources) = (r.regionResourceMap.lookup region).map (·.volumeResources) := by
  rcases r.updateCpuAndMemResource_cases region az new with ⟨heq, _⟩ | ⟨info, _, hlook, _, _, heq⟩
  · rw [heq]
  · have hname := r.named region info hlook
    subst hname
    rw [heq]
    simp [put, hlook]

theorem lookup_updateVolumeResource
    (h : r.regionResourceMap.lookup region = some info) (new : List VolumeResource) :
    (r.updateVolumeResource region new).1.regionResourceMap.lookup region =
        some { info with volumeResources := some new } ∧
      ((r.updateVolumeResource region new).2 = true ↔ info.volumeResources ≠ some new) := by
  have hname := r.named region info h
  subst hname
  rw [updateVolumeResource, h]
  dsimp only
  split
  case isTrue hsame =>
    refine ⟨?_, by simp [hsame]⟩
    rw [h, ← hsame]
  case isFalse hother =>
    refine ⟨?_, by simp [hother]⟩
    exact lookup_insert _

theorem lookup_updateVolumeResource_ne {other : String} (h : other ≠ region) (new : List VolumeResource) :
    (r.updateVolumeResource region new).1.regionResourceMap.lookup other =
      r.regionResourceMap.lookup other := by
  unfold updateVolumeResource
  split
  · rfl
  · rename_i info hlook
    split
    · rfl
    · have hname := r.named region info hlook
      exact lookup_insert_ne (by rw [hname]; exact h)

end RegionResourceCache

end GlobalScheduler.Collector
