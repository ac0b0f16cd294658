import GlobalScheduler.Collector.SyncResources

/-! What a round of the collector writes and posts.

For each zone of each region whose cloud answers: the capacity and the volumes that are on
record afterwards, and whether they are posted. -/
namespace GlobalScheduler.SyncResources

open Go LastWrite Map
open Collector (RegionResource RegionResourceCache CpuAndMemResource VolumeResource)
open ClusterEvents (AzCpuMem Volume)

def total (c : CpuAndMemResource) : CPUAndMemory := ⟨c.totalVCPUs, c.totalMem⟩

theorem total_inj {c c' : CpuAndMemResource} : total c = total c' ↔ c = c' := by
  cases c
  cases c'
  simp [total]

def saysOf (az : String) (entry : AzCpuMem) : Option CPUAndMemory :=
  if entry.availabilityZone = az then some ⟨entry.cpuCapacity, entry.memCapacity⟩ else none

theorem saysOf_azCpuMem (az az' : String) (c : CpuAndMemResource) :
    saysOf az (azCpuMem az' c) = if az' = az then some (total c) else none :=
  rfl

/-! ### What is found -/

section Found
variable (info : RegionResource) (hs : List Hypervisor) (az : String) (old : CpuAndMemResource)

/-- The capacity of a zone by its hosts; a zone without hosts keeps the one it had. -/
def measured : CpuAndMemResource :=
  ((azCpuMemMap info.hostAzMap hs).lookup az).getD old

def capacity : CpuAndMemResource :=
  if measured info hs az old = ⟨0, 0⟩ then defaultCmd else measured info hs az old

/-- The zone is among what is posted. -/
def Reported : Prop :=
  measured info hs az old ≠ old ∨ measured info hs az old = ⟨0, 0⟩

instance : Decidable (Reported info hs az old) := inferInstanceAs (Decidable (_ ∨ _))

end Found

/-- A region whose cloud answers. -/
structure Region (r : RegionResourceCache) (clouds : Clouds) where
  name : String
  info : RegionResource
  hypervisors : List Hypervisor
  storagePools : List StoragePool
  known : r.regionResourceMap.lookup name = some info
  answered : clouds info.eipNetworkID = some ⟨some hypervisors, some storagePools⟩

/-- A zone of such a region. -/
structure Zone (r : RegionResourceCache) (clouds : Clouds) extends Region r clouds where
  az : String
  old : CpuAndMemResource
  there : info.cpuAndMemResources.lookup az = some old

section Names
variable {r : RegionResourceCache} {clouds : Clouds}

variable (g : Region r clouds)

theorem Region.regionName : g.info.regionName = g.name :=
  r.named g.name g.info g.known

def Region.volumes : List VolumeResource := volumesOf g.info g.storagePools

/-- The volumes are among what is posted. -/
def Region.VolumesPosted : Prop := g.info.volumeResources ≠ some g.volumes

instance (g : Region r clouds) : Decidable g.VolumesPosted := inferInstanceAs (Decidable (_ ≠ _))

variable (z : Zone r clouds)

/-- The capacity of the zone on record after the round. -/
def Zone.capacity : CpuAndMemResource :=
  SyncResources.capacity z.info z.hypervisors z.az z.old

/-- The capacity of the zone is among what is posted. -/
def Zone.Posted : Prop := Reported z.info z.hypervisors z.az z.old

def Zone.siteID : String := z.name ++ siteDelimiter ++ z.az

end Names

/-! ### The capacities of a region -/

section Capacities
variable {name : String} {acc : RegionResourceCache × List AzCpuMem}

/-- What the loops leave for a zone: its capacity on record, and what is posted for it. -/
def reading (name az : String) (acc : RegionResourceCache × List AzCpuMem) :
    Option CpuAndMemResource × Option CPUAndMemory :=
  (acc.1.capacityAt name az, latest (saysOf az) acc.2)

theorem latest_post (az az' : String) (res : List AzCpuMem) (c : CpuAndMemResource) :
    latest (saysOf az) (res ++ [azCpuMem az' c]) =
      (if az' = az then some (total c) else none).or (latest (saysOf az) res) := by
  rw [latest_append]
  simp [latest, saysOf_azCpuMem]

variable {az : String}

variable {entry : String × CpuAndMemResource}

theorem reportHosts_others (h : entry.1 ≠ az) :
    reading name az (reportHosts name acc entry) = reading name az acc := by
  have hcap := acc.1.capacityAt_updateCpuAndMemResource name entry.1 entry.2 az
  rw [if_neg (Ne.symm h)] at hcap
  refine Prod.ext hcap ?_
  show latest _ (if (acc.1.updateCpuAndMemResource name entry.1 entry.2).2 = true then _ else _) = _
  split
  · rw [latest_post, if_neg h]
    rfl
  · rfl

theorem reportHosts_self {new : CpuAndMemResource} :
    reading name az (reportHosts name acc (az, new)) =
      ((acc.1.capacityAt name az).map fun _ => new,
        ((acc.1.capacityAt name az).bind fun old =>
          if new = old then none else some (total new)).or (latest (saysOf az) acc.2)) := by
  have hcap := acc.1.capacityAt_updateCpuAndMemResource name az new az
  have hchanged := acc.1.updateCpuAndMemResource_changed name az new
  rw [if_pos rfl] at hcap
  refine Prod.ext hcap ?_
  show latest _ (if (acc.1.updateCpuAndMemResource name az new).2 = true then _ else _) = _
  cases hold : acc.1.capacityAt name az with
  | none =>
    rw [if_neg (by rw [hchanged, hold]; simp)]
    rfl
  | some old =>
    by_cases hsame : new = old
    · rw [if_neg (by rw [hchanged, hold]; simp [hsame])]
      simp [hsame]
    · rw [if_pos (hchanged.mpr ⟨old, hold, Ne.symm hsame⟩), latest_post]
      simp [hsame]

theorem reportDefault_others (h : entry.1 ≠ az) :
    reading name az (reportDefault name acc entry) = reading name az acc := by
  unfold reportDefault
  split
  · have hcap := acc.1.capacityAt_updateCpuAndMemResource name entry.1 defaultCmd az
    rw [if_neg (Ne.symm h)] at hcap
    refine Prod.ext hcap ?_
    show latest _ _ = _
    rw [latest_post, if_neg h]
    rfl
  · rfl

theorem reportDefault_self {c : CpuAndMemResource} (h : acc.1.capacityAt name az = some c) :
    reading name az (reportDefault name acc (az, c)) =
      (some (if c = ⟨0, 0⟩ then defaultCmd else c),
        (if c = ⟨0, 0⟩ then some (total defaultCmd) else none).or (latest (saysOf az) acc.2)) := by
  unfold reportDefault
  split
  case isTrue hzero =>
    have hcap := acc.1.capacityAt_updateCpuAndMemResource name az defaultCmd az
    rw [if_pos rfl, h] at hcap
    refine Prod.ext hcap ?_
    show latest _ _ = _
    rw [latest_post]
    simp
  case isFalse => exact Prod.ext h rfl

/-- A loop over the entries of a map does for a zone what the round of its entry does. -/
theorem reading_entries {name az : String}
    {f : RegionResourceCache × List AzCpuMem → String × CpuAndMemResource → RegionResourceCache × List AzCpuMem}
    (hothers : ∀ acc (entry : String × CpuAndMemResource), entry.1 ≠ az →
      reading name az (f acc entry) = reading name az acc)
    (zones : List String) (m : Map String CpuAndMemResource) (start : RegionResourceCache × List AzCpuMem) :
    (m.lookup az = none ∧ reading name az ((entriesBy zones m).foldl f start) = reading name az start) ∨
    ∃ c acc, m.lookup az = some c ∧ reading name az acc = reading name az start ∧
      reading name az ((entriesBy zones m).foldl f start) = reading name az (f acc (az, c)) := by
  cases hlook : m.lookup az with
  | none =>
    refine Or.inl ⟨rfl, read_foldl_others hothers (fun entry hentry heq => ?_) start⟩
    have hentry := mem_entriesBy.mp hentry
    rw [heq, hlook] at hentry
    cases hentry
  | some c =>
    obtain ⟨acc, hstart, hend⟩ := read_foldl_keyed hothers (entriesBy_nodup zones m)
      (mem_entriesBy.mpr hlook) rfl start
    exact Or.inr ⟨c, acc, rfl, hstart, hend⟩

theorem reportHosts_loop (name : String) (hosts : List String) (m : Map String CpuAndMemResource)
    (r : RegionResourceCache) (az : String) :
    reading name az ((entriesBy hosts m).foldl (reportHosts name) (r, [])) =
      ((r.capacityAt name az).map fun old => (m.lookup az).getD old,
        (r.capacityAt name az).bind fun old => (m.lookup az).bind fun new =>
          if new = old then none else some (total new)) := by
  rcases reading_entries (fun _ _ => reportHosts_others) hosts m (r, []) with
    ⟨hnone, hsame⟩ | ⟨new, acc, hnew, hstart, hend⟩
  · rw [hsame, hnone]
    cases hold : r.capacityAt name az <;> simp [reading, hold, latest]
  · obtain ⟨hcap, hnone⟩ := Prod.mk.inj hstart
    rw [hend, reportHosts_self, hcap, hnone, hnew]
    cases hold : r.capacityAt name az <;> simp [latest]

theorem reportDefault_loop (zones : List String) {m : Map String CpuAndMemResource}
    (found : RegionResourceCache × List AzCpuMem) (az : String)
    (hm : m.lookup az = found.1.capacityAt name az) :
    reading name az ((entriesBy zones m).foldl (reportDefault name) found) =
      ((found.1.capacityAt name az).map fun c => if c = ⟨0, 0⟩ then defaultCmd else c,
        ((found.1.capacityAt name az).bind fun c =>
          if c = ⟨0, 0⟩ then some (total defaultCmd) else none).or (latest (saysOf az) found.2)) := by
  rcases reading_entries (fun _ _ => reportDefault_others) zones m found with
    ⟨hnone, hsame⟩ | ⟨c, acc, hc, hstart, hend⟩
  · rw [hsame, reading, ← hm, hnone]
    rfl
  · obtain ⟨hacc, hposted⟩ := Prod.mk.inj hstart
    rw [hm] at hc
    rw [hend, reportDefault_self (hacc.trans hc), hposted, hc]
    rfl

end Capacities

variable {info : RegionResource} {r : RegionResourceCache}

/-- **The capacities of a region**: what is on record for a zone afterwards, and what is
posted for it. The entry that stands is the one with the capacity on record: a zone without
a capacity gets the default, whatever was posted for it before. -/
theorem getRegionCpuAndMemResources_reading (ord : Orders) (hs : List Hypervisor)
    (h : r.regionResourceMap.lookup info.regionName = some info) (az : String) :
    reading info.regionName az (getRegionCpuAndMemResources ord (some hs) info r) =
      ((info.cpuAndMemResources.lookup az).map (capacity info hs az),
        (info.cpuAndMemResources.lookup az).bind fun old =>
          if Reported info hs az old then some (total (capacity info hs az old)) else none) := by
  have hrecord : r.capacityAt info.regionName az = info.cpuAndMemResources.lookup az := by
    rw [RegionResourceCache.capacityAt, h, Option.bind_some]
  have hfound := reportHosts_loop info.regionName (ord.hosts info.regionName)
    (azCpuMemMap info.hostAzMap hs) r az
  rw [hrecord] at hfound
  obtain ⟨hcap, hposted⟩ := Prod.mk.inj hfound
  refine (reportDefault_loop (ord.zones info.regionName) _ az ?_).trans ?_
  · rw [RegionResourceCache.capacityAt]
    cases AList.lookup info.regionName _ <;> rfl
  · rw [hcap, hposted]
    cases info.cpuAndMemResources.lookup az with
    | none => rfl
    | some old =>
      refine Prod.ext rfl ?_
      show Option.or (if measured info hs az old = _ then _ else _) _ = if Reported info hs az old then _ else _
      unfold Reported capacity
      by_cases hzero : measured info hs az old = ⟨0, 0⟩
      · simp [hzero]
      · simp only [hzero, or_false]
        unfold measured
        cases (azCpuMemMap info.hostAzMap hs).lookup az with
        | none => simp
        | some new => by_cases hsame : new = old <;> simp [hsame]

theorem getRegionCpuAndMemResources_frame (ord : Orders) (client : Option (List Hypervisor))
    (info : RegionResource) (r : RegionResourceCache) :
    (∀ other ≠ info.regionName,
        (getRegionCpuAndMemResources ord client info r).1.regionResourceMap.lookup other =
          r.regionResourceMap.lookup other) ∧
      ((getRegionCpuAndMemResources ord client info r).1.regionResourceMap.lookup
          info.regionName).map (·.volumeResources) =
        (r.regionResourceMap.lookup info.regionName).map (·.volumeResources) := by
  cases client with
  | none => exact ⟨fun _ _ => rfl, rfl⟩
  | some hs =>
    -- All that either loop writes is capacities.
    have hloops : ∀ {β : Type} (read : RegionResourceCache → β),
        (∀ r az new, read (r.updateCpuAndMemResource info.regionName az new).1 = read r) →
        read (getRegionCpuAndMemResources ord (some hs) info r).1 = read r := by
      intro β read hread
      refine (read_foldl_same (fun acc : RegionResourceCache × List AzCpuMem => read acc.1) ?_ _
        _).trans (read_foldl_same (fun acc : RegionResourceCache × List AzCpuMem => read acc.1) ?_ _
        (r, []))
      · intro acc entry
        show read (reportDefault info.regionName acc entry).1 = read acc.1
        unfold reportDefault
        split
        · exact hread _ _ _
        · rfl
      · exact fun acc entry => hread _ _ _
    refine ⟨fun other hne => ?_, ?_⟩
    · exact hloops (fun r => r.regionResourceMap.lookup other) fun r az new =>
        RegionResourceCache.lookup_updateCpuAndMemResource hne az new
    · exact hloops (fun r => (r.regionResourceMap.lookup info.regionName).map (·.volumeResources))
        fun r az new => RegionResourceCache.volumes_updateCpuAndMemResource info.regionName az new

/-! ### The volumes of a region -/

theorem getRegionVolumeResources_spec (pools : List StoragePool) {info₁ : RegionResource}
    (h : r.regionResourceMap.lookup info.regionName = some info₁)
    (hsame : info₁.volumeResources = info.volumeResources) :
    (getRegionVolumeResources (some pools) info r).1.regionResourceMap.lookup info.regionName =
        some { info₁ with volumeResources := some (volumesOf info pools) } ∧
      (getRegionVolumeResources (some pools) info r).2 =
        if info.volumeResources = some (volumesOf info pools) then []
        else (volumesOf info pools).map volume := by
  obtain ⟨hlook, hchanged⟩ :=
    RegionResourceCache.lookup_updateVolumeResource h (volumesOf info pools)
  rw [hsame] at hchanged
  refine ⟨hlook, ?_⟩
  show (if (r.updateVolumeResource info.regionName (volumesOf info pools)).2 = true then _ else _) = _
  split
  case isTrue hyes => rw [if_neg (hchanged.mp hyes)]; rfl
  case isFalse hno => rw [if_pos (not_not.mp (mt hchanged.mpr hno))]

theorem getRegionVolumeResources_frame (client : Option (List StoragePool))
    (r : RegionResourceCache) {other : String} (h : other ≠ info.regionName) :
    (getRegionVolumeResources client info r).1.regionResourceMap.lookup other =
      r.regionResourceMap.lookup other := by
  unfold getRegionVolumeResources
  split
  · rfl
  · exact RegionResourceCache.lookup_updateVolumeResource_ne h _

/-! ### The regions -/

section Regions
variable {r : RegionResourceCache} {clouds : Clouds} {ord : Orders}

/-- What a round makes of a region: the record it leaves and the message it posts, if there
is anything in it. -/
structure Rounded (g : Region r clouds) (info : RegionResource)
    (message : ClusterEvents.RegionResource) : Prop where
  capacities : ∀ az, info.cpuAndMemResources.lookup az =
    (g.info.cpuAndMemResources.lookup az).map (capacity g.info g.hypervisors az)
  volumes : info.volumeResources = some g.volumes
  name : message.regionName = g.name
  zones : ∀ az, latest (saysOf az) message.cpuMemResources =
    (g.info.cpuAndMemResources.lookup az).bind fun old =>
      if Reported g.info g.hypervisors az old then
        some (total (capacity g.info g.hypervisors az old)) else none
  posted : message.volumeResources = if g.VolumesPosted then g.volumes.map volume else []

def asPosted (message : ClusterEvents.RegionResource) : List ClusterEvents.RegionResource :=
  if message.cpuMemResources = [] ∧ message.volumeResources = [] then [] else [message]

variable {acc : Collected} {name : String}

variable {entry : String × RegionResource}

theorem collectRegion_eq {cloud : Cloud} (h : clouds entry.2.eipNetworkID = some cloud) :
    let cpu := getRegionCpuAndMemResources ord cloud.hypervisors entry.2 acc.1
    let vol := getRegionVolumeResources cloud.storagePools entry.2 cpu.1
    collectRegion ord clouds acc entry =
      (vol.1, acc.2 ++ asPosted ⟨entry.2.regionName, cpu.2, vol.2⟩) := by
  simp only [collectRegion, h, asPosted]
  split <;> simp

theorem collectRegion_spec (ord : Orders) (g : Region r clouds)
    (h : acc.1.regionResourceMap.lookup g.name = some g.info) :
    ∃ info message, Rounded g info message ∧
      (collectRegion ord clouds acc (g.name, g.info)).1.regionResourceMap.lookup g.name =
        some info ∧
      (collectRegion ord clouds acc (g.name, g.info)).2 = acc.2 ++ asPosted message := by
  rw [← g.regionName] at h
  have hframe := (getRegionCpuAndMemResources_frame ord (some g.hypervisors) g.info acc.1).2
  rw [h, Option.map_some] at hframe
  obtain ⟨info₁, hlook₁, hsame⟩ := Option.map_eq_some_iff.mp hframe
  have hreading := fun az =>
    Prod.mk.inj (getRegionCpuAndMemResources_reading ord g.hypervisors h az)
  obtain ⟨hlook, hvolumes⟩ := getRegionVolumeResources_spec g.storagePools hlook₁ hsame
  rw [collectRegion_eq g.answered]
  refine ⟨{ info₁ with volumeResources := some g.volumes }, _, ?_, ?_, rfl⟩
  · exact {
      capacities := by
        intro az
        rw [← (hreading az).1, RegionResourceCache.capacityAt, hlook₁, Option.bind_some]
      volumes := rfl
      name := g.regionName
      zones := fun az => (hreading az).2
      posted := by
        refine hvolumes.trans ?_
        by_cases hold : g.info.volumeResources = some g.volumes
        · exact (if_pos hold).trans (if_neg (not_not.mpr hold)).symm
        · exact (if_neg hold).trans (if_pos hold).symm }
  · rw [← g.regionName]
    exact hlook

/-- The record of a region and what is posted for it. -/
def regionReading (name : String) (acc : Collected) :
    Option RegionResource × List ClusterEvents.RegionResource :=
  (acc.1.regionResourceMap.lookup name, acc.2.filter (·.regionName = name))

/-- The round of a region leaves the records of the others alone, and posts under its name. -/
theorem regionReading_others (ord : Orders) (clouds : Clouds) (acc : Collected)
    (entry : String × RegionResource) (h : entry.2.regionName ≠ name) :
    regionReading name (collectRegion ord clouds acc entry) = regionReading name acc := by
  cases hcloud : clouds entry.2.eipNetworkID with
  | none => simp [collectRegion, hcloud]
  | some cloud =>
    rw [collectRegion_eq hcloud]
    refine Prod.ext ?_ ?_
    · exact (getRegionVolumeResources_frame _ _ (Ne.symm h)).trans
        ((getRegionCpuAndMemResources_frame _ _ _ _).1 name (Ne.symm h))
    · show List.filter _ (_ ++ asPosted _) = _
      rw [List.filter_append, asPosted]
      split <;> simp [h, regionReading]

/-- **The round of a region whose cloud answers.** -/
theorem collect_region (ord : Orders) (g : Region r clouds) :
    ∃ info message, Rounded g info message ∧
      (collect ord clouds r).1.regionResourceMap.lookup g.name = some info ∧
      (collect ord clouds r).2.filter (·.regionName = g.name) = asPosted message := by
  have hnodup : ((entriesBy ord.regions r.regionResourceMap).map (·.2.regionName)).Nodup := by
    have hnames : (entriesBy ord.regions r.regionResourceMap).map (·.2.regionName) =
        (entriesBy ord.regions r.regionResourceMap).map Prod.fst := by
      apply List.map_congr_left
      intro entry hentry
      exact r.named _ _ (mem_entriesBy.mp hentry)
    rw [hnames]
    exact entriesBy_nodup _ _
  obtain ⟨acc, hstart, hend⟩ := read_foldl_keyed (regionReading_others ord clouds) hnodup
    (mem_entriesBy.mpr g.known) g.regionName (r, [])
  obtain ⟨hlook, hnone⟩ := Prod.mk.inj hstart
  obtain ⟨info, message, hrounded, hrecord, hposted⟩ :=
    collectRegion_spec ord g (hlook.trans g.known)
  obtain ⟨hrecord', hposted'⟩ := Prod.mk.inj hend
  refine ⟨info, message, hrounded, hrecord'.trans hrecord, hposted'.trans ?_⟩
  rw [hposted, List.filter_append, hnone]
  unfold asPosted
  split
  · rfl
  · simp [hrounded.name]

theorem collect_unknown (ord : Orders) (clouds : Clouds) (h : r.regionResourceMap.lookup name = none) :
    (collect ord clouds r).1.regionResourceMap.lookup name = none ∧
      (collect ord clouds r).2.filter (·.regionName = name) = [] := by
  have hl : ∀ entry ∈ entriesBy ord.regions r.regionResourceMap,
      entry.2.regionName ≠ name := by
    intro entry hentry hname
    have hlook := mem_entriesBy.mp hentry
    rw [← r.named _ _ hlook, hname, h] at hlook
    cases hlook
  have hend := read_foldl_others (regionReading_others ord clouds) hl (r, [])
  obtain ⟨hrecord, hposted⟩ := Prod.mk.inj hend
  exact ⟨hrecord.trans h, hposted⟩

end Regions

end GlobalScheduler.SyncResources
