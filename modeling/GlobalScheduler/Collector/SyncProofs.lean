import GlobalScheduler.Collector.SyncRound

/-! The totals of the schedulers and the records of the collector.

A scheduler applies the changes it is sent and is never sent anything else: not what was on
record before it registered, and no volumes for a zone whose capacity has not changed. What
a scheduler has after a round is compared with what is on record then. -/
namespace GlobalScheduler.SyncResources

open Go LastWrite Transition Snapshot Collector List
open Collector (RegionResource RegionResourceCache CpuAndMemResource VolumeResource)
open ClusterEvents (AzCpuMem Volume pushRegionResources pushAz)

/-! ### What a push leaves -/

def cpuTotal (snap : Snapshot) (siteID : String) : Option CPUAndMemory :=
  (snap.siteCacheInfoMap.lookup siteID).bind (·.totalResources.lookup defaultResourceType)

def storageTotal (snap : Snapshot) (siteID t : String) : Option Fp :=
  (snap.siteCacheInfoMap.lookup siteID).bind (·.totalStorage.lookup t)

def capacityOf (t : String) (v : Volume) : Option Fp :=
  if v.typeId = t then some v.storageCapacity else none

/-- What a message says about the vCPUs and the memory of a site. -/
def cpuSaid (siteID : String) (message : ClusterEvents.RegionResource) : Option CPUAndMemory :=
  latest (fun az => if message.regionName ++ siteDelimiter ++ az.availabilityZone = siteID then
    some ⟨az.cpuCapacity, az.memCapacity⟩ else none) message.cpuMemResources

/-- What a message says about the storage of a site: volumes come with a zone or not at all. -/
def storageSaid (siteID t : String) (message : ClusterEvents.RegionResource) : Option Fp :=
  latest (fun az => if message.regionName ++ siteDelimiter ++ az.availabilityZone = siteID then
    latest (capacityOf t) message.volumeResources else none) message.cpuMemResources

theorem cpuTotal_push (messages : List ClusterEvents.RegionResource) (snap : Snapshot) (siteID : String) :
    cpuTotal (pushRegionResources messages snap) siteID =
      (latest (cpuSaid siteID) messages).or (cpuTotal snap siteID) := by
  apply read_foldl fun snap => cpuTotal snap siteID
  intro snap message
  apply read_foldl fun snap => cpuTotal snap siteID
  intro snap az
  unfold cpuTotal pushAz
  by_cases hsite : message.regionName ++ siteDelimiter ++ az.availabilityZone = siteID
  · subst hsite
    rw [put_lookup_self, Option.bind_some, AList.lookup_insert, if_pos rfl]
    rfl
  · rw [put_lookup_ne _ _ _ (Ne.symm hsite), if_neg hsite, Option.none_or]

theorem lookup_volumes (volumes : List Volume) (m : Map String Fp) (t : String) :
    (volumes.foldl (fun m v => m.insert v.typeId v.storageCapacity) m).lookup t =
      (latest (capacityOf t) volumes).or (m.lookup t) := by
  apply read_foldl fun m : Map String Fp => m.lookup t
  intro m v
  unfold capacityOf
  by_cases ht : v.typeId = t
  · subst ht
    simp
  · rw [AList.lookup_insert_ne (Ne.symm ht), if_neg ht, Option.none_or]

theorem storageTotal_push (messages : List ClusterEvents.RegionResource) (snap : Snapshot) (siteID t : String) :
    storageTotal (pushRegionResources messages snap) siteID t =
      (latest (storageSaid siteID t) messages).or (storageTotal snap siteID t) := by
  apply read_foldl fun snap => storageTotal snap siteID t
  intro snap message
  apply read_foldl fun snap => storageTotal snap siteID t
  intro snap az
  unfold storageTotal pushAz
  by_cases hsite : message.regionName ++ siteDelimiter ++ az.availabilityZone = siteID
  · subst hsite
    rw [put_lookup_self, Option.bind_some, lookup_volumes, if_pos rfl]
    cases snap.siteCacheInfoMap.lookup (message.regionName ++ siteDelimiter ++ az.availabilityZone) <;> rfl
  · rw [put_lookup_ne _ _ _ (Ne.symm hsite), if_neg hsite, Option.none_or]

/-- A message says about the site of one of its zones what it says about the zone. -/
theorem cpuSaid_zone (message : ClusterEvents.RegionResource) (az : String) :
    cpuSaid (message.regionName ++ siteDelimiter ++ az) message =
      latest (saysOf az) message.cpuMemResources := by
  unfold cpuSaid saysOf
  simp only [String.append_right_inj]

/-! ### What a round posts -/

section Round
variable {r : RegionResourceCache} {clouds : Clouds} {ord : Orders}

/-- Every query of a round succeeds. -/
def Answered (r : RegionResourceCache) (clouds : Clouds) : Prop :=
  ∀ name info, r.regionResourceMap.lookup name = some info →
    ∃ hs pools, clouds info.eipNetworkID = some ⟨some hs, some pools⟩

variable {info : RegionResource} {message : ClusterEvents.RegionResource}

theorem Answered.region (h : Answered r clouds) {name : String}
    (hlook : r.regionResourceMap.lookup name = some info) :
    ∃ g : Region r clouds, g.name = name ∧ g.info = info := by
  obtain ⟨hs, pools, hcloud⟩ := h name info hlook
  exact ⟨⟨name, info, hs, pools, hlook, hcloud⟩, rfl, rfl⟩

theorem Answered.of_posted (h : Answered r clouds) (hmessage : message ∈ (collect ord clouds r).2) :
    ∃ (g : Region r clouds) (info : RegionResource), Rounded g info message := by
  have hmem : message ∈ (collect ord clouds r).2.filter (·.regionName = message.regionName) :=
    mem_filter.mpr ⟨hmessage, by simp⟩
  cases hlook : r.regionResourceMap.lookup message.regionName with
  | none =>
    rw [(collect_unknown ord clouds hlook).2] at hmem
    cases hmem
  | some info =>
    obtain ⟨g, hname, _⟩ := h.region hlook
    obtain ⟨info', message', hrounded, _, hposted⟩ := collect_region ord g
    rw [← hname, hposted, asPosted] at hmem
    split at hmem
    · cases hmem
    · rw [mem_singleton.mp hmem]
      exact ⟨g, info', hrounded⟩

theorem Region.posted (ord : Orders) (g : Region r clouds) :
    ∃ info message, Rounded g info message ∧
      (message.cpuMemResources ≠ [] ∨ message.volumeResources ≠ [] →
        message ∈ (collect ord clouds r).2) := by
  obtain ⟨info, message, hrounded, _, hposted⟩ := collect_region ord g
  refine ⟨info, message, hrounded, fun hsome => ?_⟩
  have hmem : message ∈ asPosted message := by
    unfold asPosted
    split
    case isTrue hnone => exact absurd hnone (by tauto)
    case isFalse => exact mem_singleton_self message
  rw [← hposted] at hmem
  exact (mem_filter.mp hmem).1

theorem Rounded.zone_of_said {g : Region r clouds} (h : Rounded g info message) {az : String}
    {total' : CPUAndMemory} (hsaid : latest (saysOf az) message.cpuMemResources = some total') :
    ∃ z : Zone r clouds, z.toRegion = g ∧ z.az = az ∧ z.Posted ∧ total' = total z.capacity := by
  rw [h.zones] at hsaid
  obtain ⟨old, hold, hsaid⟩ := Option.bind_eq_some_iff.mp hsaid
  split at hsaid
  case isTrue hreported =>
    exact ⟨⟨g, az, old, hold⟩, rfl, rfl, hreported, (Option.some.inj hsaid).symm⟩
  case isFalse => cases hsaid

theorem Rounded.said_of_zone {z : Zone r clouds} (h : Rounded z.toRegion info message) (hposted : z.Posted) :
    latest (saysOf z.az) message.cpuMemResources = some (total z.capacity) := by
  rw [h.zones, z.there, Option.bind_some]
  exact if_pos hposted

/-- What is posted about the capacity of a site comes from a zone whose capacity is posted. -/
theorem Answered.cpu_posted (h : Answered r clouds)
    (hmessage : message ∈ (collect ord clouds r).2) {siteID : String} {total' : CPUAndMemory}
    (hsaid : cpuSaid siteID message = some total') :
    ∃ z : Zone r clouds, z.siteID = siteID ∧ z.Posted ∧ total' = total z.capacity := by
  obtain ⟨g, info, hrounded⟩ := h.of_posted hmessage
  obtain ⟨az, _, haz⟩ := exists_of_latest hsaid
  obtain ⟨hsite, _⟩ := Option.ite_none_right_eq_some.mp haz
  rw [← hsite, cpuSaid_zone] at hsaid
  obtain ⟨z, rfl, haz', hposted, htotal⟩ := hrounded.zone_of_said hsaid
  refine ⟨z, ?_, hposted, htotal⟩
  rw [Zone.siteID, haz', ← hrounded.name, hsite]

/-- What is posted about the storage of a site comes from a zone whose capacity and whose
region's volumes are both posted. -/
theorem Answered.storage_posted (h : Answered r clouds)
    (hmessage : message ∈ (collect ord clouds r).2) {siteID t : String} {x : Fp}
    (hsaid : storageSaid siteID t message = some x) :
    ∃ z : Zone r clouds, z.siteID = siteID ∧ z.Posted ∧ z.VolumesPosted ∧
      (⟨x, t⟩ : VolumeResource) ∈ z.volumes := by
  obtain ⟨g, info, hrounded⟩ := h.of_posted hmessage
  obtain ⟨az, hmem, haz⟩ := exists_of_latest hsaid
  obtain ⟨hsite, hvolume⟩ := Option.ite_none_right_eq_some.mp haz
  have hsome : latest (saysOf az.availabilityZone) message.cpuMemResources ≠ none := by
    intro hnone
    have hself := latest_eq_none_iff.mp hnone az hmem
    simp [saysOf] at hself
  obtain ⟨total', htotal⟩ := Option.ne_none_iff_exists'.mp hsome
  obtain ⟨z, rfl, haz', hposted, _⟩ := hrounded.zone_of_said htotal
  obtain ⟨v, hv, hcapacity⟩ := exists_of_latest hvolume
  obtain ⟨htype, hx⟩ := Option.ite_none_right_eq_some.mp hcapacity
  rw [hrounded.posted] at hv
  split at hv
  case isTrue hvolumes =>
    obtain ⟨v', hv', rfl⟩ := mem_map.mp hv
    refine ⟨z, ?_, hposted, hvolumes, ?_⟩
    · rw [Zone.siteID, haz', ← hrounded.name, hsite]
    · rw [← htype, ← Option.some.inj hx]
      exact hv'
  case isFalse => cases hv

theorem Zone.cpu_posted (ord : Orders) (z : Zone r clouds) (h : z.Posted) :
    ∃ message ∈ (collect ord clouds r).2, cpuSaid z.siteID message ≠ none := by
  obtain ⟨info, message, hrounded, hmem⟩ := z.toRegion.posted ord
  have hsaid := hrounded.said_of_zone h
  refine ⟨message, hmem (Or.inl ?_), ?_⟩
  · intro hnil
    rw [hnil] at hsaid
    cases hsaid
  · rw [Zone.siteID, ← hrounded.name, cpuSaid_zone, hsaid]
    exact Option.some_ne_none _

theorem Zone.storage_posted (ord : Orders) (z : Zone r clouds) (h : z.Posted)
    (hvolumes : z.VolumesPosted) {v : VolumeResource} (hv : v ∈ z.volumes) :
    ∃ message ∈ (collect ord clouds r).2, storageSaid z.siteID v.volumeType message ≠ none := by
  obtain ⟨info, message, hrounded, hmem⟩ := z.toRegion.posted ord
  have hsaid := hrounded.said_of_zone h
  obtain ⟨az, haz, hsays⟩ := exists_of_latest hsaid
  obtain ⟨hname, _⟩ := Option.ite_none_right_eq_some.mp hsays
  refine ⟨message, hmem (Or.inl (ne_nil_of_mem haz)), fun hnone => ?_⟩
  have hzone := latest_eq_none_iff.mp hnone az haz
  rw [if_pos (by rw [Zone.siteID, hrounded.name, hname]), hrounded.posted, if_pos hvolumes] at hzone
  have hself := latest_eq_none_iff.mp hzone _ (mem_map_of_mem hv)
  simp [capacityOf, volume] at hself

/-- **What is on record after a round** is the capacity and the volumes found for each zone. -/
theorem Answered.on_record (h : Answered r clouds) (ord : Orders)
    {P : String → CpuAndMemResource → List VolumeResource → Prop} :
    (∀ region info az c, (collect ord clouds r).1.regionResourceMap.lookup region = some info →
        info.cpuAndMemResources.lookup az = some c →
        P (region ++ siteDelimiter ++ az) c (info.volumeResources.getD [])) ↔
      ∀ z : Zone r clouds, P z.siteID z.capacity z.volumes := by
  constructor
  · intro hall z
    obtain ⟨info, message, hrounded, hlook, _⟩ := collect_region ord z.toRegion
    have hcapacity : info.cpuAndMemResources.lookup z.az = some z.capacity := by
      rw [hrounded.capacities, z.there]
      rfl
    have hzone := hall z.name info z.az z.capacity hlook hcapacity
    rwa [hrounded.volumes, Option.getD_some] at hzone
  · intro hall region info az c hlook hc
    cases hbefore : r.regionResourceMap.lookup region with
    | none =>
      rw [(collect_unknown ord clouds hbefore).1] at hlook
      cases hlook
    | some old =>
      obtain ⟨g, rfl, rfl⟩ := h.region hbefore
      obtain ⟨info', message, hrounded, hlook', _⟩ := collect_region ord g
      obtain rfl : info' = info := Option.some.inj (hlook'.symm.trans hlook)
      rw [hrounded.capacities] at hc
      obtain ⟨oldCapacity, hold, rfl⟩ := Option.map_eq_some_iff.mp hc
      rw [hrounded.volumes, Option.getD_some]
      exact hall ⟨g, az, oldCapacity, hold⟩

/-- The changes can be posted: no new volume is infinitely large. -/
def Postable (r : RegionResourceCache) (clouds : Clouds) : Prop :=
  ∀ g : Region r clouds, g.VolumesPosted → ∀ v ∈ g.volumes, isFinite v.totalCapacityGb = true

theorem Answered.marshals_iff (h : Answered r clouds) (ord : Orders) :
    marshals (collect ord clouds r).2 = true ↔ Postable r clouds := by
  simp only [marshals, all_eq_true]
  constructor
  · intro hall g hvolumes v hv
    obtain ⟨info, message, hrounded, hmem⟩ := g.posted ord
    have hposted := hrounded.posted
    rw [if_pos hvolumes] at hposted
    have hvolume : volume v ∈ message.volumeResources := by
      rw [hposted]
      exact mem_map_of_mem hv
    exact hall message (hmem (Or.inr (ne_nil_of_mem hvolume))) (volume v) hvolume
  · intro hpostable message hmessage v hv
    obtain ⟨g, info, hrounded⟩ := h.of_posted hmessage
    rw [hrounded.posted] at hv
    split at hv
    case isTrue hvolumes =>
      obtain ⟨v', hv', rfl⟩ := mem_map.mp hv
      exact hpostable g hvolumes v' hv'
    case isFalse => cases hv

/-! ### When a scheduler has what is on record -/

/-- The totals of a site are a capacity and a list of volumes. -/
structure Shows (snap : Snapshot) (siteID : String) (c : CpuAndMemResource)
    (volumes : List VolumeResource) : Prop where
  cpu : cpuTotal snap siteID = some (total c)
  storage : ∀ t x, storageTotal snap siteID t = some x ↔ (⟨x, t⟩ : VolumeResource) ∈ volumes

/-- A scheduler that knows the sites as in `snap` has what is on record after the round. -/
structure Settles (r : RegionResourceCache) (clouds : Clouds) (snap : Snapshot) : Prop where
  /-- Zones whose sites have one name have the same capacity and volumes. -/
  agree : ∀ z z' : Zone r clouds, z.siteID = z'.siteID →
    z.capacity = z'.capacity ∧ ∀ v, v ∈ z.volumes ↔ v ∈ z'.volumes
  /-- No volume type is found with two capacities. -/
  once : ∀ z : Zone r clouds, ∀ v ∈ z.volumes, ∀ v' ∈ z.volumes,
    v.volumeType = v'.volumeType → v = v'
  /-- The scheduler has the capacity already, or it is posted. -/
  capacity : ∀ z : Zone r clouds, cpuTotal snap z.siteID = some (total z.capacity) ∨
    Postable r clouds ∧ ∃ z' : Zone r clouds, z'.siteID = z.siteID ∧ z'.Posted
  /-- The scheduler has the volumes already, or they are posted, and a capacity with them. -/
  storage : ∀ z : Zone r clouds,
    (∀ t x, storageTotal snap z.siteID t = some x ↔ (⟨x, t⟩ : VolumeResource) ∈ z.volumes) ∨
    Postable r clouds ∧ ∃ z' : Zone r clouds, z'.siteID = z.siteID ∧ z'.Posted ∧ z'.VolumesPosted
  /-- The scheduler has no volume type that is not found any more. -/
  kept : ∀ (z : Zone r clouds) t x, storageTotal snap z.siteID t = some x →
    ∃ v ∈ z.volumes, v.volumeType = t

section Messages
variable {messages : List ClusterEvents.RegionResource}
  (hmessages : ∀ m, m ∈ messages ↔ Postable r clouds ∧ m ∈ (collect ord clouds r).2)
include hmessages

variable {β : Type} {said : ClusterEvents.RegionResource → Option β}

theorem of_received {x : β} (hlatest : latest said messages = some x) :
    Postable r clouds ∧ ∃ message ∈ (collect ord clouds r).2, said message = some x := by
  obtain ⟨message, hmem, hsaid⟩ := exists_of_latest hlatest
  obtain ⟨hpostable, hposted⟩ := (hmessages message).mp hmem
  exact ⟨hpostable, message, hposted, hsaid⟩

theorem latest_received (hpostable : Postable r clouds)
    (h : ∃ message ∈ (collect ord clouds r).2, said message ≠ none) : latest said messages ≠ none := by
  obtain ⟨message, hposted, hsaid⟩ := h
  intro hnone
  exact hsaid (latest_eq_none_iff.mp hnone message ((hmessages message).mpr ⟨hpostable, hposted⟩))

theorem Settles.shows (h : Answered r clouds) {snap : Snapshot} (hsettles : Settles r clouds snap)
    (z : Zone r clouds) :
    Shows (pushRegionResources messages snap) z.siteID z.capacity z.volumes where
  cpu := by
    rw [cpuTotal_push]
    cases hlatest : latest (cpuSaid z.siteID) messages with
    | none =>
      rcases hsettles.capacity z with hhas | ⟨hpostable, z', hsite, hposted⟩
      · exact hhas
      · rw [← hsite] at hlatest
        exact absurd hlatest (latest_received hmessages hpostable (z'.cpu_posted ord hposted))
    | some total' =>
      obtain ⟨_, message, hposted, hsaid⟩ := of_received hmessages hlatest
      obtain ⟨z', hsite, _, rfl⟩ := h.cpu_posted hposted hsaid
      rw [(hsettles.agree z' z hsite).1]
      rfl
  storage := by
    intro t x
    rw [storageTotal_push]
    -- What was received for the type is one of the volumes of the zone.
    have hreceived : ∀ y, latest (storageSaid z.siteID t) messages = some y →
        (⟨y, t⟩ : VolumeResource) ∈ z.volumes := by
      intro y hlatest
      obtain ⟨_, message, hposted, hsaid⟩ := of_received hmessages hlatest
      obtain ⟨z', hsite, _, _, hmem⟩ := h.storage_posted hposted hsaid
      exact ((hsettles.agree z' z hsite).2 _).mp hmem
    cases hlatest : latest (storageSaid z.siteID t) messages with
    | some y =>
      have hy := hreceived y hlatest
      rw [Option.some_or, Option.some.injEq]
      constructor
      · rintro rfl
        exact hy
      · intro hx
        have hsame := hsettles.once z _ hy _ hx rfl
        exact congrArg VolumeResource.totalCapacityGb hsame
    | none =>
      rcases hsettles.storage z with hhas | ⟨hpostable, z', hsite, hposted, hvolumes⟩
      · exact hhas t x
      · have hnot : ∀ v ∈ z.volumes, v.volumeType ≠ t := by
          rintro v hv rfl
          rw [← hsite] at hlatest
          exact latest_received hmessages hpostable
            (z'.storage_posted ord hposted hvolumes (((hsettles.agree z' z hsite).2 v).mpr hv)) hlatest
        constructor
        · intro hold
          obtain ⟨v, hv, htype⟩ := hsettles.kept z t x hold
          exact absurd htype (hnot v hv)
        · intro hx
          exact absurd rfl (hnot _ hx)

theorem settles_of_shows (h : Answered r clouds) {snap : Snapshot} (hshows : ∀ z : Zone r clouds,
      Shows (pushRegionResources messages snap) z.siteID z.capacity z.volumes) :
    Settles r clouds snap where
  agree := by
    intro z z' hsite
    have hz := hshows z
    have hz' := hshows z'
    rw [← hsite] at hz'
    refine ⟨total_inj.mp (Option.some.inj (hz.cpu.symm.trans hz'.cpu)), fun v => ?_⟩
    exact (hz.storage v.volumeType v.totalCapacityGb).symm.trans (hz'.storage _ _)
  once := by
    intro z v hv v' hv' htype
    have hx := ((hshows z).storage v.volumeType v.totalCapacityGb).mpr hv
    have hx' := ((hshows z).storage v'.volumeType v'.totalCapacityGb).mpr hv'
    rw [← htype, hx] at hx'
    cases v
    cases v'
    cases htype
    cases hx'
    rfl
  capacity := by
    intro z
    have hcpu := (hshows z).cpu
    rw [cpuTotal_push] at hcpu
    cases hlatest : latest (cpuSaid z.siteID) messages with
    | none =>
      rw [hlatest, Option.none_or] at hcpu
      exact Or.inl hcpu
    | some total' =>
      obtain ⟨hpostable, message, hmem, hsaid⟩ := of_received hmessages hlatest
      obtain ⟨z', hsite, hposted, _⟩ := h.cpu_posted hmem hsaid
      exact Or.inr ⟨hpostable, z', hsite, hposted⟩
  storage := by
    intro z
    by_cases hnone : ∀ t, latest (storageSaid z.siteID t) messages = none
    · left
      intro t x
      rw [← (hshows z).storage t x, storageTotal_push, hnone t, Option.none_or]
    · right
      obtain ⟨t, hsome⟩ := not_forall.mp hnone
      obtain ⟨x, hlatest⟩ := Option.ne_none_iff_exists'.mp hsome
      obtain ⟨hpostable, message, hmem, hsaid⟩ := of_received hmessages hlatest
      obtain ⟨z', hsite, hposted, hvolumes, _⟩ := h.storage_posted hmem hsaid
      exact ⟨hpostable, z', hsite, hposted, hvolumes⟩
  kept := by
    intro z t x hold
    have htotal := storageTotal_push messages snap z.siteID t
    rw [hold] at htotal
    -- A type that was there is still there, so it is one of those on record.
    obtain ⟨y, hy⟩ : ∃ y, storageTotal (pushRegionResources messages snap) z.siteID t = some y := by
      rw [htotal]
      cases latest (storageSaid z.siteID t) messages with
      | none => exact ⟨x, rfl⟩
      | some y => exact ⟨y, rfl⟩
    exact ⟨_, ((hshows z).storage t y).mp hy, rfl⟩

end Messages

end Round

/-! ### The posts of a round -/

theorem pushRegionResources_append (a b : List ClusterEvents.RegionResource) (snap : Snapshot) :
    pushRegionResources (a ++ b) snap = pushRegionResources b (pushRegionResources a snap) :=
  foldl_append

/-- A scheduler receives what is posted once for each time it is registered. -/
theorem foldl_post (posted : List ClusterEvents.RegionResource) (cache : List Scheduler)
    (schedulers : String → Snapshot) (endpoint : String) :
    ∃ messages, (cache.foldl (post posted) schedulers) endpoint =
        pushRegionResources messages (schedulers endpoint) ∧
      ∀ m, m ∈ messages ↔ (∃ scheduler ∈ cache, scheduler.endpoint = endpoint) ∧ m ∈ posted := by
  induction cache generalizing schedulers with
  | nil => exact ⟨[], rfl, by simp⟩
  | cons scheduler rest ih =>
    obtain ⟨messages, heq, hmem⟩ := ih (post posted schedulers scheduler)
    by_cases hself : scheduler.endpoint = endpoint
    · refine ⟨posted ++ messages, ?_, fun m => ?_⟩
      · rw [foldl_cons, heq, pushRegionResources_append, post, hself, Function.update_self]
      · rw [mem_append, hmem]
        constructor
        · rintro (hm | ⟨_, hm⟩)
          · exact ⟨⟨scheduler, mem_cons_self, hself⟩, hm⟩
          · exact ⟨⟨scheduler, mem_cons_self, hself⟩, hm⟩
        · exact fun hm => Or.inl hm.2
    · refine ⟨messages, ?_, fun m => ?_⟩
      · rw [foldl_cons, heq, post, Function.update_of_ne (Ne.symm hself)]
      · rw [hmem]
        simp [hself]

variable {clouds : Clouds} {s : State}

theorem syncResources_received (ord : Orders) (h : Answered s.regionResources clouds)
    {scheduler : Scheduler} (hregistered : scheduler ∈ s.schedulerInfoCache) :
    ∃ messages, (syncResources ord clouds s).schedulers scheduler.endpoint =
        pushRegionResources messages (s.schedulers scheduler.endpoint) ∧
      ∀ m, m ∈ messages ↔ Postable s.regionResources clouds ∧
        m ∈ (collect ord clouds s.regionResources).2 := by
  have hmarshals := h.marshals_iff ord
  rw [syncResources]
  dsimp only
  split
  case isTrue hnothing =>
    refine ⟨[], rfl, fun m => iff_of_false (by simp) ?_⟩
    rintro ⟨hpostable, hm⟩
    rcases hnothing with hnil | hfails
    · rw [hnil] at hm
      cases hm
    · rw [hmarshals.mpr hpostable] at hfails
      cases hfails
  case isFalse hposts =>
    obtain ⟨messages, heq, hmem⟩ := foldl_post (collect ord clouds s.regionResources).2
      s.schedulerInfoCache s.schedulers scheduler.endpoint
    refine ⟨messages, heq, fun m => (hmem m).trans ?_⟩
    have hpostable : Postable s.regionResources clouds := by
      apply hmarshals.mp
      by_contra hfails
      exact hposts (Or.inr (by simpa using hfails))
    exact and_congr_left fun _ => iff_of_true ⟨scheduler, hregistered, rfl⟩ hpostable

theorem syncResources_collects (ord : Orders) (clouds : Clouds) (s : State) :
    (syncResources ord clouds s).regionResources = (collect ord clouds s.regionResources).1 ∧
      (syncResources ord clouds s).schedulerInfoCache = s.schedulerInfoCache := by
  rw [syncResources]
  dsimp only
  split <;> exact ⟨rfl, rfl⟩

/-- Every registered scheduler has, for the site of every zone, the capacity and the volumes
that the collector has. -/
def Right (s : State) : Prop :=
  ∀ scheduler ∈ s.schedulerInfoCache, ∀ region info az c,
    s.regionResources.regionResourceMap.lookup region = some info →
    info.cpuAndMemResources.lookup az = some c →
    Shows (s.schedulers scheduler.endpoint) (region ++ siteDelimiter ++ az) c
      (info.volumeResources.getD [])

/-- **One round.** -/
theorem syncResources_right_iff (ord : Orders) (h : Answered s.regionResources clouds) :
    Right (syncResources ord clouds s) ↔ ∀ scheduler ∈ s.schedulerInfoCache,
      Settles s.regionResources clouds (s.schedulers scheduler.endpoint) := by
  obtain ⟨hrecords, hcache⟩ := syncResources_collects ord clouds s
  rw [Right, hrecords, hcache]
  refine forall_congr' fun scheduler => forall_congr' fun hregistered => ?_
  rw [h.on_record ord (P := Shows _)]
  obtain ⟨messages, hreceived, hmessages⟩ := syncResources_received ord h hregistered
  rw [hreceived]
  constructor
  · exact settles_of_shows hmessages h
  · exact fun hsettles z => hsettles.shows hmessages h z

/-! ### Histories -/

inductive Event where
  | register (scheduler : Scheduler)
  | profile (env : Collector.Env) (sent : Collector.ClusterProfile)
  | sync (ord : Orders) (clouds : Clouds)

def Step (s : State) (e : Event) (s' : State) : Prop :=
  match e with
  | .register scheduler => s' = postSchedulerIpAndPort scheduler s
  | .profile env sent => ∃ r reply,
      sendClusterProfile env s.regionResources sent = some (r, reply) ∧
        s' = { s with regionResources := r }
  | .sync ord clouds => s' = syncResources ord clouds s

/-- The queries of a round succeed. -/
def Succeeds (s : State) : Event → Prop
  | .sync _ clouds => Answered s.regionResources clouds
  | _ => True

/-- A collector that has just been started; the schedulers may know anything. -/
def init (schedulers : String → Snapshot) : State where
  schedulers := schedulers

/-- **After a round, the registered schedulers have what the collector has exactly if**, before
it, every one of them settled: what it had was still right or is among what is posted. -/
theorem sync_right_iff (schedulers : String → Snapshot) (es : List Event) (ord : Orders)
    (clouds : Clouds) (s' : State)
    (h : Run Step Succeeds (init schedulers) (es ++ [.sync ord clouds]) s') :
    ∃ s, Run Step Succeeds (init schedulers) es s ∧ Step s (.sync ord clouds) s' ∧
      (Right s' ↔ ∀ scheduler ∈ s.schedulerInfoCache,
        Settles s.regionResources clouds (s.schedulers scheduler.endpoint)) := by
  obtain ⟨s, hrun, hanswered, hstep⟩ := h.of_snoc
  refine ⟨s, hrun, hstep, ?_⟩
  obtain rfl : s' = syncResources ord clouds s := hstep
  exact syncResources_right_iff ord hanswered

/-- The profile of a cluster in zone `a` of region `r`; its cloud knows of no hosts. -/
def created : Event :=
  .profile { listing := fun _ => .aggregates [] }
    { clusterNameSpace := "n", clusterName := "k", clusterStatus := "Created"
      clusterSpec := some ⟨"10.0.0.1", some {}, some ⟨"r", "a"⟩⟩ }

def emptyClouds : Clouds := fun _ => some ⟨some [], some []⟩

def someScheduler : Scheduler := ⟨"http://10.0.0.2", "8080"⟩

def after (s : State) : Event → State
  | .register scheduler => postSchedulerIpAndPort scheduler s
  | .profile env sent =>
    match sendClusterProfile env s.regionResources sent with
    | some (r, _) => { s with regionResources := r }
    | none => s
  | .sync ord clouds => syncResources ord clouds s

theorem snoc_after {start : State} {es : List Event} (h : Run Step Succeeds start es s) {e : Event}
    (hmeets : Succeeds s e) (hprofile : ∀ env sent, e = .profile env sent →
      (sendClusterProfile env s.regionResources sent).isSome = true) :
    Run Step Succeeds start (es ++ [e]) (after s e) := by
  refine h.snoc hmeets ?_
  cases e with
  | register scheduler => rfl
  | profile env sent =>
    obtain ⟨⟨r, reply⟩, hcall⟩ := Option.isSome_iff_exists.mp (hprofile env sent rfl)
    refine ⟨r, reply, hcall, ?_⟩
    simp [after, hcall]
  | sync ord clouds => rfl

theorem answered_emptyClouds (r : RegionResourceCache) : Answered r emptyClouds :=
  fun _ _ _ => ⟨[], [], rfl⟩

/-- A scheduler that registers first has the totals after the first round. -/
theorem sync_right_iff_registered_first :
    ∃ s', Run Step Succeeds (init fun _ => empty)
        ([.register someScheduler, created] ++ [.sync {} emptyClouds]) s' ∧
      cpuTotal (s'.schedulers someScheduler.endpoint) "r--a" = some ⟨3, 512⟩ ∧
      storageTotal (s'.schedulers someScheduler.endpoint) "r--a" "lvmdriver-1" = some (.fin 22) ∧
      ∃ s, Step s (.sync {} emptyClouds) s' ∧
        (Right s' ↔ ∀ scheduler ∈ s.schedulerInfoCache,
          Settles s.regionResources emptyClouds (s.schedulers scheduler.endpoint)) := by
  have hregistered := snoc_after (Run.nil (init fun _ => empty))
    (e := Event.register someScheduler) trivial (fun _ _ h => by cases h)
  have hcreated := snoc_after hregistered (e := created) trivial
    (fun _ _ h => by cases h; decide +kernel)
  have hsynced := snoc_after hcreated (e := Event.sync {} emptyClouds) (answered_emptyClouds _)
    (fun _ _ h => by cases h)
  refine ⟨_, hsynced, by decide +kernel, by decide +kernel, ?_⟩
  obtain ⟨s, _, hstep, hiff⟩ := sync_right_iff _ _ _ _ _ hsynced
  exact ⟨s, hstep, hiff⟩

/-- A zone is created, a round finds its capacity, a scheduler registers, and a second round
finds the same. -/
def lateRound : State :=
  [created, .sync {} emptyClouds, .register someScheduler, .sync {} emptyClouds].foldl after
    (init fun _ => empty)

/-- **A scheduler that registers after a round is not told what the round found**: the next
one finds nothing new and posts nothing. -/
theorem late_scheduler_not_told :
    Run Step Succeeds (init fun _ => empty)
        ([created, .sync {} emptyClouds, .register someScheduler] ++ [.sync {} emptyClouds])
        lateRound ∧ ¬ Right lateRound := by
  have hcreated := snoc_after (Run.nil (init fun _ => empty)) (e := created) trivial
    (fun _ _ h => by cases h; decide +kernel)
  have hsynced := snoc_after hcreated (e := Event.sync {} emptyClouds) (answered_emptyClouds _)
    (fun _ _ h => by cases h)
  have hregistered := snoc_after hsynced (e := Event.register someScheduler) trivial
    (fun _ _ h => by cases h)
  have hagain := snoc_after hregistered (e := Event.sync {} emptyClouds) (answered_emptyClouds _)
    (fun _ _ h => by cases h)
  refine ⟨hagain, fun hright => ?_⟩
  have hzone : lateRound.regionResources.capacityAt "r" "a" = some ⟨3, 512⟩ := by decide +kernel
  obtain ⟨info, hlook, hc⟩ := Option.bind_eq_some_iff.mp hzone
  have hshows := hright someScheduler (by decide +kernel) "r" info "a" _ hlook hc
  have hnone : cpuTotal (lateRound.schedulers someScheduler.endpoint)
      ("r" ++ siteDelimiter ++ "a") = none := by
    decide +kernel
  cases hnone.symm.trans hshows.cpu

end GlobalScheduler.SyncResources
