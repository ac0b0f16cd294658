import GlobalScheduler.Collector.ClusterProtocol
import GlobalScheduler.LastWrite
import GlobalScheduler.Scheduler.ClusterEvents

/-! A round of the resource collector.

`SyncResources` asks the cloud of every region for its hypervisors and storage pools,
writes what has changed to the records of the regions and posts the changes, and only
them, to the schedulers registered at that moment. -/
namespace GlobalScheduler.SyncResources

open Go LastWrite Transition
open Collector (RegionResource RegionResourceCache CpuAndMemResource VolumeResource)
open ClusterEvents (AzCpuMem Volume pushRegionResources)

/-! ### The code -/

structure Hypervisor where
  hypervisorHostname : String
  vcpus : Int
  memoryMB : Int
deriving DecidableEq, Repr

/-- A storage pool; the capacity is infinite where the service says so. -/
structure StoragePool where
  volumeBackendName : String
  totalCapacityGB : Fp
deriving DecidableEq

/-- What the services of a cloud answer; a query that fails has no answer. -/
structure Cloud where
  hypervisors : Option (List Hypervisor)
  storagePools : Option (List StoragePool)

/-- The clouds by address; for some there is no client. -/
abbrev Clouds := String → Option Cloud

/-- The runtime's orders: of the regions, and in each region of the zones its hosts are in
and of the zones on record. -/
structure Orders where
  regions : List String := []
  hosts : String → List String := fun _ => []
  zones : String → List String := fun _ => []

def azCpuMem (az : String) (cmr : CpuAndMemResource) : AzCpuMem :=
  ⟨az, cmr.totalVCPUs, cmr.totalMem⟩

/-- The capacity of each zone, summed over its hosts. -/
def azCpuMemMap (hostAzMap : Map String String) (hs : List Hypervisor) :
    Map String CpuAndMemResource :=
  hs.foldl (fun m h => match hostAzMap.lookup h.hypervisorHostname with
    | none => m
    | some az =>
      let cmr := (m.lookup az).getD ⟨0, 0⟩
      m.insert az ⟨cmr.totalVCPUs + h.vcpus, cmr.totalMem + h.memoryMB⟩) ∅

def defaultCmd : CpuAndMemResource := ⟨3, 512⟩

def reportHosts (regionName : String) (acc : RegionResourceCache × List AzCpuMem)
    (entry : String × CpuAndMemResource) : RegionResourceCache × List AzCpuMem :=
  let (r, updated) := acc.1.updateCpuAndMemResource regionName entry.1 entry.2
  (r, if updated then acc.2 ++ [azCpuMem entry.1 entry.2] else acc.2)

/-- A zone on record; one without a capacity gets the default. -/
def reportDefault (regionName : String) (acc : RegionResourceCache × List AzCpuMem)
    (entry : String × CpuAndMemResource) : RegionResourceCache × List AzCpuMem :=
  if entry.2 = ⟨0, 0⟩ then
    ((acc.1.updateCpuAndMemResource regionName entry.1 defaultCmd).1,
      acc.2 ++ [azCpuMem entry.1 defaultCmd])
  else acc

variable (ord : Orders)

/-- The second loop reads the record that the first has just written to. -/
def getRegionCpuAndMemResources (client : Option (List Hypervisor))
    (regionResource : RegionResource) (r : RegionResourceCache) :
    RegionResourceCache × List AzCpuMem :=
  match client with
  | none => (r, [])
  | some hs =>
    let name := regionResource.regionName
    let found := (Map.entriesBy (ord.hosts name) (azCpuMemMap regionResource.hostAzMap hs)).foldl
      (reportHosts name) (r, [])
    let onRecord := ((found.1.regionResourceMap.lookup name).map (·.cpuAndMemResources)).getD ∅
    (Map.entriesBy (ord.zones name) onRecord).foldl (reportDefault name) found

/-- The volumes of a region; one whose hosts are not known has a volume for testing. -/
def volumesOf (regionResource : RegionResource) (allStats : List StoragePool) :
    List VolumeResource :=
  if regionResource.hostAzMap.keys = [] then
    [{ volumeType := "lvmdriver-1", totalCapacityGb := .fin 22 }]
  else allStats.map fun stat =>
    { volumeType := stat.volumeBackendName, totalCapacityGb := stat.totalCapacityGB }

def volume (v : VolumeResource) : Volume := ⟨v.volumeType, v.totalCapacityGb⟩

/-- The pools are asked for only where hosts are known. -/
def getRegionVolumeResources (client : Option (List StoragePool)) (regionResource : RegionResource)
    (r : RegionResourceCache) : RegionResourceCache × List Volume :=
  if client = none ∧ regionResource.hostAzMap.keys ≠ [] then (r, [])
  else
    let volumeResources := volumesOf regionResource (client.getD [])
    let (r, updated) := r.updateVolumeResource regionResource.regionName volumeResources
    (r, if updated then volumeResources.map volume else [])

/-- What a round has so far: the records, and what is to be posted. -/
abbrev Collected := RegionResourceCache × List ClusterEvents.RegionResource

/-- The round of one region. The two queries run at the same time; they write to different
parts of the record. -/
def collectRegion (clouds : Clouds) (acc : Collected)
    (entry : String × RegionResource) : Collected :=
  let info := entry.2
  match clouds info.eipNetworkID with
  | none => acc
  | some cloud =>
    let (r, cpuAndMemResources) := getRegionCpuAndMemResources ord cloud.hypervisors info acc.1
    let (r, volumeResources) := getRegionVolumeResources cloud.storagePools info r
    (r, if cpuAndMemResources = [] ∧ volumeResources = [] then acc.2
      else acc.2 ++ [⟨info.regionName, cpuAndMemResources, volumeResources⟩])

def collect (clouds : Clouds) (r : RegionResourceCache) : Collected :=
  (Map.entriesBy ord.regions r.regionResourceMap).foldl (collectRegion ord clouds) (r, [])

/-- Whether `json.Marshal` takes a number. -/
def isFinite : Fp → Bool
  | .fin _ => true
  | _ => false

variable (regionResources : List ClusterEvents.RegionResource)

def marshals : Bool :=
  regionResources.all fun resource => resource.volumeResources.all fun v => isFinite v.storageCapacity

/-- A scheduler as it registers. -/
structure Scheduler where
  ipAddress : String
  portNumber : String
deriving DecidableEq, Repr

def Scheduler.endpoint (scheduler : Scheduler) : String :=
  scheduler.ipAddress ++ ":" ++ scheduler.portNumber ++ "/regionresources"

/-- The collector, and the sites as the scheduler behind each endpoint knows them. -/
structure State where
  regionResources : RegionResourceCache := RegionResourceCache.newRegionCache
  schedulerInfoCache : List Scheduler := []
  schedulers : String → Snapshot

def post (schedulers : String → Snapshot)
    (scheduler : Scheduler) : String → Snapshot :=
  Function.update schedulers scheduler.endpoint
    (pushRegionResources regionResources (schedulers scheduler.endpoint))

/-- `SyncResources`: what was written stays written when the changes cannot be posted. -/
def syncResources (clouds : Clouds) (s : State) : State :=
  let (r, regionResources) := collect ord clouds s.regionResources
  if regionResources = [] ∨ marshals regionResources = false then { s with regionResources := r }
  else { s with
    regionResources := r
    schedulers := s.schedulerInfoCache.foldl (post regionResources) s.schedulers }

/-- `PostSchedulerIpAndPort`. -/
def postSchedulerIpAndPort (scheduler : Scheduler) (s : State) : State :=
  { s with schedulerInfoCache := s.schedulerInfoCache ++ [scheduler] }

end GlobalScheduler.SyncResources
