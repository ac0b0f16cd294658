import GlobalScheduler.Cluster
import GlobalScheduler.Scheduler.Shipped

/-! The writers of the site cache.

Three things write the scheduler's records: the cluster worker, which handles the
create, update and delete events of clusters; the resource collector, which pushes
the totals of a region; and the scheduler itself, which books. The cluster worker
reads the clusters from the lister, which holds the live ones. -/
namespace GlobalScheduler

open Go Clusterv1 SiteCacheInfo

/-- What the scheduler holds of the clusters and the sites. -/
structure SchedulerState where
  snapshot : Snapshot
  deletedClusters : Map (String × String) String := ∅
  lister : Map (String × String) Cluster := ∅

namespace ClusterEvents

/-! ### Static information -/

variable (cluster : Cluster)

def convertClusterToSite : Site where
  siteID := cluster.siteID
  clusterName := cluster.name
  clusterNamespace := cluster.nameSpace
  geoLocation := {
    city := cluster.spec.geoLocation.city
    province := cluster.spec.geoLocation.province
    area := cluster.spec.geoLocation.area
    country := cluster.spec.geoLocation.country }
  regionAzMap := ⟨cluster.spec.region.region, cluster.spec.region.availabilityZone⟩
  operator := cluster.spec.operator.operator
  status := cluster.status

/-- The counts of a list of flavors; of two entries for one flavor the later stands. -/
def flavorCounts (flavors : List Clusterv1.FlavorInfo) : Map String Int :=
  flavors.foldl (fun m flavor => m.insert flavor.flavorID flavor.totalCapacity) ∅

/-- A new record for a cluster, with the flavors of its spec. -/
def newRecord : SiteCacheInfo :=
  { new with
    site := some (convertClusterToSite cluster)
    allocatableFlavor := flavorCounts cluster.spec.flavors }

/-- `UpdateRegionFlavor`: a flavor the configuration does not have is filed as nil. -/
def updateRegionFlavor (region : String) (snap : Snapshot) (flavorId : String) : Snapshot :=
  let regionFlavorId := region ++ flavorDelimiter ++ flavorId
  { snap with
    regionFlavorMap := match snap.flavorMap.lookup flavorId with
      | some flavor => snap.regionFlavorMap.insert regionFlavorId flavor
      | none => snap.regionFlavorMap.erase regionFlavorId }

/-- The body that the create and the update branch share; they differ in the status
they give the site. -/
def fileCluster (status : String) (cluster : Cluster) (snap : Snapshot) : Snapshot :=
  let clusterCopy := { cluster with status := status }
  (clusterCopy.spec.flavors.map (·.flavorID)).foldl
    (updateRegionFlavor clusterCopy.spec.region.region)
    (snap.put clusterCopy.siteID (newRecord clusterCopy) (by
      intro site hsite
      cases hsite
      rfl))

variable (key : String × String)

/-- `updateStaticSiteResourceInfo`; the flag is its response. The delete branch asks
the lister for the cluster, as the other two do. -/
def updateStaticSiteResourceInfo (event : EventType) (s : SchedulerState) :
    Bool × SchedulerState :=
  match s.lister.lookup key with
  | none => (false, s)
  | some cluster =>
    match event with
    | .create => (true, { s with snapshot := fileCluster "Created" cluster s.snapshot })
    | .update => (true, { s with snapshot := fileCluster "Updated" cluster s.snapshot })
    | .delete =>
      let siteID := (s.deletedClusters.lookup key).getD ""
      (true, { s with
        snapshot := s.snapshot.remove siteID
        deletedClusters := s.deletedClusters.erase key })

/-- `clusterSyncHandler`; the flag says that the item is to be retried. After a create
or an update the cluster is read once more and written to before it is checked. -/
def clusterSyncHandler (event : EventType) (s : SchedulerState) :
    Outcome (Bool × SchedulerState) :=
  let (result, s) := updateStaticSiteResourceInfo key event s
  if event ≠ .delete ∧ s.lister.lookup key = none then throw .nilPointer
  else pure (!result, s)

/-! ### The event handlers -/

/-- `verifyClusterInfo`. -/
def verifyClusterInfo : Bool :=
  cluster.spec.ipAddress ≠ "" && cluster.spec.region.region ≠ "" &&
    cluster.spec.region.availabilityZone ≠ "" && cluster.name ≠ ""

/-- `determineEventType`: whether there is a change to handle. -/
def determineEventType (cluster1 cluster2 : Cluster) : Option Bool :=
  if cluster1.name = "" ∨ cluster2.name = "" then none
  else some !(cluster1.name = cluster2.name && cluster1.status = cluster2.status &&
    cluster1.spec = cluster2.spec)

/-- `addCluster`, `updateCluster` and `deleteCluster`: what they enqueue. The first two
only log what `verifyClusterInfo` says. -/
def addCluster (_cluster : Cluster) : Option EventType := some .create

def updateCluster (oldCluster newCluster : Cluster) : Option EventType :=
  if determineEventType oldCluster newCluster = some true then some .update else none

def deleteCluster (s : SchedulerState) : Option EventType × SchedulerState :=
  if verifyClusterInfo cluster then
    (some .delete, { s with
      deletedClusters := s.deletedClusters.insert cluster.key cluster.siteID })
  else (none, s)

def process (event : Option EventType) (s : SchedulerState) :
    Outcome SchedulerState :=
  match event with
  | none => pure s
  | some event => do
    let (_, s) ← clusterSyncHandler key event s
    pure s

/-! ### Pushed resources -/

structure AzCpuMem where
  availabilityZone : String
  cpuCapacity : Int
  memCapacity : Int
deriving DecidableEq, Repr

structure Volume where
  typeId : String
  storageCapacity : Fp
deriving DecidableEq

structure RegionResource where
  regionName : String
  cpuMemResources : List AzCpuMem := []
  volumeResources : List Volume := []
deriving DecidableEq

/-- The totals of one availability zone; a site that has no record yet gets one. -/
def pushAz (region : String) (volumes : List Volume) (snap : Snapshot) (az : AzCpuMem) : Snapshot :=
  let siteID := region ++ siteDelimiter ++ az.availabilityZone
  let info := (snap.siteCacheInfoMap.lookup siteID).getD .new
  snap.put siteID
    { info with
      totalResources := info.totalResources.insert defaultResourceType
        ⟨az.cpuCapacity, az.memCapacity⟩
      totalStorage := volumes.foldl (fun m v => m.insert v.typeId v.storageCapacity)
        info.totalStorage }
    (by
      intro site hsite
      cases hinfo : snap.siteCacheInfoMap.lookup siteID with
      | none => simp [info, hinfo, new] at hsite
      | some old =>
        simp only [info, hinfo, Option.getD_some] at hsite
        exact snap.keyed siteID old site hinfo hsite)

/-- `UpdateSiteDynamicResource`. -/
def updateSiteDynamicResource (resource : RegionResource) (snap : Snapshot) : Snapshot :=
  resource.cpuMemResources.foldl (pushAz resource.regionName resource.volumeResources) snap

/-- `PushRegionResources`. -/
def pushRegionResources (resources : List RegionResource) (snap : Snapshot) : Snapshot :=
  resources.foldl (fun snap resource => updateSiteDynamicResource resource snap) snap

/-! ### The system -/

/-- What can happen: a cluster changes and the worker handles that to its end, a push,
or a scheduling cycle. -/
inductive Event where
  | create (cluster : Cluster)
  | update (cluster : Cluster)
  | delete (key : String × String)
  | push (resources : List RegionResource)
  | schedule (ord : MapOrders) (alloc : Allocation)

def step (settings : Settings) (s : SchedulerState) : Event → Outcome SchedulerState
  | .create cluster =>
    process cluster.key (addCluster cluster)
      { s with lister := s.lister.insert cluster.key cluster }
  | .update cluster =>
    match s.lister.lookup cluster.key with
    | none => pure s
    | some old =>
      process cluster.key (updateCluster old cluster)
        { s with lister := s.lister.insert cluster.key cluster }
  | .delete key =>
    match s.lister.lookup key with
    | none => pure s
    | some cluster =>
      let (event, s) := deleteCluster cluster { s with lister := s.lister.erase key }
      process key event s
  | .push resources => pure { s with snapshot := pushRegionResources resources s.snapshot }
  | .schedule ord alloc => do
    let r ← scheduleShipped settings ord s.snapshot alloc
    pure { s with snapshot := r.snapshot }

def init (settings : Settings) : SchedulerState where
  snapshot := Snapshot.empty.updateFlavor settings

end ClusterEvents

end GlobalScheduler
