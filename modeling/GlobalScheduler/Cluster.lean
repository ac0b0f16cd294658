import GlobalScheduler.Types

/-! The cluster resource.

A cluster is what the API server stores; the scheduler knows it as the site
`region--az`. -/
namespace GlobalScheduler.Clusterv1

structure FlavorInfo where
  flavorID : String
  totalCapacity : Int
deriving DecidableEq, Repr

structure StorageSpec where
  typeID : String
  storageCapacity : Int
deriving DecidableEq, Repr

structure GeolocationInfo where
  city : String := ""
  province : String := ""
  area : String := ""
  country : String := ""
deriving DecidableEq, Repr

structure RegionInfo where
  region : String := ""
  availabilityZone : String := ""
deriving DecidableEq, Repr

structure OperatorInfo where
  operator : String := ""
deriving DecidableEq, Repr

structure ClusterSpec where
  ipAddress : String := ""
  geoLocation : GeolocationInfo := {}
  region : RegionInfo := {}
  operator : OperatorInfo := {}
  flavors : List FlavorInfo := []
  storage : List StorageSpec := []
  eipCapacity : Int := 0
  cpuCapacity : Int := 0
  memCapacity : Int := 0
  serverPrice : Int := 0
  homeScheduler : String := ""
  homeDispatcher : String := ""
deriving DecidableEq, Repr

structure Cluster where
  nameSpace : String := ""
  name : String := ""
  spec : ClusterSpec := {}
  status : String := ""
deriving DecidableEq, Repr

/-- `KeyFunc`: the namespace and the name. `SplitMetaNamespaceKey` gets both back. -/
def Cluster.key (cluster : Cluster) : String × String := (cluster.nameSpace, cluster.name)

def Cluster.siteID (cluster : Cluster) : String :=
  cluster.spec.region.region ++ siteDelimiter ++ cluster.spec.region.availabilityZone

/-- `EventType`: what happened to a cluster. -/
inductive EventType where
  | create
  | update
  | delete
deriving DecidableEq, Repr

/-- What the handlers of cluster events put into a work queue. -/
structure KeyWithEventType where
  eventType : EventType
  key : String
deriving DecidableEq, Repr

end GlobalScheduler.Clusterv1
