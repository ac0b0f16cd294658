import GlobalScheduler.Cluster
import GlobalScheduler.RefCount
import GlobalScheduler.Transition

/-! The geo tree of the scheduler controller.

The clusters are filed in a tree by country, area, province, city and name. Every node
counts the clusters below it and what their specs have, so that the union of any part of
the world can be read off one node. -/
namespace GlobalScheduler.ClusterUnion

open Go Clusterv1 RefCount Transition

/-! ### The nodes -/

/-- `CLusterUnionMap`. -/
structure ClusterUnionMap where
  geoLocationMap : Map GeolocationInfo Int := ∅
  regionMap : Map RegionInfo Int := ∅
  operatorMap : Map OperatorInfo Int := ∅
  flavorMap : Map FlavorInfo Int := ∅
  storageMap : Map StorageSpec Int := ∅
  eipCapacityMap : Map Int Int := ∅
  cpuCapacityMap : Map Int Int := ∅
  memCapacityMap : Map Int Int := ∅
  serverPriceMap : Map Int Int := ∅

/-- What a node counts. -/
structure NodeData where
  clusterUnionMap : ClusterUnionMap := {}
  clusterMap : Map String Int := ∅

structure InfoNode (child : Type) extends NodeData where
  infoMap : Map String child := ∅

/-- What stands below a node that has this many levels below it. -/
abbrev Child : Nat → Type
  | 0 => Empty
  | height + 1 => InfoNode (Child height)

abbrev ClusterInfoNode (height : Nat) := InfoNode (Child height)

def levels : Nat := 5

def getGeoLocationKey (cluster : Cluster) : Nat → String
  | 0 => cluster.spec.geoLocation.country
  | 1 => cluster.spec.geoLocation.area
  | 2 => cluster.spec.geoLocation.province
  | 3 => cluster.spec.geoLocation.city
  | 4 => cluster.name
  | _ => ""

/-- The key of a cluster in a node with `height + 1` levels below it. -/
def keyAt (height : Nat) (cluster : Cluster) : String :=
  getGeoLocationKey cluster (levels - (height + 1))

section Counters
variable {α : Type} [DecidableEq α]

def addMap (m : Map α Int) (key : α) : Map α Int := incr m key

def delMap (m : Map α Int) (key : α) : Map α Int := decr m key

end Counters

/-- What `AddCluster` counts in a node. -/
def NodeData.add (cluster : Cluster) (node : NodeData) : NodeData where
  clusterUnionMap := {
    geoLocationMap := addMap node.clusterUnionMap.geoLocationMap cluster.spec.geoLocation
    regionMap := addMap node.clusterUnionMap.regionMap cluster.spec.region
    operatorMap := addMap node.clusterUnionMap.operatorMap cluster.spec.operator
    flavorMap := cluster.spec.flavors.foldl addMap node.clusterUnionMap.flavorMap
    storageMap := cluster.spec.storage.foldl addMap node.clusterUnionMap.storageMap
    eipCapacityMap := addMap node.clusterUnionMap.eipCapacityMap cluster.spec.eipCapacity
    cpuCapacityMap := addMap node.clusterUnionMap.cpuCapacityMap cluster.spec.cpuCapacity
    memCapacityMap := addMap node.clusterUnionMap.memCapacityMap cluster.spec.memCapacity
    serverPriceMap := addMap node.clusterUnionMap.serverPriceMap cluster.spec.serverPrice }
  clusterMap := addMap node.clusterMap cluster.name

/-- What `DelCluster` takes back in a node. -/
def NodeData.del (cluster : Cluster) (node : NodeData) : NodeData where
  clusterUnionMap := {
    geoLocationMap := delMap node.clusterUnionMap.geoLocationMap cluster.spec.geoLocation
    regionMap := delMap node.clusterUnionMap.regionMap cluster.spec.region
    operatorMap := delMap node.clusterUnionMap.operatorMap cluster.spec.operator
    flavorMap := cluster.spec.flavors.foldl delMap node.clusterUnionMap.flavorMap
    storageMap := cluster.spec.storage.foldl delMap node.clusterUnionMap.storageMap
    eipCapacityMap := delMap node.clusterUnionMap.eipCapacityMap cluster.spec.eipCapacity
    cpuCapacityMap := delMap node.clusterUnionMap.cpuCapacityMap cluster.spec.cpuCapacity
    memCapacityMap := delMap node.clusterUnionMap.memCapacityMap cluster.spec.memCapacity
    serverPriceMap := delMap node.clusterUnionMap.serverPriceMap cluster.spec.serverPrice }
  clusterMap := delMap node.clusterMap cluster.name

/-- `NewClusterInfoNode`. -/
def newClusterInfoNode (height : Nat) : ClusterInfoNode height := {}

/-- `AddCluster`. Below the last level there is no key. -/
def addCluster (cluster : Cluster) : (height : Nat) → ClusterInfoNode height → ClusterInfoNode height
  | 0, cin => { cin with toNodeData := cin.toNodeData.add cluster }
  | height + 1, cin =>
    let key := keyAt height cluster
    let child : ClusterInfoNode height := (cin.infoMap.lookup key).getD (newClusterInfoNode height)
    { toNodeData := cin.toNodeData.add cluster
      infoMap := if key ≠ "" then cin.infoMap.insert key (addCluster cluster height child)
        else cin.infoMap }

/-- `DelCluster`: a node below which nothing is left goes too. -/
def delCluster (cluster : Cluster) : (height : Nat) → ClusterInfoNode height → ClusterInfoNode height
  | 0, cin => cin
  | height + 1, cin =>
    let key := keyAt height cluster
    if key = "" then cin
    else match cin.infoMap.lookup key with
      | none => cin
      | some child =>
        let child : ClusterInfoNode height := delCluster cluster height child
        { toNodeData := cin.toNodeData.del cluster
          infoMap := if child.infoMap.keys = [] then cin.infoMap.erase key
            else cin.infoMap.insert key child }

def nodeAt : (height : Nat) → ClusterInfoNode height → List String → Option NodeData
  | _, cin, [] => some cin.toNodeData
  | 0, _, _ :: _ => none
  | height + 1, cin, key :: rest => (cin.infoMap.lookup key).bind (nodeAt height · rest)

def geoPath (cluster : Cluster) : List String :=
  [cluster.spec.geoLocation.country, cluster.spec.geoLocation.area,
    cluster.spec.geoLocation.province, cluster.spec.geoLocation.city, cluster.name]

/-! ### The system -/

/-- The root and the clusters that were added and not deleted since. -/
structure State where
  tree : ClusterInfoNode levels := newClusterInfoNode levels
  live : Finset Cluster := ∅

inductive Event where
  | add (cluster : Cluster)
  | del (cluster : Cluster)

def step (s : State) : Event → State
  | .add cluster =>
    { tree := addCluster cluster levels s.tree
      live := insert cluster s.live }
  | .del cluster =>
    { tree := delCluster cluster levels s.tree
      live := s.live.filter (·.name ≠ cluster.name) }

def init : State := {}

/-- No level of the tree is skipped. -/
def Located (cluster : Cluster) : Prop := "" ∉ geoPath cluster

instance (cluster : Cluster) : Decidable (Located cluster) :=
  inferInstanceAs (Decidable (¬ _))

/-- A new cluster has a place and a name of its own, and a deleted one is there, with the
spec it was added with. -/
def Allowed (s : State) : Event → Prop
  | .add cluster => Located cluster ∧ ∀ c ∈ s.live, c.name ≠ cluster.name
  | .del cluster => ∃ c ∈ s.live, c.name = cluster.name ∧ c.spec = cluster.spec

abbrev Runs := Run (fun s e s' => step s e = s') Allowed init

end GlobalScheduler.ClusterUnion
