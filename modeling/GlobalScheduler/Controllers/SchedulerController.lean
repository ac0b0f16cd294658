import GlobalScheduler.Controllers.ClusterUnion
import GlobalScheduler.Controllers.Util
import GlobalScheduler.Go.SwapDelete

/-! The scheduler controller.

It files the clusters in the geo tree and hands every scheduler the clusters of some
nodes of one level of it, anew whenever a scheduler or a cluster comes or goes. The level
is the first with as many nodes as there are schedulers. What a scheduler is handed is
written to its resource at the API server: the names of the clusters, and the union of
what they offer, by which the distributors choose. -/
namespace GlobalScheduler.Schedulers

open Go Clusterv1 ClusterUnion Util Transition AList

/-! ### The resources -/

/-- `ClusterUnion` of a scheduler resource. -/
structure OfferedUnion where
  geoLocation : List GeolocationInfo := []
  region : List RegionInfo := []
  operator : List OperatorInfo := []
  flavors : List FlavorInfo := []
  storage : List StorageSpec := []
  eipCapacity : List Int := []
  cpuCapacity : List Int := []
  memCapacity : List Int := []
  serverPrice : List Int := []
deriving DecidableEq, Repr

structure Scheduler where
  nameSpace : String
  name : String
  cluster : List String := []
  union : OfferedUnion := {}
deriving DecidableEq, Repr

def Scheduler.key (scheduler : Scheduler) : String × String := (scheduler.nameSpace, scheduler.name)

/-- The schedulers at the API server, each under its namespace and name. -/
structure ApiServer where
  stored : Map (String × String) Scheduler := ∅
  keyed : ∀ key scheduler, stored.lookup key = some scheduler → scheduler.key = key := by
    intro key scheduler h; cases h

namespace ApiServer

def update (api : ApiServer) (scheduler : Scheduler) : ApiServer where
  stored := api.stored.insert scheduler.key scheduler
  keyed := by
    intro key scheduler' h
    by_cases hkey : key = scheduler.key
    · subst hkey
      rw [lookup_insert] at h
      cases h
      rfl
    · rw [lookup_insert_ne hkey] at h
      exact api.keyed key scheduler' h

def delete (api : ApiServer) (key : String × String) : ApiServer where
  stored := api.stored.erase key
  keyed := by
    intro key' scheduler h
    by_cases hkey : key' = key
    · subst hkey
      rw [lookup_erase] at h
      cases h
    · rw [lookup_erase_ne hkey] at h
      exact api.keyed key' scheduler h

end ApiServer

/-! ### The code -/

/-- The runtime's choices in one call of `balance`: the order of the children of a node,
by the levels below it and its index, and those of the sets collected for a scheduler. -/
structure MapOrders where
  infoMap : Nat → Nat → List String := fun _ _ => []
  clusters : Nat → List String := fun _ => []
  geoLocation : Nat → List GeolocationInfo := fun _ => []
  region : Nat → List RegionInfo := fun _ => []
  operator : Nat → List OperatorInfo := fun _ => []
  flavors : Nat → List FlavorInfo := fun _ => []
  storage : Nat → List StorageSpec := fun _ => []
  eipCapacity : Nat → List Int := fun _ => []
  cpuCapacity : Nat → List Int := fun _ => []
  memCapacity : Nat → List Int := fun _ => []
  serverPrice : Nat → List Int := fun _ => []

def nextLevelNodes (ord : Nat → List String) {height : Nat}
    (nodes : List (ClusterInfoNode (height + 1))) : List (ClusterInfoNode height) :=
  nodes.zipIdx.flatMap fun e => (Map.entriesBy (ord e.2) e.1.infoMap).map Prod.snd

section Combined
variable {α : Type} [DecidableEq α]

def addKeys (set : Map α Bool) (m : Map α Int) : Map α Bool :=
  m.keys.foldl (fun set key => set.insert key true) set

def combined (ord : List α) (maps : List (Map α Int)) : List α :=
  (Map.entriesBy ord (maps.foldl addKeys ∅)).map Prod.fst

end Combined

/-- What the `idx`-th scheduler is sent for these nodes. -/
def assigned (ord : MapOrders) (idx : Nat) (nodes : List NodeData) (latest : Scheduler) :
    Scheduler :=
  let unions := nodes.map (·.clusterUnionMap)
  { latest with
    cluster := combined (ord.clusters idx) (nodes.map (·.clusterMap))
    union := {
      geoLocation := combined (ord.geoLocation idx) (unions.map (·.geoLocationMap))
      region := combined (ord.region idx) (unions.map (·.regionMap))
      operator := combined (ord.operator idx) (unions.map (·.operatorMap))
      flavors := combined (ord.flavors idx) (unions.map (·.flavorMap))
      storage := combined (ord.storage idx) (unions.map (·.storageMap))
      eipCapacity := combined (ord.eipCapacity idx) (unions.map (·.eipCapacityMap))
      cpuCapacity := combined (ord.cpuCapacity idx) (unions.map (·.cpuCapacityMap))
      memCapacity := combined (ord.memCapacity idx) (unions.map (·.memCapacityMap))
      serverPrice := combined (ord.serverPrice idx) (unions.map (·.serverPriceMap)) } }

def nodesIn (nodes : List NodeData) (range : Int × Int) : Outcome (List NodeData) :=
  (List.range (range.2 + 1 - range.1).toNat).mapM fun (i : Nat) => index nodes (range.1 + i)

/-- What `balance` works on: the API server, the schedulers the controller knows, and those
it has written. -/
structure Progress where
  api : ApiServer
  schedulers : List Scheduler
  written : List Scheduler := []

/-- The update of one scheduler, which the API server accepts and returns as it was sent. -/
def Progress.put (p : Progress) (idx : Nat) (updated : Scheduler) : Progress where
  api := p.api.update updated
  schedulers := p.schedulers.set idx updated
  written := p.written ++ [updated]

/-- A round of the loop of `balance`. -/
def assignRange (ord : MapOrders) (nameSpace : String) (nodes : List NodeData)
    (entry : (Int × Int) × Nat) (p : Progress) : Outcome (Progress × Option String) := do
  let part ← nodesIn nodes entry.1
  let scheduler ← index p.schedulers entry.2
  match p.api.stored.lookup (nameSpace, scheduler.name) with
  | none => pure (p, some ("Failed to get scheduler " ++ scheduler.name))
  | some latest => pure (p.put entry.2 (assigned ord entry.2 part latest), none)

/-- The loop of `balance`: an error ends it, and what was written before stays. -/
def assignRanges (ord : MapOrders) (nameSpace : String) (nodes : List NodeData) :
    List ((Int × Int) × Nat) → Progress → Outcome (Progress × Option String)
  | [], p => pure (p, none)
  | entry :: rest, p => do
    match ← assignRange ord nameSpace nodes entry p with
    | (p, none) => assignRanges ord nameSpace nodes rest p
    | (p, some err) => pure (p, some err)

/-- The part of `balance` below the choice of the level. -/
def divide (ord : MapOrders) (nameSpace : String) (nodes : List NodeData) (p : Progress) :
    Outcome (Progress × Option String) :=
  assignRanges ord nameSpace nodes
    (evenlyDivide id p.schedulers.length ((nodes.length : Int) - 1)).zipIdx p

/-- `balance` on the nodes of one level: with too few nodes for the schedulers it goes to
the next level, where there is one. -/
def balance (ord : MapOrders) (nameSpace : String) : (height : Nat) →
    List (ClusterInfoNode height) → Progress → Outcome (Progress × Option String)
  | 0, nodes, p =>
    if nodes = [] ∨ p.schedulers = [] then pure (p, none)
    else divide ord nameSpace (nodes.map (·.toNodeData)) p
  | height + 1, nodes, p =>
    if nodes = [] ∨ p.schedulers = [] then pure (p, none)
    else
      let next := nextLevelNodes (ord.infoMap height) nodes
      if p.schedulers.length > nodes.length ∧ next.length > 0 then balance ord nameSpace height next p
      else divide ord nameSpace (nodes.map (·.toNodeData)) p

/-- The loop of `deleteScheduler`: the last scheduler takes the place of the first one with
the name. -/
def removeScheduler (key : String × String) (schedulers : List Scheduler) : List Scheduler :=
  swapDelete (·.key = key) schedulers

/-! ### The system -/

/-- The tree and the list of the controller, the API server, the clusters there are, and
what the last call of `balance` wrote. -/
structure State where
  clusters : ClusterUnion.State := {}
  schedulers : List Scheduler := []
  api : ApiServer := {}
  written : List Scheduler := []

inductive Change where
  | addCluster (cluster : Cluster)
  | deleteCluster (cluster : Cluster)
  | addScheduler (scheduler : Scheduler)
  | deleteScheduler (key : String × String)

/-- A change and the runtime's choices while it is handled. -/
structure Event where
  change : Change
  ord : MapOrders := {}

def Change.nameSpace : Change → String
  | .addCluster cluster => cluster.nameSpace
  | .deleteCluster cluster => cluster.nameSpace
  | .addScheduler scheduler => scheduler.nameSpace
  | .deleteScheduler key => key.1

variable (s : State)

/-- The state in which `balance` is called: the API server has stored or removed the
resource, and the handler has changed the tree or the list. -/
def Change.apply : Change → State
  | .addCluster cluster => { s with clusters := ClusterUnion.step s.clusters (.add cluster) }
  | .deleteCluster cluster => { s with clusters := ClusterUnion.step s.clusters (.del cluster) }
  | .addScheduler scheduler => { s with
      schedulers := s.schedulers ++ [scheduler]
      api := s.api.update scheduler }
  | .deleteScheduler key => { s with
      schedulers := removeScheduler key s.schedulers
      api := s.api.delete key }

/-- The handlers, which only log an error of `balance`. -/
def handle (e : Event) : Outcome (State × Option String) := do
  let s := e.change.apply s
  let (p, err) ← balance e.ord e.change.nameSpace levels [s.clusters.tree] ⟨s.api, s.schedulers, []⟩
  pure ({ s with api := p.api, schedulers := p.schedulers, written := p.written }, err)

/-- An event is handled and no call of the API server fails. -/
def step (e : Event) (s' : State) : Prop := handle s e = .ok (s', none)

def init : State := {}

/-- Clusters come and go as in the tree; a new scheduler is new and a deleted one is there. -/
def Allowed (e : Event) : Prop :=
  match e.change with
  | .addCluster cluster => ClusterUnion.Allowed s.clusters (.add cluster)
  | .deleteCluster cluster => ClusterUnion.Allowed s.clusters (.del cluster)
  | .addScheduler scheduler => scheduler.key ∉ s.api.stored
  | .deleteScheduler key => key ∈ s.api.stored

abbrev Runs := Run step Allowed init

/-- With schedulers there, no two of them have a cluster in common, and together they have
the clusters there are. -/
def Partitioned : Prop :=
  (∃ key, key ∈ s.api.stored) →
    (∀ key key' scheduler scheduler', s.api.stored.lookup key = some scheduler →
      s.api.stored.lookup key' = some scheduler' → key ≠ key' →
      ∀ name ∈ scheduler.cluster, name ∉ scheduler'.cluster) ∧
    ∀ name, (∃ key scheduler, s.api.stored.lookup key = some scheduler ∧ name ∈ scheduler.cluster) ↔
      ∃ c ∈ s.clusters.live, c.name = name

/-- Also, no new scheduler has the name of another. -/
def NamedApart (e : Event) : Prop :=
  Allowed s e ∧ ∀ scheduler, e.change = .addScheduler scheduler →
    ∀ key other, s.api.stored.lookup key = some other → other.name ≠ scheduler.name

abbrev NamedRuns := Run step NamedApart init

/-- No scheduler beyond those that get a cluster, or the first, has a list. -/
def NoneLeftOver : Prop :=
  ∀ (i : Nat) scheduler, s.schedulers[i]? = some scheduler → max 1 s.clusters.live.card ≤ i →
    scheduler.cluster = []

end GlobalScheduler.Schedulers
