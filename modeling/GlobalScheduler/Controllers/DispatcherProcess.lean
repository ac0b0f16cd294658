import GlobalScheduler.Requests

/-! A dispatcher process and the allocations it makes.

For a bound allocation the process asks OpenStack for one machine after the other. When
one of them cannot be made, the allocation has failed and the machines that were made go
again. Where a cluster is and the token for it are looked up once and kept, so that the
way back finds what the way there found. -/
namespace GlobalScheduler.DispatcherProcess

open Go Allocv1

/-! ### OpenStack -/

/-- `server`: what a machine is asked for with. -/
structure Server where
  name : String
  imageRef : String
  flavorRef : String
  network : String
  securityGroup : String
  clusterName : String
deriving DecidableEq, Repr

/-- A reply to a request for a token, with the values of the header `X-Subject-Token`. -/
structure TokenReply where
  statusCode : Nat
  subjectToken : List String

/-- What a reply has for `server`: nothing, a value that is no object, or an object, with the
ID of a server or with no string for one. -/
inductive ServerValue where
  | missing
  | other
  | object (id : Option { id : String // id ≠ "" })
deriving DecidableEq

/-- What comes of a request for a machine: no reply that can be read, or one. -/
inductive CreateReply where
  | unreadable
  | reply (statusCode : Nat) (server : ServerValue)

/-- The answers to the requests of a process, by the number of requests made before. Where a
URL cannot be parsed, `http.NewRequest` gives a nil pointer. -/
structure Answers where
  parses : String → Bool
  cluster : Nat → String → Option String
  token : Nat → String → Option TokenReply
  create : Nat → String → String → Server → CreateReply

def tokenRequestURL (host : String) : String := "http://" ++ host ++ "/identity/v3/auth/tokens"

def serverCreateRequestURL (host : String) : String := "http://" ++ host ++ "/compute/v2.1/servers"

def instanceDetailsURL (host id : String) : String := serverCreateRequestURL host ++ "/" ++ id

/-- A machine that was made, and for which place of an allocation. -/
structure Vm where
  host : String
  id : String
  clusterName : String
  resource : Resources
deriving DecidableEq, Repr

/-- A request to delete a machine. -/
structure Deletion where
  host : String
  token : String
  id : String
deriving DecidableEq, Repr

/-! ### The process -/

structure Process where
  name : String
  clusterIpMap : Map String String := ∅
  tokenMap : Map String String := ∅
  totalCreateLatency : Int := 0
  totalDeleteLatency : Int := 0
  totalPodDeleteNum : Nat := 0
  totalAllocationCreateNum : Nat := 0
  totalAllocationDeleteNum : Nat := 0

/-- The process, and what it has asked for. -/
structure State extends Process where
  requests : Nat := 0
  created : List Vm := []
  deleted : List Deletion := []

section
variable (answers : Answers)

variable (clusterName : String)

def getHostIP (s : State) : State × Option String :=
  match s.clusterIpMap.lookup clusterName with
  | some ipAddress => (s, some ipAddress)
  | none =>
    let asked := { s with requests := s.requests + 1 }
    match answers.cluster s.requests clusterName with
    | none => (asked, none)
    | some ipAddress =>
      ({ asked with clusterIpMap := s.clusterIpMap.insert clusterName ipAddress }, some ipAddress)

/-- `RequestToken`. -/
def requestToken (host : String) (reply : Option TokenReply) : Outcome (Option String) :=
  if answers.parses (tokenRequestURL host) then
    match reply with
    | none => pure none
    | some reply =>
      if reply.statusCode ≠ 201 then pure none
      else do
        let token ← index reply.subjectToken 0
        pure (some token)
  else throw .nilPointer

def getToken (ip : String) (s : State) : Outcome (State × Option String) :=
  match s.tokenMap.lookup ip with
  | some token => pure (s, some token)
  | none => do
    let asked := { s with requests := s.requests + 1 }
    match ← requestToken answers ip (answers.token s.requests ip) with
    | none => pure (asked, none)
    | some token => pure ({ asked with tokenMap := s.tokenMap.insert ip token }, some token)

/-- The host of a cluster and the token for it, as all callers look them up. -/
def lookUp (s : State) : Outcome (State × Option (String × String)) :=
  match getHostIP answers clusterName s with
  | (s, none) => pure (s, none)
  | (s, some host) => do
    let (s, token) ← getToken answers host s
    pure (s, token.map fun token => (host, token))

/-- `serverStruct`. -/
def serverOf (manifest : Resources) (flavorRef : String) : Server where
  name := manifest.name
  imageRef := manifest.virtualMachine.image
  flavorRef := flavorRef
  network := manifest.virtualMachine.nicName
  securityGroup := manifest.virtualMachine.securityGroupId
  clusterName := clusterName

/-- What is read from the reply. The two type assertions are not checked. -/
def instanceID : CreateReply → Outcome (Option { id : String // id ≠ "" })
  | .unreadable => pure none
  | .reply statusCode server =>
    if statusCode = 403 then pure none
    else match server with
      | .missing => pure none
      | .other => throw .interfaceConversion
      | .object none => throw .interfaceConversion
      | .object (some id) => pure (some id)

def serverCreateResources (host authToken clusterName : String) (manifest : Resources) (s : State) :
    Outcome (State × Option String) := do
  let flavorRef ← index manifest.flavors 0
  if answers.parses (serverCreateRequestURL host) then
    let asked := { s with requests := s.requests + 1 }
    let server := serverOf clusterName manifest flavorRef
    match ← instanceID (answers.create s.requests host authToken server) with
    | none => pure (asked, none)
    | some id =>
      pure ({ asked with created := s.created ++ [⟨host, id, clusterName, manifest⟩] }, some id)
  else throw .nilPointer

/-- A round of the inner loop of `isAllAllocationResourcesCreated`. -/
def createInstance (resource : Resources) (clusterInstance : ClusterInstance) (s : State) :
    Outcome (State × Option String) := do
  match ← lookUp answers clusterInstance.clusterName s with
  | (s, none) => pure (s, none)
  | (s, some (host, token)) =>
    serverCreateResources answers host token clusterInstance.clusterName resource s

/-- The inner loop: the instances with the IDs they got, and whether all got one. -/
def createInstances (resource : Resources) :
    List ClusterInstance → State → Outcome (State × List ClusterInstance × Bool)
  | [], s => pure (s, [], true)
  | clusterInstance :: rest, s => do
    match ← createInstance answers resource clusterInstance s with
    | (s, none) => pure (s, clusterInstance :: rest, false)
    | (s, some instanceId) => do
      let (s, rest, all) ← createInstances resource rest s
      pure (s, { clusterInstance with instanceId := instanceId } :: rest, all)

def createResources : List Resources → State → Outcome (State × List Resources × Bool)
  | [], s => pure (s, [], true)
  | resource :: rest, s => do
    let (s, clusterInstances, all) ←
      createInstances answers resource resource.virtualMachine.clusterInstances s
    let resource := { resource with
      virtualMachine := { resource.virtualMachine with clusterInstances := clusterInstances } }
    if all then do
      let (s, rest, all) ← createResources rest s
      pure (s, resource :: rest, all)
    else pure (s, resource :: rest, false)

def isAllAllocationResourcesCreated (alloc : Allocv1.Allocation) (s : State) :
    Outcome (State × Allocv1.Allocation × Bool) := do
  let (s, resources, all) ← createResources answers alloc.spec.resources s
  pure (s, { alloc with spec := { alloc.spec with resources := resources } }, all)

/-- `DeleteInstance`. A goroutine calls it, and a panic there ends the process as well. -/
def deleteInstance (deletion : Deletion) (s : State) : Outcome State :=
  if answers.parses (instanceDetailsURL deletion.host deletion.id) then
    pure { s with deleted := s.deleted ++ [deletion] }
  else throw .nilPointer

/-- The loops of `deleteAllocationResources`: a lookup that fails ends them. -/
def deleteInstances : List ClusterInstance → State → Outcome State
  | [], s => pure s
  | clusterInstance :: rest, s =>
    if clusterInstance.instanceId ≠ "" then do
      match ← lookUp answers clusterInstance.clusterName s with
      | (s, none) => pure s
      | (s, some (host, token)) =>
        let s ← deleteInstance answers ⟨host, token, clusterInstance.instanceId⟩ s
        deleteInstances rest s
    else deleteInstances rest s

/-- The instances of an allocation, in the order of the loops. -/
def instances (resources : List Resources) : List ClusterInstance :=
  resources.flatMap (·.virtualMachine.clusterInstances)

def deleteAllocationResources (alloc : Allocv1.Allocation) (s : State) : Outcome State :=
  deleteInstances answers (instances alloc.spec.resources) s

/-- A reported average: the number of the division, and its result. -/
structure Average where
  number : Nat
  value : Int
deriving DecidableEq

/-- `SendAllocationToCluster` up to its average. -/
def allocationLatency (deletion : Bool) (duration : Int) (alloc : Allocv1.Allocation) (s : State) :
    Outcome (State × Average) :=
  if deletion then do
    let s := { s with totalAllocationDeleteNum := s.totalAllocationDeleteNum + 1 }
    let s ← deleteAllocationResources answers alloc s
    let s := { s with totalDeleteLatency := s.totalDeleteLatency + duration }
    let averageDeleteLatency ← quo s.totalDeleteLatency s.totalPodDeleteNum
    pure (s, ⟨s.totalPodDeleteNum, averageDeleteLatency⟩)
  else do
    let s := { s with
      totalAllocationCreateNum := s.totalAllocationCreateNum + 1
      totalCreateLatency := s.totalCreateLatency + duration }
    let averageCreateLatency ← quo s.totalCreateLatency s.totalAllocationCreateNum
    pure (s, ⟨s.totalAllocationCreateNum, averageCreateLatency⟩)

/-- What it does then. -/
def allocationRest (deletion : Bool) (alloc : Allocv1.Allocation) (s : State) :
    Outcome (State × Allocv1.Allocation) :=
  if deletion then pure ({ s with totalAllocationCreateNum := s.totalAllocationCreateNum + 1 }, alloc)
  else do
    let (s, alloc, all) ← isAllAllocationResourcesCreated answers alloc s
    if all then
      pure (s, { alloc with status := { alloc.status with phase := .scheduled } })
    else
      let alloc := { alloc with status := { alloc.status with phase := .failed } }
      let s ← deleteAllocationResources answers alloc s
      pure (s, alloc)

/-- `SendAllocationToCluster`, for an allocation that is marked for deletion or not; the
duration is the time since the mark, or since the allocation was made. -/
def sendAllocationToCluster (deletion : Bool) (duration : Int) (alloc : Allocv1.Allocation) (s : State) :
    Outcome (State × Allocv1.Allocation) := do
  let alloc := { alloc with status := { alloc.status with dispatcherName := s.name } }
  let (s, _) ← allocationLatency answers deletion duration alloc s
  allocationRest answers deletion alloc s

end

end GlobalScheduler.DispatcherProcess
