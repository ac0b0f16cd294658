import GlobalScheduler.Plugins.FlavorPanics

/-! The allocation requests that the HTTP handler lets through.

The handler checks the names, the number of replicas, the strategy, and that the flavors
and volume types are known. Nothing asks for a resource, for a flavor of a resource or for
a count, so a request that passes can still stop the flavor plugin. -/
namespace GlobalScheduler.Service

open Go FlavorPlugin

/-! ### The request -/

/-- A resource with the name that the request gives it. -/
structure NamedResource extends Resource where
  name : String := ""
deriving DecidableEq

structure AllocationReq where
  id : String := ""
  podName : String := ""
  labels : Map String String := ∅
  resources : List NamedResource := []
  selector : Selector := {}
  replicas : Int := 0
deriving DecidableEq

variable (allocation : AllocationReq)

def AllocationReq.stack : Stack :=
  { podName := allocation.podName
    labels := allocation.labels
    resources := allocation.resources.map (·.toResource)
    selector := allocation.selector }

/-! ### Names -/

inductive TitleError where
  | empty
  | length
  | regexp
deriving DecidableEq, Repr

/-- One character of `NamePattern`, `^[a-zA-Z0-9_.一-龥-]*$`. -/
def namePattern (c : Char) : Bool :=
  ('a' ≤ c && c ≤ 'z') || ('A' ≤ c && c ≤ 'Z') || ('0' ≤ c && c ≤ '9') || c = '_' || c = '.' ||
    ('一' ≤ c && c ≤ '龥') || c = '-'

def nameMaxLen : Nat := 64

/-- `isLengthInRange`, which is true outside the range. -/
def isLengthInRange (title : String) (minLen maxLen : Nat) : Bool :=
  title.length < minLen || title.length > maxLen

/-- `CheckTitleLengthAndRegexValid`, for a pattern that asks the same of every character. -/
def checkTitleLengthAndRegexValid (title : String) (minLen maxLen : Nat) (regex : Char → Bool) :
    Except TitleError Unit :=
  if title = "" then throw .empty
  else if isLengthInRange title minLen maxLen then throw .length
  else if !title.toList.all regex then throw .regexp
  else pure ()

def checkName (title : String) : Except TitleError Unit :=
  checkTitleLengthAndRegexValid title 1 nameMaxLen namePattern

def hexDigit (c : Char) : Bool := ('0' ≤ c && c ≤ '9') || ('a' ≤ c && c ≤ 'f')

/-- `UUIDCheckPattern`, character by character. -/
def uuidCheckPattern : List (Char → Bool) :=
  let group := fun n => List.replicate n hexDigit
  let dash := [fun c : Char => decide (c = '-')]
  group 8 ++ dash ++ group 4 ++ dash ++ group 4 ++ dash ++ group 4 ++ dash ++ group 12

def matchesAt : List (Char → Bool) → List Char → Bool
  | [], _ => true
  | _ :: _, [] => false
  | accept :: rest, c :: cs => accept c && matchesAt rest cs

/-- `IsUUIDValid`; the pattern is not anchored, so it may match anywhere. -/
def isUUIDValid (uuid : String) : Bool := uuid.toList.tails.any (matchesAt uuidCheckPattern)

/-! ### The checks -/

/-- What the checks find wrong. -/
inductive CheckError where
  | id
  | labelKey
  | labelValue
  | stackName
  | serverName (reason : TitleError)
  | replicas (n : Int)
  | strategy (s : String)
  | flavor (flv : Flavor)
  | volumeType (key : String)
  | volumeValue (value : Int) (key : String)
deriving DecidableEq

/-- The runtime's choices in the loops over maps. -/
structure CheckOrders where
  labels : List String := []
  storage : NamedResource → List String := fun _ => []

/-- What the informers hold: flavors, and the names of volume types. -/
structure Stores where
  flavors : List RegionFlavor := []
  volumeTypes : List String := []

def checkIDOrName (ord : CheckOrders) (allocation : AllocationReq) : Except CheckError Unit := do
  if !isUUIDValid allocation.id then throw .id
  (Map.entriesBy ord.labels allocation.labels).forM fun (key, value) => do
    (checkName key).mapError fun _ => .labelKey
    (checkName value).mapError fun _ => .labelValue
  (checkName allocation.podName).mapError fun _ => .stackName
  allocation.resources.forM fun oneServer => (checkName oneServer.name).mapError .serverName

def checkReplicas : Except CheckError Unit :=
  if allocation.replicas ≤ 0 then throw (.replicas allocation.replicas) else pure ()

def checkStrategy : Except CheckError Unit :=
  if allocation.selector.strategy.locationStrategy ∈ ["centralize", "discrete", ""] then pure ()
  else throw (.strategy allocation.selector.strategy.locationStrategy)

/-- `CheckFlavor`. Without resources the store is not even asked for. -/
def checkFlavor (stores : Stores) (allocation : AllocationReq) : Except CheckError Unit :=
  allocation.resources.forM fun oneResource => oneResource.flavors.forM fun flv =>
    if stores.flavors.any (·.id = flv.flavorID) then pure () else throw (.flavor flv)

def checkVolumeType (stores : Stores) (voType : String) : Bool := voType ∈ stores.volumeTypes

def checkStorage (stores : Stores) (ord : CheckOrders) (allocation : AllocationReq) :
    Except CheckError Unit :=
  allocation.resources.forM fun oneServer =>
    (Map.entriesBy (ord.storage oneServer) oneServer.storage).forM fun (key, value) =>
      if !checkVolumeType stores key then throw (.volumeType key)
      else if value ≤ 0 then throw (.volumeValue value key)
      else pure ()

/-- The part of `Allocations` before the scheduling: a request without an ID gets a new one,
and the first check that fails answers the request. -/
def checkRequest (newID : String) (stores : Stores) (ord : CheckOrders) (request : AllocationReq) :
    Except CheckError AllocationReq := do
  let allocation := if request.id = "" then { request with id := newID } else request
  checkIDOrName ord allocation
  checkReplicas allocation
  checkStrategy allocation
  checkFlavor stores allocation
  checkStorage stores ord allocation
  pure allocation

/-- A request that passed the checks. -/
structure Admitted (stores : Stores) where
  request : AllocationReq
  newID : String
  ord : CheckOrders
  allocation : AllocationReq
  passed : checkRequest newID stores ord request = .ok allocation

/-! ### Admitted requests and the flavor plugin -/

/-- **What the checks leave open.** An admitted request goes through the flavor plugin exactly
if the enumeration finds a flavor at every index and no combination that is matched has a
count of zero. -/
theorem admitted_completes_iff {stores : Stores} (request : Admitted stores) (fake : Bool)
    (state : CycleState) (info : SiteCacheInfo) (site : Site) (hsite : info.site = some site) :
    FlavorPlugin.Completes fake state request.allocation.stack info ↔
      FlavorPlugin.Enumerable request.allocation.stack.resources ∧
        FlavorPlugin.SafeChoices fake info
          (choices request.allocation.stack.resources) :=
  completes_iff hsite fake state request.allocation.stack

def smallRequest (resources : List NamedResource) : AllocationReq :=
  { id := "01234567-89ab-cdef-0123-456789abcdef", podName := "pod", resources := resources, replicas := 1 }

def smallStores : Stores := { flavors := [{ id := "small", vcpus := "1", ram := 1 }] }

/-- `n` small machines. -/
def smallResource (n : Int) : NamedResource :=
  { name := "server", flavors := [⟨"small", none⟩], count := n }

theorem checkRequest_of_checks {newID : String} {stores : Stores} {ord : CheckOrders}
    {request : AllocationReq} (hid : request.id ≠ "") (hnames : checkIDOrName ord request = .ok ())
    (hreplicas : checkReplicas request = .ok ()) (hstrategy : checkStrategy request = .ok ())
    (hflavor : checkFlavor stores request = .ok ()) (hstorage : checkStorage stores ord request = .ok ()) :
    checkRequest newID stores ord request = .ok request := by
  rw [checkRequest, if_neg hid, hnames, hreplicas, hstrategy, hflavor, hstorage]
  rfl

theorem checkRequest_no_resources : checkRequest "" smallStores {} (smallRequest []) = .ok (smallRequest []) :=
  checkRequest_of_checks (by simp [smallRequest]) (by rfl) rfl rfl rfl rfl

theorem checkRequest_no_count : checkRequest "" smallStores {} (smallRequest [smallResource 0]) =
    .ok (smallRequest [smallResource 0]) :=
  checkRequest_of_checks (by simp [smallRequest]) (by rfl) rfl rfl (by rfl) rfl

theorem checkRequest_one : checkRequest "" smallStores {} (smallRequest [smallResource 1]) =
    .ok (smallRequest [smallResource 1]) :=
  checkRequest_of_checks (by simp [smallRequest]) (by rfl) rfl rfl (by rfl) rfl

/-- One small machine where there are five. -/
theorem admitted_completes_iff_small :
    FlavorPlugin.Completes false {} (smallRequest [smallResource 1]).stack
      (smallSite 5) := by
  refine (admitted_completes_iff ⟨_, "", {}, _, checkRequest_one⟩ false {}
    (smallSite 5) { siteID := "site" } rfl).mpr ⟨?_, ?_⟩
  · exact Or.inr (by simp)
  · refine ⟨fun ⟨f, hzero, _⟩ => ?_, Or.inr trivial⟩
    obtain ⟨flv, hflv, -, hcount⟩ := mem_of_lastCount hzero
    rw [List.mem_singleton.mp hflv] at hcount
    cases hcount

/-- A request without resources passes the checks and stops the enumeration; one without a
count passes and stops the matching. -/
theorem admitted_panics :
    (∃ allocation, checkRequest "" smallStores {} (smallRequest []) = .ok allocation ∧
      preFilter {} allocation.stack = .error .indexOutOfRange) ∧
    ∃ allocation state₁, checkRequest "" smallStores {} (smallRequest [smallResource 0]) = .ok allocation ∧
      preFilter {} allocation.stack = .ok (state₁, .nil) ∧
      filter false (fun _ => {}) state₁ (smallSite 5) =
        .error .divideByZero :=
  ⟨⟨_, checkRequest_no_resources, rfl⟩, _, _, checkRequest_no_count, rfl, rfl⟩

end GlobalScheduler.Service
