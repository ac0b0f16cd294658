import GlobalScheduler.Framework.Framework
import GlobalScheduler.Labels
import GlobalScheduler.Snapshot

/-! The score plugins besides that of the flavors.

`stackAffinity` prefers sites that hold stacks a caller wants to be near and that
hold none it wants to be away from; `leastAllocated` prefers sites with more left. -/
namespace GlobalScheduler.Score

open Go

/-! ### Affinity -/

def requirementFailed : Status := ⟨.error, ["requirement failed."]⟩

/-- Whether some stack on the site meets the requirements; `none` when there is
nothing to compare. -/
def anyStackMatches (reqs : List LabelRequirement) (info : SiteCacheInfo) :
    Except Status (Option Bool) :=
  match Labels.selectorOf reqs with
  | .error _ => .error requirementFailed
  | .ok selector =>
    if info.stackList = [] ∨ selector = [] then .ok none
    else .ok (some (info.stackList.any fun s => Labels.selectorMatches selector s.labels))

def getAffinityScore (stack : Stack) (info : SiteCacheInfo) : Except Status Int := do
  match ← anyStackMatches stack.selector.stackAffinity info with
  | some true => pure maxSiteScore
  | _ => pure 0

def getAntiAffinityScore (stack : Stack) (info : SiteCacheInfo) : Except Status Int := do
  match ← anyStackMatches stack.selector.stackAntiAffinity info with
  | some true => pure 0
  | _ => pure maxSiteScore

def stackAffinity (stack : Stack) (info : SiteCacheInfo) : Int × Status :=
  match info.site with
  | none => (0, ⟨.error, ["site not found"]⟩)
  | some _ =>
    match getAffinityScore stack info with
    | .error status => (0, status)
    | .ok affinityScore =>
      match getAntiAffinityScore stack info with
      | .error status => (0, status)
      | .ok antiAffinityScore => ((affinityScore + antiAffinityScore).tdiv 2, .nil)

/-! ### Resources left -/

variable (snap : Snapshot)

/-- The flavors of a resource that count: not spot blocks, known, with a number of
vCPUs. -/
def requestedFlavors (server : Resource) : List String :=
  server.flavors.filterMap fun flv =>
    if (flv.spot.map (·.spotDurationHours)).getD 0 ≠ 0 then none
    else (snap.getFlavor flv.flavorID "").bind fun flvObj =>
      (parseInt flvObj.vcpus).map fun _ => flvObj.id

/-- `getResourceType`: a flavor known in the region gives the empty type, and one
that is not is read through a nil pointer as soon as the site has a host. -/
def getResourceType (flavorID : String) (site : Site) : Outcome String :=
  match snap.getFlavor flavorID site.regionAzMap.region with
  | some _ => pure ""
  | none => if site.hosts = [] then pure "" else throw .nilPointer

/-- The sum over the pools whose key lists the type. -/
def poolSum (amount : CPUAndMemory → Int) (resourceType : String)
    (pools : List (String × CPUAndMemory)) : Int :=
  ((pools.filter fun e => resourceType ∈ split e.1 flavorDelimiter).map fun e => amount e.2).sum

/-- Totals and requests of the pools of each flavor the stack lists. -/
def calculatePoolRequest (amount : CPUAndMemory → Int) (stack : Stack) (site : Site)
    (info : SiteCacheInfo) : Outcome (Int × Int) :=
  let totals := info.totalResources.entries.map fun e => (e.1, e.2)
  let requests := info.requestedResources.ptr.keys.filterMap fun k =>
    (info.requestedResources.get? k).map fun v => (k, v)
  (stack.resources.flatMap (requestedFlavors snap)).foldlM (fun s flavorID => do
    let resourceType ← getResourceType snap flavorID site
    pure (s.1 + poolSum amount resourceType totals, s.2 + poolSum amount resourceType requests)) (0, 0)

/-- Storage per volume type, without the number of machines; a type met again
starts from zero. -/
def calculateStackStorageRequest (stack : Stack) : Map String Int :=
  stack.resources.foldl (fun ret server =>
    server.storage.entries.foldl (fun ret e =>
      let ret := if e.1 ∈ ret then ret.insert e.1 0 else ret
      ret.insert e.1 ((ret.lookup e.1).getD 0 + e.2)) ret) ∅

def calculateStorageAllocatableRequest (stack : Stack) (info : SiteCacheInfo) : Int × Int :=
  (calculateStackStorageRequest stack).entries.foldl (fun s e =>
    (s.1 + ((info.totalStorage.lookup e.1).map Fp.toInt64).getD 0,
      s.2 + ((info.requestedStorage.lookup e.1).map Fp.toInt64).getD 0 + e.2)) (0, 0)

def leastRequestedScore (requested capacity : Int) : Int :=
  if capacity = 0 ∨ requested > capacity then 0
  else ((capacity - requested) * maxSiteScore).tdiv capacity

/-- The weights of memory, CPU, storage and addresses are 10, 10, 5 and 1; addresses
are never counted. -/
def leastResourceScorer (memory cpu storage : Int × Int) : Int :=
  (leastRequestedScore memory.2 memory.1 * 10 + leastRequestedScore cpu.2 cpu.1 * 10 +
    leastRequestedScore storage.2 storage.1 * 5 + leastRequestedScore 0 0 * 1).tdiv 26

def leastAllocated (stack : Stack) (info : SiteCacheInfo) :
    Outcome (Int × Status) :=
  match info.site with
  | none => pure (0, ⟨.error, ["site not found"]⟩)
  | some site => do
    let cpu ← calculatePoolRequest snap (·.vcpu) stack site info
    let memory ← calculatePoolRequest snap (·.memory) stack site info
    pure (leastResourceScorer memory cpu (calculateStorageAllocatableRequest stack info), .nil)

/-! ### The plugins -/

def stackAffinityPlugin : ScorePlugin where
  name := "StackAffinity"
  score := fun state stack info =>
    let (score, status) := stackAffinity stack info
    pure (state, score, status)

def leastAllocatedPlugin : ScorePlugin where
  name := "SiteResourcesLeastAllocated"
  score := fun state stack info => do
    let (score, status) ← leastAllocated snap stack info
    pure (state, score, status)

end GlobalScheduler.Score
