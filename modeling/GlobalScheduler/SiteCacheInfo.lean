import GlobalScheduler.Types

/-! Booking a bound stack on its site's record.

`deductSiteResInfo` raises what is requested of the site and then lowers the
counts of the flavors it can still hold. Two rules do the lowering: where the
flavor, its vCPU number and the totals of the site are known, a count is cut to
what the free vCPUs and memory hold; at the first flavor where they are not, every
count goes down by one and the loop is left. -/
namespace GlobalScheduler

open Go

/-- The runtime's choices in one call of `deductSiteResInfo`; `requested` is that for the
loop over the pools, for each type of the request. -/
structure DeductOrders where
  types : List String := []
  requested : String → List String := fun _ => []
  flavors : List String := []

namespace SiteCacheInfo

/-- `NewSiteCacheInfo`, without stacks. -/
def new : SiteCacheInfo := {}

/-! ### Requested resources -/

/-- Raise what is requested of `resType`: in every pool whose key lists the type,
which the type then shares as a key of its own. -/
def addRequested (ord : List String) (resType : String) (res : CPUAndMemory)
    (m : RefMap String CPUAndMemory) : Outcome (RefMap String CPUAndMemory) :=
  if m.ptr.keys = [] then pure (m.new resType res)
  else Map.rangeM ord RefMap.ptr (fun reqType _ m =>
    if resType ∈ split reqType flavorDelimiter then
      pure ((m.modify reqType (·.add res)).share reqType resType)
    else pure m) m

/-- The first loop of `DeductSiteResInfo`: the raised requests, and the types whose
flavors are to be counted anew. Only the empty type is ever added to those. -/
def deductCpuAndMem (ord : DeductOrders) (cpuAndMem : Map String CPUAndMemory)
    (m : RefMap String CPUAndMemory) : Outcome (List String × RefMap String CPUAndMemory) :=
  (Map.entriesBy ord.types cpuAndMem).foldlM (fun s e => do
    let resType := if e.1 = "" then defaultResourceType else e.1
    let types := if e.1 = "" then s.1 ++ [resType] else s.1
    let m ← addRequested (ord.requested e.1) resType e.2 s.2
    pure (types, m)) ([], m)

/-! ### Flavor counts -/

def deductFlavor (n : SiteCacheInfo) : SiteCacheInfo :=
  { n with
    allocatableFlavor := Map.mapVals (fun _ value => value - 1) n.allocatableFlavor
    requestedFlavor := n.allocatableFlavor.keys.foldl
      (fun m key => m.insert key ((m.lookup key).getD 0 + 1)) n.requestedFlavor }

/-- Cut the count of a flavor to `count`. -/
def capFlavor (flavorid : String) (count : Int) (n : SiteCacheInfo) : SiteCacheInfo :=
  let flavors := if flavorid ∈ n.allocatableFlavor then n.allocatableFlavor
    else n.allocatableFlavor.insert flavorid 0
  { n with
    allocatableFlavor :=
      if (flavors.lookup flavorid).getD 0 > count then flavors.insert flavorid count else flavors }

/-- How many of a flavor with `vcpus` and `ram` the free part of `total` holds. -/
def flavorCount (total requested : CPUAndMemory) (vcpus ram : Int) : Outcome Int := do
  let count ← quo (total.vcpu - requested.vcpu) vcpus
  let memCount ← quo (total.memory - requested.memory) ram
  pure (if count > memCount then memCount else count)

/-- Cut a flavor's count for each type; the flag is set when the totals of a type
are not known, which ends the whole update. -/
def capByTypes (flavorid : String) (vcpus ram : Int) :
    List String → SiteCacheInfo → Outcome (SiteCacheInfo × Bool)
  | [], n => pure (n, false)
  | resourceType :: rest, n =>
    match n.totalResources.lookup resourceType with
    | none => pure (n, true)
    | some total => do
      let requested := (n.requestedResources.get? resourceType).getD .zero
      let count ← flavorCount total requested vcpus ram
      capByTypes flavorid vcpus ram rest (n.capFlavor flavorid count)

/-- The loop of `updateSiteFlavor` over the flavors of the site. -/
def updateFlavors (resourceTypes : List String) (regionName : String)
    (regionFlavors : Map String RegionFlavor) :
    List String → SiteCacheInfo → Outcome SiteCacheInfo
  | [], n => pure n
  | flavorid :: rest, n =>
    match regionFlavors.lookup (regionName ++ flavorDelimiter ++ flavorid) with
    | none => pure n.deductFlavor
    | some flv =>
      match parseInt flv.vcpus with
      | none => pure n.deductFlavor
      | some vcpus => do
        let (n, stop) ← capByTypes flavorid vcpus flv.ram resourceTypes n
        if stop then pure n.deductFlavor
        else updateFlavors resourceTypes regionName regionFlavors rest n

def updateSiteFlavor (ord : List String) (resourceTypes : List String)
    (regionFlavors : Map String RegionFlavor) (n : SiteCacheInfo) : Outcome SiteCacheInfo := do
  let site ← n.getSite
  updateFlavors resourceTypes (getRegionName site.siteID) regionFlavors
    ((Map.visits ord n.allocatableFlavor).filter (· ∈ n.allocatableFlavor)) n

/-! ### The whole booking -/

/-- `DeductSiteResInfo`. -/
def deductSiteResInfo (ord : DeductOrders) (resInfo : AllResInfo)
    (regionFlavors : Map String RegionFlavor) (n : SiteCacheInfo) : Outcome SiteCacheInfo := do
  let (resourceTypes, requested) ← deductCpuAndMem ord resInfo.cpuAndMem n.requestedResources
  let storage := resInfo.storage.entries.foldl
    (fun m e => m.insert e.1 (Fp.add .float64 ((m.lookup e.1).getD (.fin 0)) e.2))
    n.requestedStorage
  updateSiteFlavor ord.flavors resourceTypes regionFlavors
    { n with requestedResources := requested, requestedStorage := storage }

end SiteCacheInfo

end GlobalScheduler
