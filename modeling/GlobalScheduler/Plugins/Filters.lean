import GlobalScheduler.Framework.Framework

/-! The filter plugins that look at one site.

Availability, location and operator, region and zone, volumes, public addresses
and exclusive sites. Each answers nil or a reason why the site is out; none of
them reads another site's record. -/
namespace GlobalScheduler.Filters

open Go Fp

def unschedulable (reason : String) : Status := ⟨.unschedulable, [reason]⟩

/-! ### Availability -/

variable (stack : Stack)

def siteAvailability (info : SiteCacheInfo) : Outcome Status := do
  let site ← info.getSite
  if site.status = "Offline" ∨ site.status = "Sellout" then
    pure (unschedulable ("Site(" ++ site.siteID ++ ") status is " ++ site.status ++
      ", not available!"))
  else if stack.selector.siteID ≠ "" ∧ stack.selector.siteID ≠ site.siteID ∧
      ¬ (hasPrefix site.siteID stack.selector.siteID ∧
        hasSuffix stack.selector.siteID siteDelimiter) then
    pure (unschedulable ("Site(" ++ site.siteID ++ ") not suitable!"))
  else pure .nil

/-! ### Location and operator -/

/-- Whether the site's value differs from a wanted one; no wish is always met, and
then the site is not looked at. -/
def differs (want : String) (value : Site → String) (info : SiteCacheInfo) : Outcome Bool :=
  if want = "" then pure false
  else do
    let site ← info.getSite
    pure (want ≠ value site)

/-- The comparisons in order, each with its reason. -/
def firstDiffering (info : SiteCacheInfo) :
    List (String × (Site → String) × String) → Outcome Status
  | [] => pure .nil
  | (want, value, reason) :: rest => do
    if ← differs want value info then pure (unschedulable reason)
    else firstDiffering info rest

def locationAndOperator (info : SiteCacheInfo) : Outcome Status :=
  let location := stack.selector.geoLocation
  firstDiffering info [
    (location.country, (·.geoLocation.country), "stack country not equal site county."),
    (location.area, (·.geoLocation.area), "stack area not equal site area."),
    (location.province, (·.geoLocation.province), "stack province not equal site province."),
    (location.city, (·.geoLocation.city), "stack city not equal site city."),
    (stack.selector.operator, (·.operator), "stack operator not equal site operator.")]

/-! ### Region and zone -/

def regionEqual (info : SiteCacheInfo) (region : CloudRegion) : Outcome Bool := do
  if ← differs region.region (·.regionAzMap.region) info then pure false
  else if region.availabilityZone = [] then pure true
  else do
    let site ← info.getSite
    pure (site.regionAzMap.availabilityZone ∈ region.availabilityZone)

def anyRegionEqual (info : SiteCacheInfo) : List CloudRegion → Outcome Bool
  | [] => pure false
  | region :: rest => do
    if ← regionEqual info region then pure true else anyRegionEqual info rest

def regionAndAz (info : SiteCacheInfo) : Outcome Status :=
  if stack.selector.regions = [] then pure .nil
  else do
    if ← anyRegionEqual info stack.selector.regions then pure .nil
    else pure (unschedulable "stack region not equal site region.")

/-! ### Volumes -/

/-- The storage of a stack per volume type. A type met again starts from zero, so
the last resource that asks for it stands. -/
def calculateStackStorageRequest : Map String Fp :=
  stack.resources.foldl (fun ret server =>
    server.storage.entries.foldl (fun ret e =>
      let ret := if e.1 ∈ ret then ret.insert e.1 (.fin 0) else ret
      ret.insert e.1 (add .float64 ((ret.lookup e.1).getD (.fin 0))
        (mul .float64 (.ofInt .float64 server.count) (.ofInt .float64 e.2)))) ret) ∅

/-- `%v` of a map: the keys in their order. -/
def volumesText (storage : Map String Fp) : String :=
  let volTypes := storage.keys.mergeSort fun a b => decide (a ≤ b)
  "map[" ++ " ".intercalate (volTypes.map fun volType =>
    volType ++ ":" ++ general .float64 ((storage.lookup volType).getD (.fin 0))) ++ "]"

def volumeLoop (site : Site) (info : SiteCacheInfo) : List (String × Fp) → Fp → Except Status Fp
  | [], maxCount => .ok maxCount
  | (volType, size) :: rest, maxCount =>
    match info.totalStorage.lookup volType with
    | none => .error (unschedulable ("Site (" ++ site.siteID ++ ") do not support required volume(" ++
        volType ++ ").Support volume(" ++ volumesText info.totalStorage ++ ")"))
    | some allocatableSize =>
      let requestedSize := (info.requestedStorage.lookup volType).getD (.fin 0)
      if lt allocatableSize (add .float64 requestedSize size) then
        .error (unschedulable ("Site (" ++ site.siteID ++ ") do not support required volume(" ++
          volType ++ "-" ++ fixed size ++ ").Support volume(" ++ volumesText info.totalStorage ++ ")"))
      else
        let copies := div .float64 (sub .float64 allocatableSize requestedSize) size
        let maxCount := if lt (.fin 0) size then min maxCount copies else maxCount
        volumeLoop site info rest (min maxCount copies)

/-- `Volume.Filter` reports its number of copies as a float, which the cycle state
does not take; what stays is that the first report of a cycle creates the state. -/
def volume (ord : List String) (state : CycleState) (stack : Stack) (info : SiteCacheInfo) :
    Outcome (CycleState × Status) := do
  let site ← info.getSite
  match volumeLoop site info (Map.entriesBy ord (calculateStackStorageRequest stack))
      maxFloat64 with
  | .error status => pure (state, status)
  | .ok maxCount =>
    pure ((updateSiteSelectorState state site.siteID [("StackMaxCount", .float64 maxCount)]).1, .nil)

/-! ### Exclusive sites -/

/-- The first list of exclusive domains decides; a caller on it is refused. -/
def exclusiveSite (domainID : String) (info : SiteCacheInfo) : Outcome Status := do
  let site ← info.getSite
  match site.siteAttribute.find? (·.key = "exclusive_domains") with
  | none => pure .nil
  | some siteAttr =>
    if domainID ∈ split siteAttr.value "," then pure (unschedulable "site is exclusive site.")
    else pure .nil

/-! ### The plugins -/

def stateless (name : String) (f : Stack → SiteCacheInfo → Outcome Status) : FilterPlugin where
  name := name
  filter := fun state stack info => do
    let status ← f stack info
    pure (state, status)

def siteAvailabilityPlugin : FilterPlugin := stateless "SiteAvailability" siteAvailability

def locationAndOperatorPlugin : FilterPlugin := stateless "LocationAndOperator" locationAndOperator

def regionAndAzPlugin : FilterPlugin := stateless "regionandaz" regionAndAz

def volumePlugin (ord : List String) : FilterPlugin := ⟨"Volume", volume ord⟩

/-- Public addresses are counted and then not checked. -/
def eipAvailabilityPlugin : FilterPlugin := stateless "EipAvailability" fun _ _ => pure .nil

def exclusiveSitePlugin (domainID : String) : FilterPlugin :=
  stateless "ExclusiveSite" fun _ info => exclusiveSite domainID info

end GlobalScheduler.Filters
