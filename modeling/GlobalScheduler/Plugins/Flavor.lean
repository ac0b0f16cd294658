import GlobalScheduler.Framework.Framework
import GlobalScheduler.Go.Int64

/-! The flavor plugin.

A resource of a stack lists the flavors it may get. Before filtering the plugin
enumerates every combination of one flavor per resource, the caller's first
wishes first; a site passes when it has the machines of some combination, and
scoring records the first such combination with the number of copies of the stack
the site can take. -/
namespace GlobalScheduler.FlavorPlugin

open Go Fp

def name : String := "Flavor"

def baseWeight : Nat := 10

/-! ### Combinations -/

/-- Count up the indices from the last; the flag is set when the first of them ran
over. -/
def bump : List Nat → List Nat → List Nat × Bool
  | len :: lens, k :: ix =>
    let (ix, carry) := bump lens ix
    if !carry then (k :: ix, false)
    else if k + 1 < len then ((k + 1) :: ix, false)
    else (0 :: ix, true)
  | _, ix => (ix, true)

/-- `nextIndex`: the first index is never taken back to zero. -/
def nextIndex (lens : List Nat) : List Nat → List Nat
  | [] => []
  | k :: ix =>
    let (ix, carry) := bump lens.tail ix
    (if carry then k + 1 else k) :: ix

def aggregateAt : List Nat → List Resource → FlavorAggregate → Outcome FlavorAggregate
  | k :: ix, r :: resources, temp =>
    match r.flavors[k]? with
    | none => throw .indexOutOfRange
    | some flavor => aggregateAt ix resources {
        flavors := temp.flavors ++ [⟨flavor, r.count⟩]
        weight := temp.weight + baseWeight / (k + 1) }
  | _, _, temp => pure temp

/-- The loop of `calculateFlavorAggregate`, for at most `fuel` rounds. -/
def aggregatesFrom (resources : List Resource) :
    Nat → List Nat → Outcome (List FlavorAggregate)
  | 0, _ => pure []
  | fuel + 1, ix =>
    match ix, resources with
    | k :: _, r :: _ =>
      if k < r.flavors.length then do
        let agg ← aggregateAt ix resources {}
        let rest ← aggregatesFrom resources fuel (nextIndex (resources.map (·.flavors.length)) ix)
        pure (agg :: rest)
      else pure []
    | _, _ => throw .indexOutOfRange

/-- There are as many rounds as combinations, and the test that ends the loop. -/
def calculateFlavorAggregate (stack : Stack) : Outcome FlavorAggregates := do
  let lens := stack.resources.map (·.flavors.length)
  let aggregates ← aggregatesFrom stack.resources (lens.prod + 1) (stack.resources.map fun _ => 0)
  pure ⟨aggregates⟩

def preFilter (state : CycleState) (stack : Stack) : Outcome (CycleState × Status) := do
  let aggregates ← calculateFlavorAggregate stack
  pure ({ state with preFilterFlavor := some aggregates }, .nil)

/-! ### The machines of a combination -/

structure SpotHours where
  isSpotBlock : Bool := false
  interruptionPolicy : String := ""
  infinite : Int := 0
  preemptibleResourceFinite : Map String Int := ∅
deriving DecidableEq

/-- Ordinary machines per flavor, and spot machines per flavor. -/
abbrev FlavorCounts := Map String Int × Map String SpotHours

/-- One flavor of `getFlavorToCount`. An ordinary flavor met again starts from zero,
so the last count stands. -/
def countFlavor (counts : FlavorCounts) (flv : FlavorInfo) : FlavorCounts :=
  let id := flv.flavor.flavorID
  match flv.flavor.spot with
  | some spot =>
    let seen := (counts.2.lookup id).getD {}
    if spot.spotDurationHours > 0 then
      let key := toString (int64 (spot.spotDurationHours * spot.spotDurationCount)) ++ "h"
      let finite := seen.preemptibleResourceFinite
      (counts.1, counts.2.insert id { seen with
        isSpotBlock := true
        interruptionPolicy := spot.interruptionPolicy
        preemptibleResourceFinite := finite.insert key (int64 ((finite.lookup key).getD 0 + flv.count)) })
    else
      (counts.1, counts.2.insert id { seen with
        isSpotBlock := false
        interruptionPolicy := spot.interruptionPolicy
        infinite := int64 (seen.infinite + flv.count) })
  | none =>
    let m := if id ∈ counts.1 then counts.1.insert id 0 else counts.1
    (m.insert id ((m.lookup id).getD 0 + flv.count), counts.2)

def getFlavorToCount (flvAg : FlavorAggregate) : FlavorCounts :=
  flvAg.flavors.foldl countFlavor (∅, ∅)

/-! ### What a site can take -/

/-- The runtime's choices in matching one combination against a site. -/
structure Orders where
  flavors : List String := []
  spot : List String := []
  hours : String → List String := fun _ => []

/-- The loop of `isComFlavorMatch`; a flavor the site lacks is logged with the name
of the site. -/
def comFlavorLoop (info : SiteCacheInfo) : List (String × Int) → Fp → Outcome (Bool × Int)
  | [], maxCount => pure (true, maxCount.toInt64)
  | (flavorID, count) :: rest, maxCount =>
    match info.allocatableFlavor.lookup flavorID with
    | none => do
      let _ ← info.getSite
      pure (false, 0)
    | some totalCount =>
      if totalCount < count then do
        let _ ← info.getSite
        pure (false, 0)
      else do
        let copies ← quo totalCount count
        comFlavorLoop info rest (min maxCount (ofInt .float64 copies))

def isComFlavorMatch (ord : Orders) (flavorMap : Map String Int) (info : SiteCacheInfo) :
    Outcome (Bool × Int) :=
  comFlavorLoop info (Map.entriesBy ord.flavors flavorMap) maxFloat64

/-- The pools a spot request is matched against, CPU first. -/
def spotPools (requestSpot : SpotHours) (spotFlv : SpotResource) :
    PreemptibleResource × PreemptibleResource :=
  if requestSpot.interruptionPolicy = "delay" then
    (spotFlv.cpuBlockDelayResource, spotFlv.memoryBlockDelayResource)
  else (spotFlv.cpuBlockImmediateResource, spotFlv.memoryBlockImmediateResource)

section
-- The roundings of the capacities and of the running minimum, `float32` and `float64` in the plugin.
variable (single double : Format)

/-- A block request, hour entry by hour entry; `none` is a mismatch. -/
def spotHoursLoop (cpu mem : PreemptibleResource) : List (String × Int) → Fp → Option Fp
  | [], maxCount => some maxCount
  | (key, value) :: rest, maxCount => do
    let cpuHourValue ← cpu.finite.lookup key
    if lt cpuHourValue (.ofInt single value) then none
    let maxCount := min maxCount
      (.convert double (div single cpuHourValue (.ofInt single value)))
    let memHourValue ← mem.finite.lookup key
    if lt memHourValue (.ofInt single value) then none
    spotHoursLoop cpu mem rest (min maxCount
      (.convert double (div single memHourValue (.ofInt single value))))

/-- One flavor of a spot request. Without a time limit the request is to be no
smaller than the capacity, and the quotient is that of the CPU both times. -/
def spotFlavor (hours : List String) (requestSpot : SpotHours) (spotFlv : SpotResource)
    (maxCount : Fp) : Option Fp :=
  let (cpu, mem) := spotPools requestSpot spotFlv
  if requestSpot.isSpotBlock then
    spotHoursLoop single double cpu mem (Map.entriesBy hours requestSpot.preemptibleResourceFinite) maxCount
  else
    let infinite := ofInt single requestSpot.infinite
    if lt infinite cpu.infinite then none
    else if lt infinite mem.infinite then none
    else
      let quotient := convert double (div single infinite cpu.infinite)
      some (min (min maxCount quotient) quotient)

def spotFlavorLoop (hours : String → List String) (info : SiteCacheInfo) :
    List (String × SpotHours) → Fp → Outcome (Bool × Int)
  | [], maxCount => pure (true, maxCount.toInt64)
  | (flavorID, requestSpot) :: rest, maxCount =>
    match (info.allocatableSpotFlavor.lookup flavorID).bind
        (spotFlavor single double (hours flavorID) requestSpot · maxCount) with
    | none => do
      let _ ← info.getSite
      pure (false, 0)
    | some maxCount => spotFlavorLoop hours info rest maxCount

/-- `isSpotFlavorMatch`; `fake` is the `spot_fake` setting. -/
def isSpotFlavorMatch (fake : Bool) (ord : Orders) (spotFlavorMap : Map String SpotHours)
    (info : SiteCacheInfo) : Outcome (Bool × Int) :=
  if fake then pure (true, 1000)
  else spotFlavorLoop single double ord.hours info (Map.entriesBy ord.spot spotFlavorMap) maxFloat64

end

def stackMaxCount (counts : FlavorCounts) (maxComCount maxSpotCount : Int) : Int :=
  if counts.1.keys ≠ [] ∧ counts.2.keys ≠ [] then
    (min (.ofInt .float64 maxComCount) (.ofInt .float64 maxSpotCount)).toInt64
  else if counts.1.keys ≠ [] then maxComCount
  else if counts.2.keys ≠ [] then maxSpotCount
  else 0

/-- The first combination the site has the machines of, with the number of copies;
`ord` gives the runtime's choices for each combination. -/
def firstMatch (fake : Bool) (ord : Nat → Orders) (info : SiteCacheInfo) :
    Nat → List FlavorAggregate → Outcome (Option (FlavorAggregate × Int))
  | _, [] => pure none
  | i, agg :: rest => do
    let counts := getFlavorToCount agg
    let (isCommonMatch, maxComCount) ← isComFlavorMatch (ord i) counts.1 info
    let (isSpotMatch, maxSpotCount) ← isSpotFlavorMatch .float32 .float64 fake (ord i) counts.2 info
    if isCommonMatch && isSpotMatch then
      pure (some (agg, stackMaxCount counts maxComCount maxSpotCount))
    else firstMatch fake ord info (i + 1) rest

/-! ### The plugin's calls -/

def noPreFilterState : Status :=
  ⟨.error, ["error reading \"PreFilterFlavor\" from cycleState: not found"]⟩

/-- `%+v` of a flavor. A pointer in a struct prints as its address, which is the
runtime's choice; one address stands for all here. -/
def flavorText (flavor : FlavorInfo) : String :=
  "\x7bFlavor:\x7bFlavorID:" ++ flavor.flavor.flavorID ++ " Spot:" ++
    (if flavor.flavor.spot.isSome then "0xc000000000" else "<nil>") ++ "\x7d Count:" ++
    toString flavor.count ++ "\x7d"

def aggregateText (agg : FlavorAggregate) : String :=
  "\x7bFlavors:[" ++ " ".intercalate (agg.flavors.map flavorText) ++ "] Weight:" ++
    toString agg.weight ++ "\x7d"

def filter (fake : Bool) (ord : Nat → Orders) (state : CycleState) (info : SiteCacheInfo) :
    Outcome (CycleState × Status) :=
  match state.preFilterFlavor with
  | none => pure (state, noPreFilterState)
  | some s => do
    match ← firstMatch fake ord info 0 s.aggregates with
    | some _ => pure (state, .nil)
    | none =>
      let site ← info.getSite
      pure (state, ⟨.unschedulable, ["Site (" ++ site.siteID ++ "-" ++ site.regionAzMap.region ++
        ") do not support required flavor ([" ++
        " ".intercalate (s.aggregates.map aggregateText) ++ "])."]⟩)

/-- `Score` records the combination and the copies for the strategies. -/
def score (fake : Bool) (ord : Nat → Orders) (state : CycleState) (info : SiteCacheInfo) :
    Outcome (CycleState × Int × Status) :=
  match state.preFilterFlavor with
  | none => pure (state, 0, noPreFilterState)
  | some s => do
    match ← firstMatch fake ord info 0 s.aggregates with
    | none => pure (state, 0, .nil)
    | some (agg, maxCount) =>
      let site ← info.getSite
      let score := if agg.flavors = [] then 0 else agg.weight.tdiv agg.flavors.length
      pure ((updateSiteSelectorState state site.siteID
        [("Flavors", .flavors agg.flavors), ("StackMaxCount", .int maxCount)]).1, score, .nil)

def preFilterPlugin : PreFilterPlugin := ⟨name, preFilter⟩

def filterPlugin (fake : Bool) (ord : SiteCacheInfo → Nat → Orders) : FilterPlugin :=
  ⟨name, fun state _ info => filter fake (ord info) state info⟩

def scorePlugin (fake : Bool) (ord : SiteCacheInfo → Nat → Orders) : ScorePlugin :=
  { name := name, score := fun state _ info => score fake (ord info) state info }

end GlobalScheduler.FlavorPlugin
