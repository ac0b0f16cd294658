import GlobalScheduler.Types

/-! The record of a site as a cache keeps it.

The collector and the scheduler keep their sites in caches of the same make. A record
there has more than a scheduling cycle reads: the hosts with their capacities, the pool
of public addresses, the quality of the network, and a generation, a number that grows
with every update. A snapshot gets clones of the records. -/
namespace GlobalScheduler.Cache

open Go Fp

structure CachedHost where
  resourceType : String
  totalVCPUs : Int := 0
  usedVCPUs : Int := 0
  totalMem : Int := 0
  usedMem : Int := 0
  cpuAllocationRatio : String := ""
deriving DecidableEq

/-- A site with all that is reported of it. -/
structure CachedSite where
  siteID : String
  clusterName : String := ""
  clusterNamespace : String := ""
  geoLocation : GeoLocation := {}
  regionAzMap : RegionAzMap := {}
  operator : String := ""
  status : String := ""
  siteAttribute : List SiteAttribute := []
  eipTypeName : String := ""
  spotResources : Map String SpotResource := ∅
  hosts : List CachedHost := []
deriving DecidableEq

structure IPCommonPool where
  name : String
  status : String := ""
  type : String := ""
  size : Int := 0
  used : Int := 0
  cached : Int := 0
deriving DecidableEq

structure EipPool where
  region : String
  commonPools : List IPCommonPool := []
deriving DecidableEq

structure CachedInfo where
  site : Option CachedSite := none
  requestedResources : Map String CPUAndMemory := ∅
  totalResources : Map String CPUAndMemory := ∅
  requestedStorage : Map String Fp := ∅
  totalStorage : Map String Fp := ∅
  requestedFlavor : Map String Int := ∅
  allocatableFlavor : Map String Int := ∅
  allocatableSpotFlavor : Map String SpotResource := ∅
  stackList : List PodStack := []
  eipPool : Option EipPool := none
  qos : Map String Fp := ∅
  generation : Nat := 0
deriving DecidableEq

/-- A flavor as the informer has it. -/
structure StoredFlavor extends RegionFlavor where
  regionFlavorID : String
  condOperationStatus : String := ""
  condOperationAz : String := ""
deriving DecidableEq

/-- What an update reads besides its arguments: the flavor informer's store and the order of
its list, the runtime's choice for a loop over a map, `strconv.ParseFloat` with the value it
gives and whether there is an error, and the weight of a loss rate. -/
structure Env where
  flavors : Map String StoredFlavor := ∅
  flavorOrd : List String := []
  ord : List String := []
  parseFloat : Nat → String → Fp × Bool := fun _ _ => (.fin 0, true)
  qosWeight : Fp := .fin (1 / 2)

def Env.flavorList (env : Env) : List StoredFlavor :=
  (Map.entriesBy env.flavorOrd env.flavors).map Prod.snd

def Env.getFlavor (env : Env) (flavorID region : String) : Option StoredFlavor :=
  if region ≠ "" then env.flavors.lookup (region ++ "--" ++ flavorID)
  else env.flavorList.find? (·.id = flavorID)

/-! ### Where a flavor is on sale -/

/-- `\w`. -/
def isWordChar (c : Char) : Bool := c.isAlphanum || c == '_'

/-- A match of `([\w-]+)\(([\w]+)\)` that starts here. -/
def matchZoneFlag (text : List Char) : Option (List Char × List Char) :=
  let zone := text.takeWhile fun c => isWordChar c || c == '-'
  match text.drop zone.length with
  | '(' :: rest =>
    let flag := rest.takeWhile isWordChar
    match rest.drop flag.length with
    | ')' :: _ => if zone = [] ∨ flag = [] then none else some (zone, flag)
    | _ => none
  | _ => none

def findZoneFlag : List Char → Option (List Char × List Char)
  | [] => none
  | c :: rest => (matchZoneFlag (c :: rest)).or (findZoneFlag rest)

def getCondOperationAz (condAzStr : String) : Map String String :=
  (split condAzStr ",").foldl (fun azMaps azStr =>
    match findZoneFlag azStr.toList with
    | none => azMaps
    | some (zone, flag) => azMaps.insert (String.ofList zone) (String.ofList flag)) ∅

example : (getCondOperationAz "az-1(sellout),az-2,(x),az-3(normal)").lookup "az-3" = some "normal" := by
  decide

/-- The zone's flag decides; where it has none, the status does. -/
def onSale (flavor : StoredFlavor) (az : String) : Bool :=
  match (getCondOperationAz flavor.condOperationAz).lookup az with
  | some flag => flag ≠ "sellout" ∧ flag ≠ "abandon"
  | none => flavor.condOperationStatus ≠ "abandon"

def getSupportFlavorsBySite (env : Env) (site : CachedSite) : List StoredFlavor :=
  env.flavorList.foldl (fun found flavor =>
    site.hosts.foldl (fun found host =>
      if site.regionAzMap.region = flavor.region ∧
          flavor.resourceType ∈ split host.resourceType flavorDelimiter ∧
          onSale flavor site.regionAzMap.availabilityZone ∧ ¬ found.any (·.id = flavor.id) then
        found ++ [flavor]
      else found) found) []

/-! ### Counts of flavors -/

/-- `getTotalResourceByResType` and `getRequestResourceByResType`: the sum over the pools
whose key lists the type, in an order the runtime chooses. -/
def resourceInOrder (ord : List String) (pools : Map String CPUAndMemory) (resType : String) : CPUAndMemory :=
  (Map.entriesBy ord pools).foldl (fun ret e =>
    if resType ∈ split e.1 flavorDelimiter then ret.add e.2 else ret) .zero

/-- The sum does not depend on the order. -/
def resourceByResType : Map String CPUAndMemory → String → CPUAndMemory := resourceInOrder []

namespace CachedInfo

/-- `GetSite()`, dereferenced. -/
def getSite (n : CachedInfo) : Outcome CachedSite :=
  match n.site with
  | none => throw .nilPointer
  | some site => pure site

def forEachWithSite {α σ : Type} (n : CachedInfo) (body : CachedSite → σ → α → σ) (l : List α)
    (s : σ) : Outcome σ :=
  l.foldlM (fun s a => do
    let site ← n.getSite
    pure (body site s a)) s

/-- How many of a flavor fit, with the orders of the two loops over the pools; a flavor
without vCPUs or memory, or of a type the site does not have, is not counted. -/
def flavorCountIn (n : CachedInfo) (ord : List String × List String) (flavor : StoredFlavor) : Option Int :=
  match parseInt flavor.vcpus with
  | none => none
  | some vcpus =>
    let total := resourceInOrder ord.1 n.totalResources flavor.resourceType
    let requested := resourceInOrder ord.2 n.requestedResources flavor.resourceType
    if vcpus ≤ 0 ∨ flavor.ram ≤ 0 ∨ total.vcpu ≤ 0 ∨ total.memory ≤ 0 then none
    else
      let count := (total.vcpu - requested.vcpu).tdiv vcpus
      let memCount := (total.memory - requested.memory).tdiv flavor.ram
      some (if count > memCount then memCount else count)

/-- The end of a round of `updateFlavor`. -/
def tally (flavor : StoredFlavor) (count : Option Int) (counts : Map String Int) : Map String Int :=
  match count with
  | none => counts
  | some count => counts.insert flavor.id ((counts.lookup flavor.id).getD 0 + count)

/-- One order for every round, where the order does not matter. -/
def anyOrder (_ : StoredFlavor) : List String × List String := ([], [])

variable (env : Env)

variable (ords : StoredFlavor → List String × List String)

/-- `updateFlavor`, of a record with a site and with the orders of each round. -/
def countFlavors (site : CachedSite) (n : CachedInfo) :
    CachedInfo :=
  { n with allocatableFlavor := (getSupportFlavorsBySite env site).foldl (fun counts flavor =>
      tally flavor (n.flavorCountIn (ords flavor) flavor) counts) ∅ }

/-- The hosts of a site are looked at for every flavor there is. -/
def updateFlavorIn (n : CachedInfo) : Outcome CachedInfo :=
  if env.flavorList = [] then pure { n with allocatableFlavor := ∅ }
  else do
    let site ← n.getSite
    pure (n.countFlavors env ords site)

/-- The counts do not depend on the orders. -/
def updateFlavor : CachedInfo → Outcome CachedInfo := updateFlavorIn env anyOrder

variable (generation : Nat)

/-- The end of an update that changes what is requested. -/
def recount (n : CachedInfo) : Outcome CachedInfo := do
  let n ← n.updateFlavor env
  pure { n with generation := generation }

/-! ### Updates -/

/-- What one host adds to the requested and the total resources of its type. -/
def addHost (pools : Map String CPUAndMemory × Map String CPUAndMemory)
    (no : CachedHost) : Map String CPUAndMemory × Map String CPUAndMemory :=
  let ratio := if no.cpuAllocationRatio = "" then .fin 1
    else (env.parseFloat 32 no.cpuAllocationRatio).1
  let vcpus := toInt64 (mul .float64 (.ofInt .float64 no.totalVCPUs) ratio)
  let raise := fun (pool : Map String CPUAndMemory) (res : CPUAndMemory) =>
    pool.insert no.resourceType (((pool.lookup no.resourceType).getD .zero).add res)
  (raise pools.1 ⟨no.usedVCPUs, no.usedMem⟩, raise pools.2 ⟨vcpus, no.totalMem⟩)

def setSite (site : CachedSite) (n : CachedInfo) : CachedInfo :=
  let pools := site.hosts.foldl (addHost env) (∅, ∅)
  let n := { n with
    site := some site
    requestedResources := pools.1
    totalResources := pools.2
    requestedFlavor := ∅
    allocatableSpotFlavor := site.spotResources }
  { n.countFlavors env anyOrder site with generation := generation }

def updateSiteWithEipPool (eipPool : EipPool) (n : CachedInfo) : CachedInfo :=
  { n with eipPool := some eipPool, generation := generation }

structure VolumePoolInfo where
  availabilityZone : String
  volumeType : String
  totalCapacityGb : Fp := .fin 0
  provisionedCapacityGb : Fp := .fin 0
  maxOverSubscriptionRatio : Fp := .fin 0
deriving DecidableEq

structure RegionVolumePool where
  region : String
  storagePools : List VolumePoolInfo := []
deriving DecidableEq

/-- What one pool of the site's zone adds to the total and the requested storage. -/
def addVolumePool (storage : VolumePoolInfo) (pools : Map String Fp × Map String Fp) :
    Map String Fp × Map String Fp :=
  let totalDisks := if lt (.fin 0) storage.maxOverSubscriptionRatio then
      mul .float64 storage.totalCapacityGb storage.maxOverSubscriptionRatio
    else storage.totalCapacityGb
  let raise := fun (pool : Map String Fp) (size : Fp) =>
    pool.insert storage.volumeType
      (add .float64 ((pool.lookup storage.volumeType).getD (.fin 0)) size)
  (raise pools.1 totalDisks, raise pools.2 storage.provisionedCapacityGb)

def updateSiteWithVolumePool (volumePool : RegionVolumePool) (n : CachedInfo) :
    Outcome CachedInfo := do
  let pools ← n.forEachWithSite (fun site pools storage =>
    if site.regionAzMap.availabilityZone = storage.availabilityZone then addVolumePool storage pools
    else pools) volumePool.storagePools (∅, ∅)
  pure { n with totalStorage := pools.1, requestedStorage := pools.2, generation := generation }

/-- More is requested of every pool whose key lists the type. -/
def raiseRequested (cpuAndMem : Map String CPUAndMemory) (requested : Map String CPUAndMemory) :
    Map String CPUAndMemory :=
  cpuAndMem.entries.foldl (fun requested e =>
    Map.mapVals (fun reqType reqRes =>
      if e.1 ∈ split reqType flavorDelimiter then reqRes.add e.2 else reqRes) requested) requested

def updateSiteWithResInfo (resInfo : AllResInfo) (n : CachedInfo) :
    Outcome CachedInfo :=
  let storage := resInfo.storage.entries.foldl (fun storage e =>
    storage.insert e.1 (add .float64 ((storage.lookup e.1).getD (.fin 0)) e.2)) n.requestedStorage
  recount env generation { n with
    requestedResources := raiseRequested resInfo.cpuAndMem n.requestedResources
    requestedStorage := storage }

structure NetMetricData where
  city : String
  delay : Fp := .fin 0
  lossrate : Fp := .fin 0
deriving DecidableEq

def updateQos (metricDatas : List NetMetricData) (n : CachedInfo) : CachedInfo :=
  { n with qos := metricDatas.foldl (fun qosMap metric =>
      qosMap.insert metric.city
        (add .float64 metric.delay (mul .float64 env.qosWeight metric.lossrate))) ∅ }

structure AllocationRatio where
  flavor : String
  coreAllocationRatio : String
  memAllocationRatio : String
deriving DecidableEq

/-- `updateRequestResourceByResType`: the pools whose key lists the type give way to one of
its own. -/
def updateRequestResourceByResType (resType : String) (res : CPUAndMemory)
    (requested : Map String CPUAndMemory) : Map String CPUAndMemory :=
  (requested.keys.foldl (fun requested key =>
    if resType ∈ split key flavorDelimiter then requested.erase key else requested) requested).insert
    resType res

/-- One type of `UpdateSiteWithRatio`; a total that is not positive or a ratio that is no
number leaves it out. -/
def applyRatio (total : Map String CPUAndMemory) (resType : String)
    (value : AllocationRatio) (requested : Map String CPUAndMemory) : Map String CPUAndMemory :=
  let totalRes := resourceByResType total resType
  let cpuRatio := env.parseFloat 64 value.coreAllocationRatio
  let memRatio := env.parseFloat 64 value.memAllocationRatio
  if totalRes.vcpu ≤ 0 ∨ totalRes.memory ≤ 0 ∨ cpuRatio.2 ∨ memRatio.2 then requested
  else updateRequestResourceByResType resType
    ⟨toInt64 (mul .float64 (.ofInt .float64 totalRes.vcpu) cpuRatio.1),
      toInt64 (mul .float64 (.ofInt .float64 totalRes.memory) memRatio.1)⟩ requested

def updateSiteWithRatio (ratios : List AllocationRatio)
    (n : CachedInfo) : Outcome CachedInfo := do
  -- The last ratio for a type stands.
  let resTypeMapRatio ← n.forEachWithSite (fun site byType ratio =>
    match env.getFlavor ratio.flavor site.regionAzMap.region with
    | none => byType
    | some flavor => byType.insert flavor.resourceType ratio) ratios (∅ : Map String AllocationRatio)
  recount env generation { n with
    requestedResources := (Map.entriesBy env.ord resTypeMapRatio).foldl (fun requested e =>
      applyRatio env n.totalResources e.1 e.2 requested) n.requestedResources }

def updateSpotResources (spotRes : Map String SpotResource) (n : CachedInfo) :
    CachedInfo :=
  { n with allocatableSpotFlavor := spotRes, generation := generation }

def addStack (stack : PodStack) (n : CachedInfo) : CachedInfo :=
  { n with stackList := n.stackList ++ [stack], generation := generation }

/-- The stack stays. -/
def removeStack (_stack : PodStack) (n : CachedInfo) : CachedInfo := n

end CachedInfo

/-! ### Clones -/

/-- The attributes, the spot resources and the hosts are not copied. -/
def CachedSite.clone (site : CachedSite) : CachedSite where
  siteID := site.siteID
  clusterName := site.clusterName
  clusterNamespace := site.clusterNamespace
  geoLocation := site.geoLocation
  regionAzMap := site.regionAzMap
  operator := site.operator
  status := site.status
  eipTypeName := site.eipTypeName

namespace CachedInfo

/-- `Clone()`, of a record with a site: the maps are copied; the stacks, the pool of
addresses and the generation are not. -/
def cloneOf (site : CachedSite) (n : CachedInfo) : CachedInfo where
  site := some site.clone
  requestedResources := n.requestedResources
  totalResources := n.totalResources
  requestedStorage := n.requestedStorage
  totalStorage := n.totalStorage
  requestedFlavor := n.requestedFlavor
  allocatableFlavor := n.allocatableFlavor
  allocatableSpotFlavor := n.allocatableSpotFlavor
  qos := n.qos

/-- What a snapshot holds of a record: its clone, if it has a site. -/
def clone? (n : CachedInfo) : Option CachedInfo := n.site.map fun site => n.cloneOf site

/-! ### What updates keep -/

/-- The record has the same site and the generation given. -/
def Updated (generation : Nat) (n n' : CachedInfo) : Prop :=
  n'.site = n.site ∧ n'.generation = generation

/-- An update of records with a site: it does not fail, keeps the site and sets the
generation. -/
def Stamps (update : Nat → CachedInfo → Outcome CachedInfo) : Prop :=
  ∀ generation n, n.site ≠ none → ∃ n', update generation n = .ok n' ∧ Updated generation n n'

variable {n : CachedInfo} {site : CachedSite}

theorem getSite_of_ne_none (h : n.site ≠ none) : ∃ site, n.getSite = .ok site := by
  cases hsite : n.site with
  | none => exact absurd hsite h
  | some site => exact ⟨site, by simp [getSite, hsite]; rfl⟩

theorem forEachWithSite_ok {α σ : Type} (h : n.site ≠ none) (body : CachedSite → σ → α → σ)
    (l : List α) (s : σ) : ∃ s', n.forEachWithSite body l s = .ok s' := by
  obtain ⟨site, hsite⟩ := getSite_of_ne_none h
  unfold forEachWithSite
  rw [hsite]
  induction l generalizing s with
  | nil => exact ⟨s, rfl⟩
  | cons a rest ih =>
    exact ih _

theorem recount_ok (env : Env) (generation : Nat) (h : n.site ≠ none) :
    ∃ n', n.recount env generation = .ok n' ∧ Updated generation n n' := by
  obtain ⟨site, hsite⟩ := getSite_of_ne_none h
  unfold recount updateFlavor updateFlavorIn
  split
  · exact ⟨_, rfl, rfl, rfl⟩
  · rw [hsite]
    exact ⟨_, rfl, rfl, rfl⟩

theorem stamps_updateSiteWithEipPool (eipPool : EipPool) :
    Stamps fun generation n => pure (n.updateSiteWithEipPool generation eipPool) :=
  fun _ _ _ => ⟨_, rfl, rfl, rfl⟩

theorem stamps_updateSpotResources (spotRes : Map String SpotResource) :
    Stamps fun generation n => pure (n.updateSpotResources generation spotRes) :=
  fun _ _ _ => ⟨_, rfl, rfl, rfl⟩

theorem stamps_updateSiteWithVolumePool (volumePool : RegionVolumePool) :
    Stamps fun generation n => n.updateSiteWithVolumePool generation volumePool := by
  intro generation n h
  obtain ⟨pools, hpools⟩ := forEachWithSite_ok h (fun site pools storage =>
    if site.regionAzMap.availabilityZone = storage.availabilityZone then addVolumePool storage pools
    else pools) volumePool.storagePools (∅, ∅)
  show ∃ n', (forEachWithSite n _ _ _ >>= _) = .ok n' ∧ _
  rw [hpools]
  exact ⟨_, rfl, rfl, rfl⟩

theorem stamps_updateSiteWithResInfo (env : Env) (resInfo : AllResInfo) :
    Stamps fun generation n => n.updateSiteWithResInfo env generation resInfo :=
  fun generation _ h => recount_ok env generation h

theorem stamps_updateSiteWithRatio (env : Env) (ratios : List AllocationRatio) :
    Stamps fun generation n => n.updateSiteWithRatio env generation ratios := by
  intro generation n h
  obtain ⟨byType, hbyType⟩ := forEachWithSite_ok h (fun site byType ratio =>
    match env.getFlavor ratio.flavor site.regionAzMap.region with
    | none => byType
    | some flavor => byType.insert flavor.resourceType ratio) ratios (∅ : Map String AllocationRatio)
  show ∃ n', (forEachWithSite n _ _ _ >>= _) = .ok n' ∧ _
  rw [hbyType]
  exact recount_ok env generation h

end CachedInfo

end GlobalScheduler.Cache
