import GlobalScheduler.Recency
import GlobalScheduler.Cache.SiteTree

/-! The cache of sites, and the snapshots of it.

The collector's cache and the scheduler's have the same fields, and but for the removal of
a site and the end of `UpdateSnapshot` the same code; what they share is here. A record
that is updated goes to the head of a linked list, and most updates give it the next
generation. A snapshot is brought up to date from the head of the list, until a record
comes that is not newer than the snapshot. -/
namespace GlobalScheduler.Cache

open Go Recency

structure StackState where
  stack : PodStack
deriving DecidableEq

/-- The linked list is that of its sites, from the head, or another representation of it. -/
structure SiteCache (L : Type := List String) [EmptyCollection L] where
  assumedStacks : Map String Bool := ∅
  stackStates : Map String StackState := ∅
  siteCacheInfos : Map String CachedInfo := ∅
  recent : L := ∅
  regionToSite : Map String (Map String Unit) := ∅
  siteTree : SiteTree := {}
  /-- The last generation given out; the counter is the package's. -/
  generation : Nat := 0
deriving DecidableEq

structure CacheSnapshot where
  siteCacheInfoMap : RefMap String CachedInfo := .empty
  /-- The records of the map in the order of the tree, by their cells. -/
  siteCacheInfoList : List Nat := []
  regionFlavorMap : Map String StoredFlavor := ∅
  flavorMap : Map String StoredFlavor := ∅
  generation : Nat := 0
deriving DecidableEq

/-- `site %v is not found`. -/
def siteNotFound (siteID : String) : String := "site " ++ siteID ++ " is not found"

namespace SiteCache

section
variable {L : Type} [Recency.ByUse String L]

/-! ### The linked list -/

def moveSiteCacheInfoToHead (siteID : String) (c : SiteCache L) : SiteCache L :=
  if siteID ∈ c.siteCacheInfos then { c with recent := ByUse.touch siteID c.recent } else c

def removeSiteCacheInfoFromList (siteID : String) (c : SiteCache L) : SiteCache L :=
  if siteID ∈ c.siteCacheInfos then
    { c with recent := ByUse.drop siteID c.recent, siteCacheInfos := c.siteCacheInfos.erase siteID }
  else c

/-! ### Sites -/

def recordOf (c : SiteCache L) (siteID : String) : CachedInfo := (c.siteCacheInfos.lookup siteID).getD {}

/-- The record of a site is made if there is none. -/
def ensure (siteID : String) (c : SiteCache L) : SiteCache L :=
  if siteID ∈ c.siteCacheInfos then c
  else { c with siteCacheInfos := c.siteCacheInfos.insert siteID {}, recent := ByUse.fresh siteID c.recent }

def updateRegionToSite (site : CachedSite) (c : SiteCache L) : SiteCache L :=
  let siteIDs := (c.regionToSite.lookup site.regionAzMap.region).getD ∅
  { c with
    regionToSite := c.regionToSite.insert site.regionAzMap.region (siteIDs.insert site.siteID ()) }

def deleteRegionToSite (site : CachedSite) (c : SiteCache L) : SiteCache L :=
  match c.regionToSite.lookup site.regionAzMap.region with
  | none => c
  | some siteIDs => { c with
    regionToSite := c.regionToSite.insert site.regionAzMap.region (siteIDs.erase site.siteID) }

/-- A record is changed and takes the next generation. -/
def stampRecord (siteID : String) (update : Nat → CachedInfo → Outcome CachedInfo) (c : SiteCache L) :
    Outcome (SiteCache L) :=
  match c.siteCacheInfos.lookup siteID with
  | none => throw .nilPointer
  | some info => do
    let info ← update (c.generation + 1) info
    pure { c with
      siteCacheInfos := c.siteCacheInfos.insert siteID info, generation := c.generation + 1 }

def addSite (env : Env) (site : CachedSite) (c : SiteCache L) : Outcome (SiteCache L) :=
  let c := (c.ensure site.siteID).moveSiteCacheInfoToHead site.siteID
  let c := { c with siteTree := c.siteTree.addSite site }.updateRegionToSite site
  c.stampRecord site.siteID fun generation n => pure (n.setSite env generation site)

/-- The start of `UpdateSite`: the record is found or made, and moved. -/
def placeSite (newSite : CachedSite) (c : SiteCache L) : SiteCache L :=
  let siteTree := if newSite.siteID ∈ c.siteCacheInfos then c.siteTree else c.siteTree.addSite newSite
  { (c.ensure newSite.siteID).moveSiteCacheInfoToHead newSite.siteID with siteTree := siteTree }

/-- `oldSite` may be nil, and is then looked into all the same. -/
def updateSite (env : Env) (oldSite : Option CachedSite) (newSite : CachedSite) (c : SiteCache L) :
    Outcome (SiteCache L) := do
  let c := c.placeSite newSite
  let siteTree ← c.siteTree.updateSite oldSite newSite
  match oldSite with
  | none => throw .nilPointer
  | some oldSite =>
    let c := ({ c with siteTree := siteTree }.deleteRegionToSite oldSite).updateRegionToSite newSite
    c.stampRecord newSite.siteID fun generation n => pure (n.setSite env generation newSite)

/-- The end of `RemoveSite`. -/
def dropSite (site : CachedSite) (c : SiteCache L) : SiteCache L × Option String :=
  match c.siteTree.removeSite site with
  | (siteTree, some err) => ({ c with siteTree := siteTree }, some err)
  | (siteTree, none) => ({ c with siteTree := siteTree }.deleteRegionToSite site, none)

/-! ### Updates of records -/

/-- The record of a site is changed and goes to the head; an error, or none, if the site is not cached. -/
def updateRecord (siteID : String) (missing : Option String)
    (update : Nat → CachedInfo → Outcome CachedInfo) (c : SiteCache L) :
    Outcome (SiteCache L × Option String) :=
  if siteID ∈ c.siteCacheInfos then do
    let c ← c.stampRecord siteID update
    pure (c.moveSiteCacheInfoToHead siteID, none)
  else pure (c, missing)

def updateSiteWithEipPool (siteID : String) (eipPool : EipPool) : SiteCache L →
    Outcome (SiteCache L × Option String) :=
  updateRecord siteID (some (siteNotFound siteID)) fun generation n =>
    pure (n.updateSiteWithEipPool generation eipPool)

def updateSiteWithVolumePool (siteID : String) (volumePool : CachedInfo.RegionVolumePool) : SiteCache L →
    Outcome (SiteCache L × Option String) :=
  updateRecord siteID (some ("siteCacheInfo " ++ siteID ++ " is not found")) fun generation n =>
    n.updateSiteWithVolumePool generation volumePool

def updateSiteWithResInfo (env : Env) (siteID : String) (resInfo : AllResInfo) : SiteCache L →
    Outcome (SiteCache L × Option String) :=
  updateRecord siteID none fun generation n => n.updateSiteWithResInfo env generation resInfo

def logged (result : Outcome (SiteCache L × Option String)) : Outcome (SiteCache L) := result.map Prod.fst

/-- The sites filed under a region are updated one by one. -/
def updateRegion (ord : List String) (region : String)
    (update : String → SiteCache L → Outcome (SiteCache L × Option String)) (c : SiteCache L) :
    Outcome (SiteCache L) :=
  match c.regionToSite.lookup region with
  | none => pure c
  | some siteIDs =>
    ((Map.entriesBy ord siteIDs).map Prod.fst).foldlM (fun c siteID => logged (update siteID c)) c

def updateEipPool (ord : List String) (eipPool : EipPool) : SiteCache L → Outcome (SiteCache L) :=
  updateRegion ord eipPool.region fun siteID => updateSiteWithEipPool siteID eipPool

def updateVolumePool (ord : List String) (volumePool : CachedInfo.RegionVolumePool) :
    SiteCache L → Outcome (SiteCache L) :=
  updateRegion ord volumePool.region fun siteID => updateSiteWithVolumePool siteID volumePool

/-- The first record whose site is in the zone. The loop looks into the site of every record
it comes to. -/
def findInZone (region az : String) :
    List (String × CachedInfo) → Outcome (Option (String × CachedSite))
  | [] => pure none
  | (key, info) :: rest => do
    let site ← info.getSite
    if site.regionAzMap.region = region ∧ site.regionAzMap.availabilityZone = az then
      pure (some (key, site))
    else findInZone region az rest

def updateZone (ord : List String) (region az : String)
    (update : Nat → CachedInfo → Outcome CachedInfo) (c : SiteCache L) : Outcome (SiteCache L) := do
  match ← findInZone region az (Map.entriesBy ord c.siteCacheInfos) with
  | none => pure c
  | some (key, site) =>
    let c ← c.stampRecord key update
    pure (c.moveSiteCacheInfoToHead site.siteID)

def updateSiteWithRatio (env : Env) (ord : List String) (region az : String)
    (ratios : List CachedInfo.AllocationRatio) : SiteCache L → Outcome (SiteCache L) :=
  updateZone ord region az fun generation n => n.updateSiteWithRatio env generation ratios

def updateSpotResources (ord : List String) (region az : String)
    (spotRes : Map String SpotResource) : SiteCache L → Outcome (SiteCache L) :=
  updateZone ord region az fun generation n => pure (n.updateSpotResources generation spotRes)

/-- The record goes to the head, but keeps its generation. -/
def updateQos (env : Env) (siteID : String) (metricDatas : List CachedInfo.NetMetricData)
    (c : SiteCache L) : SiteCache L :=
  match c.siteCacheInfos.lookup siteID with
  | none => c
  | some info =>
    { c with siteCacheInfos := c.siteCacheInfos.insert siteID (info.updateQos env metricDatas)
      }.moveSiteCacheInfoToHead siteID

/-! ### Stacks on their sites

The lock is held. -/

/-- The site the stack was put on gets a record if it has none. -/
def addStack (stack : PodStack) (c : SiteCache L) : SiteCache L :=
  let siteID := stack.selected.siteID
  { c with
    siteCacheInfos :=
      c.siteCacheInfos.insert siteID ((c.recordOf siteID).addStack (c.generation + 1) stack)
    recent := ByUse.fresh siteID c.recent
    generation := c.generation + 1 }.moveSiteCacheInfoToHead siteID

def removeStack (stack : PodStack) (c : SiteCache L) : SiteCache L :=
  match c.siteCacheInfos.lookup stack.selected.siteID with
  | none => c
  | some info =>
    { c with siteCacheInfos := c.siteCacheInfos.insert stack.selected.siteID (info.removeStack stack)
      }.moveSiteCacheInfoToHead stack.selected.siteID

def updateStack (oldStack newStack : PodStack) (c : SiteCache L) : SiteCache L :=
  (c.removeStack oldStack).addStack newStack

end

/-! ### Snapshots -/

def items (c : SiteCache) : List CachedInfo := c.recent.filterMap c.siteCacheInfos.lookup

/-- The clone of a record goes into the cell its site has, or into a new one. -/
def copyRecord (s : RefMap String CachedInfo × Bool) (info : CachedInfo) :
    RefMap String CachedInfo × Bool :=
  match info.site with
  | none => s
  | some np => (s.1.write np.siteID (info.cloneOf np), s.2 || decide (np.siteID ∉ s.1.ptr))

/-- The loop over the linked list, with whether a site was new. -/
def copyRecords (snapshotGeneration : Nat) :
    List CachedInfo → RefMap String CachedInfo × Bool → RefMap String CachedInfo × Bool
  | [], s => s
  | info :: rest, s =>
    if info.generation ≤ snapshotGeneration then s
    else copyRecords snapshotGeneration rest (copyRecord s info)

/-- The loop over the names of the snapshot, with how many are still to be deleted. -/
def removeDeletedSiteCacheInfosFromSnapshot (c : SiteCache) :
    List String → Nat → RefMap String CachedInfo → RefMap String CachedInfo
  | [], _, m => m
  | _ :: _, 0, m => m
  | name :: rest, toDelete + 1, m =>
    if name ∈ c.siteCacheInfos then c.removeDeletedSiteCacheInfosFromSnapshot rest (toDelete + 1) m
    else c.removeDeletedSiteCacheInfosFromSnapshot rest toDelete (m.erase name)

/-- The names of the snapshot's map in the order of a loop. -/
def names (ord : List String) (m : RefMap String CachedInfo) : List String :=
  (Map.entriesBy ord m.ptr).map Prod.fst

/-- The map of the snapshot is brought up to date. The flag says whether the list is to be
made again. -/
def refresh (ord : List String) (snapshot : CacheSnapshot) (c : SiteCache) : CacheSnapshot × Bool :=
  let copied := copyRecords snapshot.generation c.items (snapshot.siteCacheInfoMap, false)
  let more := decide (c.siteCacheInfos.keys.length < copied.1.ptr.keys.length)
  let toDelete := copied.1.ptr.keys.length - c.siteCacheInfos.keys.length
  ({ snapshot with
    siteCacheInfoMap :=
      if more then c.removeDeletedSiteCacheInfosFromSnapshot (names ord copied.1) toDelete copied.1
      else copied.1
    generation := (c.items.head?.map CachedInfo.generation).getD snapshot.generation },
    copied.2 || more)

/-- Nothing if a site of the tree is waited for without end. -/
def updateSiteCacheInfoSnapshotList (snapshot : CacheSnapshot) (c : SiteCache) :
    Outcome (Option (SiteCache × CacheSnapshot)) := do
  match ← c.siteTree.nexts c.siteTree.numSites with
  | none => pure none
  | some (siteTree, siteIDs) => pure (some ({ c with siteTree := siteTree },
      { snapshot with siteCacheInfoList := siteIDs.filterMap snapshot.siteCacheInfoMap.ptr.lookup }))

/-- The list is made again if a site was new or deleted. -/
def relist (snapshot : CacheSnapshot) (updateAllLists : Bool) (c : SiteCache) :
    Outcome (Option (SiteCache × CacheSnapshot)) :=
  if updateAllLists then c.updateSiteCacheInfoSnapshotList snapshot else pure (some (c, snapshot))

def notConsistent (snapshot : CacheSnapshot) (c : SiteCache) : String :=
  "snapshot state is not consistent, length of SiteCacheInfoList=" ++
    toString snapshot.siteCacheInfoList.length ++ " not equal to length of siteIDs in tree=" ++
    toString c.siteTree.numSites ++ " , length of SiteCacheInfoMap=" ++
    toString snapshot.siteCacheInfoMap.ptr.keys.length ++ ", length of siteIDs in cache=" ++
    toString c.siteCacheInfos.keys.length ++ ", trying to recover"

/-- A list that is not as long as the tree has sites is made again, with an error. -/
def checkList (snapshot : CacheSnapshot) (c : SiteCache) :
    Outcome (Option (SiteCache × CacheSnapshot × Option String)) :=
  if snapshot.siteCacheInfoList.length = c.siteTree.numSites then pure (some (c, snapshot, none))
  else do
    match ← c.updateSiteCacheInfoSnapshotList snapshot with
    | none => pure none
    | some (c', snapshot') => pure (some (c', snapshot', some (notConsistent snapshot c)))

/-- What the two caches share of `UpdateSnapshot`. -/
def updateSnapshot (ord : List String) (snapshot : CacheSnapshot) (c : SiteCache) :
    Outcome (Option (SiteCache × CacheSnapshot × Option String)) := do
  match ← c.relist (c.refresh ord snapshot).1 (c.refresh ord snapshot).2 with
  | none => pure none
  | some (c, snapshot) => c.checkList snapshot

end SiteCache

/-- A cache with the one snapshot that is taken of it again and again. -/
structure Session where
  cache : SiteCache := {}
  snapshot : CacheSnapshot := {}
deriving DecidableEq

def Session.onCache (s : Session) (call : SiteCache → Outcome SiteCache) : Outcome (Option Session) := do
  let cache ← call s.cache
  pure (some { s with cache := cache })

end GlobalScheduler.Cache
