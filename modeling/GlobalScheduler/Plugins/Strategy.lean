import GlobalScheduler.Framework.Framework
import GlobalScheduler.Go.Int64
import GlobalScheduler.Snapshot

/-! The strategy plugins.

They turn the priority list into the list of sites to fill, and say how many
copies each gets. `RegionAndAz` keeps the sites of one region that can take the
whole request when the caller asks for that; `LocationAndOperator` hands out the
copies, site by site until they are used up, or to each site its share. -/
namespace GlobalScheduler

open Go Outcome List.Sublist SiteScore Fp

/-! ### One region -/

namespace RegionAndAz

/-- The sites of a region and the copies they can take together. -/
structure RegionMap where
  count : Int := 0
  siteScoreList : List SiteScore := []
deriving DecidableEq

/-- Group the sites by region; a site without selector state or record is left out. -/
def groupByRegion (snap : Snapshot) (state : CycleState) :
    List SiteScore → Map String RegionMap → Outcome (Map String RegionMap)
  | [], regionMap => pure regionMap
  | siteScore :: rest, regionMap =>
    match getSiteSelectorState state siteScore.siteID,
        snap.siteCacheInfoMap.lookup siteScore.siteID with
    | some selectorInfo, some info => do
      let site ← info.getSite
      let region := site.regionAzMap.region
      let tempRegion := (regionMap.lookup region).getD {}
      groupByRegion snap state rest (regionMap.insert region {
        count := int64 (tempRegion.count + selectorInfo.stackMaxCount)
        siteScoreList := tempRegion.siteScoreList ++ [siteScore] })
    | _, _ => groupByRegion snap state rest regionMap

/-- A round of the loop over the regions, with the final region and its count so far. -/
def takeLarger (replicas : Int) (best : String × Int) (e : String × RegionMap) : String × Int :=
  if e.2.count < replicas then best
  else if e.2.count > best.2 then (e.1, e.2.count) else best

/-- The region with the most copies among those with enough; the empty name is none. -/
def finalRegion (replicas : Int) (regions : List (String × RegionMap)) : String :=
  (regions.foldl (takeLarger replicas) ("", 0)).1

def strategy (ord : List String) (snap : Snapshot) (state : CycleState) (alloc : Allocation)
    (sites : List SiteScore) : Outcome (List SiteScore × Status) :=
  if alloc.selector.strategy.regionStrategy ≠ "alone" then pure (sites, .nil)
  else do
    let regionMap ← groupByRegion snap state sites ∅
    let region := finalRegion alloc.replicas (Map.entriesBy ord regionMap)
    if region = "" then
      pure ([], ⟨.unschedulable, ["region Capability cannot meet the needs"]⟩)
    else pure (((regionMap.lookup region).getD {}).siteScoreList, .nil)

theorem groupByRegion_sublist {snap : Snapshot} {state : CycleState} {done sites : List SiteScore}
    {m m' : Map String RegionMap} (hm : ∀ region r, m.lookup region = some r → r.siteScoreList.Sublist done)
    (h : groupByRegion snap state sites m = .ok m') :
    ∀ region r, m'.lookup region = some r → r.siteScoreList.Sublist (done ++ sites) := by
  induction sites generalizing done m with
  | nil =>
    rw [groupByRegion, pure_ok] at h
    subst h
    simpa using hm
  | cons s rest ih =>
    have hkeep : ∀ region r, m.lookup region = some r → r.siteScoreList.Sublist (done ++ [s]) :=
      fun region r hr => (hm region r hr).trans (List.sublist_append_left _ _)
    rw [List.append_cons]
    rw [groupByRegion] at h
    split at h
    case h_1 sel info _ _ =>
      obtain ⟨site, _, h⟩ := bind_ok.mp h
      refine ih ?_ h
      intro region r hr
      by_cases hreg : region = site.regionAzMap.region
      · subst hreg
        rw [AList.lookup_insert] at hr
        cases hr
        refine append ?_ (refl _)
        cases hold : m.lookup site.regionAzMap.region with
        | none => exact List.nil_sublist _
        | some old => exact hm _ old hold
      · rw [AList.lookup_insert_ne hreg] at hr
        exact hkeep region r hr
    case h_2 => exact ih hkeep h

theorem strategy_sublist {ord : List String} {snap : Snapshot} {state : CycleState}
    {alloc : Allocation} {sites sites' : List SiteScore} {status : Status}
    (h : strategy ord snap state alloc sites = .ok (sites', status)) : sites'.Sublist sites := by
  unfold strategy at h
  split at h
  · cases h
    exact refl _
  · obtain ⟨m, hgroup, h⟩ := bind_ok.mp h
    dsimp only at h
    split at h
    · cases h
      exact List.nil_sublist _
    · cases h
      have hnone : ∀ region r, (∅ : Map String RegionMap).lookup region = some r →
          r.siteScoreList.Sublist [] := by
        intro region r hr
        cases hr
      have hsub := groupByRegion_sublist hnone hgroup
      cases hr : m.lookup (finalRegion alloc.replicas (Map.entriesBy ord m)) with
      | none => exact List.nil_sublist _
      | some r => exact hsub _ r hr

def plugin (ord : List String) (snap : Snapshot) : StrategyPlugin where
  name := "regionandaz"
  strategy := strategy ord snap
  sublist := fun _ _ _ _ _ h => (strategy_sublist h).map _

end RegionAndAz

/-! ### Copies per site -/

namespace LocationAndOperator
variable (F : Format) (state : CycleState)

/-- The first loop: a site without selector state is passed over, and the sum wraps around. -/
def totalCount (sites : List SiteScore) : Int :=
  (sites.filterMap (getSiteSelectorState state ·.siteID)).foldl
    (fun total selectorInfo => int64 (total + selectorInfo.stackMaxCount)) 0

/-- The loop of both strategies: each site gets `stackCount left stackMaxCount`
copies, until none are left; a site without selector state is passed over. -/
def handOut (stackCount : Int → Int → Int) : List SiteScore → Int → List SiteScore
  | [], _ => []
  | siteScore :: rest, left =>
    match getSiteSelectorState state siteScore.siteID with
    | none => handOut stackCount rest left
    | some selectorInfo =>
      let n := stackCount left selectorInfo.stackMaxCount
      { siteScore with stackCount := n } ::
        if int64 (left - n) ≤ 0 then [] else handOut stackCount rest (int64 (left - n))

/-- As many as are still wanted, or as the site can take. -/
def centralizeCount (count stackMaxCount : Int) : Int :=
  (min (.ofInt F count) (.ofInt F stackMaxCount)).toInt64

def centralize : List SiteScore → Int → List SiteScore := handOut state (centralizeCount F)

/-- The site's share of the request, rounded to the nearest, at least one and no more
than the site can take. -/
def discreteCount (count total stackMaxCount : Int) : Int :=
  let share := div F (mul F (.ofInt F count) (.ofInt F stackMaxCount)) (.ofInt F total)
  let rounded := max (floor (add F share (.fin (1 / 2)))) (.fin 1)
  (min rounded (.ofInt F stackMaxCount)).toInt64

def discrete (count total : Int) : List SiteScore → Int → List SiteScore :=
  handOut state fun _ => discreteCount F count total

def strategy (alloc : Allocation) (sites : List SiteScore) : List SiteScore × Status :=
  let count := alloc.replicas
  let total := totalCount state sites
  if count > total then ([], ⟨.unschedulable, ["not find host"]⟩)
  else if alloc.selector.strategy.locationStrategy = "centralize" then
    (centralize F state sites count, .nil)
  else (discrete F state count total sites count, .nil)

theorem handOut_sublist (stackCount : Int → Int → Int) (sites : List SiteScore) (left : Int) :
    ((handOut state stackCount sites left).map siteID).Sublist
      (sites.map siteID) := by
  induction sites generalizing left with
  | nil => exact List.nil_sublist _
  | cons s rest ih =>
    rw [handOut]
    split
    · exact (ih left).cons _
    · apply cons_cons
      split
      · exact List.nil_sublist _
      · exact ih _

theorem mem_handOut {state : CycleState} {stackCount : Int → Int → Int} {sites : List SiteScore} {left : Int}
    {value : SiteScore} (h : value ∈ handOut state stackCount sites left) :
    ∃ s ∈ sites, ∃ sel l, getSiteSelectorState state s.siteID = some sel ∧
      value = { s with stackCount := stackCount l sel.stackMaxCount } := by
  induction sites generalizing left with
  | nil => cases h
  | cons s rest ih =>
    have hlater : ∀ left, value ∈ handOut state stackCount rest left → _ := fun left h =>
      (ih h).imp fun s' hs' => And.imp_left (List.mem_cons_of_mem s) hs'
    rw [handOut] at h
    split at h
    · exact hlater _ h
    case h_2 sel hsel =>
      rcases List.mem_cons.mp h with rfl | h
      · exact ⟨s, List.mem_cons_self, sel, left, hsel, rfl⟩
      · split at h
        · cases h
        · exact hlater _ h

theorem strategy_sublist (alloc : Allocation) (sites : List SiteScore) :
    ((strategy F state alloc sites).1.map siteID).Sublist
      (sites.map siteID) := by
  unfold strategy
  dsimp only
  split
  · exact List.nil_sublist _
  · split
    · exact handOut_sublist state _ sites _
    · exact handOut_sublist state _ sites _

def plugin : StrategyPlugin where
  name := "LocationAndOperator"
  strategy := fun state alloc sites => pure (strategy .float64 state alloc sites)
  sublist := by
    intro state alloc sites sites' status h
    have heq := pure_ok.mp h
    have := strategy_sublist .float64 state alloc sites
    rwa [heq] at this

end LocationAndOperator

end GlobalScheduler
