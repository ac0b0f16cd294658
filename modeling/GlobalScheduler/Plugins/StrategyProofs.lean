import GlobalScheduler.Plugins.Strategy

/-! What the strategy plugins make of a priority list.

`RegionAndAz` keeps the sites of a region that can take the most. Of the two strategies of
`LocationAndOperator`, the one that fills the sites in order hands out the request exactly,
and the one that gives each site its share may hand out less, since shares are rounded. All
of them add up what the sites can take in 64 bits, and go by that where it wraps around. -/
namespace GlobalScheduler

open Go SiteScore Format Fp Map List

/-- The copies a site can take, as its selector state has it. -/
def stackMaxCountOf (state : CycleState) (s : SiteScore) : Int :=
  ((getSiteSelectorState state s.siteID).map (·.stackMaxCount)).getD 0

variable {sel : SiteSelectorInfo}

theorem stackMaxCountOf_eq {state : CycleState} {s : SiteScore}
    (h : getSiteSelectorState state s.siteID = some sel) : stackMaxCountOf state s = sel.stackMaxCount := by
  simp [stackMaxCountOf, h]

/-- The copies that the sites can take together. -/
def capacity (state : CycleState) (sites : List SiteScore) : Int := (sites.map (stackMaxCountOf state)).sum

theorem capacity_cons (state : CycleState) (s : SiteScore) (rest : List SiteScore) :
    capacity state (s :: rest) = stackMaxCountOf state s + capacity state rest := by
  rw [capacity, map_cons, sum_cons, capacity]

theorem capacity_nonneg {state : CycleState} {sites : List SiteScore}
    (h : ∀ s ∈ sites, ∃ sel, getSiteSelectorState state s.siteID = some sel ∧ 0 ≤ sel.stackMaxCount) :
    0 ≤ capacity state sites := by
  apply sum_nonneg
  intro n hn
  obtain ⟨s, hs, rfl⟩ := mem_map.mp hn
  obtain ⟨sel, hsel, hpos⟩ := h s hs
  rwa [stackMaxCountOf_eq hsel]

/-- A cycle state with the given numbers of copies. -/
def countedState (counts : List (String × Int)) : CycleState where
  siteTempSelected := some (counts.foldr (fun e m => m.insert e.1 { stackMaxCount := e.2 }) ∅)

/-! ### One region -/

namespace RegionAndAz
variable {snap : Snapshot} {state : CycleState} {alloc : Allocation} {sites : List SiteScore}

def regionOf (snap : Snapshot) (s : SiteScore) : String :=
  (((snap.siteCacheInfoMap.lookup s.siteID).bind (·.site)).map (·.regionAzMap.region)).getD ""

/-- The sites of a region, in the order of the list. -/
def inRegion (snap : Snapshot) (sites : List SiteScore) (region : String) : List SiteScore :=
  sites.filter (regionOf snap · = region)

/-- The copies that the sites of a region can take together. -/
def regionTotal (snap : Snapshot) (state : CycleState) (sites : List SiteScore) (region : String) : Int :=
  capacity state (inRegion snap sites region)

/-- The site has a selector state and a record with a region. -/
def Grouped (snap : Snapshot) (state : CycleState) (s : SiteScore) : Prop :=
  ∃ sel info site, getSiteSelectorState state s.siteID = some sel ∧ 0 ≤ sel.stackMaxCount ∧
    snap.siteCacheInfoMap.lookup s.siteID = some info ∧ info.site = some site ∧
    site.regionAzMap.region ≠ ""

theorem inRegion_append (snap : Snapshot) (done : List SiteScore) (s : SiteScore) (region : String) :
    inRegion snap (done ++ [s]) region =
      inRegion snap done region ++ if regionOf snap s = region then [s] else [] := by
  unfold inRegion
  by_cases h : regionOf snap s = region <;> simp [h]

theorem regionTotal_append (snap : Snapshot) (state : CycleState) (done : List SiteScore) (s : SiteScore)
    (region : String) : regionTotal snap state (done ++ [s]) region =
      regionTotal snap state done region +
        if regionOf snap s = region then stackMaxCountOf state s else 0 := by
  rw [regionTotal, inRegion_append, capacity, map_append, sum_append, regionTotal, capacity]
  split_ifs <;> simp

variable {region : String}

theorem mem_inRegion {s : SiteScore} :
    s ∈ inRegion snap sites region ↔ s ∈ sites ∧ regionOf snap s = region := by
  simp [inRegion]

theorem regionTotal_nonneg (hsites : ∀ s ∈ sites, Grouped snap state s) (region : String) :
    0 ≤ regionTotal snap state sites region := by
  refine capacity_nonneg fun s hs => ?_
  obtain ⟨sel, -, -, hsel, hpos, -⟩ := hsites s (mem_inRegion.mp hs).1
  exact ⟨sel, hsel, hpos⟩

/-- What the loop counts for a region. -/
def counted (snap : Snapshot) (state : CycleState) (sites : List SiteScore) (region : String) : Int :=
  int64 (regionTotal snap state sites region)

/-- The map has the regions of the sites, each with its sites and its count. -/
def Groups (snap : Snapshot) (state : CycleState) (sites : List SiteScore) (m : Map String RegionMap) :
    Prop :=
  ∀ region, m.lookup region = if inRegion snap sites region = [] then none
    else some ⟨counted snap state sites region, inRegion snap sites region⟩

variable {done : List SiteScore} {m : Map String RegionMap}

theorem Groups.insert (h : Groups snap state done m)
    (s : SiteScore) : Groups snap state (done ++ [s]) (m.insert (regionOf snap s) {
      count := int64 (((m.lookup (regionOf snap s)).getD {}).count + stackMaxCountOf state s)
      siteScoreList := ((m.lookup (regionOf snap s)).getD {}).siteScoreList ++ [s] }) := by
  intro region
  have hold : (m.lookup (regionOf snap s)).getD {} =
      ⟨counted snap state done (regionOf snap s), inRegion snap done (regionOf snap s)⟩ := by
    rw [h (regionOf snap s)]
    split_ifs with hempty
    · rw [counted, regionTotal, hempty]
      rfl
    · rfl
  by_cases heq : region = regionOf snap s
  · subst heq
    rw [AList.lookup_insert, hold, counted, counted, regionTotal_append, inRegion_append, if_pos rfl,
      if_pos rfl, if_neg (append_ne_nil_of_right_ne_nil _ (cons_ne_nil _ _)), int64_add]
  · rw [AList.lookup_insert_ne heq, h region, counted, counted, regionTotal_append, inRegion_append,
      if_neg (Ne.symm heq), if_neg (Ne.symm heq), append_nil, Int.add_zero]

theorem groupByRegion_groups (hsites : ∀ s ∈ sites, Grouped snap state s) (h : Groups snap state done m) :
    ∃ m', groupByRegion snap state sites m = .ok m' ∧ Groups snap state (done ++ sites) m' := by
  induction sites generalizing done m with
  | nil => exact ⟨m, rfl, by rwa [append_nil]⟩
  | cons s rest ih =>
    obtain ⟨sel, info, site, hsel, -, hinfo, hsite, -⟩ := hsites s mem_cons_self
    have hregion : regionOf snap s = site.regionAzMap.region := by
      simp [regionOf, hinfo, hsite]
    have hget : info.getSite = .ok site := SiteCacheInfo.getSite_ok.mpr hsite
    obtain ⟨m', hgroup, hgroups⟩ := ih (fun s hs => hsites s (mem_cons_of_mem _ hs)) (h.insert s)
    refine ⟨m', ?_, by rwa [append_cons]⟩
    rw [groupByRegion, hsel, hinfo]
    simp only [hget, bind, Except.bind]
    rwa [hregion, stackMaxCountOf_eq hsel] at hgroup

/-- What the loop over the regions has found. -/
def Best (replicas : Int) (regions : List (String × RegionMap)) (best : String × Int) : Prop :=
  (best = ("", 0) ∧ ∀ e ∈ regions, e.2.count < replicas) ∨
    ∃ e ∈ regions, best = (e.1, e.2.count) ∧ replicas ≤ e.2.count ∧
      ∀ e' ∈ regions, e'.2.count ≤ e.2.count

theorem foldl_best {replicas : Int} (hreplicas : 1 ≤ replicas) (regions : List (String × RegionMap)) :
    Best replicas regions (regions.foldl (takeLarger replicas) ("", 0)) := by
  induction regions using reverseRecOn with
  | nil => exact Or.inl ⟨rfl, fun _ h => by cases h⟩
  | append_singleton regions e ih =>
    rw [foldl_append, foldl_cons, foldl_nil]
    generalize regions.foldl (takeLarger replicas) ("", 0) = best at ih ⊢
    unfold takeLarger
    have hlast : ∀ P : String × RegionMap → Prop, (∀ e' ∈ regions, P e') → P e →
        ∀ e' ∈ regions ++ [e], P e' := by
      intro P hall he e' he'
      rcases mem_append.mp he' with hmem | hmem
      · exact hall e' hmem
      · rwa [mem_singleton.mp hmem]
    split_ifs with hsmall hmore
    · rcases ih with ⟨hnone, hall⟩ | ⟨top, htop, hbest, henough, hmax⟩
      · exact Or.inl ⟨hnone, hlast _ hall hsmall⟩
      · exact Or.inr ⟨top, mem_append_left _ htop, hbest, henough, hlast _ hmax (by omega)⟩
    · refine Or.inr ⟨e, mem_append_right _ (mem_singleton.mpr rfl), rfl, by omega, ?_⟩
      rcases ih with ⟨-, hall⟩ | ⟨top, -, rfl, -, hmax⟩
      · exact hlast _ (fun e' he' => by have := hall e' he'; omega) le_rfl
      · exact hlast _ (fun e' he' => (hmax e' he').trans hmore.le) le_rfl
    · rcases ih with ⟨rfl, -⟩ | ⟨top, htop, rfl, henough, hmax⟩
      · -- A region with enough copies has more than none.
        exact absurd (by show (0 : Int) < e.2.count; omega) hmore
      · exact Or.inr ⟨top, mem_append_left _ htop, rfl, henough, hlast _ hmax (by omega)⟩

theorem foldl_stays {replicas : Int} {best : String × Int} {regions : List (String × RegionMap)}
    (h : ∀ e ∈ regions, e.2.count ≤ best.2) : regions.foldl (takeLarger replicas) best = best := by
  induction regions with
  | nil => rfl
  | cons e rest ih =>
    have hround : takeLarger replicas best e = best := by
      have hle := h e mem_cons_self
      unfold takeLarger
      split_ifs
      · rfl
      · omega
      · rfl
    rw [foldl_cons, hround]
    exact ih fun e' he' => h e' (mem_cons_of_mem e he')

/-! #### The call -/

/-- The region is chosen: no other has a larger count. -/
structure Chosen (snap : Snapshot) (state : CycleState) (alloc : Allocation) (sites : List SiteScore)
    (region : String) : Prop where
  site : ∃ s ∈ sites, regionOf snap s = region
  enough : alloc.replicas ≤ counted snap state sites region
  most : ∀ other, counted snap state sites other ≤ counted snap state sites region

theorem counted_of_empty (h : inRegion snap sites region = []) :
    counted snap state sites region = 0 := by
  rw [counted, regionTotal, h]
  rfl

theorem inRegion_ne_nil (hreplicas : 1 ≤ alloc.replicas)
    (h : alloc.replicas ≤ counted snap state sites region) : inRegion snap sites region ≠ [] := by
  intro hempty
  rw [counted_of_empty hempty] at h
  omega

section Call
variable (halone : alloc.selector.strategy.regionStrategy = "alone") (hreplicas : 1 ≤ alloc.replicas)
  (hsites : ∀ s ∈ sites, Grouped snap state s)
include halone hreplicas hsites

/-- **The call** takes the region that the loop over the regions ends with. -/
theorem strategy_alone (ord : List String) :
    ∃ m, Groups snap state sites m ∧
      ((∀ region, counted snap state sites region < alloc.replicas) ∧
          (strategy ord snap state alloc sites).map (fun r => r.2.isSuccess) = .ok false ∨
        ∃ region, finalRegion alloc.replicas (entriesBy ord m) = region ∧
          Chosen snap state alloc sites region ∧
          strategy ord snap state alloc sites = .ok (inRegion snap sites region, .nil)) := by
  have hnothing : Groups snap state [] ∅ := fun _ => rfl
  obtain ⟨m, hgroup, hgroups⟩ := groupByRegion_groups hsites hnothing
  rw [nil_append] at hgroups
  have hentries : ∀ e, e ∈ entriesBy ord m ↔
      inRegion snap sites e.1 ≠ [] ∧ e.2 = ⟨counted snap state sites e.1, inRegion snap sites e.1⟩ := by
    rintro ⟨region, r⟩
    rw [mem_entriesBy, hgroups region]
    split_ifs with hempty <;> simp [hempty, eq_comm]
  have hlisted : ∀ region, inRegion snap sites region ≠ [] →
      (region, ⟨counted snap state sites region, inRegion snap sites region⟩) ∈ entriesBy ord m :=
    fun region hin => (hentries _).mpr ⟨hin, rfl⟩
  refine ⟨m, hgroups, ?_⟩
  unfold strategy
  rw [if_neg (not_not.mpr halone), hgroup]
  simp only [bind, Except.bind]
  rcases foldl_best hreplicas (entriesBy ord m) with ⟨hnone, hall⟩ | ⟨e, he, hbest, henough, hmax⟩
  · have hfinal : finalRegion alloc.replicas (entriesBy ord m) = "" := by rw [finalRegion, hnone]
    rw [hfinal, if_pos rfl]
    refine Or.inl ⟨fun region => not_le.mp fun hle => ?_, rfl⟩
    exact absurd (hall _ (hlisted region (inRegion_ne_nil hreplicas hle))) (not_lt.mpr hle)
  · obtain ⟨hin, hvalue⟩ := (hentries e).mp he
    have hfinal : finalRegion alloc.replicas (entriesBy ord m) = e.1 := by rw [finalRegion, hbest]
    obtain ⟨s, hs⟩ := exists_mem_of_ne_nil _ hin
    obtain ⟨hmem, hregion⟩ := mem_inRegion.mp hs
    have hname : e.1 ≠ "" := by
      obtain ⟨sel, info, site, -, -, hinfo, hsite, hname⟩ := hsites s hmem
      rw [← hregion]
      simpa [regionOf, hinfo, hsite] using hname
    rw [hvalue] at henough hmax
    refine Or.inr ⟨e.1, hfinal, ⟨⟨s, hmem, hregion⟩, henough, fun other => ?_⟩, ?_⟩
    · by_cases hother : inRegion snap sites other = []
      · rw [counted_of_empty hother]
        exact le_trans (by omega) henough
      · exact hmax _ (hlisted other hother)
    · rw [hfinal, if_neg hname, hgroups e.1, if_neg hin]
      rfl

/-- A region with the largest count is chosen if the loop comes to it first. -/
theorem strategy_alone_first {region : String} (henough : alloc.replicas ≤ counted snap state sites region)
    (hmost : ∀ other, counted snap state sites other ≤ counted snap state sites region) :
    strategy [region] snap state alloc sites = .ok (inRegion snap sites region, .nil) := by
  obtain ⟨m, hgroups, hcall⟩ := strategy_alone halone hreplicas hsites [region]
  cases hcall with
  | inl hrefused => exact absurd henough (not_le.mpr (hrefused.1 region))
  | inr hchosen =>
    obtain ⟨chosen, hfinal, -, hcall⟩ := hchosen
    have hin := inRegion_ne_nil hreplicas henough
    have hfound : m.lookup region =
        some ⟨counted snap state sites region, inRegion snap sites region⟩ := by
      rw [hgroups region, if_neg hin]
    obtain ⟨rest, hrest⟩ := entriesBy_first hfound
    have hround : takeLarger alloc.replicas ("", 0)
        (region, ⟨counted snap state sites region, inRegion snap sites region⟩) =
          (region, counted snap state sites region) := by
      have hpos : (0 : Int) < counted snap state sites region := hreplicas.trans henough
      rw [takeLarger, if_neg (not_lt.mpr henough), if_pos hpos]
    have hrounds : ∀ e ∈ rest, e.2.count ≤ counted snap state sites region := by
      intro e he
      have hlook : m.lookup e.1 = some e.2 :=
        mem_entriesBy.mp (hrest ▸ mem_cons_of_mem _ he : (e.1, e.2) ∈ entriesBy [region] m)
      rw [hgroups e.1] at hlook
      split_ifs at hlook
      rw [← Option.some_inj.mp hlook]
      exact hmost e.1
    rw [finalRegion, hrest, foldl_cons, hround, foldl_stays hrounds] at hfinal
    rw [hcall, ← hfinal]

end Call

/-- The call succeeds exactly if there is a region that can take the request, and then with the
sites of a region that can take the most. -/
def AloneRight (ord : List String) (snap : Snapshot) (state : CycleState) (alloc : Allocation)
    (sites : List SiteScore) : Prop :=
  ∃ out status, strategy ord snap state alloc sites = .ok (out, status) ∧
    (status.isSuccess = true ↔ ∃ region, alloc.replicas ≤ regionTotal snap state sites region) ∧
    (status.isSuccess = true → ∃ region, (∃ s ∈ sites, regionOf snap s = region) ∧
      out = inRegion snap sites region ∧
      ∀ other, regionTotal snap state sites other ≤ regionTotal snap state sites region)

/-- **One region that can take the whole request**, in every order of the loop over the regions,
exactly if the counts in 64 bits tell of a region that can take it where there is one, and
every region with the largest count can take the most. -/
theorem alone_right_iff (halone : alloc.selector.strategy.regionStrategy = "alone")
    (hreplicas : 1 ≤ alloc.replicas) (hsites : ∀ s ∈ sites, Grouped snap state s) :
    (∀ ord, AloneRight ord snap state alloc sites) ↔
      ((∃ region, alloc.replicas ≤ regionTotal snap state sites region) →
        ∃ region, alloc.replicas ≤ counted snap state sites region) ∧
      ∀ region, alloc.replicas ≤ counted snap state sites region →
        (∀ other, counted snap state sites other ≤ counted snap state sites region) →
        ∀ other, regionTotal snap state sites other ≤ regionTotal snap state sites region := by
  constructor
  · intro hright
    refine ⟨fun hregion => ?_, fun region henough hmost => ?_⟩
    · obtain ⟨out, status, hok, hsuccess, -⟩ := hright []
      obtain ⟨m, -, hrefused | ⟨region, -, hchosen, -⟩⟩ := strategy_alone halone hreplicas hsites []
      · have hfailed := hrefused.2
        rw [hok] at hfailed
        exact absurd ((Except.ok.inj hfailed).symm.trans (hsuccess.mpr hregion)) Bool.false_ne_true
      · exact ⟨region, hchosen.enough⟩
    · obtain ⟨out, status, hok, -, hmaximal⟩ := hright [region]
      rw [strategy_alone_first halone hreplicas hsites henough hmost] at hok
      cases hok
      obtain ⟨region', ⟨s, hs, hregion'⟩, hsame, hmaximal⟩ := hmaximal rfl
      -- The two regions have a site in common.
      have hin : s ∈ inRegion snap sites region := hsame ▸ mem_inRegion.mpr ⟨hs, hregion'⟩
      rwa [← (mem_inRegion.mp hin).2, hregion']
  · intro ⟨hsome, hlargest⟩ ord
    obtain ⟨m, -, hrefused | ⟨region, -, hchosen, hcall⟩⟩ := strategy_alone halone hreplicas hsites ord
    · obtain ⟨⟨out, status⟩, hok, hfailed⟩ := Outcome.map_ok.mp hrefused.2
      have hnot : ¬ status.isSuccess = true := by rw [hfailed]; exact Bool.false_ne_true
      refine ⟨out, status, hok, iff_of_false hnot fun hregion => ?_, fun h => absurd h hnot⟩
      obtain ⟨region, henough⟩ := hsome hregion
      exact absurd henough (not_le.mpr (hrefused.1 region))
    · have hle := int64_le (regionTotal_nonneg hsites region)
      refine ⟨_, _, hcall, iff_of_true rfl ⟨region, hchosen.enough.trans hle⟩, fun _ =>
        ⟨region, hchosen.site, rfl, hlargest region hchosen.enough hchosen.most⟩⟩

/-- Two regions, of which one can take three copies. -/
def twoRegions : Snapshot :=
  let info (region siteID : String) : SiteCacheInfo :=
    { site := some { siteID := siteID, regionAzMap := ⟨region, ""⟩ } }
  ((Snapshot.empty.put "a" (info "r" "a") (by simp [info])).put "b" (info "s" "b") (by simp [info])).put
    "c" (info "s" "c") (by simp [info])

def aloneRequest (replicas : Int) : Allocation :=
  { replicas := replicas, selector := { strategy := { regionStrategy := "alone" } } }

def threeSites : List SiteScore := [{ siteID := "b" }, { siteID := "a" }, { siteID := "c" }]

theorem inRegion_twoRegions (hr : region ≠ "r") (hs : region ≠ "s") :
    inRegion twoRegions threeSites region = [] := by
  have hregions : threeSites.map (regionOf twoRegions) = ["s", "r", "s"] := by decide +kernel
  apply filter_eq_nil_iff.mpr
  intro s hmem heq
  have hregion : regionOf twoRegions s ∈ ["s", "r", "s"] := hregions ▸ mem_map_of_mem hmem
  rw [of_decide_eq_true heq] at hregion
  simp [hr, hs] at hregion

/-- Three copies go to the second region, which has two sites. -/
theorem alone_right_two :
    (∀ ord, AloneRight ord twoRegions (countedState [("a", 2), ("b", 1), ("c", 2)]) (aloneRequest 3) threeSites) ∧
      strategy ["r", "s"] twoRegions (countedState [("a", 2), ("b", 1), ("c", 2)]) (aloneRequest 3) threeSites =
        .ok ([{ siteID := "b" }, { siteID := "c" }], .nil) := by
  have hsites : ∀ s ∈ threeSites, Grouped twoRegions (countedState [("a", 2), ("b", 1), ("c", 2)]) s := by
    rw [threeSites, forall_mem_cons, forall_mem_cons, forall_mem_singleton]
    refine ⟨⟨{ stackMaxCount := 1 }, _, _, ?_, ?_, rfl, rfl, ?_⟩,
      ⟨{ stackMaxCount := 2 }, _, _, ?_, ?_, rfl, rfl, ?_⟩,
      ⟨{ stackMaxCount := 2 }, _, _, ?_, ?_, rfl, rfl, ?_⟩⟩ <;> decide +kernel
  have hexact : ∀ region, counted twoRegions (countedState [("a", 2), ("b", 1), ("c", 2)]) threeSites region =
      regionTotal twoRegions (countedState [("a", 2), ("b", 1), ("c", 2)]) threeSites region := by
    intro region
    by_cases hr : region = "r"
    · rw [hr]
      decide +kernel
    · by_cases hs : region = "s"
      · rw [hs]
        decide +kernel
      · rw [counted_of_empty (inRegion_twoRegions hr hs), regionTotal, inRegion_twoRegions hr hs]
        rfl
  refine ⟨(alone_right_iff rfl (by decide) hsites).mpr ?_, by decide +kernel⟩
  simp only [hexact]
  exact ⟨id, fun _ _ hmost => hmost⟩

/-- **The count of a region wraps around**: two sites that can take `2 ^ 62` copies each are too
small for one. -/
theorem alone_right_fails :
    regionTotal twoRegions (countedState [("a", 0), ("b", 2 ^ 62), ("c", 2 ^ 62)]) threeSites "s" = 2 ^ 63 ∧
      strategy ["s"] twoRegions (countedState [("a", 0), ("b", 2 ^ 62), ("c", 2 ^ 62)]) (aloneRequest 1) threeSites =
        .ok ([], ⟨.unschedulable, ["region Capability cannot meet the needs"]⟩) ∧
      ¬ AloneRight ["s"] twoRegions (countedState [("a", 0), ("b", 2 ^ 62), ("c", 2 ^ 62)]) (aloneRequest 1)
        threeSites := by
  have htotal : regionTotal twoRegions (countedState [("a", 0), ("b", 2 ^ 62), ("c", 2 ^ 62)]) threeSites "s" =
      2 ^ 63 := by decide +kernel
  have hcall : strategy ["s"] twoRegions (countedState [("a", 0), ("b", 2 ^ 62), ("c", 2 ^ 62)]) (aloneRequest 1)
      threeSites = .ok ([], ⟨.unschedulable, ["region Capability cannot meet the needs"]⟩) := by
    decide +kernel
  refine ⟨htotal, hcall, fun hright => ?_⟩
  obtain ⟨out, status, hok, hsuccess, -⟩ := hright
  rw [hcall] at hok
  cases hok
  exact absurd (hsuccess.mpr ⟨"s", by rw [htotal]; decide⟩) Bool.false_ne_true

end RegionAndAz

/-! ### Copies per site -/

namespace LocationAndOperator
variable {state : CycleState} {alloc : Allocation} {s : SiteScore} {sites rest : List SiteScore}

theorem totalCount_eq (state : CycleState) (sites : List SiteScore) :
    totalCount state sites = int64 (capacity state sites) := by
  have hsum : ((sites.filterMap (getSiteSelectorState state ·.siteID)).map (·.stackMaxCount)).sum =
      capacity state sites := by
    induction sites with
    | nil => rfl
    | cons s rest ih =>
      rw [capacity_cons, ← ih, stackMaxCountOf]
      cases h : getSiteSelectorState state s.siteID <;> simp [h]
  have hwrap : totalCount state sites = int64 (0 + _) :=
    foldl_int64_wrap SiteSelectorInfo.stackMaxCount _ 0
  rw [hwrap, hsum, Int.zero_add]

variable {left : Int} {f : Int → Int}

theorem handOut_cons {stackCount : Int → Int → Int} (h : getSiteSelectorState state s.siteID = some sel)
    (hfits : Fits64 (left - stackCount left (stackMaxCountOf state s))) :
    handOut state stackCount (s :: rest) left =
      { s with stackCount := stackCount left (stackMaxCountOf state s) } ::
        if left - stackCount left (stackMaxCountOf state s) ≤ 0 then []
        else handOut state stackCount rest (left - stackCount left (stackMaxCountOf state s)) := by
  rw [stackMaxCountOf_eq h] at hfits ⊢
  rw [handOut, h]
  dsimp only
  rw [int64_of_fits hfits]

/-! #### In order -/

/-- Below `2 ^ 53` the smaller of two counts is that of their floats; a larger count is not
less than `2 ^ 53` as a float. -/
theorem centralizeCount_eq {stackMaxCount : Int} (hleft : 1 ≤ left) (hlow : 0 ≤ stackMaxCount)
    (hhigh : stackMaxCount < 2 ^ 53) :
    centralizeCount .float64 left stackMaxCount = min left stackMaxCount := by
  have hmax : float64.round stackMaxCount = stackMaxCount :=
    float64_round_intCast (by rw [abs_of_nonneg hlow]; exact hhigh.le)
  have hmin : min (float64.round left) stackMaxCount = ((min left stackMaxCount : Int) : ℚ) := by
    by_cases hsmall : left ≤ 2 ^ 53
    · rw [float64_round_intCast (by rwa [abs_of_nonneg (by omega)])]
      exact_mod_cast rfl
    · have hround : (2 : ℚ) ^ (53 : Int) ≤ float64.round left :=
        two_zpow_le_nearest (by decide) (by exact_mod_cast (not_le.mp hsmall).le)
      have hle : (stackMaxCount : ℚ) ≤ float64.round left :=
        le_trans (by exact_mod_cast hhigh.le) hround
      rw [min_eq_right hle, min_eq_right (by omega)]
  rw [centralizeCount, ofInt, ofInt, min_fin, hmax, hmin]
  exact toInt64_intCast (by omega) (by omega)

def filled (state : CycleState) (s : SiteScore) : SiteScore :=
  { s with stackCount := stackMaxCountOf state s }

/-- The list says how `left` copies fill the sites in order: all sites before the last one
listed take what they can, and the last takes what is left. -/
def FillsInOrder (state : CycleState) (sites : List SiteScore) (left : Int) (out : List SiteScore) :
    Prop :=
  ∃ before last after count, sites = before ++ last :: after ∧
    out = before.map (filled state) ++ [{ last with stackCount := count }] ∧
    0 < count ∧ count ≤ stackMaxCountOf state last ∧ capacity state before + count = left

theorem FillsInOrder.sum {out : List SiteScore} (h : FillsInOrder state sites left out) :
    (out.map stackCount).sum = left := by
  obtain ⟨before, last, after, count, -, rfl, -, -, hleft⟩ := h
  rw [map_append, map_map, sum_append, map_singleton, sum_singleton]
  exact hleft

/-- The loop that hands out the smaller of what is left and what a site can take. -/
theorem centralize_fills (hsites : ∀ s ∈ sites, ∃ sel, getSiteSelectorState state s.siteID = some sel ∧
      0 ≤ sel.stackMaxCount ∧ sel.stackMaxCount < 2 ^ 53) (hleft : 1 ≤ left) (hint : left ≤ maxInt64)
    (hfits : left ≤ capacity state sites) :
    FillsInOrder state sites left (centralize .float64 state sites left) := by
  induction sites generalizing left with
  | nil =>
    have hnone : capacity state [] = 0 := rfl
    omega
  | cons s rest ih =>
    obtain ⟨sel, hsel, hlow, hhigh⟩ := hsites s mem_cons_self
    rw [← stackMaxCountOf_eq hsel] at hlow hhigh
    have hcount : centralizeCount .float64 left (stackMaxCountOf state s) = min left (stackMaxCountOf state s) :=
      centralizeCount_eq hleft hlow hhigh
    have hrange : Fits64 (left - centralizeCount .float64 left (stackMaxCountOf state s)) := by
      rw [hcount]
      unfold maxInt64 at hint
      exact ⟨by omega, by omega⟩
    rw [capacity_cons] at hfits
    rw [centralize, handOut_cons hsel hrange, hcount]
    by_cases hlast : left ≤ stackMaxCountOf state s
    · rw [min_eq_left hlast, if_pos (by omega)]
      exact ⟨[], s, rest, left, rfl, rfl, by omega, hlast, Int.zero_add left⟩
    · rw [min_eq_right (by omega), if_neg (by omega)]
      have hrest : ∀ s ∈ rest, ∃ sel, getSiteSelectorState state s.siteID = some sel ∧
          0 ≤ sel.stackMaxCount ∧ sel.stackMaxCount < 2 ^ 53 := fun s hs =>
        hsites s (mem_cons_of_mem _ hs)
      have hmore : 1 ≤ left - stackMaxCountOf state s := by omega
      obtain ⟨before, last, after, count, hsplit, hout, hpos, hmax, hsum⟩ :=
        ih hrest hmore (by omega) (by omega)
      refine ⟨s :: before, last, after, count, by rw [hsplit]; rfl, ?_, hpos, hmax, ?_⟩
      · rw [centralize] at hout
        rw [hout]
        rfl
      · rw [capacity_cons]
        omega

/-- The request is refused exactly if the sites cannot take it together, and else every site of
the list but the last is filled, and the last takes what is left. -/
def CentralizeRight (state : CycleState) (alloc : Allocation) (sites : List SiteScore) : Prop :=
  (capacity state sites < alloc.replicas →
    strategy .float64 state alloc sites = ([], ⟨.unschedulable, ["not find host"]⟩)) ∧
  (alloc.replicas ≤ capacity state sites →
    ∃ out, strategy .float64 state alloc sites = (out, .nil) ∧
      FillsInOrder state sites alloc.replicas out ∧ (out.map stackCount).sum = alloc.replicas)

/-- **Filling the sites in order** is right exactly if 64 bits hold enough of what the sites can
take together. -/
theorem centralize_right_iff (hcentral : alloc.selector.strategy.locationStrategy = "centralize")
    (hsites : ∀ s ∈ sites, ∃ sel, getSiteSelectorState state s.siteID = some sel ∧
      0 ≤ sel.stackMaxCount ∧ sel.stackMaxCount < 2 ^ 53) (hreplicas : 1 ≤ alloc.replicas)
    (hint : alloc.replicas ≤ maxInt64) :
    CentralizeRight state alloc sites ↔
      (alloc.replicas ≤ capacity state sites → alloc.replicas ≤ int64 (capacity state sites)) := by
  have hrefused : int64 (capacity state sites) < alloc.replicas →
      strategy .float64 state alloc sites = ([], ⟨.unschedulable, ["not find host"]⟩) := by
    intro hmore
    rw [← totalCount_eq] at hmore
    rw [strategy, if_pos hmore]
  constructor
  · intro hright hfits
    by_contra hmore
    obtain ⟨out, hout, -⟩ := hright.2 hfits
    rw [hrefused (not_le.mp hmore)] at hout
    cases hout
  · intro henough
    have hnonneg : 0 ≤ capacity state sites := capacity_nonneg fun s hs => by
      obtain ⟨sel, hsel, hpos, -⟩ := hsites s hs
      exact ⟨sel, hsel, hpos⟩
    refine ⟨fun hmore => hrefused ((int64_le hnonneg).trans_lt hmore), fun hfits => ?_⟩
    have hfills := centralize_fills hsites hreplicas hint hfits
    refine ⟨centralize .float64 state sites alloc.replicas, ?_, hfills, hfills.sum⟩
    have hcounted := henough hfits
    rw [← totalCount_eq] at hcounted
    rw [strategy, if_neg (not_lt.mpr hcounted), if_pos hcentral]

def centralizeRequest (replicas : Int) : Allocation :=
  { replicas := replicas, selector := { strategy := { locationStrategy := "centralize" } } }

/-- Five copies for sites that can take two, none, four and one. -/
theorem centralize_right_four : ∃ sites state, sites.map (stackMaxCountOf state) = [2, 0, 4, 1] ∧
    CentralizeRight state (centralizeRequest 5) sites ∧
    (strategy .float64 state (centralizeRequest 5) sites).1.map stackCount = [2, 0, 3] := by
  have hsites : ∀ s ∈ ([{ siteID := "a" }, { siteID := "b" }, { siteID := "c" }, { siteID := "d" }] :
      List SiteScore), ∃ sel,
      getSiteSelectorState (countedState [("a", 2), ("b", 0), ("c", 4), ("d", 1)]) s.siteID = some sel ∧
        0 ≤ sel.stackMaxCount ∧ sel.stackMaxCount < 2 ^ 53 := by
    rw [forall_mem_cons, forall_mem_cons, forall_mem_cons, forall_mem_singleton]
    refine ⟨⟨{ stackMaxCount := 2 }, ?_⟩, ⟨{ stackMaxCount := 0 }, ?_⟩, ⟨{ stackMaxCount := 4 }, ?_⟩,
      { stackMaxCount := 1 }, ?_⟩ <;> decide +kernel
  have hright := (@centralize_right_iff _ (centralizeRequest 5) _ rfl hsites (by decide) (by decide)).mpr
    (by decide +kernel)
  exact ⟨_, _, by decide +kernel, hright, by decide +kernel⟩

/-- A thousand and twenty-five sites. -/
def manySites : List SiteScore := (range 1025).map fun i => { siteID := toString i }

def manyCounts : CycleState := countedState (manySites.map fun s => (s.siteID, 2 ^ 53 - 1))

theorem lookup_countedState {count : Int} (hs : s ∈ sites) :
    getSiteSelectorState (countedState (sites.map fun s => (s.siteID, count))) s.siteID =
      some { stackMaxCount := count } := by
  show AList.lookup s.siteID (foldr _ ∅ (sites.map fun s => (s.siteID, count))) = _
  induction sites with
  | nil => cases hs
  | cons s' rest ih =>
    rw [map_cons, foldr_cons]
    by_cases heq : s.siteID = s'.siteID
    · rw [heq, AList.lookup_insert]
    · rw [AList.lookup_insert_ne heq]
      refine ih ((mem_cons.mp hs).resolve_left fun hsame => heq ?_)
      rw [hsame]

/-- **The total wraps around**: sites that can take `2 ^ 53 - 1` copies each are too few for one
copy if there are so many that their sum is negative in 64 bits. -/
theorem centralize_right_fails :
    (∀ s ∈ manySites, ∃ sel, getSiteSelectorState manyCounts s.siteID = some sel ∧
      0 ≤ sel.stackMaxCount ∧ sel.stackMaxCount < 2 ^ 53) ∧
    capacity manyCounts manySites = 1025 * (2 ^ 53 - 1) ∧
    strategy .float64 manyCounts (centralizeRequest 1) manySites =
      ([], ⟨.unschedulable, ["not find host"]⟩) ∧
    ¬ CentralizeRight manyCounts (centralizeRequest 1) manySites := by
  have hlook : ∀ s ∈ manySites, getSiteSelectorState manyCounts s.siteID =
      some { stackMaxCount := 2 ^ 53 - 1 } := fun s hs => lookup_countedState hs
  have hcapacity : capacity manyCounts manySites = 1025 * (2 ^ 53 - 1) := by
    have hcounts : manySites.map (stackMaxCountOf manyCounts) = replicate 1025 (2 ^ 53 - 1) := by
      refine eq_replicate_iff.mpr ⟨by rw [length_map, manySites, length_map, length_range], ?_⟩
      intro n hn
      obtain ⟨s, hs, rfl⟩ := mem_map.mp hn
      rw [stackMaxCountOf_eq (hlook s hs)]
    rw [capacity, hcounts, sum_replicate]
    rfl
  have hcall : strategy .float64 manyCounts (centralizeRequest 1) manySites =
      ([], ⟨.unschedulable, ["not find host"]⟩) := by
    have hmore : (centralizeRequest 1).replicas > totalCount manyCounts manySites := by
      rw [totalCount_eq, hcapacity]
      decide
    rw [strategy, if_pos hmore]
  refine ⟨fun s hs => ⟨_, hlook s hs, by decide, by decide⟩, hcapacity, hcall, fun hright => ?_⟩
  obtain ⟨out, hout, -⟩ := hright.2 (by rw [hcapacity]; decide)
  rw [hcall] at hout
  cases hout

/-! #### By shares -/

/-- A site's share of the request, rounded to the nearest, at least one and no more than the
site can take. -/
def share (count total stackMaxCount : Int) : Int :=
  min (max ⌊(count * stackMaxCount / total : ℚ) + 1 / 2⌋ 1) stackMaxCount

theorem share_pos {count total stackMaxCount : Int} (h : 0 < stackMaxCount) :
    1 ≤ share count total stackMaxCount :=
  le_min (le_max_right _ _) h

/-- Over the rationals what a site gets is its share. -/
theorem discreteCount_eq {count total stackMaxCount : Int} (htotal : 1 ≤ total) (hmax : 0 < stackMaxCount)
    (hint : stackMaxCount ≤ maxInt64) :
    discreteCount .rational count total stackMaxCount = share count total stackMaxCount := by
  have hne : (total : ℚ) ≠ 0 := by exact_mod_cast (by omega : total ≠ 0)
  have hfloor : floor (add .rational (div .rational
      (mul .rational (.ofInt .rational count) (.ofInt .rational stackMaxCount))
      (.ofInt .rational total)) (.fin (1 / 2))) =
        .fin (⌊(count * stackMaxCount / total : ℚ) + 1 / 2⌋ : Int) := by
    simp [floor, add, div, mul, ofInt, rational, hne]
  have hone : 1 ≤ share count total stackMaxCount := share_pos hmax
  have hcap : share count total stackMaxCount ≤ stackMaxCount := min_le_right _ _
  have hrounded : min (max (⌊(count * stackMaxCount / total : ℚ) + 1 / 2⌋ : ℚ) 1) stackMaxCount =
      share count total stackMaxCount := by
    unfold share
    push_cast
    rfl
  rw [discreteCount, hfloor, max_fin, ofInt, min_fin]
  show (fin (min (max (⌊(count * stackMaxCount / total : ℚ) + 1 / 2⌋ : ℚ) 1) stackMaxCount)).toInt64 = _
  unfold maxInt64 at hint
  rw [hrounded, toInt64_intCast (by omega) (by omega)]

/-- The site has a selector state and can take some copies, as many as an `int` can count. -/
def Sized (state : CycleState) (s : SiteScore) : Prop :=
  ∃ sel, getSiteSelectorState state s.siteID = some sel ∧ 0 < sel.stackMaxCount ∧
    sel.stackMaxCount ≤ maxInt64

theorem Sized.bounds (h : Sized state s) : 0 < stackMaxCountOf state s ∧ stackMaxCountOf state s ≤ maxInt64 := by
  obtain ⟨sel, hsel, hbounds⟩ := h
  rwa [stackMaxCountOf_eq hsel]

theorem discrete_cons {count total : Int} (htotal : 1 ≤ total) (hs : Sized state s) (hleft : 1 ≤ left)
    (hint : left ≤ maxInt64) : discrete .rational state count total (s :: rest) left =
      { s with stackCount := share count total (stackMaxCountOf state s) } ::
        if left - share count total (stackMaxCountOf state s) ≤ 0 then []
        else discrete .rational state count total rest (left - share count total (stackMaxCountOf state s)) := by
  obtain ⟨hpos, hmax⟩ := hs.bounds
  have hcount := @discreteCount_eq count _ _ htotal hpos hmax
  have hone : 1 ≤ share count total (stackMaxCountOf state s) := share_pos hpos
  have hcap : share count total (stackMaxCountOf state s) ≤ stackMaxCountOf state s := min_le_right _ _
  have hrange : Fits64 (left - discreteCount .rational count total (stackMaxCountOf state s)) := by
    rw [hcount]
    unfold maxInt64 at hint hmax
    exact ⟨by omega, by omega⟩
  obtain ⟨sel, hsel, -⟩ := hs
  rw [discrete, handOut_cons hsel hrange, hcount]

/-- The loop hands out all shares, or ends early with nothing left. -/
theorem discrete_sum {count total : Int} (htotal : 1 ≤ total) (hsites : ∀ s ∈ sites, Sized state s)
    (hleft : 1 ≤ left) (hint : left ≤ maxInt64) :
    ((discrete .rational state count total sites left).map stackCount).sum =
        (sites.map fun s => share count total (stackMaxCountOf state s)).sum ∨
      left ≤ ((discrete .rational state count total sites left).map stackCount).sum ∧
        left ≤ (sites.map fun s => share count total (stackMaxCountOf state s)).sum := by
  induction sites generalizing left with
  | nil => exact Or.inl rfl
  | cons s rest ih =>
    have hs := hsites s mem_cons_self
    have hrest : ∀ s ∈ rest, Sized state s := fun s hs => hsites s (mem_cons_of_mem _ hs)
    have hone : 1 ≤ share count total (stackMaxCountOf state s) := share_pos hs.bounds.1
    rw [discrete_cons htotal hs hleft hint, map_cons, map_cons, sum_cons, sum_cons]
    dsimp only
    split_ifs with hdone
    · right
      have hothers : 0 ≤ (rest.map fun s => share count total (stackMaxCountOf state s)).sum := by
        apply sum_nonneg
        intro n hn
        obtain ⟨s', hs', rfl⟩ := mem_map.mp hn
        exact zero_le_one.trans (share_pos (hrest s' hs').bounds.1)
      rw [map_nil, sum_nil]
      omega
    · rcases @ih (left - share count total (stackMaxCountOf state s)) hrest (by omega) (by omega)
        with heq | ⟨hout, hshares⟩
      · exact Or.inl (by rw [heq])
      · exact Or.inr ⟨by omega, by omega⟩

theorem discrete_within {count total : Int} (htotal : 1 ≤ total) (hsites : ∀ s ∈ sites, Sized state s)
    {site : SiteScore} (hsite : site ∈ discrete .rational state count total sites left) :
    site.stackCount ≤ stackMaxCountOf state site := by
  obtain ⟨s, hs, sel, -, hsel, rfl⟩ := mem_handOut hsite
  obtain ⟨hpos, hmax⟩ := (hsites s hs).bounds
  show discreteCount .rational count total sel.stackMaxCount ≤ stackMaxCountOf state s
  rw [← stackMaxCountOf_eq hsel, discreteCount_eq htotal hpos hmax]
  exact min_le_right _ _

/-- **When shares are enough**: the request is not refused, the shares are within what the sites
can take and add up to the request, exactly if the total in 64 bits is not less than the
request, and the rounded shares of all sites add up to it. -/
theorem discrete_enough_iff (hdiscrete : alloc.selector.strategy.locationStrategy ≠ "centralize")
    (hsites : ∀ s ∈ sites, Sized state s) (hreplicas : 1 ≤ alloc.replicas) (hint : alloc.replicas ≤ maxInt64) :
    ((strategy .rational state alloc sites).2 = .nil ∧
        (∀ site ∈ (strategy .rational state alloc sites).1, site.stackCount ≤ stackMaxCountOf state site) ∧
        alloc.replicas ≤ ((strategy .rational state alloc sites).1.map stackCount).sum) ↔
      alloc.replicas ≤ int64 (capacity state sites) ∧
        alloc.replicas ≤ (sites.map fun s => share alloc.replicas (int64 (capacity state sites))
          (stackMaxCountOf state s)).sum := by
  rw [← totalCount_eq]
  by_cases hfits : alloc.replicas ≤ totalCount state sites
  · have htotal : 1 ≤ totalCount state sites := hreplicas.trans hfits
    have hout : strategy .rational state alloc sites =
        (discrete .rational state alloc.replicas (totalCount state sites) sites alloc.replicas, .nil) := by
      rw [strategy, if_neg (not_lt.mpr hfits), if_neg hdiscrete]
    have hsum := @discrete_sum _ _ _ alloc.replicas _ htotal hsites hreplicas hint
    rw [hout, and_iff_right rfl, and_iff_right fun site hsite => discrete_within htotal hsites hsite,
      and_iff_right hfits]
    dsimp only
    omega
  · have hout : strategy .rational state alloc sites = ([], ⟨.unschedulable, ["not find host"]⟩) := by
      rw [strategy, if_pos (not_le.mp hfits)]
    rw [hout]
    exact iff_of_false (fun h => absurd h.1 (by decide)) fun h => hfits h.1

/-- Five copies for sites that can take six and four. -/
theorem discrete_enough_two : ∃ (alloc : Allocation) (sites : List SiteScore) (state : CycleState),
    alloc.replicas = 5 ∧ sites.map (stackMaxCountOf state) = [6, 4] ∧
      (strategy .rational state alloc sites).2 = .nil ∧
      (∀ site ∈ (strategy .rational state alloc sites).1, site.stackCount ≤ stackMaxCountOf state site) ∧
      5 ≤ ((strategy .rational state alloc sites).1.map stackCount).sum := by
  have hiff := @discrete_enough_iff (countedState [("a", 6), ("b", 4)]) { replicas := 5 }
    [{ siteID := "a" }, { siteID := "b" }] (by decide)
    (forall_mem_cons.mpr ⟨⟨{ stackMaxCount := 6 }, by decide +kernel, by decide, by decide⟩,
      forall_mem_singleton.mpr ⟨{ stackMaxCount := 4 }, by decide +kernel, by decide, by decide⟩⟩)
    (by decide) (by decide)
  exact ⟨_, _, _, rfl, by decide +kernel, hiff.mpr (by decide +kernel)⟩

/-- The shares of four copies among sites that can take seven, seven and six are one each. -/
theorem shares_fall_short : ∃ (alloc : Allocation) (sites : List SiteScore) (state : CycleState),
    alloc.selector.strategy.locationStrategy ≠ "centralize" ∧ alloc.replicas = 4 ∧
      sites.map (stackMaxCountOf state) = [7, 7, 6] ∧
      (strategy .rational state alloc sites).2 = .nil ∧
      (strategy .rational state alloc sites).1.map stackCount = [1, 1, 1] := by
  refine ⟨{ replicas := 4 }, [{ siteID := "a" }, { siteID := "b" }, { siteID := "c" }],
    countedState [("a", 7), ("b", 7), ("c", 6)], by decide, rfl, ?_, ?_, ?_⟩
  · decide +kernel
  · decide +kernel
  · decide +kernel

end LocationAndOperator

end GlobalScheduler
