import GlobalScheduler.Scheduler.Schedule

/-! The first half of a scheduling cycle: which sites are ranked.

The sites on the priority list are sites on record that the filters accept, each once
(`prioritize_sound`), and what no filter and no scorer undoes of the cycle state is
still there at the end (`Keeps`). -/
namespace GlobalScheduler.Schedule

open Go Outcome Framework SiteCacheInfo SiteScore List

/-! ### The sites that pass the filters -/

section Filtered
variable {fw : Framework} {stack : Stack}

/-- The candidates before this one were run through the filters, which left the cycle
state the filters find when they come to it. -/
def ComesTo (fw : Framework) (stack : Stack) (info : SiteCacheInfo) :
    List SiteCacheInfo → CycleState → CycleState → Prop
  | [], _, _ => False
  | first :: rest, state, found => (first = info ∧ state = found) ∨
      ∃ state₁ statuses, fw.runFilterPlugins state stack first = .ok (state₁, statuses) ∧
        ComesTo fw stack info rest state₁ found

/-- When the filters come to the record, every one of them accepts it. -/
def Passes (fw : Framework) (stack : Stack) (infos : List SiteCacheInfo) (state : CycleState)
    (info : SiteCacheInfo) : Prop :=
  ∃ found state', ComesTo fw stack info infos state found ∧
    Framework.AcceptedBy stack info fw.filterPlugins found state'

/-- The records of the snapshot, each with its key. -/
def Filed (snap : Snapshot) (es : List (String × SiteCacheInfo)) : Prop :=
  (es.map Prod.fst).Nodup ∧ ∀ e ∈ es, snap.siteCacheInfoMap.lookup e.1 = some e.2

theorem candidates_filed (ord : List String) (snap : Snapshot) (stack : Stack) :
    ∃ es, Filed snap es ∧ candidates ord snap stack = es.map Prod.snd := by
  have hall : Filed snap (Map.entriesBy ord snap.siteCacheInfoMap) :=
    ⟨Map.entriesBy_nodup _ _, fun e he => Map.mem_entriesBy.mp he⟩
  unfold candidates
  split
  · exact ⟨_, hall, rfl⟩
  · split
    case h_1 info hinfo =>
      refine ⟨[(stack.selector.siteID, info)], ⟨by simp, ?_⟩, rfl⟩
      intro e he
      rw [mem_singleton.mp he]
      exact hinfo
    case h_2 => exact ⟨_, hall, rfl⟩

/-- The sites of `passed` are those of some of the records, in their order, that pass
the filters from this state on. -/
structure FromRecords (fw : Framework) (stack : Stack) (snap : Snapshot)
    (es : List (String × SiteCacheInfo)) (state : CycleState) (passed : List Site) : Prop where
  sublist : (passed.map Site.siteID).Sublist (es.map Prod.fst)
  accepted : ∀ site ∈ passed, ∃ info, snap.siteCacheInfoMap.lookup site.siteID = some info ∧
    info.site = some site ∧ Passes fw stack (es.map Prod.snd) state info

variable {passed : List Site} {snap : Snapshot} {state state' : CycleState}

section
variable {e : String × SiteCacheInfo} {rest : List (String × SiteCacheInfo)} {statuses : List Status}

theorem FromRecords.skip (hrun : fw.runFilterPlugins state stack e.2 = .ok (state', statuses))
    (hrest : FromRecords fw stack snap rest state' passed) : FromRecords fw stack snap (e :: rest) state passed := by
  refine ⟨hrest.sublist.cons _, ?_⟩
  intro site hsite
  obtain ⟨info, hinfo, hof, found, state₂, hcomes, haccepted⟩ := hrest.accepted site hsite
  exact ⟨info, hinfo, hof, found, state₂, .inr ⟨state', statuses, hrun, hcomes⟩, haccepted⟩

theorem FromRecords.cons {site : Site} (hfiled : snap.siteCacheInfoMap.lookup e.1 = some e.2)
    (hsite : e.2.site = some site) (hrun : fw.runFilterPlugins state stack e.2 = .ok (state', statuses))
    (haccepted : Framework.AcceptedBy stack e.2 fw.filterPlugins state state')
    (hrest : FromRecords fw stack snap rest state' passed) :
    FromRecords fw stack snap (e :: rest) state (site :: passed) := by
  have hid : site.siteID = e.1 := snap.keyed _ _ _ hfiled hsite
  refine ⟨?_, forall_mem_cons.mpr ⟨?_, (hrest.skip hrun).accepted⟩⟩
  · rw [map_cons, map_cons, hid]
    exact hrest.sublist.cons_cons _
  · exact ⟨e.2, hid ▸ hfiled, hsite, state, state', .inl ⟨rfl, rfl⟩, haccepted⟩

end

variable {es : List (String × SiteCacheInfo)} {refused : List (String × Status)}

theorem checkSites_spec (hes : ∀ e ∈ es, snap.siteCacheInfoMap.lookup e.1 = some e.2)
    (h : checkSites fw stack (es.map Prod.snd) state = .ok (state', .ok (passed, refused))) :
    FromRecords fw stack snap es state passed := by
  induction es generalizing state state' passed refused with
  | nil =>
    cases h
    exact ⟨nil_sublist _, by simp⟩
  | cons e rest ih =>
    obtain ⟨⟨state₁, statuses⟩, hrun, h⟩ := bind_ok.mp h
    dsimp only at h
    split at h
    · cases h
    · obtain ⟨site, hsite, h⟩ := bind_ok.mp h
      obtain ⟨⟨state₂, others⟩, hothers, h⟩ := bind_ok.mp h
      cases others with
      | error msg => cases h
      | ok both =>
        obtain ⟨passed', refused'⟩ := both
        have hrest := ih (fun e' he' => hes e' (mem_cons_of_mem e he')) hothers
        have heq := pure_ok.mp h
        simp only [Except.map, Prod.mk.injEq, Except.ok.injEq] at heq
        obtain ⟨_, heq⟩ := heq
        split at heq
        case isTrue hsucc =>
          cases heq
          exact .cons (hes e mem_cons_self) (getSite_ok.mp hsite) hrun
            (runFilterPlugins_accepts hrun hsucc) hrest
        case isFalse =>
          cases heq
          exact hrest.skip hrun

theorem mapM_getSite_spec
    (hnone : fw.filterPlugins = []) (hes : ∀ e ∈ es, snap.siteCacheInfoMap.lookup e.1 = some e.2)
    (h : (es.map Prod.snd).mapM getSite = .ok passed) : FromRecords fw stack snap es state passed := by
  induction es generalizing passed with
  | nil =>
    cases h
    exact ⟨nil_sublist _, by simp⟩
  | cons e rest ih =>
    rw [map_cons, mapM_cons] at h
    obtain ⟨site, hsite, h⟩ := bind_ok.mp h
    obtain ⟨others, hothers, h⟩ := bind_ok.mp h
    cases h
    have hrun : fw.runFilterPlugins state stack e.2 = .ok (state, []) := by
      rw [runFilterPlugins, hnone]
      rfl
    exact .cons (hes e mem_cons_self) (getSite_ok.mp hsite) hrun (by rw [hnone]; rfl)
      (ih (fun e' he' => hes e' (mem_cons_of_mem e he')) hothers)

/-- **The sites that pass**: distinct sites of the snapshot whose records every filter
accepts when it comes to them. -/
theorem findSites_spec {ord : List String}
    (h : findSitesThatPassFilters fw ord snap stack state = .ok (state', .ok (passed, refused))) :
    (passed.map Site.siteID).Nodup ∧
      ∀ site ∈ passed, ∃ info, snap.siteCacheInfoMap.lookup site.siteID = some info ∧
        info.site = some site ∧ Passes fw stack (candidates ord snap stack) state info := by
  obtain ⟨es, ⟨hnodup, hes⟩, hcand⟩ := candidates_filed ord snap stack
  unfold findSitesThatPassFilters at h
  rw [hcand] at h ⊢
  dsimp only at h
  split at h
  · cases h
  · have hfrom : FromRecords fw stack snap es state passed := by
      split at h
      case isTrue hempty =>
        obtain ⟨sites, hsites, h⟩ := bind_ok.mp h
        cases h
        exact mapM_getSite_spec (isEmpty_iff.mp hempty) hes hsites
      case isFalse => exact checkSites_spec hes h
    exact ⟨hnodup.sublist hfrom.sublist, hfrom.accepted⟩

end Filtered

/-! ### The priority list -/

section Ranked
variable {fw : Framework} {snap : Snapshot} {stack : Stack}

variable {scored : List (Site × List Int)}

variable {sites : List Site} {state state' : CycleState}

theorem scoreSites_sites (h : scoreSites fw snap stack sites state = .ok (state', .ok scored)) :
    scored.map Prod.fst = sites := by
  induction sites generalizing state state' scored with
  | nil =>
    cases h
    rfl
  | cons site rest ih =>
    rw [scoreSites] at h
    split at h
    · exact absurd h (by simp [throw_ok])
    · obtain ⟨⟨state₁, scores⟩, _, h⟩ := bind_ok.mp h
      cases scores with
      | error e => cases h
      | ok scores =>
        obtain ⟨⟨state₂, others⟩, hothers, h⟩ := bind_ok.mp h
        cases others with
        | error e => cases h
        | ok others =>
          cases h
          rw [map_cons, ih hothers]

variable {list : List SiteScore}

theorem rankSites_perm
    (h : rankSites fw scored = .ok list) : (list.map siteID).Perm (scored.map (·.1.siteID)) := by
  obtain ⟨ranked, hranked, h⟩ := bind_ok.mp h
  cases h
  have hids : ranked.map siteID = scored.map (·.1.siteID) := by
    refine mapM_map ?_ hranked
    intro e s hs
    obtain ⟨score, _, hs⟩ := bind_ok.mp hs
    cases hs
    rfl
  rw [← hids]
  exact (perm_insertionSort _ ranked).map _

theorem prioritizeSites_perm
    (h : prioritizeSites fw snap stack sites state = .ok (state', .ok list)) :
    (list.map siteID).Perm (sites.map Site.siteID) := by
  unfold prioritizeSites at h
  split at h
  · cases h
    rw [map_map]
    exact List.Perm.refl _
  · obtain ⟨⟨state₁, scored⟩, hscore, h⟩ := bind_ok.mp h
    cases scored with
    | error e => cases h
    | ok scored =>
      have hrank : rankSites fw scored = .ok list := by
        cases hlist : rankSites fw scored with
        | error e => simp [pure_ok, Except.mapError, hlist, bind, Except.bind] at h
        | ok ranked =>
          have heq : state₁ = state' ∧ ranked = list := by
            simpa [pure_ok, Except.mapError, hlist, bind, Except.bind] using h
          rw [heq.2]
      rw [← scoreSites_sites hscore, map_map]
      exact rankSites_perm hrank

end Ranked

/-! ### Up to the strategies -/

/-- The record passes the filters of the call, which start from the cycle state that
the pre-filters of the call leave. -/
def PassesFilters (fw : Framework) (ord : List String) (snap : Snapshot) (alloc : Allocation)
    (info : SiteCacheInfo) : Prop :=
  ∃ state status, runPreFilterPlugins alloc.stack fw.preFilterPlugins {} = .ok (state, status) ∧
    Passes fw (withSelector alloc).stack (candidates ord snap (withSelector alloc).stack) state info

/-- What the phases before the strategies establish: the sites that passed are
distinct sites of the snapshot which every filter accepted, and the priority list
names exactly those. -/
structure Prioritized.Sound (fw : Framework) (ord : List String) (snap : Snapshot)
    (alloc : Allocation) (prio : Prioritized) : Prop where
  nodup : (prio.passed.map Site.siteID).Nodup
  accepted : ∀ site ∈ prio.passed, ∃ info, snap.siteCacheInfoMap.lookup site.siteID = some info ∧
    info.site = some site ∧ PassesFilters fw ord snap alloc info
  perm : (prio.priorityList.map siteID).Perm (prio.passed.map Site.siteID)

variable {fw : Framework} {prio : Prioritized} {snap : Snapshot}

theorem rank_ok {stack : Stack} {passed : List Site} {state : CycleState}
    (h : rank fw snap stack passed state = .ok (.ok prio)) :
    ∃ state₁ status, runPreScorePlugins stack passed fw.preScorePlugins state =
        .ok (state₁, status) ∧
      prioritizeSites fw snap stack passed state₁ = .ok (prio.state, .ok prio.priorityList) ∧
      prio.passed = passed := by
  obtain ⟨⟨state₁, status⟩, hpre, h⟩ := bind_ok.mp h
  dsimp only at h
  split at h
  · obtain ⟨⟨state₂, list⟩, hlist, h⟩ := bind_ok.mp h
    cases list with
    | error e => cases h
    | ok list =>
      cases h
      exact ⟨state₁, status, hpre, hlist, rfl⟩
  · cases h

variable {alloc : Allocation}

theorem prioritize_ok {ord : List String} (h : prioritize fw ord snap alloc = .ok (.ok prio)) :
    ∃ state₁ status state₂ refused,
      runPreFilterPlugins alloc.stack fw.preFilterPlugins {} = .ok (state₁, status) ∧
      findSitesThatPassFilters fw ord snap (withSelector alloc).stack state₁ =
        .ok (state₂, .ok (prio.passed, refused)) ∧
      rank fw snap (withSelector alloc).stack prio.passed state₂ = .ok (.ok prio) := by
  obtain ⟨⟨state₁, status⟩, hpre, h⟩ := bind_ok.mp h
  dsimp only at h
  split at h
  · obtain ⟨⟨state₂, found⟩, hfound, h⟩ := bind_ok.mp h
    cases found with
    | error e => cases h
    | ok both =>
      obtain ⟨passed, refused⟩ := both
      dsimp only at h
      split at h
      · cases h
      · obtain ⟨_, _, _, _, rfl⟩ := rank_ok h
        exact ⟨state₁, status, state₂, refused, hpre, hfound, h⟩
  · cases h

theorem prioritize_sound {ord : List String} (h : prioritize fw ord snap alloc = .ok (.ok prio)) :
    prio.Sound fw ord snap alloc := by
  obtain ⟨state₁, status, _, _, hpre, hfound, hrank⟩ := prioritize_ok h
  obtain ⟨hnodup, haccepted⟩ := findSites_spec hfound
  obtain ⟨_, _, _, hlist, _⟩ := rank_ok hrank
  refine ⟨hnodup, ?_, prioritizeSites_perm hlist⟩
  intro site hsite
  obtain ⟨info, hinfo, hof, hpasses⟩ := haccepted site hsite
  exact ⟨info, hinfo, hof, state₁, status, hpre, hpasses⟩

/-! ### What the plugins keep of the cycle state -/

/-- Every plugin up to the strategies keeps `P` on the records of the snapshot. -/
structure Keeps (fw : Framework) (snap : Snapshot) (stack : Stack) (P : CycleState → Prop) :
    Prop where
  filter : ∀ pl ∈ fw.filterPlugins, ∀ key info state state' status,
    snap.siteCacheInfoMap.lookup key = some info → P state →
    pl.filter state stack info = .ok (state', status) → P state'
  preScore : ∀ pl ∈ fw.preScorePlugins, ∀ sites state state' status, P state →
    pl.preScore state stack sites = .ok (state', status) → P state'
  score : ∀ pl ∈ fw.scorePlugins, ∀ key info state state' score status,
    snap.siteCacheInfoMap.lookup key = some info → P state →
    pl.score state stack info = .ok (state', score, status) → P state'

section Keeps
variable {fw : Framework} {snap : Snapshot} {stack : Stack} {P : CycleState → Prop} {state state' : CycleState}
  {sites : List Site}

section
variable (hk : Keeps fw snap stack P)
include hk

variable {info : SiteCacheInfo}

theorem Keeps.runFilters {key : String}
    (hinfo : snap.siteCacheInfoMap.lookup key = some info) {pls : List FilterPlugin}
    (hpls : ∀ pl ∈ pls, pl ∈ fw.filterPlugins) {runAll : Bool} {before after : List Status} (hP : P state)
    (h : runFilters runAll stack info pls before state = .ok (state', after)) : P state' := by
  induction pls generalizing before state with
  | nil =>
    cases h
    exact hP
  | cons pl rest ih =>
    obtain ⟨⟨state₁, status⟩, hpl, h⟩ := bind_ok.mp h
    have hP₁ : P state₁ := hk.filter pl (hpls pl mem_cons_self) key info _ _ _ hinfo hP hpl
    have hrest : ∀ pl ∈ rest, pl ∈ fw.filterPlugins :=
      fun pl' hpl' => hpls pl' (mem_cons_of_mem pl hpl')
    dsimp only at h
    split at h
    · exact ih hrest hP₁ h
    · split at h
      · split at h
        · exact ih hrest hP₁ h
        · cases h
          exact hP₁
      · cases h
        exact hP₁

variable {found : Except String (List Site × List (String × Status))}

theorem Keeps.checkSites {infos : List SiteCacheInfo}
    (hinfos : ∀ info ∈ infos, ∃ key, snap.siteCacheInfoMap.lookup key = some info)
    (hP : P state) (h : checkSites fw stack infos state = .ok (state', found)) : P state' := by
  induction infos generalizing state state' found with
  | nil =>
    cases h
    exact hP
  | cons info rest ih =>
    obtain ⟨⟨state₁, statuses⟩, hrun, h⟩ := bind_ok.mp h
    obtain ⟨key, hkey⟩ := hinfos info mem_cons_self
    have hP₁ : P state₁ := hk.runFilters hkey (fun _ hpl => hpl) hP hrun
    dsimp only at h
    split at h
    · cases h
      exact hP₁
    · obtain ⟨site, _, h⟩ := bind_ok.mp h
      obtain ⟨⟨state₂, others⟩, hothers, h⟩ := bind_ok.mp h
      cases h
      exact ih (fun info' hmem => hinfos info' (mem_cons_of_mem info hmem)) hP₁ hothers

theorem Keeps.findSites {ord : List String} (hP : P state)
    (h : findSitesThatPassFilters fw ord snap stack state = .ok (state', found)) : P state' := by
  obtain ⟨es, ⟨_, hes⟩, hcand⟩ := candidates_filed ord snap stack
  unfold findSitesThatPassFilters at h
  rw [hcand] at h
  dsimp only at h
  split at h
  · cases h
    exact hP
  · split at h
    · obtain ⟨_, _, h⟩ := bind_ok.mp h
      cases h
      exact hP
    · refine hk.checkSites ?_ hP h
      intro info hinfo
      obtain ⟨e, he, rfl⟩ := mem_map.mp hinfo
      exact ⟨e.1, hes e he⟩

theorem Keeps.runPreScore
    {pls : List PreScorePlugin} (hpls : ∀ pl ∈ pls, pl ∈ fw.preScorePlugins) {status : Status} (hP : P state)
    (h : runPreScorePlugins stack sites pls state = .ok (state', status)) : P state' := by
  induction pls generalizing state with
  | nil =>
    cases h
    exact hP
  | cons pl rest ih =>
    obtain ⟨⟨state₁, status₁⟩, hpl, h⟩ := bind_ok.mp h
    have hP₁ : P state₁ := hk.preScore pl (hpls pl mem_cons_self) sites _ _ _ hP hpl
    dsimp only at h
    split at h
    · exact ih (fun pl' hpl' => hpls pl' (mem_cons_of_mem pl hpl')) hP₁ h
    · cases h
      exact hP₁

theorem Keeps.scoreSite {key : String}
    (hinfo : snap.siteCacheInfoMap.lookup key = some info) {pls : List ScorePlugin}
    (hpls : ∀ pl ∈ pls, pl ∈ fw.scorePlugins) {scores : Except String (List Int)} (hP : P state)
    (h : scoreSite stack info pls state = .ok (state', scores)) : P state' := by
  induction pls generalizing state state' scores with
  | nil =>
    cases h
    exact hP
  | cons pl rest ih =>
    obtain ⟨⟨state₁, score, status⟩, hpl, h⟩ := bind_ok.mp h
    have hP₁ : P state₁ := hk.score pl (hpls pl mem_cons_self) key info _ _ _ _ hinfo hP hpl
    dsimp only at h
    split at h
    · obtain ⟨⟨state₂, others⟩, hothers, h⟩ := bind_ok.mp h
      cases h
      exact ih (fun pl' hpl' => hpls pl' (mem_cons_of_mem pl hpl')) hP₁ hothers
    · cases h
      exact hP₁

theorem Keeps.scoreSites {scored : Except String (List (Site × List Int))} (hP : P state)
    (h : scoreSites fw snap stack sites state = .ok (state', scored)) : P state' := by
  induction sites generalizing state state' scored with
  | nil =>
    cases h
    exact hP
  | cons site rest ih =>
    rw [Schedule.scoreSites] at h
    split at h
    · exact absurd h (by simp [throw_ok])
    case h_2 info hinfo =>
      obtain ⟨⟨state₁, scores⟩, hsite, h⟩ := bind_ok.mp h
      have hP₁ : P state₁ := hk.scoreSite hinfo (fun _ hpl => hpl) hP hsite
      cases scores with
      | error e =>
        cases h
        exact hP₁
      | ok scores =>
        obtain ⟨⟨state₂, others⟩, hothers, h⟩ := bind_ok.mp h
        cases h
        exact ih hP₁ hothers

theorem Keeps.prioritizeSites {list : Except String (List SiteScore)} (hP : P state)
    (h : prioritizeSites fw snap stack sites state = .ok (state', list)) : P state' := by
  unfold Schedule.prioritizeSites at h
  split at h
  · cases h
    exact hP
  · obtain ⟨⟨state₁, scored⟩, hscored, h⟩ := bind_ok.mp h
    cases h
    exact hk.scoreSites hP hscored

end

/-- **The invariant rule for the phases before the strategies**: what holds after the
prefilter plugins and is kept by every later plugin holds when the strategies run. -/
theorem Keeps.prioritize {ord : List String} {prio : Prioritized}
    (hk : Keeps fw snap (withSelector alloc).stack P)
    (hstart : ∀ state status, runPreFilterPlugins alloc.stack fw.preFilterPlugins {} =
      .ok (state, status) → P state)
    (h : prioritize fw ord snap alloc = .ok (.ok prio)) : P prio.state := by
  obtain ⟨state₁, status, state₂, refused, hpre, hfound, hrank⟩ := prioritize_ok h
  have hP₂ : P state₂ := hk.findSites (hstart state₁ status hpre) hfound
  obtain ⟨state₃, _, hscore, hlist, _⟩ := rank_ok hrank
  have hP₃ : P state₃ := hk.runPreScore (fun _ hpl => hpl) hP₂ hscore
  exact hk.prioritizeSites hP₃ hlist

end Keeps

end GlobalScheduler.Schedule
