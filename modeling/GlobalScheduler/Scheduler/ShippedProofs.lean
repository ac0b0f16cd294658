import GlobalScheduler.Plugins.FlavorProofs
import GlobalScheduler.Scheduler.ScheduleProofs
import GlobalScheduler.Scheduler.Shipped

/-! The cycle state under the shipped policy.

When the strategies run, an entry of the cycle state is either still empty or the
choice the flavor plugin made for that site (`Recorded`). The strategies hand out
no more copies of a site than that choice allows (`shipped_stackCount_le`). -/
namespace GlobalScheduler.Schedule

open Go Outcome LocationAndOperator DefaultBinder FlavorPlugin Framework

section Shipped
variable {settings : Settings} {ord : MapOrders} {snap : Snapshot}

/-- The flavor plugin's choice for a site: flavors and copies. -/
def Chosen (settings : Settings) (ord : MapOrders) (snap : Snapshot) (aggs : FlavorAggregates)
    (siteID : String) (sel : SiteSelectorInfo) : Prop :=
  ∃ info agg n, snap.siteCacheInfoMap.lookup siteID = some info ∧
    firstMatch settings.spotFake (ord.scoreFlavors info) info 0 aggs.aggregates =
      .ok (some (agg, n)) ∧ sel = ⟨agg.flavors, n⟩

/-- The combinations of the stack are known, and every entry is empty or a choice. -/
structure Recorded (settings : Settings) (ord : MapOrders) (snap : Snapshot)
    (aggs : FlavorAggregates) (state : CycleState) : Prop where
  aggregates : state.preFilterFlavor = some aggs
  entries : ∀ siteID sel, getSiteSelectorState state siteID = some sel →
    sel = {} ∨ Chosen settings ord snap aggs siteID sel

variable {info : SiteCacheInfo} {stack : Stack} {state state' : CycleState} {status : Status}
  {aggs : FlavorAggregates} {o : List String} {alloc : Allocation} {prio : Prioritized} {sites : List SiteScore}
  {siteID : String}

theorem stateless_keeps {P : CycleState → Prop} {name : String}
    {f : Stack → SiteCacheInfo → Outcome Status} (hP : P state)
    (h : (Filters.stateless name f).filter state stack info = .ok (state', status)) : P state' := by
  obtain ⟨_, _, h⟩ := bind_ok.mp h
  cases h
  exact hP

theorem flavorFilter_state {fake : Bool} {o : Nat → FlavorPlugin.Orders}
    (h : filter fake o state info = .ok (state', status)) : state' = state := by
  unfold filter at h
  split at h
  · cases h
    rfl
  · obtain ⟨found, _, h⟩ := bind_ok.mp h
    cases found with
    | some _ =>
      cases h
      rfl
    | none =>
      obtain ⟨_, _, h⟩ := bind_ok.mp h
      cases h
      rfl

theorem Recorded.volume (hrec : Recorded settings ord snap aggs state)
    (h : Filters.volume o state stack info = .ok (state', status)) :
    Recorded settings ord snap aggs state' := by
  obtain ⟨site, _, h⟩ := bind_ok.mp h
  split at h
  · cases h
    exact hrec
  · cases h
    refine ⟨(updateSiteSelectorState_preFilterFlavor _ _ _).trans hrec.aggregates, ?_⟩
    intro siteID sel hsel
    rcases updateSiteSelectorState_float hsel with rfl | hold
    · exact Or.inl rfl
    · exact hrec.entries siteID sel hold

theorem Recorded.score {key : String} {score : Int} (hinfo : snap.siteCacheInfoMap.lookup key = some info)
    (hrec : Recorded settings ord snap aggs state)
    (h : FlavorPlugin.score settings.spotFake (ord.scoreFlavors info) state info =
      .ok (state', score, status)) :
    Recorded settings ord snap aggs state' := by
  unfold FlavorPlugin.score at h
  rw [hrec.aggregates] at h
  obtain ⟨found, hfound, h⟩ := bind_ok.mp h
  cases found with
  | none =>
    cases h
    exact hrec
  | some choice =>
    obtain ⟨agg, n⟩ := choice
    obtain ⟨site, hsite, h⟩ := bind_ok.mp h
    cases h
    have hid : site.siteID = key :=
      snap.keyed key info site hinfo (SiteCacheInfo.getSite_ok.mp hsite)
    refine ⟨(updateSiteSelectorState_preFilterFlavor _ _ _).trans hrec.aggregates, ?_⟩
    intro siteID sel hsel
    rcases updateSiteSelectorState_choice hsel with rfl | hold | ⟨rfl, old, hold, rfl⟩
    · exact Or.inl rfl
    · exact hrec.entries siteID sel hold
    · right
      rw [hid]
      -- Whatever the entry held before, the number it ends with is that of this choice.
      refine ⟨info, agg, n, hinfo, hfound, ?_⟩
      have hsame : old.stackMaxCount = 0 ∨ old.stackMaxCount = n := by
        rcases hold with rfl | hold
        · exact Or.inl rfl
        · rcases hrec.entries _ old hold with rfl | ⟨info', agg', n', hinfo', hfound', rfl⟩
          · exact Or.inl rfl
          · rw [hid, hinfo] at hinfo'
            cases hinfo'
            rw [hfound] at hfound'
            cases hfound'
            exact Or.inr rfl
      congr 1
      split_ifs with hcond
      · rfl
      · rcases hsame with hzero | hn
        · exact absurd (Or.inl hzero) hcond
        · exact hn

theorem shipped_keeps (stack : Stack) (aggs : FlavorAggregates) :
    Keeps (shipped settings ord snap) snap stack (Recorded settings ord snap aggs) where
  filter := by
    intro pl hpl key info state state' status hinfo hP h
    simp only [shipped, List.mem_cons, List.not_mem_nil, or_false] at hpl
    rcases hpl with rfl | rfl | rfl | rfl | rfl | rfl | rfl
    · exact stateless_keeps hP h
    · exact stateless_keeps hP h
    · exact stateless_keeps hP h
    · exact flavorFilter_state h ▸ hP
    · exact hP.volume h
    · exact stateless_keeps hP h
    · exact stateless_keeps hP h
  preScore := by
    intro pl hpl
    cases hpl
  score := by
    intro pl hpl key info state state' score status hinfo hP h
    simp only [shipped, List.mem_cons, List.not_mem_nil, or_false] at hpl
    rcases hpl with rfl | rfl | rfl
    · cases h
      exact hP
    · exact hP.score hinfo h
    · obtain ⟨_, _, h⟩ := bind_ok.mp h
      cases h
      exact hP

/-- **The cycle state when the strategies run.** -/
theorem shipped_recorded (h : prioritize (shipped settings ord snap) o snap alloc = .ok (.ok prio)) :
    ∃ aggs, calculateFlavorAggregate alloc.stack = .ok aggs ∧
      Recorded settings ord snap aggs prio.state := by
  obtain ⟨_, _, _, _, hpre, _, _⟩ := prioritize_ok h
  obtain ⟨⟨state, status⟩, hflavor, _⟩ := bind_ok.mp hpre
  obtain ⟨aggs, haggs, _⟩ := bind_ok.mp hflavor
  refine ⟨aggs, haggs, (shipped_keeps _ aggs).prioritize ?_ h⟩
  intro state₁ status₁ hstart
  obtain ⟨⟨state₂, status₂⟩, hpl, hstart⟩ := bind_ok.mp hstart
  obtain ⟨aggs', haggs', hpl⟩ := bind_ok.mp hpl
  rw [haggs] at haggs'
  cases haggs'
  cases hpl
  cases hstart
  exact ⟨rfl, by intro siteID sel hsel; cases hsel⟩

/-! ### What the strategies hand out -/

/-- The copies recorded for a site; none for a site without an entry. -/
def recordedCount (state : CycleState) (siteID : String) : Int :=
  ((getSiteSelectorState state siteID).map (·.stackMaxCount)).getD 0

/-- A site gets no more than was recorded for it, provided a float can hold that. -/
theorem strategy_stackCount_le {F : Format} {value : SiteScore}
    (h : value ∈ (strategy F state alloc sites).1) :
    ∃ sel, getSiteSelectorState state value.siteID = some sel ∧
      (F.round (sel.stackMaxCount : ℚ) = sel.stackMaxCount →
        value.stackCount ≤ max 0 sel.stackMaxCount) := by
  have hmin : ∀ (x : Fp) (m : Int), F.round (m : ℚ) = m → (Fp.min x (Fp.ofInt F m)).toInt64 ≤ max 0 m := by
    intro x m hround
    refine Fp.toInt64_le_max ?_
    rw [Fp.rank_min, Fp.ofInt, hround]
    exact min_le_right _ _
  unfold strategy at h
  dsimp only at h
  split at h
  · cases h
  · split at h
    · obtain ⟨s, -, sel, l, hsel, rfl⟩ := mem_handOut h
      exact ⟨sel, hsel, hmin _ _⟩
    · obtain ⟨s, -, sel, l, hsel, rfl⟩ := mem_handOut h
      exact ⟨sel, hsel, hmin _ _⟩

theorem shipped_strategies {list : List SiteScore}
    (h : runStrategyPlugins state alloc (shipped settings ord snap).strategyPlugins list =
      .ok (sites, status)) (hok : status.isSuccess = true) :
    ∃ region status₁, RegionAndAz.strategy ord.regions snap state alloc list =
        .ok (region, status₁) ∧ status₁.isSuccess = true ∧
      (strategy .float64 state alloc region).1 = sites ∧
      (strategy .float64 state alloc region).2.isSuccess = true := by
  obtain ⟨⟨region, status₁⟩, hregion, h⟩ := bind_ok.mp h
  dsimp only at h
  split at h
  case isFalse =>
    cases h
    cases hok
  case isTrue hsucc =>
    obtain ⟨⟨sites₂, status₂⟩, hloc, h⟩ := bind_ok.mp h
    dsimp only at h
    split at h
    case isFalse =>
      cases h
      cases hok
    case isTrue hsucc₂ =>
      cases h
      have heq : strategy .float64 state alloc region = (sites, status₂) :=
        pure_ok.mp hloc
      exact ⟨region, status₁, hregion, hsucc, by rw [heq], by rw [heq]; exact hsucc₂⟩

/-- **A site gets no more copies than were recorded for it.** -/
theorem shipped_stackCount_le (hprio : prioritize (shipped settings ord snap) o snap alloc = .ok (.ok prio))
    (hstrat : runStrategyPlugins prio.state (withSelector alloc)
      (shipped settings ord snap).strategyPlugins prio.priorityList = .ok (sites, status))
    (hok : status.isSuccess = true) :
    ∀ value ∈ sites, value.stackCount ≤ max 0 (recordedCount prio.state value.siteID) := by
  intro value hvalue
  obtain ⟨region, _, _, _, rfl, _⟩ := shipped_strategies hstrat hok
  obtain ⟨sel, hsel, hle⟩ := strategy_stackCount_le hvalue
  obtain ⟨aggs, _, hrec⟩ := shipped_recorded hprio
  have hwhole : FlavorPlugin.Whole sel.stackMaxCount := by
    rcases hrec.entries _ sel hsel with rfl | ⟨_, _, n, _, hmatch, rfl⟩
    · exact whole_of_abs_le (by decide)
    · exact firstMatch_whole hmatch
  have hcount : recordedCount prio.state value.siteID = sel.stackMaxCount := by
    rw [recordedCount, hsel]
    rfl
  rw [hcount]
  exact hle hwhole

/-! ### Binding -/

theorem shipped_runBindPlugins {i : Nat} {stack' : Stack} {info' : SiteCacheInfo}
    (h : (shipped settings ord snap).runBindPlugins i state stack info =
      .ok (status, stack', info')) :
    ∃ status₁, bind (ord.deduct i) snap state stack info =
      .ok (status₁, stack', info') ∧ status.isSuccess = status₁.isSuccess :=
  runBindPlugins_ok rfl h

/-- What a bind that succeeds did: it booked the flavors recorded for the site on the
site's record and touched no other. -/
structure BoundTo (ord : MapOrders) (snap : Snapshot) (state : CycleState) (siteID : String)
    (p p' : Progress) (info info' : SiteCacheInfo) (site : Site) (sel : SiteSelectorInfo)
    (stack : Stack) : Prop where
  found : p.snapshot.siteCacheInfoMap.lookup siteID = some info
  hosted : info.site = some site
  keyed : site.siteID = siteID
  recorded : getSiteSelectorState state siteID = some sel
  lengths : p.resources.length = sel.flavors.length
  selected : stack.selected = selectedAt site
  machines : stack.resources = selectFlavors p.resources sel.flavors
  booked : info.deductSiteResInfo (ord.deduct p.bound.length)
    (resInfo snap site.regionAzMap.region stack.resources) snap.regionFlavorMap =
      .ok info'
  filed : p'.snapshot.siteCacheInfoMap.lookup siteID = some info'
  others : ∀ other, other ≠ siteID →
    p'.snapshot.siteCacheInfoMap.lookup other = p.snapshot.siteCacheInfoMap.lookup other
  regionFlavorMap : p'.snapshot.regionFlavorMap = p.snapshot.regionFlavorMap
  resources : p'.resources = stack.resources
  bound : p'.bound = p.bound ++ [stack]

theorem shipped_bindOne {p p' : Progress}
    (h : bindOne (shipped settings ord snap) state stack siteID p = .ok (none, p')) :
    ∃ info info' site sel stack', BoundTo ord snap state siteID p p' info info' site sel stack' := by
  obtain ⟨info, status, stack', info', hkeyed, hinfo, hrun, herr, rfl⟩ := bindOne_ok h
  have hsucc := bindError_eq_none.mp herr.symm
  obtain ⟨status₁, hbind, hsame⟩ := shipped_runBindPlugins hrun
  obtain ⟨site, hsite, hselected, hend⟩ := bind_ok hbind
  have hid : site.siteID = siteID := p.snapshot.keyed siteID info site hinfo hsite
  rcases hend with ⟨hcode, _⟩ | ⟨sel, _, hsel, hlen, hres, hbook⟩
  · rw [hsame, Status.isSuccess, hcode] at hsucc
    cases hsucc
  · rw [hid] at hsel
    refine ⟨info, info', site, sel, stack', ?_⟩
    exact {
      found := hinfo, hosted := hsite, keyed := hid, recorded := hsel, lengths := hlen
      selected := hselected, machines := hres, booked := hbook
      filed := p.snapshot.put_lookup_self siteID info' hkeyed
      others := fun other hne => p.snapshot.put_lookup_ne info' hkeyed hne
      regionFlavorMap := rfl, resources := rfl
      bound := by simp [hsucc] }

/-- A bind that fails found no flavors recorded for the site, or not one a resource. -/
theorem shipped_bindOne_fails {e : String} {p p' : Progress}
    (h : bindOne (shipped settings ord snap) state stack siteID p = .ok (some e, p'))
    {sel : SiteSelectorInfo} (hsel : getSiteSelectorState state siteID = some sel) :
    p.resources.length ≠ sel.flavors.length := by
  obtain ⟨info, status, stack', info', hkeyed, hinfo, hrun, herr, rfl⟩ := bindOne_ok h
  obtain ⟨status₁, hbind, hsame⟩ := shipped_runBindPlugins hrun
  obtain ⟨site, hsite, _, hend⟩ := bind_ok hbind
  rcases hend with ⟨_, _, _, hrefused⟩ | ⟨_, rfl, _⟩
  · apply hrefused sel
    rw [p.snapshot.keyed siteID info site hinfo hsite]
    exact hsel
  · rw [bindError_eq_none.mpr hsame] at herr
    cases herr

theorem shipped_slot (hprio : prioritize (shipped settings ord snap) o snap alloc = .ok (.ok prio))
    (hstrat : runStrategyPlugins prio.state (withSelector alloc)
      (shipped settings ord snap).strategyPlugins prio.priorityList = .ok (sites, status))
    (hok : status.isSuccess = true) (hslot : siteID ∈ slots sites) :
    ∃ aggs sel, calculateFlavorAggregate alloc.stack = .ok aggs ∧
      getSiteSelectorState prio.state siteID = some sel ∧
      Chosen settings ord snap aggs siteID sel := by
  obtain ⟨value, hvalue, hmem⟩ := List.mem_flatMap.mp hslot
  obtain ⟨hcopies, rfl⟩ := List.mem_replicate.mp hmem
  have hle := shipped_stackCount_le hprio hstrat hok value hvalue
  obtain ⟨aggs, haggs, hrec⟩ := shipped_recorded hprio
  cases hsel : getSiteSelectorState prio.state value.siteID with
  | none =>
    rw [recordedCount, hsel] at hle
    simp only [Option.map_none, Option.getD_none] at hle
    omega
  | some sel =>
    refine ⟨aggs, sel, haggs, rfl, ?_⟩
    rcases hrec.entries _ sel hsel with rfl | hchosen
    · rw [recordedCount, hsel] at hle
      simp only [Option.map_some, Option.getD_some] at hle
      omega
    · exact hchosen

/-- A choice of the flavor plugin has one flavor a resource, with the resource's count. -/
theorem Chosen.counts {sel : SiteSelectorInfo} (h : Chosen settings ord snap aggs siteID sel)
    (haggs : calculateFlavorAggregate stack = .ok aggs) :
    sel.flavors.map (·.count) = stack.resources.map (·.count) := by
  obtain ⟨info, agg, n, _, hmatch, rfl⟩ := h
  exact calculateFlavorAggregate_counts haggs agg
    (firstMatch_taken hmatch).1

end Shipped

end GlobalScheduler.Schedule
