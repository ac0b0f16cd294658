import GlobalScheduler.Bookings
import GlobalScheduler.Scheduler.Capacity
import GlobalScheduler.Scheduler.Rollback

/-! What one call does to one site.

A call either leaves the record of a site alone, or it books on it some copies of
the stack, all with the flavors chosen for the site, no more than the replicas asked
for and no more than the copies recorded for the site (`scheduleShipped_site`). -/
namespace GlobalScheduler.Schedule

open Go SiteCacheInfo DefaultBinder List

def boundAt (siteID : String) (log : List Stack) : List Stack :=
  log.filter (·.selected.siteID = siteID)

theorem boundAt_append (siteID : String) (a b : List Stack) :
    boundAt siteID (a ++ b) = boundAt siteID a ++ boundAt siteID b :=
  filter_append a b

theorem length_boundAt (siteID : String) (log : List Stack) :
    (boundAt siteID log).length = (log.map (·.selected.siteID)).count siteID := by
  rw [boundAt, ← countP_eq_length_filter, count, countP_map]
  congr 1

section Shipped
variable {settings : Settings} {ord : MapOrders} {snap : Snapshot} {state : CycleState} {stack : Stack}
  {ids : List String}

variable {p q : Progress} {siteID : String}

theorem Binds.frame (h : Binds (shipped settings ord snap) state stack p ids q)
    (hnot : siteID ∉ ids) :
    q.snapshot.siteCacheInfoMap.lookup siteID = p.snapshot.siteCacheInfoMap.lookup siteID := by
  induction h with
  | nil => rfl
  | cons first _ ih =>
    obtain ⟨hne, hrest⟩ := not_or.mp (mt mem_cons.mpr hnot)
    obtain ⟨_, _, _, _, _, hto⟩ := shipped_bindOne first
    rw [ih hrest, hto.others siteID hne]

theorem Binds.regionFlavorMap (h : Binds (shipped settings ord snap) state stack p ids q) :
    q.snapshot.regionFlavorMap = p.snapshot.regionFlavorMap := by
  induction h with
  | nil => rfl
  | cons first _ ih =>
    obtain ⟨_, _, _, _, _, hto⟩ := shipped_bindOne first
    exact ih.trans hto.regionFlavorMap

/-- **A site the loop binds to**: its record takes one booking a copy, all of the same
machines. -/
theorem Binds.site (h : Binds (shipped settings ord snap) state stack p ids q)
    {info : SiteCacheInfo} {site : Site} {sel : SiteSelectorInfo}
    (hinfo : p.snapshot.siteCacheInfoMap.lookup siteID = some info) (hsite : info.site = some site)
    (hsel : getSiteSelectorState state siteID = some sel) :
    ∃ info' new, q.snapshot.siteCacheInfoMap.lookup siteID = some info' ∧
      Booked snap.regionFlavorMap (resInfo snap site.regionAzMap.region
        (selectFlavors p.resources sel.flavors)) (ids.count siteID) info info' ∧
      q.bound = p.bound ++ new ∧ ∀ bound ∈ boundAt siteID new,
        bound.selected = selectedAt site ∧
        bound.resources = selectFlavors p.resources sel.flavors := by
  induction h generalizing info with
  | nil => exact ⟨info, [], hinfo, .none info, by simp, by simp [boundAt]⟩
  | @cons p p' q id rest first _ ih =>
    obtain ⟨info₁, info₁', site₁, sel₁, stack₁, hto⟩ := shipped_bindOne first
    have hagain : selectFlavors p'.resources sel.flavors =
        selectFlavors p.resources sel.flavors := by
      rw [hto.resources, hto.machines, selectFlavors_again hto.lengths]
    have hsame : stack₁.selected.siteID = id := by
      rw [hto.selected, ← hto.keyed]
      rfl
    by_cases hid : id = siteID
    · subst hid
      obtain rfl : info₁ = info := Option.some.inj (hto.found.symm.trans hinfo)
      obtain rfl : site₁ = site := Option.some.inj (hto.hosted.symm.trans hsite)
      obtain rfl : sel₁ = sel := Option.some.inj (hto.recorded.symm.trans hsel)
      obtain ⟨info', new, hinfo', hbooked, hnew, hall⟩ :=
        ih hto.filed ((deductSiteResInfo_lowered hto.booked).site.trans hsite)
      rw [hagain] at hbooked hall
      refine ⟨info', stack₁ :: new, hinfo', ?_, by simp [hnew, hto.bound], ?_⟩
      · rw [count_cons_self]
        have hbook := hto.booked
        rw [hto.machines] at hbook
        exact hbooked.first hbook
      · rw [boundAt, filter_cons_of_pos (by simpa using hsame)]
        exact forall_mem_cons.mpr ⟨⟨hto.selected, hto.machines⟩, hall⟩
    · obtain ⟨info', new, hinfo', hbooked, hnew, hall⟩ :=
        ih ((hto.others siteID (Ne.symm hid)).trans hinfo) hsite
      rw [hagain] at hbooked hall
      refine ⟨info', stack₁ :: new, hinfo', ?_, by simp [hnew, hto.bound], ?_⟩
      · rwa [count_cons_of_ne hid]
      · rw [boundAt, filter_cons_of_neg (by simpa [hsame] using hid)]
        exact hall

end Shipped

/-- The machines of a stack with the flavors of a choice. -/
def machines (alloc : Allocation) (sel : SiteSelectorInfo) : List Resource :=
  selectFlavors alloc.stack.resources sel.flavors

/-- What one copy of those machines takes from a site. -/
def demand (snap : Snapshot) (site : Site) (alloc : Allocation) (sel : SiteSelectorInfo) : AllResInfo :=
  resInfo snap site.regionAzMap.region (machines alloc sel)

def takes (snap : Snapshot) (site : Site) (alloc : Allocation) (sel : SiteSelectorInfo) :
    CPUAndMemory :=
  ((demand snap site alloc sel).cpuAndMem.lookup "").getD .zero

/-- The copies of the stack that a call can put on a site at most. -/
def copies (alloc : Allocation) (sel : SiteSelectorInfo) : Int :=
  min alloc.replicas (max 0 sel.stackMaxCount)

/-- A call booked copies of the stack on a site: `info` is the record before and `info'`
the one after, `sel` the choice of the flavor plugin and `bound` the replicas. -/
structure Booking (settings : Settings) (ord : MapOrders) (snap : Snapshot) (alloc : Allocation)
    (siteID : String) (info info' : SiteCacheInfo) (site : Site) (sel : SiteSelectorInfo)
    (bound : List Stack) : Prop where
  found : snap.siteCacheInfoMap.lookup siteID = some info
  hosted : info.site = some site
  chosen : ∃ aggs, FlavorPlugin.calculateFlavorAggregate alloc.stack = .ok aggs ∧
    Chosen settings ord snap aggs siteID sel
  booked : Booked snap.regionFlavorMap (demand snap site alloc sel) bound.length info info'
  count : (bound.length : Int) ≤ copies alloc sel
  alike : ∀ stack ∈ bound, stack.selected = selectedAt site ∧
    stack.resources = machines alloc sel

variable {ord : MapOrders} {settings : Settings} {snap : Snapshot}

/-- **What a call does to a site**: nothing, or it books copies of the stack on it. -/
theorem scheduleShipped_site {alloc : Allocation} {r : Result} (h : scheduleShipped settings ord snap alloc = .ok r)
    (hR : 1 ≤ alloc.replicas) (siteID : String) :
    (boundAt siteID r.bound = [] ∧
        r.snapshot.siteCacheInfoMap.lookup siteID = snap.siteCacheInfoMap.lookup siteID) ∨
      ∃ info info' site sel, r.snapshot.siteCacheInfoMap.lookup siteID = some info' ∧
        Booking settings ord (snap.updateFlavor settings) alloc siteID info info' site sel
          (boundAt siteID r.bound) := by
  rcases schedule_ok h with ⟨e, _, rfl⟩ | ⟨_, rfl⟩ | ⟨prio, sites, err, p, hprio, hplaced, rfl⟩
  · exact Or.inl ⟨rfl, rfl⟩
  · exact Or.inl ⟨rfl, rfl⟩
  · obtain ⟨_, hbinds⟩ := hplaced.binds_all hprio
    obtain ⟨status, hstrat, hok⟩ := hplaced.strategies
    obtain ⟨new, hnew, hids⟩ := hbinds.bound
    have hbound : p.bound.map (·.selected.siteID) = boundSlots alloc.replicas sites := by
      rw [hnew]
      exact hids
    have hcount : (boundAt siteID p.bound).length = (boundSlots alloc.replicas sites).count siteID := by
      rw [length_boundAt, hbound]
    have hpart := boundSlots_begins alloc.replicas sites
    by_cases hmem : siteID ∈ boundSlots alloc.replicas sites
    · right
      have hslot : siteID ∈ slots sites := hpart.subset hmem
      obtain ⟨aggs, sel, haggs, hsel, hchosen⟩ := shipped_slot hprio hstrat hok hslot
      obtain ⟨info, agg, n, hinfo, hmatch, rfl⟩ := id hchosen
      -- A site is among the slots because it passed the filters, so its record has a site.
      obtain ⟨site, hsite⟩ : ∃ site, info.site = some site := by
        have hsound := prioritize_sound hprio
        have hlist := (Framework.runStrategyPlugins_sublist hstrat).subset (mem_slots hslot)
        obtain ⟨site, hpassed, rfl⟩ := mem_map.mp (hsound.perm.subset hlist)
        obtain ⟨info₁, hinfo₁, hsite₁, _⟩ := hsound.accepted site hpassed
        exact ⟨site, by rwa [Option.some.inj (hinfo.symm.trans hinfo₁)]⟩
      obtain ⟨info', new', hinfo', hbooked, hnew', halike⟩ := hbinds.site hinfo hsite hsel
      rw [nil_append] at hnew'
      refine ⟨info, info', site, _, hinfo', hinfo, hsite, ⟨aggs, haggs, hchosen⟩, ?_, ?_, ?_⟩
      · rw [hcount]
        exact hbooked
      · have hsound := prioritize_sound hprio
        have hnodup : (sites.map SiteScore.siteID).Nodup :=
          (hsound.perm.nodup_iff.mpr hsound.nodup).sublist
            (Framework.runStrategyPlugins_sublist hstrat)
        have hslotsLe := count_slots_le hnodup (fun _ => le_max_left _ _)
          (shipped_stackCount_le hprio hstrat hok) siteID
        rw [recordedCount, hsel] at hslotsLe
        refine le_min ?_ ?_
        · calc ((boundAt siteID p.bound).length : Int) ≤ p.bound.length := by
                exact_mod_cast length_filter_le _ _
            _ ≤ alloc.replicas := hplaced.count_le hR
        · calc ((boundAt siteID p.bound).length : Int) ≤ ((slots sites).count siteID : Int) := by
                rw [hcount]
                exact_mod_cast hpart.sublist.count_le siteID
            _ ≤ _ := hslotsLe
      · intro stack hstack
        show _ ∧ _ = selectFlavors _ _
        exact halike stack (hnew' ▸ hstack)
    · left
      refine ⟨?_, hbinds.frame hmem⟩
      rw [← length_eq_zero_iff, hcount, count_eq_zero_of_not_mem hmem]

theorem scheduleShipped_regionFlavorMap
    {alloc : Allocation} {r : Result} (h : scheduleShipped settings ord snap alloc = .ok r) :
    r.snapshot.regionFlavorMap = snap.regionFlavorMap := by
  rcases schedule_ok h with ⟨e, _, rfl⟩ | ⟨_, rfl⟩ | ⟨prio, sites, err, p, hprio, hplaced, rfl⟩
  · rfl
  · rfl
  · exact (hplaced.binds_all hprio).2.regionFlavorMap

/-! ### What a call leaves alone -/

def settled (info : SiteCacheInfo) : Option Site × Map String CPUAndMemory × Map String Fp :=
  (info.site, info.totalResources, info.totalStorage)

/-- What no booking of machines changes of a record is as it was after the loop. -/
theorem Binds.kept {β : Type} {g : SiteCacheInfo → β} (hg : ∀ ord resInfo rf info info', resInfo.storage = ∅ →
      deductSiteResInfo ord resInfo rf info = .ok info' → g info' = g info) {state : CycleState} {stack : Stack}
    {p q : Progress} {ids : List String}
    (h : Binds (shipped settings ord snap) state stack p ids q) (key : String) :
    (q.snapshot.siteCacheInfoMap.lookup key).map g =
      (p.snapshot.siteCacheInfoMap.lookup key).map g := by
  induction h with
  | nil => rfl
  | @cons p p' q siteID rest first _ ih =>
    obtain ⟨info, info', _, _, _, hto⟩ := shipped_bindOne first
    refine ih.trans ?_
    by_cases hkey : key = siteID
    · rw [hkey, hto.filed, hto.found, Option.map_some, Option.map_some, hg _ _ _ _ _ rfl hto.booked]
    · rw [hto.others key hkey]

theorem settled_booked {ord : DeductOrders} {resInfo : AllResInfo} {rf : Map String RegionFlavor}
    {info info' : SiteCacheInfo} (h : deductSiteResInfo ord resInfo rf info = .ok info') :
    settled info' = settled info := by
  have hlowered := deductSiteResInfo_lowered h
  rw [settled, hlowered.site, hlowered.totalResources, hlowered.totalStorage]
  rfl

/-- What a call may have done to the records: only those of sites named in the result have
changed, no record has come or gone, and sites and totals are as they were. -/
structure OnlyBound (snap : Snapshot) (r : Result) : Prop where
  changed : ∀ key, r.snapshot.siteCacheInfoMap.lookup key ≠ snap.siteCacheInfoMap.lookup key →
    ∃ stack ∈ r.stackList, stack.selected.siteID = key
  settled : ∀ key, (r.snapshot.siteCacheInfoMap.lookup key).map settled =
    (snap.siteCacheInfoMap.lookup key).map settled
  keys : ∀ key, key ∈ r.snapshot.siteCacheInfoMap ↔ key ∈ snap.siteCacheInfoMap

/-- **The frame of a call**, whether it succeeds or fails. -/
theorem scheduleShipped_onlyBound (settings : Settings) (ord : MapOrders) (snap : Snapshot)
    (alloc : Allocation) (r : Result) (h : scheduleShipped settings ord snap alloc = .ok r) :
    OnlyBound snap r := by
  have hkeys : ∀ key, key ∈ r.snapshot.siteCacheInfoMap ↔ key ∈ snap.siteCacheInfoMap :=
    (schedule_sameSites h).mem_iff
  rcases schedule_ok h with ⟨e, _, rfl⟩ | ⟨_, rfl⟩ | ⟨prio, sites, err, p, hprio, hplaced, rfl⟩
  · exact ⟨fun key hne => absurd rfl hne, fun _ => rfl, hkeys⟩
  · exact ⟨fun key hne => absurd rfl hne, fun _ => rfl, hkeys⟩
  · obtain ⟨_, hbinds⟩ := hplaced.binds_all hprio
    refine ⟨fun key hne => ?_, hbinds.kept fun _ _ _ _ _ _ h => settled_booked h, hkeys⟩
    -- A record that has changed is that of a bound site, and the replicas show their sites.
    have hdone : key ∈ boundSlots alloc.replicas sites := by
      by_contra hnot
      exact hne (hbinds.frame hnot)
    obtain ⟨new, hnew, hids⟩ := hbinds.bound
    rw [← hids] at hdone
    obtain ⟨stack, hstack, hsite⟩ := mem_map.mp hdone
    have hbound : stack ∈ p.bound := by
      rw [hnew]
      exact mem_append_right _ hstack
    exact ⟨_, mem_map_of_mem hbound, hsite⟩

/-- A call that fails after it has bound three replicas: each of their sites is in the
result. -/
theorem scheduleShipped_onlyBound_failed :
    ∃ r, scheduleShipped {} {} (freshSites [("a", 4), ("b", 4), ("c", 4)]) (request 4) = .ok r ∧
      r.err ≠ none ∧ r.stackList.length = 3 ∧
      OnlyBound (freshSites [("a", 4), ("b", 4), ("c", 4)]) r := by
  have hrun : (scheduleShipped {} {} (freshSites [("a", 4), ("b", 4), ("c", 4)]) (request 4)).map
      (fun r => (r.err.isSome, r.stackList.length)) = .ok (true, 3) := by
    decide +kernel
  obtain ⟨r, hr, heq⟩ := Outcome.map_ok.mp hrun
  obtain ⟨herr, hlength⟩ := Prod.mk.inj heq
  refine ⟨r, hr, ?_, hlength, scheduleShipped_onlyBound _ _ _ _ r hr⟩
  intro hnone
  rw [hnone] at herr
  cases herr

end GlobalScheduler.Schedule
