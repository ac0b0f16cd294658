import GlobalScheduler.Scheduler.ShippedProofs

/-! What a failed call leaves booked.

The replicas are booked one by one and nothing takes a booking back. Under the
shipped policy a bind never fails, so the only error after a booking is the one for
too few slots: a failed call has changed nothing exactly when the strategies did not
hand out some slots but fewer than the replicas asked for. -/
namespace GlobalScheduler.Schedule

open Go Outcome Progress

/-- The strategies hand out slots, but fewer than the replicas asked for. -/
def ShortOfSlots (fw : Framework) (ord : List String) (snap : Snapshot) (alloc : Allocation) :
    Prop :=
  ∃ prio sites status, prioritize fw ord snap alloc = .ok (.ok prio) ∧
    Framework.runStrategyPlugins prio.state (withSelector alloc) fw.strategyPlugins
      prio.priorityList = .ok (sites, status) ∧ status.isSuccess = true ∧
    0 < (slots sites).length ∧ ((slots sites).length : Int) < alloc.replicas

def books (info : SiteCacheInfo) :
    RefMap String CPUAndMemory × Map String Int × Map String Fp × Map String Int :=
  (info.requestedResources, info.requestedFlavor, info.requestedStorage, info.allocatableFlavor)

/-- A call that returns an error has left every site's books as they were, and no
replica stays bound. -/
def RollsBack (snap : Snapshot) (r : Result) : Prop :=
  r.err ≠ none →
    (∀ siteID, (r.snapshot.siteCacheInfoMap.lookup siteID).map books =
      (snap.siteCacheInfoMap.lookup siteID).map books) ∧ r.bound = []

section Shipped
variable {settings : Settings} {ord : MapOrders} {snap : Snapshot}

/-- What does not read the chosen flavor sees the resources of the stack all through the loop,
and in every replica. -/
theorem Binds.alike {β : Type} {g : Resource → β}
    (hg : ∀ r f, g { r with flavorIDSelected := f } = g r) {state : CycleState} {stack : Stack}
    {resources : List Resource} {ids : List String} {q : Progress}
    (h : Binds (shipped settings ord snap) state stack ⟨snap, resources, []⟩ ids q) :
    q.resources.map g = resources.map g ∧ ∀ bound ∈ q.bound, bound.resources.map g = resources.map g := by
  refine h.inv (P := fun q => q.resources.map g = resources.map g ∧
    ∀ bound ∈ q.bound, bound.resources.map g = resources.map g) ?_ ⟨rfl, by simp⟩
  rintro q siteID q' ⟨hq, hall⟩ hone
  obtain ⟨_, _, _, _, bound₁, hto⟩ := shipped_bindOne hone
  have hlast : bound₁.resources.map g = resources.map g := by
    rw [hto.machines, DefaultBinder.selectFlavors_map hg hto.lengths, hq]
  rw [hto.resources, hto.bound]
  refine ⟨hlast, fun bound hbound => ?_⟩
  rcases List.mem_append.mp hbound with hbound | hbound
  · exact hall bound hbound
  · rw [List.mem_singleton.mp hbound]
    exact hlast

/-- **Under the shipped policy no bind fails**: which slots a call binds. -/
theorem Placed.binds_all {o : List String} {alloc : Allocation} {prio : Prioritized}
    {sites : List SiteScore} {err : Option String} {p : Progress}
    (hprio : prioritize (shipped settings ord snap) o snap alloc = .ok (.ok prio))
    (h : Placed (shipped settings ord snap) snap (withSelector alloc) prio sites err p) :
    err = none ∧ Binds (shipped settings ord snap) prio.state (withSelector alloc).stack
      ⟨snap, alloc.stack.resources, []⟩ (boundSlots alloc.replicas sites) p := by
  obtain ⟨status, hstrat, hok⟩ := h.strategies
  obtain ⟨done, q, hbinds, ⟨rfl, rfl, rfl⟩ | ⟨e, siteID, rest, rfl, hslots, hfail⟩⟩ := h.ended
  · exact ⟨rfl, hbinds⟩
  · have hslot : siteID ∈ slots sites := by
      refine (boundSlots_begins alloc.replicas sites).subset ?_
      show siteID ∈ boundSlots (withSelector alloc).replicas sites
      rw [hslots]
      simp
    obtain ⟨aggs, sel, haggs, hsel, hchosen⟩ := shipped_slot hprio hstrat hok hslot
    -- The resources and the recorded flavors are both one a resource of the stack.
    have hres : q.resources.length = alloc.stack.resources.length := by
      have hcounts := (hbinds.alike (g := Resource.count) fun _ _ => rfl).1
      simpa [withSelector] using congrArg List.length hcounts
    have hflavors : sel.flavors.length = alloc.stack.resources.length := by
      simpa using congrArg List.length (hchosen.counts haggs)
    exact absurd (hres.trans hflavors.symm) (shipped_bindOne_fails hfail hsel)

end Shipped

/-- **A failed call leaves nothing booked exactly when it is not short of slots.** -/
theorem rollsBack_iff (settings : Settings) (ord : MapOrders) (snap : Snapshot) (alloc : Allocation)
    (r : Result) (h : scheduleShipped settings ord snap alloc = .ok r) :
    RollsBack snap r ↔
      ¬ ShortOfSlots (shipped settings ord (snap.updateFlavor settings)) ord.sites
        (snap.updateFlavor settings) alloc := by
  rcases schedule_ok h with ⟨e, hprio, rfl⟩ | ⟨⟨prio, sites, status, hprio, hstrat, hfail⟩, rfl⟩ |
    ⟨prio, sites, err, p, hprio, hplaced, rfl⟩
  · refine iff_of_true (fun _ => ⟨fun _ => rfl, rfl⟩) ?_
    rintro ⟨prio, _, _, hprio', _⟩
    rw [hprio] at hprio'
    cases hprio'
  · apply iff_of_true (fun herr => absurd rfl herr)
    rintro ⟨prio', sites', status', hprio', hstrat', hok', _⟩
    rw [hprio] at hprio'
    cases hprio'
    rw [hstrat] at hstrat'
    cases hstrat'
    rw [hfail] at hok'
    cases hok'
  · obtain ⟨rfl, hbinds⟩ := hplaced.binds_all hprio
    have hcount : p.count < alloc.replicas →
        p.count = (slots sites).length ∧ boundSlots alloc.replicas sites = slots sites := by
      intro hfew
      have hbound := hbinds.count
      have hle : ((0 : Nat) : Int) ≤ p.count := Int.natCast_nonneg _
      rw [boundSlots, if_pos (by omega)] at hbound ⊢
      simp only [count, List.length_nil, List.length_take] at hbound hfew ⊢
      exact ⟨by omega, List.take_of_length_le (by omega)⟩
    obtain ⟨status, hstrat, hok⟩ := hplaced.strategies
    constructor
    · rintro hback ⟨prio', sites', status', hprio', hstrat', _, hsome, hshort⟩
      rw [hprio] at hprio'
      cases hprio'
      rw [hstrat] at hstrat'
      cases hstrat'
      -- All slots are bound, which is not enough, and the replicas stay.
      have hfew : p.count < alloc.replicas := by
        have hle := hplaced.bound_begins.length_le
        rw [List.length_map] at hle
        rw [count]
        omega
      have hnone : p.bound = [] := (hback (by simp [hfew])).2
      have hzero : p.count = 0 := by
        rw [count, hnone]
        rfl
      have := (hcount hfew).1
      omega
    · intro hnot herr
      have hfew : p.count < alloc.replicas := by
        by_contra henough
        exact herr (by simp [henough])
      obtain ⟨hall, hslots⟩ := hcount hfew
      have hdone : slots sites = [] := by
        by_contra hsome
        have hpos := List.length_pos_of_ne_nil hsome
        exact hnot ⟨prio, sites, status, hprio, hstrat, hok, hpos, by omega⟩
      rw [hslots, hdone] at hbinds
      cases hbinds
      exact ⟨fun _ => rfl, rfl⟩

theorem rollsBack_iff_no_room :
    ∃ r, scheduleShipped {} {} (freshSites [("a", 0)]) (request 1) = .ok r ∧ r.err ≠ none ∧
      ¬ ShortOfSlots (shipped {} {} ((freshSites [("a", 0)]).updateFlavor {})) []
        ((freshSites [("a", 0)]).updateFlavor {}) (request 1) ∧
      RollsBack (freshSites [("a", 0)]) r := by
  have hrun : (scheduleShipped {} {} (freshSites [("a", 0)]) (request 1)).map
      (fun r => r.err.isSome) = .ok true := by
    decide +kernel
  -- No site passes the filters.
  have hprio : (prioritize (shipped {} {} ((freshSites [("a", 0)]).updateFlavor {})) []
      ((freshSites [("a", 0)]).updateFlavor {}) (request 1)).map Except.isOk = .ok false := by
    decide +kernel
  have hnot : ¬ ShortOfSlots (shipped {} {} ((freshSites [("a", 0)]).updateFlavor {})) []
      ((freshSites [("a", 0)]).updateFlavor {}) (request 1) := by
    rintro ⟨prio, _, _, hok, _⟩
    rw [hok] at hprio
    cases hprio
  obtain ⟨r, hr, herr⟩ := map_ok.mp hrun
  refine ⟨r, hr, ?_, hnot, (rollsBack_iff _ _ _ _ r hr).mpr hnot⟩
  intro hnone
  rw [hnone] at herr
  cases herr

/-- Three sites with room for four copies each and a request for four: each site is
given one, and the call fails with three copies booked. -/
theorem rollsBack_fails :
    ∃ r, scheduleShipped {} {} (freshSites [("a", 4), ("b", 4), ("c", 4)]) (request 4) = .ok r ∧
      ¬ RollsBack (freshSites [("a", 4), ("b", 4), ("c", 4)]) r := by
  have hrun : (scheduleShipped {} {} (freshSites [("a", 4), ("b", 4), ("c", 4)]) (request 4)).map
      (fun r => (r.err.isSome, (r.snapshot.siteCacheInfoMap.lookup "r--a").map
        (fun info => info.allocatableFlavor.lookup "f"))) = .ok (true, some (some 3)) := by
    decide +kernel
  obtain ⟨r, hr, heq⟩ := map_ok.mp hrun
  obtain ⟨herr, hflavor⟩ := Prod.mk.inj heq
  refine ⟨r, hr, fun hback => ?_⟩
  have hsame := (hback (by intro hnone; rw [hnone] at herr; cases herr)).1 "r--a"
  have hkept := congrArg (Option.map fun b => b.2.2.2.lookup "f") hsame
  rw [Option.map_map, Option.map_map] at hkept
  -- One copy of four is gone from the site's count.
  have hbefore : ((freshSites [("a", 4), ("b", 4), ("c", 4)]).siteCacheInfoMap.lookup "r--a").map
      (fun info => info.allocatableFlavor.lookup "f") = some (some 4) := by
    decide +kernel
  exact absurd (hflavor.symm.trans (hkept.trans hbefore)) (by decide)

end GlobalScheduler.Schedule
