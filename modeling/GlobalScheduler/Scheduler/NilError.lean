import GlobalScheduler.Scheduler.ScheduleProofs
import GlobalScheduler.Scheduler.Shipped

/-! What a nil error says.

A caller of `Schedule` takes a nil error to mean that all replicas are placed. It
means that exactly when no strategy refused: a refusal is returned with the error
variable of the phases before it, which is nil by then, and with no stacks. -/
namespace GlobalScheduler.Schedule

open Go

/-- A call that returns a nil error has placed every replica, each on a site that
passed every filter of the call. -/
def NilErrorPlaces (fw : Framework) (ord : List String) (snap : Snapshot) (alloc : Allocation) :
    Prop :=
  ∀ r, schedule fw ord snap alloc = .ok r → r.err = none →
    (r.stackList.length : Int) = alloc.replicas ∧
      ∃ prio, prioritize fw ord snap alloc = .ok (.ok prio) ∧
        ∀ stack ∈ r.stackList, ∃ site ∈ prio.passed, stack.selected.siteID = site.siteID ∧
          ∃ info, snap.siteCacheInfoMap.lookup site.siteID = some info ∧
            info.site = some site ∧ PassesFilters fw ord snap alloc info

variable {fw : Framework} {snap : Snapshot} {alloc : Allocation}

/-- A bind loop that ends without an error of its own and with enough replicas has
placed them all. -/
theorem Placed.all {prio : Prioritized} {sites : List SiteScore} {p : Progress}
    (h : Placed fw snap alloc prio sites none p) (hR : 1 ≤ alloc.replicas)
    (hcount : ¬ p.count < alloc.replicas) :
    ((shown p).length : Int) = alloc.replicas := by
  rw [shown, List.length_map]
  exact le_antisymm (h.count_le hR) (not_lt.mp hcount)

/-- A refusing call returns a nil error and no stack. -/
theorem StrategyRefuses.returns {ord : List String} (h : StrategyRefuses fw ord snap alloc) :
    schedule fw ord snap alloc = .ok { err := none, snapshot := snap } := by
  obtain ⟨prio, sites, status, hprio, hstrat, hfail⟩ := h
  unfold schedule place
  simp only [hprio, hstrat, hfail, bind, Except.bind, pure, Except.pure]
  rfl

/-- **A nil error can be trusted exactly when no strategy refuses.** -/
theorem nilErrorPlaces_iff (fw : Framework) (ord : List String) (snap : Snapshot)
    (alloc : Allocation) (hR : 1 ≤ alloc.replicas) :
    NilErrorPlaces fw ord snap alloc ↔ ¬ StrategyRefuses fw ord snap alloc := by
  constructor
  · intro hplaces hrefuses
    have hlen := (hplaces _ hrefuses.returns rfl).1
    rw [List.length_nil] at hlen
    omega
  · intro hnot r hrun hnil
    rcases schedule_ok hrun with ⟨e, _, rfl⟩ | ⟨hrefuse, _⟩ | ⟨prio, sites, err, p, hprio, hplaced, rfl⟩
    · cases hnil
    · exact absurd hrefuse hnot
    · cases err with
      | some e => cases hnil
      | none =>
        have hsound := prioritize_sound hprio
        have hcount : ¬ p.count < alloc.replicas := by
          intro hlt
          simp [hlt] at hnil
        refine ⟨hplaced.all hR hcount, prio, hprio, ?_⟩
        intro stack hstack
        obtain ⟨bound, hbound, rfl⟩ := List.mem_map.mp hstack
        obtain ⟨site, hsite, hid⟩ := hplaced.passed hsound bound hbound
        exact ⟨site, hsite, hid, hsound.accepted site hsite⟩

theorem nilErrorPlaces_iff_one_replica :
    1 ≤ (request 1).replicas ∧
      ¬ StrategyRefuses (shipped {} {} (freshSites [("a", 1)])) [] (freshSites [("a", 1)]) (request 1) ∧
      NilErrorPlaces (shipped {} {} (freshSites [("a", 1)])) [] (freshSites [("a", 1)]) (request 1) := by
  have hrun : (schedule (shipped {} {} (freshSites [("a", 1)])) [] (freshSites [("a", 1)])
      (request 1)).map (fun r => r.stackList.length) = .ok 1 := by
    decide +kernel
  have hnot : ¬ StrategyRefuses (shipped {} {} (freshSites [("a", 1)])) [] (freshSites [("a", 1)])
      (request 1) := by
    intro hrefuses
    rw [hrefuses.returns] at hrun
    cases hrun
  exact ⟨by decide, hnot, (nilErrorPlaces_iff _ _ _ _ (by decide)).mpr hnot⟩

/-- One site with room for one machine and a request for two copies: the strategy
refuses, and the caller gets a nil error and no stack. -/
theorem nilErrorPlaces_fails :
    ¬ NilErrorPlaces (shipped {} {} (freshSites [("a", 1)])) [] (freshSites [("a", 1)])
      (request 2) := by
  intro hplaces
  have hrun : (schedule (shipped {} {} (freshSites [("a", 1)])) [] (freshSites [("a", 1)])
      (request 2)).map (fun r => (r.err, r.stackList.length)) = .ok (none, 0) := by
    decide +kernel
  obtain ⟨r, hr, heq⟩ := Outcome.map_ok.mp hrun
  obtain ⟨herr, hnone⟩ := Prod.mk.inj heq
  have hlen := (hplaces r hr herr).1
  rw [hnone] at hlen
  exact absurd hlen (by decide)

end GlobalScheduler.Schedule
