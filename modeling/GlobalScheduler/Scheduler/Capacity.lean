import GlobalScheduler.Scheduler.ShippedProofs

/-! How many replicas a site gets.

Under the shipped policy a call never places more replicas than were asked for,
only on sites that passed all filters, and on each of them no more than the number
of copies recorded for it when the strategies ran, however the call ends. -/
namespace GlobalScheduler.Schedule

open Go

theorem count_slots_le {sites : List SiteScore} {bound : String → Int}
    (hnodup : (sites.map SiteScore.siteID).Nodup) (hpos : ∀ id, 0 ≤ bound id)
    (hle : ∀ value ∈ sites, value.stackCount ≤ bound value.siteID) (id : String) :
    ((slots sites).count id : Int) ≤ bound id := by
  induction sites with
  | nil => exact hpos id
  | cons value rest ih =>
    obtain ⟨hfresh, hnodup⟩ := List.nodup_cons.mp hnodup
    have hrest := ih hnodup fun v hv => hle v (List.mem_cons_of_mem value hv)
    have hslots : slots (value :: rest) =
        List.replicate value.stackCount.toNat value.siteID ++ slots rest := rfl
    rw [hslots, List.count_append, List.count_replicate]
    by_cases hid : value.siteID = id
    · subst hid
      have hnone : (slots rest).count value.siteID = 0 :=
        List.count_eq_zero_of_not_mem fun hmem => hfresh (mem_slots hmem)
      have hvalue := hle value List.mem_cons_self
      have := hpos value.siteID
      simp only [beq_self_eq_true, if_true]
      omega
    · simpa [hid] using hrest

theorem Placed.countP_le {fw : Framework} {alloc : Allocation} {snap : Snapshot} {prio : Prioritized}
    {sites : List SiteScore} {err : Option String} {p : Progress} (h : Placed fw snap alloc prio sites err p)
    (id : String) : (shown p).countP (fun stack => stack.selected.siteID = id) ≤ (slots sites).count id := by
  have hshown : (shown p).map (·.selected.siteID) = p.bound.map (·.selected.siteID) := by
    rw [shown, List.map_map]
    rfl
  calc (shown p).countP (fun stack => stack.selected.siteID = id)
      = ((shown p).map (·.selected.siteID)).count id := by
        rw [List.count, List.countP_map]
        congr 1
    _ = (p.bound.map (·.selected.siteID)).count id := by rw [hshown]
    _ ≤ (slots sites).count id := h.bound_begins.sublist.count_le id

/-- The stacks a call returns: each on a site that passed all filters, and no more of
them on that site than were recorded for it. -/
def WithinCapacity (fw : Framework) (ord : List String) (snap : Snapshot) (alloc : Allocation)
    (r : Result) : Prop :=
  (r.stackList.length : Int) ≤ alloc.replicas ∧
    ∀ stack ∈ r.stackList, ∃ prio, prioritize fw ord snap alloc = .ok (.ok prio) ∧
      ∃ site ∈ prio.passed, stack.selected.siteID = site.siteID ∧
        (∃ info, snap.siteCacheInfoMap.lookup site.siteID = some info ∧
          info.site = some site ∧ PassesFilters fw ord snap alloc info) ∧
        (r.stackList.countP (fun other => other.selected.siteID = site.siteID) : Int) ≤
          max 0 (recordedCount prio.state site.siteID)

/-- **Every call under the shipped policy places within capacity.** -/
theorem scheduleShipped_withinCapacity (settings : Settings) (ord : MapOrders) (snap : Snapshot)
    (alloc : Allocation) (hR : 1 ≤ alloc.replicas) (r : Result)
    (h : scheduleShipped settings ord snap alloc = .ok r) :
    WithinCapacity (shipped settings ord (snap.updateFlavor settings)) ord.sites
      (snap.updateFlavor settings) alloc r := by
  have hnone : ∀ s, WithinCapacity (shipped settings ord (snap.updateFlavor settings)) ord.sites
      (snap.updateFlavor settings) alloc { err := s, snapshot := snap.updateFlavor settings } := by
    intro s
    refine ⟨?_, by simp⟩
    show ((0 : Nat) : Int) ≤ alloc.replicas
    omega
  rcases schedule_ok h with ⟨e, _, rfl⟩ | ⟨_, rfl⟩ | ⟨prio, sites, err, p, hprio, hplaced, rfl⟩
  · exact hnone _
  · exact hnone _
  · have hsound := prioritize_sound hprio
    obtain ⟨status, hstrat, hok⟩ := hplaced.strategies
    have hnodup : (sites.map SiteScore.siteID).Nodup :=
      (hsound.perm.nodup_iff.mpr hsound.nodup).sublist (Framework.runStrategyPlugins_sublist hstrat)
    refine ⟨?_, ?_⟩
    · rw [shown, List.length_map]
      exact hplaced.count_le hR
    · intro stack hstack
      obtain ⟨bound, hbound, rfl⟩ := List.mem_map.mp hstack
      obtain ⟨site, hsite, hid⟩ := hplaced.passed hsound bound hbound
      refine ⟨prio, hprio, site, hsite, hid, hsound.accepted site hsite, ?_⟩
      have hcount : ((slots sites).count site.siteID : Int) ≤
          max 0 (recordedCount prio.state site.siteID) :=
        count_slots_le hnodup (fun _ => le_max_left _ _)
          (shipped_stackCount_le hprio hstrat hok) site.siteID
      exact le_trans (by exact_mod_cast hplaced.countP_le site.siteID) hcount

theorem scheduleShipped_withinCapacity_two_replicas :
    ∃ r, 1 ≤ (request 2).replicas ∧
      scheduleShipped {} {} (freshSites [("a", 1), ("b", 3)]) (request 2) = .ok r ∧
      r.stackList.length = 2 ∧
      WithinCapacity (shipped {} {} ((freshSites [("a", 1), ("b", 3)]).updateFlavor {})) []
        ((freshSites [("a", 1), ("b", 3)]).updateFlavor {}) (request 2) r := by
  have hrun : (scheduleShipped {} {} (freshSites [("a", 1), ("b", 3)]) (request 2)).map
      (fun r => r.stackList.length) = .ok 2 := by
    decide +kernel
  obtain ⟨r, hr, hlen⟩ := Outcome.map_ok.mp hrun
  exact ⟨r, by decide, hr, hlen, scheduleShipped_withinCapacity _ _ _ _ (by decide) r hr⟩

end GlobalScheduler.Schedule
