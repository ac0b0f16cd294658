import GlobalScheduler.Scheduler.Storage

/-! Which flavors the replicas of a call show.

The replicas are copies of one stack that share its resources, and the binder writes the
flavors chosen for a site into them. The writes for the site bound last stand, so a replica
shows the flavors of its own site exactly if all sites that are bound have the same. -/
namespace GlobalScheduler.Schedule

open Go Outcome DefaultBinder List

/-- The flavors recorded for a site, in the order of the resources. -/
def chosenFlavors (state : CycleState) (siteID : String) : Option (List String) :=
  (getSiteSelectorState state siteID).map fun sel => sel.flavors.map (·.flavor.flavorID)

/-- One of them for each of `n` resources. -/
def bindable (state : CycleState) (n : Nat) (siteID : String) : Bool :=
  (chosenFlavors state siteID).any fun ids => ids.length = n

/-- The sites that are bound: those of the slots, up to the first that cannot be. -/
def boundSites (state : CycleState) (alloc : Allocation) (sites : List SiteScore) : List String :=
  (boundSlots alloc.replicas sites).takeWhile (bindable state alloc.stack.resources.length)

theorem exists_chosen {state : CycleState} {n : Nat} {siteID : String}
    (h : bindable state n siteID = true) : ∃ ids, chosenFlavors state siteID = some ids := by
  rw [bindable] at h
  cases hchosen : chosenFlavors state siteID with
  | none =>
    rw [hchosen] at h
    cases h
  | some ids => exact ⟨ids, rfl⟩

/-! ### The binds -/

section Binds
variable {fw : Framework} {deduct : Nat → DeductOrders} {own : Snapshot} {state : CycleState} {stack : Stack}
  {siteID : String} {p p' q : Progress}

section
variable (hfw : fw.bindPlugins = [plugin deduct own])
include hfw

theorem bindOne_chosen {err : Option String} (h : bindOne fw state stack siteID p = .ok (err, p')) :
    (err = none ∧ p'.resources.length = p.resources.length ∧
        bindable state p.resources.length siteID = true ∧
        chosenFlavors state siteID = some (p'.resources.map (·.flavorIDSelected))) ∨
      err ≠ none ∧ p'.resources = p.resources ∧ bindable state p.resources.length siteID = false := by
  obtain ⟨info, status, stack', info', hkeyed, hinfo, hrun, herr, rfl⟩ := bindOne_ok h
  obtain ⟨status₁, hbind, hsame⟩ := runBindPlugins_ok hfw hrun
  obtain ⟨site, hsite, -, hend⟩ := bind_ok hbind
  have hid : site.siteID = siteID := p.snapshot.keyed siteID info site hinfo hsite
  cases hend with
  | inl hrefused =>
    obtain ⟨hcode, -, hres, hlength⟩ := hrefused
    refine Or.inr ⟨fun hnone => ?_, hres, ?_⟩
    · have hsucc := bindError_eq_none.mp (herr.symm.trans hnone)
      rw [hsame, Status.isSuccess, hcode] at hsucc
      cases hsucc
    · rw [bindable, chosenFlavors]
      cases hsel : getSiteSelectorState state siteID with
      | none => rfl
      | some sel =>
        have hne := hlength sel (by rw [hid]; exact hsel)
        simpa using Ne.symm hne
  | inr hbound =>
    obtain ⟨sel, rfl, hsel, hlength, hres, -⟩ := hbound
    have hnone : err = none := herr.trans (bindError_eq_none.mpr hsame)
    have hflavors : stack'.resources.map (·.flavorIDSelected) = sel.flavors.map (·.flavor.flavorID) := by
      rw [hres]
      exact selectFlavors_flavorIDs hlength
    have hchosen : chosenFlavors state siteID = some (stack'.resources.map (·.flavorIDSelected)) := by
      rw [chosenFlavors, ← hid, hsel, hflavors]
      rfl
    have hlength' : stack'.resources.length = p.resources.length := by
      have := congrArg length hflavors
      rw [length_map, length_map] at this
      exact this.trans hlength.symm
    refine Or.inl ⟨hnone, hlength', ?_, hchosen⟩
    rw [bindable, hchosen]
    simpa using hlength'

/-- A bind that fails leaves the resources alone, and the site was not one that can be bound. -/
theorem bindOne_refused {e : String} (h : bindOne fw state stack siteID p = .ok (some e, p')) :
    p'.resources = p.resources ∧ bindable state p.resources.length siteID = false := by
  cases bindOne_chosen hfw h with
  | inl hbound => cases hbound.1
  | inr hrefused => exact hrefused.2

/-- **The last bind stands.** -/
theorem Binds.chosen {ids : List String} (h : Binds fw state stack p ids q) :
    q.resources.length = p.resources.length ∧
      (∀ id ∈ ids, bindable state p.resources.length id = true) ∧
      q.resources.map (·.flavorIDSelected) =
        (ids.getLast?.bind (chosenFlavors state)).getD (p.resources.map (·.flavorIDSelected)) := by
  induction h with
  | nil => exact ⟨rfl, by simp, rfl⟩
  | @cons p p' q siteID rest first _ ih =>
    cases bindOne_chosen hfw first with
    | inr hfailed => exact absurd rfl hfailed.1
    | inl hbound =>
      obtain ⟨-, hlength, hbindable, hchosen⟩ := hbound
      obtain ⟨ihlength, ihall, ihlast⟩ := ih
      rw [hlength] at ihlength ihall
      refine ⟨ihlength, forall_mem_cons.mpr ⟨hbindable, ihall⟩, ?_⟩
      rw [ihlast]
      cases hrest : rest.getLast? with
      | none =>
        obtain rfl : rest = [] := getLast?_eq_none_iff.mp hrest
        simp [hchosen]
      | some last =>
        have hlast : (siteID :: rest).getLast? = some last := by
          rw [getLast?_cons, hrest]
          rfl
        obtain ⟨ids, hids⟩ := exists_chosen (ihall last (mem_of_getLast? hrest))
        rw [hlast, Option.bind_some, hids]
        rfl

end

end Binds

/-! ### The loop -/

section Loop
variable {fw : Framework} {deduct : Nat → DeductOrders} {own : Snapshot} {state : CycleState} {alloc : Allocation}
  {p p' : Progress}

theorem takeWhile_bindable {n : Nat} {done left : List String}
    (hdone : ∀ id ∈ done, bindable state n id = true)
    (hleft : ∀ id, left.head? = some id → bindable state n id = false) :
    (done ++ left).takeWhile (bindable state n) = done := by
  rw [takeWhile_append_of_pos hdone]
  cases left with
  | nil => simp
  | cons id rest => simp [hleft id rfl]

section Placed
variable (hfw : fw.bindPlugins = [plugin deduct own]) {snap : Snapshot} {prio : Prioritized}
  {sites : List SiteScore} {err : Option String} (h : Placed fw snap alloc prio sites err p)
include hfw h

/-- **Which sites a call binds.** -/
theorem Placed.binds_sites :
    ∃ q, Binds fw prio.state alloc.stack ⟨snap, alloc.stack.resources, []⟩
        (boundSites prio.state alloc sites) q ∧ p.bound = q.bound ∧ p.resources = q.resources := by
  obtain ⟨done, q, hbinds, hend⟩ := h.ended
  obtain ⟨hlength, hall, -⟩ := hbinds.chosen hfw
  rw [boundSites]
  rcases hend with ⟨-, rfl, rfl⟩ | ⟨e, siteID, rest, -, hslots, hone⟩
  · refine ⟨p, ?_, rfl, rfl⟩
    rw [← append_nil (boundSlots alloc.replicas sites), takeWhile_bindable hall (by simp)]
    exact hbinds
  · obtain ⟨hresources, hrefused⟩ := bindOne_refused hfw hone
    refine ⟨q, ?_, bindOne_failed hone, hresources⟩
    rw [hslots, takeWhile_bindable hall]
    · exact hbinds
    · rintro id ⟨⟩
      exact hlength ▸ hrefused

end Placed

end Loop

/-! ### What is shown -/

/-- Every replica shows the flavors chosen in the cycle state for its own site. -/
def ShowsOwnFlavors (fw : Framework) (ord : List String) (snap : Snapshot) (alloc : Allocation)
    (r : Result) : Prop :=
  ∀ prio, prioritize fw ord snap alloc = .ok (.ok prio) → ∀ stack ∈ r.stackList,
    chosenFlavors prio.state stack.selected.siteID = some (stack.resources.map (·.flavorIDSelected))

/-- Any two sites that the slots of the strategies bind have the same flavors chosen. -/
def SitesAgree (fw : Framework) (ord : List String) (snap : Snapshot) (alloc : Allocation) : Prop :=
  ∀ prio sites status, prioritize fw ord snap alloc = .ok (.ok prio) →
    Framework.runStrategyPlugins prio.state (withSelector alloc) fw.strategyPlugins
      prio.priorityList = .ok (sites, status) → status.isSuccess = true →
    ∀ a ∈ boundSites prio.state (withSelector alloc) sites,
      ∀ b ∈ boundSites prio.state (withSelector alloc) sites,
        chosenFlavors prio.state a = chosenFlavors prio.state b

/-- **A replica shows its own flavors exactly if the sites bound agree.** -/
theorem showsOwnFlavors_iff (fw : Framework) (deduct : Nat → DeductOrders) (own : Snapshot)
    (hfw : fw.bindPlugins = [plugin deduct own]) (ord : List String) (snap : Snapshot)
    (alloc : Allocation) (r : Result) (h : schedule fw ord snap alloc = .ok r) :
    ShowsOwnFlavors fw ord snap alloc r ↔ SitesAgree fw ord snap alloc := by
  rcases schedule_ok h with ⟨e, hprio, rfl⟩ | ⟨⟨prio, sites, status, hprio, hstrat, hfail⟩, rfl⟩ |
    ⟨prio, sites, err, p, hprio, hplaced, rfl⟩
  · refine iff_of_true (fun prio hprio' => ?_) fun prio _ _ hprio' => ?_
    · cases hprio.symm.trans hprio'
    · cases hprio.symm.trans hprio'
  · refine iff_of_true (fun _ _ stack hstack => by cases hstack) ?_
    intro prio' sites' status' hprio' hstrat' hok
    cases hprio.symm.trans hprio'
    cases hstrat.symm.trans hstrat'
    rw [hfail] at hok
    cases hok
  · obtain ⟨status, hstrat, hok⟩ := hplaced.strategies
    obtain ⟨q, hbinds, hbound, hresources⟩ := hplaced.binds_sites hfw
    obtain ⟨-, hall, hlast⟩ := hbinds.chosen hfw
    obtain ⟨new, hnew, hids⟩ := hbinds.bound
    have hbound' : p.bound.map (·.selected.siteID) = boundSites prio.state (withSelector alloc) sites := by
      rw [hbound, hnew, nil_append, hids]
    -- The sites shown are those bound, and all show what the last of them left.
    have hshown : ShowsOwnFlavors fw ord snap alloc
        { stackList := shown p, snapshot := p.snapshot, bound := p.bound,
          err := err.or (if p.count < alloc.replicas then some "not find suit host" else none) } ↔
        ∀ id ∈ boundSites prio.state (withSelector alloc) sites,
          chosenFlavors prio.state id = some (p.resources.map (·.flavorIDSelected)) := by
      rw [← hbound']
      constructor
      · intro hown id hid
        obtain ⟨stack, hstack, rfl⟩ := mem_map.mp hid
        exact hown prio hprio { stack with resources := p.resources } (mem_map_of_mem hstack)
      · intro hown prio' hprio' stack hstack
        cases hprio.symm.trans hprio'
        obtain ⟨stack', hstack', rfl⟩ := mem_map.mp hstack
        exact hown stack'.selected.siteID (mem_map.mpr ⟨stack', hstack', rfl⟩)
    have hfinal : ∀ last, (boundSites prio.state (withSelector alloc) sites).getLast? = some last →
        chosenFlavors prio.state last = some (p.resources.map (·.flavorIDSelected)) := by
      intro last hl
      obtain ⟨ids, hids⟩ := exists_chosen (hall last (mem_of_getLast? hl))
      rw [hl, Option.bind_some, ← hresources, hids] at hlast
      rw [hlast, hids]
      rfl
    rw [hshown]
    constructor
    · intro hown prio' sites' status' hprio' hstrat' _ a ha b hb
      cases hprio.symm.trans hprio'
      cases hstrat.symm.trans hstrat'
      rw [hown a ha, hown b hb]
    · intro hagree id hid
      obtain ⟨last, hl⟩ := Option.ne_none_iff_exists'.mp
        (mt getLast?_eq_none_iff.mp (ne_nil_of_mem hid))
      rw [hagree prio sites status hprio hstrat hok id hid last (mem_of_getLast? hl)]
      exact hfinal last hl

/-- The flavors chosen for the sites that the slots of a call are bound to. -/
def flavorsBound (fw : Framework) (ord : List String) (snap : Snapshot) (alloc : Allocation) :
    Outcome (List (Option (List String))) := do
  match ← prioritize fw ord snap alloc with
  | .error _ => pure []
  | .ok prio =>
    let (sites, _) ← Framework.runStrategyPlugins prio.state (withSelector alloc) fw.strategyPlugins
      prio.priorityList
    pure ((boundSites prio.state (withSelector alloc) sites).map (chosenFlavors prio.state))

theorem sitesAgree_of_flavorsBound {fw : Framework} {ord : List String} {snap : Snapshot} {alloc : Allocation}
    {n : Nat} {ids : Option (List String)} (h : flavorsBound fw ord snap alloc = .ok (replicate n ids)) :
    SitesAgree fw ord snap alloc := by
  intro prio sites status hprio hstrat _ a ha b hb
  obtain ⟨found, hfound, h⟩ := bind_ok.mp h
  cases hprio.symm.trans hfound
  obtain ⟨both, hboth, h⟩ := bind_ok.mp h
  cases hstrat.symm.trans hboth
  have hall : ∀ id ∈ boundSites prio.state (withSelector alloc) sites, chosenFlavors prio.state id = ids := by
    intro id hid
    have hmem := mem_map_of_mem (f := chosenFlavors prio.state) hid
    rw [pure_ok.mp h] at hmem
    exact eq_of_mem_replicate hmem
  rw [hall a ha, hall b hb]

theorem showsOwnFlavors_iff_two_replicas :
    ∃ r, scheduleShipped {} {} (freshSites [("a", 1), ("b", 1)]) (request 2) = .ok r ∧ r.stackList.length = 2 ∧
      SitesAgree (shipped {} {} ((freshSites [("a", 1), ("b", 1)]).updateFlavor {})) []
        ((freshSites [("a", 1), ("b", 1)]).updateFlavor {}) (request 2) ∧
      ShowsOwnFlavors (shipped {} {} ((freshSites [("a", 1), ("b", 1)]).updateFlavor {})) []
        ((freshSites [("a", 1), ("b", 1)]).updateFlavor {}) (request 2) r := by
  have hrun : (scheduleShipped {} {} (freshSites [("a", 1), ("b", 1)]) (request 2)).map
      (fun r => r.stackList.length) = .ok 2 := by
    decide +kernel
  have hbound : flavorsBound (shipped {} {} ((freshSites [("a", 1), ("b", 1)]).updateFlavor {})) []
      ((freshSites [("a", 1), ("b", 1)]).updateFlavor {}) (request 2) = .ok (replicate 2 (some ["f"])) := by
    decide +kernel
  have hagree := sitesAgree_of_flavorsBound hbound
  obtain ⟨r, hr, hlen⟩ := map_ok.mp hrun
  exact ⟨r, hr, hlen, hagree, (showsOwnFlavors_iff _ _ _ rfl _ _ _ r hr).mpr hagree⟩

def siteWith (az flavorID : String) : SiteCacheInfo where
  site := some { siteID := "r--" ++ az, regionAzMap := ⟨"r", az⟩, status := "Normal" }
  allocatableFlavor := AList.singleton flavorID 1

theorem siteWith_keyed (az flavorID : String) :
    ∀ site, (siteWith az flavorID).site = some site → site.siteID = "r--" ++ az := by
  intro site h
  cases h
  rfl

def twoSites : Snapshot :=
  (Snapshot.empty.put "r--b" (siteWith "b" "g") (siteWith_keyed "b" "g")).put "r--a"
    (siteWith "a" "f") (siteWith_keyed "a" "f")

/-- Two copies of a stack of one machine, of either flavor. -/
def eitherFlavor : Allocation where
  stack := { resources := [{ flavors := [{ flavorID := "f" }, { flavorID := "g" }], count := 1 }] }
  replicas := 2

/-- One copy goes to each site, and the copy on the first shows the flavor of the second. -/
theorem showsOwnFlavors_fails :
    ∃ r, scheduleShipped {} {} twoSites eitherFlavor = .ok r ∧ r.err = none ∧
      ¬ ShowsOwnFlavors (shipped {} {} (twoSites.updateFlavor {})) [] (twoSites.updateFlavor {})
        eitherFlavor r := by
  have hrun : (scheduleShipped {} {} twoSites eitherFlavor).map (fun r => (r.err,
      r.stackList.map fun stack => (stack.selected.siteID, stack.resources.map (·.flavorIDSelected)))) =
        .ok (none, [("r--a", ["g"]), ("r--b", ["g"])]) := by
    decide +kernel
  have hchosen : (prioritize (shipped {} {} (twoSites.updateFlavor {})) [] (twoSites.updateFlavor {})
      eitherFlavor).map (fun result => result.toOption.map fun prio => chosenFlavors prio.state "r--a") =
        .ok (some (some ["f"])) := by
    decide +kernel
  obtain ⟨r, hr, heq⟩ := map_ok.mp hrun
  obtain ⟨herr, hstacks⟩ := Prod.mk.inj heq
  refine ⟨r, hr, herr, fun hown => ?_⟩
  obtain ⟨result, hresult, hsome⟩ := map_ok.mp hchosen
  cases result with
  | error e => cases hsome
  | ok prio =>
    have hmem : ("r--a", ["g"]) ∈ r.stackList.map fun stack =>
        (stack.selected.siteID, stack.resources.map (·.flavorIDSelected)) := by
      rw [hstacks]
      simp
    obtain ⟨stack, hstack, hshows⟩ := mem_map.mp hmem
    obtain ⟨hid, hflavors⟩ := Prod.mk.inj hshows
    have hf : chosenFlavors prio.state "r--a" = some ["f"] := Option.some.inj hsome
    have hg := hown prio hresult stack hstack
    rw [hid, hflavors, hf] at hg
    exact absurd hg (by decide)

end GlobalScheduler.Schedule
