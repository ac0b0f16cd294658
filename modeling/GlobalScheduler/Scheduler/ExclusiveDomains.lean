import GlobalScheduler.Scheduler.PrioritizeProofs
import GlobalScheduler.Scheduler.Shipped

/-! Sites that are exclusive to some domains.

The attribute of an exclusive site lists the domains it is for. The plugin refuses the
callers on the list and lets all others pass, so that the sites which the filters return
are never exclusive to the caller's domain. -/
namespace GlobalScheduler.ExclusiveDomains

open Go Schedule Filters Framework SiteCacheInfo AList

/-- The domains a site is exclusive to; the first list decides. -/
def exclusiveDomains (site : Site) : Option (List String) :=
  (site.siteAttribute.find? (·.key = "exclusive_domains")).map (split ·.value ",")

/-- The filters of the shipped policy return the site for some stack of a caller. -/
def Returned (domainID : String) (site : Site) : Prop :=
  ∃ settings ord snap stack, settings.domainID = domainID ∧
    ∃ prefiltered state passed refused,
      runPreFilterPlugins stack (shipped settings ord snap).preFilterPlugins {} = .ok (prefiltered, .nil) ∧
      findSitesThatPassFilters (shipped settings ord snap) ord.sites snap stack prefiltered =
        .ok (state, .ok (passed, refused)) ∧
      site ∈ passed

/-- A site is returned to the callers it is exclusive to only, and the plugin leaves sites
without the attribute to the other filters. -/
structure Isolated (domainID : String) (site : Site) : Prop where
  exclusive : ∀ domains, exclusiveDomains site = some domains → Returned domainID site → domainID ∈ domains
  unrestricted : exclusiveDomains site = none →
    ∀ info, info.site = some site → exclusiveSite domainID info = .ok .nil

/-! ### What the plugin decides -/

section
variable {domainID : String} {site : Site} {info : SiteCacheInfo} {domains : List String}

theorem exclusiveSite_unrestricted (hinfo : info.site = some site) (hnone : exclusiveDomains site = none) :
    exclusiveSite domainID info = .ok .nil := by
  unfold exclusiveSite
  rw [getSite_ok.mpr hinfo]
  dsimp only [bind, Except.bind]
  rw [Option.map_eq_none_iff.mp hnone]
  rfl

theorem exclusiveSite_listed (hinfo : info.site = some site) (hdomains : exclusiveDomains site = some domains) :
    exclusiveSite domainID info =
      .ok (if domainID ∈ domains then unschedulable "site is exclusive site." else .nil) := by
  obtain ⟨siteAttr, hattr, hsplit⟩ := Option.map_eq_some_iff.mp hdomains
  unfold exclusiveSite
  rw [getSite_ok.mpr hinfo, ← hsplit]
  dsimp only [bind, Except.bind]
  rw [hattr]
  dsimp only
  split <;> rfl

theorem accepted_stateless {name : String} {f : Stack → SiteCacheInfo → Outcome Status} {stack : Stack}
    {pls : List FilterPlugin} {state state' : CycleState} (h : Framework.AcceptedBy stack info pls state state')
    (hpl : stateless name f ∈ pls) : ∃ status, f stack info = .ok status ∧ status.isSuccess = true := by
  obtain ⟨state, state', status, hfilter, hsuccess⟩ := h.each hpl
  obtain ⟨status', hf, hpure⟩ := Outcome.bind_ok.mp hfilter
  cases hpure
  exact ⟨status, hf, hsuccess⟩

/-- The site is out for every stack. -/
def Unavailable (site : Site) : Prop := site.status = "Offline" ∨ site.status = "Sellout"

theorem siteAvailability_unavailable (stack : Stack) (hinfo : info.site = some site) (hout : Unavailable site) :
    ∃ reason, siteAvailability stack info = .ok (unschedulable reason) := by
  unfold siteAvailability
  rw [getSite_ok.mpr hinfo]
  unfold Unavailable at hout
  dsimp only [bind, Except.bind]
  rw [if_pos hout]
  exact ⟨_, rfl⟩

/-- **A site that is returned is available and not exclusive to the caller.** -/
theorem Returned.not_listed (h : Returned domainID site) :
    ¬ Unavailable site ∧ ∀ domains, exclusiveDomains site = some domains → domainID ∉ domains := by
  obtain ⟨settings, ord, snap, stack, rfl, prefiltered, state, passed, refused, -, hfind, hsite⟩ := h
  obtain ⟨info, -, hinfo, found, state', -, haccepted⟩ := (findSites_spec hfind).2 site hsite
  constructor
  · intro hout
    obtain ⟨reason, hrefused⟩ := siteAvailability_unavailable stack hinfo hout
    have hplugin : siteAvailabilityPlugin ∈ (shipped settings ord snap).filterPlugins := by simp [shipped]
    obtain ⟨status, hstatus, hsuccess⟩ := accepted_stateless haccepted hplugin
    rw [hrefused] at hstatus
    cases hstatus
    cases hsuccess
  · intro domains hdomains hlisted
    have hplugin : exclusiveSitePlugin settings.domainID ∈ (shipped settings ord snap).filterPlugins := by
      simp [shipped]
    obtain ⟨status, hstatus, hsuccess⟩ := accepted_stateless haccepted hplugin
    rw [exclusiveSite_listed hinfo hdomains, if_pos hlisted] at hstatus
    cases hstatus
    cases hsuccess

end

/-! ### A stack that asks for nothing but a machine -/

def oneMachine (site : Site) : SiteCacheInfo where
  site := some site
  allocatableFlavor := singleton "f" 1

theorem oneMachine_keyed (site site' : Site) (h : (oneMachine site).site = some site') :
    site'.siteID = site.siteID := by
  cases h
  rfl

def onlySite (site : Site) : Snapshot := Snapshot.empty.put site.siteID (oneMachine site) (oneMachine_keyed site)

section
variable {runAll : Bool} {stack : Stack} {info : SiteCacheInfo} {statuses : List Status} {state state' : CycleState}

theorem runFilters_accepts {pl : FilterPlugin} {rest : List FilterPlugin}
    (h : pl.filter state stack info = .ok (state', .nil)) :
    runFilters runAll stack info (pl :: rest) statuses state =
      runFilters runAll stack info rest statuses state' := by
  rw [runFilters, h]
  rfl

theorem stateless_accepts {name : String} {f : Stack → SiteCacheInfo → Outcome Status}
    (h : f stack info = .ok .nil) : (stateless name f).filter state stack info = .ok (state, .nil) := by
  show (f stack info >>= fun status => pure (state, status)) = _
  rw [h]
  rfl

end

def oneAggregate : FlavorAggregates := ⟨[{ flavors := [⟨{ flavorID := "f" }, 1⟩], weight := 10 }]⟩

theorem preFilter_request (settings : Settings) (ord : MapOrders) (snap : Snapshot) :
    runPreFilterPlugins (request 1).stack (shipped settings ord snap).preFilterPlugins {} =
      .ok ({ preFilterFlavor := some oneAggregate }, .nil) := rfl

theorem flavorFilter_oneMachine (site : Site) :
    (FlavorPlugin.filterPlugin false fun _ _ => {}).filter { preFilterFlavor := some oneAggregate } (request 1).stack
        (oneMachine site) = .ok ({ preFilterFlavor := some oneAggregate }, .nil) := rfl

theorem siteAvailability_oneMachine {site : Site} (hin : ¬ Unavailable site) :
    siteAvailability (request 1).stack (oneMachine site) = .ok .nil := by
  unfold Unavailable at hin
  show (if site.status = "Offline" ∨ site.status = "Sellout" then _ else _) = _
  rw [if_neg hin]
  rfl

/-- Every filter accepts the machine, if the site is available and the caller is not on its
list. -/
theorem runFilters_oneMachine {domainID : String} {site : Site} (snap : Snapshot) (hin : ¬ Unavailable site)
    (hexclusive : exclusiveSite domainID (oneMachine site) = .ok .nil) :
    ∃ state, (shipped { domainID := domainID } {} snap).runFilterPlugins { preFilterFlavor := some oneAggregate }
      (request 1).stack (oneMachine site) = .ok (state, []) := by
  unfold runFilterPlugins shipped siteAvailabilityPlugin locationAndOperatorPlugin
    regionAndAzPlugin eipAvailabilityPlugin exclusiveSitePlugin
  rw [runFilters_accepts (stateless_accepts (siteAvailability_oneMachine hin)),
    runFilters_accepts (stateless_accepts rfl), runFilters_accepts (stateless_accepts rfl),
    runFilters_accepts (flavorFilter_oneMachine site), runFilters_accepts rfl,
    runFilters_accepts (stateless_accepts rfl), runFilters_accepts (stateless_accepts hexclusive)]
  exact ⟨_, rfl⟩

theorem candidates_onlySite (site : Site) :
    candidates [] (onlySite site) (request 1).stack = [oneMachine site] := by
  show (Map.entriesBy [] (onlySite site).siteCacheInfoMap).map Prod.snd = _
  have honly : ∀ key ∈ (onlySite site).siteCacheInfoMap, key = site.siteID := by
    intro key hkey
    rcases (mem_insert _).mp hkey with heq | hempty
    · exact heq
    · exact absurd hempty (notMem_empty key)
  have hfiled : (onlySite site).siteCacheInfoMap.lookup site.siteID = some (oneMachine site) :=
    lookup_insert _
  rw [Map.entriesBy_only [] honly, hfiled]
  rfl

/-- **A site is returned for some stack of a caller exactly if it is available and not
exclusive to the caller's domain.** -/
theorem returned_iff {domainID : String} {site : Site} : Returned domainID site ↔
    ¬ Unavailable site ∧ ∀ domains, exclusiveDomains site = some domains → domainID ∉ domains := by
  refine ⟨Returned.not_listed, fun h => ?_⟩
  have hexclusive : exclusiveSite domainID (oneMachine site) = .ok .nil := by
    cases hdomains : exclusiveDomains site with
    | none => exact exclusiveSite_unrestricted rfl hdomains
    | some domains => rw [exclusiveSite_listed rfl hdomains, if_neg (h.2 domains hdomains)]
  obtain ⟨state, hfilters⟩ := runFilters_oneMachine (onlySite site) h.1 hexclusive
  refine ⟨{ domainID := domainID }, {}, onlySite site, (request 1).stack, rfl, _, state, [site], [],
    preFilter_request _ _ _, ?_, List.mem_singleton_self site⟩
  unfold findSitesThatPassFilters
  rw [candidates_onlySite]
  show checkSites _ _ [oneMachine site] _ = _
  rw [checkSites, hfilters]
  rfl

/-- **The filters keep a site to the domains it is exclusive to exactly for the callers on
its list**, whom they refuse, and for sites that are out. -/
theorem keptToDomains_iff (domainID : String) (site : Site) : Isolated domainID site ↔
    ∀ domains, exclusiveDomains site = some domains → domainID ∈ domains ∨ Unavailable site := by
  constructor
  · intro h domains hdomains
    by_contra hneither
    have hreturned : Returned domainID site := by
      refine returned_iff.mpr ⟨fun hout => hneither (Or.inr hout), fun domains' hdomains' hlisted => ?_⟩
      rw [hdomains] at hdomains'
      cases hdomains'
      exact hneither (Or.inl hlisted)
    exact hneither (Or.inl (h.exclusive domains hdomains hreturned))
  · intro h
    refine ⟨fun domains hdomains hreturned => ?_, fun hnone info hinfo => exclusiveSite_unrestricted hinfo hnone⟩
    rcases h domains hdomains with hlisted | hout
    · exact hlisted
    · exact absurd hout (returned_iff.mp hreturned).1

/-- A site for the domain `a` is returned to a caller of the domain `b`, and not to one of
the domain `a`. -/
theorem exclusive_to_others :
    exclusiveDomains { siteID := "s", siteAttribute := [{ key := "exclusive_domains", value := "a" }] } = some ["a"] ∧
      Returned "b" { siteID := "s", siteAttribute := [{ key := "exclusive_domains", value := "a" }] } ∧
      ¬ Returned "a" { siteID := "s", siteAttribute := [{ key := "exclusive_domains", value := "a" }] } := by
  have hdomains : exclusiveDomains
      { siteID := "s", siteAttribute := [{ key := "exclusive_domains", value := "a" }] } = some ["a"] := by decide
  refine ⟨hdomains, returned_iff.mpr ⟨by simp [Unavailable], fun domains h => ?_⟩, fun h => ?_⟩
  · rw [hdomains] at h
    cases h
    decide
  · exact (returned_iff.mp h).2 ["a"] hdomains (by decide)

end GlobalScheduler.ExclusiveDomains
