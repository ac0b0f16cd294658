import GlobalScheduler.SecondaryIndex
import GlobalScheduler.Cache.CollectorCache
import GlobalScheduler.Cache.SchedulerCache

/-! The sites of a region.

`regionToSite` lists the sites of every region. It is kept by the arguments of the calls:
a site goes from the region of the site that is given, which need not be the region of the
site that is stored. A site that is added again with another region stays listed under the
old one, and the pools of that region are written to its record. -/
namespace GlobalScheduler.Cache.SchedulerCache.RegionIndex

open Go Transition SecondaryIndex CollectorCache Outcome SiteCache AList SchedulerCache Function

/-- The site is listed under the region. -/
def listedIn (c : SiteCache) (region siteID : String) : Prop :=
  siteID ∈ (c.regionToSite.lookup region).getD ∅

def regionOf (c : SiteCache) (siteID : String) : Option String :=
  ((c.siteCacheInfos.lookup siteID).bind (·.site)).map (·.regionAzMap.region)

/-! ### The calls on sites -/

inductive SiteCall where
  | addSite (env : Env) (site : CachedSite)
  | updateSite (env : Env) (oldSite newSite : CachedSite)
  | removeSite (site : CachedSite)

def call (c : SiteCache) : SiteCall → Outcome SiteCache
  | .addSite env site => c.addSite env site
  | .updateSite env oldSite newSite => c.updateSite env (some oldSite) newSite
  | .removeSite site => pure (removeSite site c).1

/-- An update is of one site. -/
def SiteCall.SameSite : SiteCall → Prop
  | .updateSite _ oldSite newSite => oldSite.siteID = newSite.siteID
  | _ => True

/-- The site that a call is about, the region it takes it from and the one it files it in. -/
def SiteCall.siteID : SiteCall → String
  | .addSite _ site => site.siteID
  | .updateSite _ _ newSite => newSite.siteID
  | .removeSite site => site.siteID

def SiteCall.leaves : SiteCall → Option String
  | .addSite _ _ => none
  | .updateSite _ oldSite _ => some oldSite.regionAzMap.region
  | .removeSite site => some site.regionAzMap.region

def SiteCall.enters : SiteCall → Option String
  | .addSite _ site => some site.regionAzMap.region
  | .updateSite _ _ newSite => some newSite.regionAzMap.region
  | .removeSite _ => none

/-- The call knows the region in which the site is stored. -/
def SiteCall.KnowsRegion (e : SiteCall) (c : SiteCache) : Prop :=
  ∀ region, regionOf c e.siteID = some region → e.leaves = some region ∨ e.enters = some region

abbrev Step (c : SiteCache) (e : SiteCall) (c' : SiteCache) : Prop := call c e = .ok c'

/-! ### What a call does to the index -/

section
variable {c c' : SiteCache} {region siteID : String}

theorem listedIn_updateRegionToSite (site : CachedSite) (c : SiteCache) (region siteID : String) :
    listedIn (c.updateRegionToSite site) region siteID ↔
      listedIn c region siteID ∨ site.regionAzMap.region = region ∧ siteID = site.siteID := by
  unfold listedIn updateRegionToSite
  by_cases hregion : region = site.regionAzMap.region
  · rw [hregion, lookup_insert, Option.getD_some, mem_insert]
    simp [or_comm]
  · rw [lookup_insert_ne hregion]
    simp [Ne.symm hregion]

theorem listedIn_deleteRegionToSite (site : CachedSite) (c : SiteCache) (region siteID : String) :
    listedIn (c.deleteRegionToSite site) region siteID ↔
      listedIn c region siteID ∧ ¬ (site.regionAzMap.region = region ∧ siteID = site.siteID) := by
  unfold listedIn deleteRegionToSite
  cases hsites : c.regionToSite.lookup site.regionAzMap.region with
  | none =>
    by_cases hregion : region = site.regionAzMap.region
    · rw [hregion, hsites]
      simp
    · simp [Ne.symm hregion]
  | some siteIDs =>
    by_cases hregion : region = site.regionAzMap.region
    · rw [hregion, lookup_insert, hsites, Option.getD_some, Option.getD_some, mem_erase]
      simp [and_comm]
    · dsimp only
      rw [lookup_insert_ne hregion]
      simp [Ne.symm hregion]

theorem regionToSite_stampRecord {update : Nat → CachedInfo → Outcome CachedInfo}
    (h : c.stampRecord siteID update = .ok c') : c'.regionToSite = c.regionToSite := by
  unfold stampRecord at h
  split at h
  · exact (throw_ok.mp h).elim
  · obtain ⟨info, -, hpure⟩ := bind_ok.mp h
    cases hpure
    rfl

theorem listedIn_congr (h : c'.regionToSite = c.regionToSite) : listedIn c' = listedIn c := by
  funext region siteID
  rw [listedIn, h, listedIn]

variable {env : Env} {site : CachedSite}

theorem refiles_addSite (hcall : c.addSite env site = .ok c') :
    Refiles site.siteID none (some site.regionAzMap.region) (listedIn c) (listedIn c') := by
  intro region siteID
  rw [addSite, move_ensure] at hcall
  rw [listedIn_congr (regionToSite_stampRecord hcall), listedIn_updateRegionToSite]
  simp [listedIn]

theorem refiles_updateSite {oldSite newSite : CachedSite} (hsame : oldSite.siteID = newSite.siteID)
    (hcall : c.updateSite env (some oldSite) newSite = .ok c') :
    Refiles newSite.siteID (some oldSite.regionAzMap.region) (some newSite.regionAzMap.region)
      (listedIn c) (listedIn c') := by
  intro region siteID
  obtain ⟨siteTree, -, hstamp⟩ := bind_ok.mp hcall
  rw [placeSite_eq] at hstamp
  rw [listedIn_congr (regionToSite_stampRecord hstamp), listedIn_updateRegionToSite,
    listedIn_deleteRegionToSite, hsame]
  simp [listedIn]

/-- The tree has every site that is cached, so the removal comes to the index. -/
theorem refiles_removeSite (hc : Sited c) (hmem : site.siteID ∈ c.siteCacheInfos) :
    Refiles site.siteID (some site.regionAzMap.region) none (listedIn c) (listedIn (removeSite site c).1) := by
  intro region siteID
  have htree := hc.filed.spread.removeSite_found ((hc.zones site.siteID).mpr hmem)
  rw [removeSite, if_pos hmem, removeSiteCacheInfoFromList, if_pos hmem, dropSite, htree]
  rw [listedIn_deleteRegionToSite]
  simp [listedIn]

/-! ### What a call does to the sites -/

theorem regionOf_recorded {info : CachedInfo} (h : SiteCache.Recorded site.siteID info c c')
    (hsite : info.site = some site) :
    regionOf c' = update (regionOf c) site.siteID (some site.regionAzMap.region) := by
  funext siteID
  by_cases hid : siteID = site.siteID
  · subst hid
    rw [update_self, regionOf, h.lookup_self, Option.bind_some, hsite, Option.map_some]
  · rw [update_of_ne hid, regionOf, h.lookup_ne hid, regionOf]

theorem regionOf_removes (h : Removes siteID c c') : regionOf c' = update (regionOf c) siteID none := by
  funext key
  by_cases hkey : key = siteID
  · subst hkey
    rw [update_self, regionOf, h.infos, lookup_erase]
    rfl
  · rw [update_of_ne hkey, regionOf, h.infos, lookup_erase_ne hkey, regionOf]

theorem regionOf_of_not_mem (h : siteID ∉ c.siteCacheInfos) : regionOf c siteID = none := by
  rw [regionOf, lookup_eq_none.mpr h]
  rfl

theorem mem_of_regionOf (h : regionOf c siteID = some region) : siteID ∈ c.siteCacheInfos := by
  by_contra hmem
  rw [regionOf_of_not_mem hmem] at h
  cases h

end

/-! ### A call -/

/-- What the calls keep: nobody has taken a snapshot. -/
def Kept (c : SiteCache) : Prop := CollectorCache.Kept { cache := c }

section
variable {c c' : SiteCache} {e : SiteCall}

theorem Kept.call (h : Kept c) (hsame : e.SameSite) : ∃ c', call c e = .ok c' ∧ Kept c' := by
  cases e with
  | addSite env site => exact keeps_addSite env site { cache := c } h
  | updateSite env oldSite newSite => exact keeps_updateSite env oldSite newSite hsame { cache := c } h
  | removeSite site =>
    refine ⟨_, rfl, ?_⟩
    unfold removeSite
    split
    case isTrue hmem => exact CollectorCache.Kept.removes h (removes_dropSite h.sited hmem)
    case isFalse => exact h

theorem Kept.step (h : Kept c) (hsame : e.SameSite) (hstep : Step c e c') : Kept c' := by
  obtain ⟨c₁, hcall, hkept⟩ := h.call hsame
  cases hstep.symm.trans hcall
  exact hkept

/-- **A call refiles its site.** The removal of a site that is not cached does nothing, and
there is nothing to do where the index is right. -/
theorem step_refiles (h : Kept c) (hagrees : Agrees (listedIn c) (regionOf c)) (hsame : e.SameSite)
    (hstep : Step c e c') :
    Refiles e.siteID e.leaves e.enters (listedIn c) (listedIn c') ∧
      regionOf c' = update (regionOf c) e.siteID e.enters := by
  cases e with
  | addSite env site =>
    obtain ⟨c₁, hcall, hrecorded, -, -⟩ := recorded_addSite env site c
    cases hstep.symm.trans hcall
    exact ⟨refiles_addSite hcall, regionOf_recorded hrecorded rfl⟩
  | updateSite env oldSite newSite =>
    obtain ⟨hrecorded, -⟩ := recorded_of_updateSite h.sited.filed.spread hstep
    exact ⟨refiles_updateSite hsame hstep, regionOf_recorded hrecorded rfl⟩
  | removeSite site =>
    cases hstep
    by_cases hmem : site.siteID ∈ c.siteCacheInfos
    · refine ⟨refiles_removeSite h.sited hmem, ?_⟩
      rw [removeSite, if_pos hmem]
      exact regionOf_removes (removes_dropSite h.sited hmem)
    · have hnone := regionOf_of_not_mem hmem
      rw [removeSite, if_neg hmem]
      refine ⟨fun region siteID => ?_, (update_eq_self_iff.mpr hnone.symm).symm⟩
      constructor
      · intro hlisted
        refine Or.inl ⟨hlisted, fun hleaves => ?_⟩
        have hregion := (hagrees region siteID).mp hlisted
        rw [hleaves.2] at hregion
        exact hmem (mem_of_regionOf hregion)
      · intro hlisted
        cases hlisted with
        | inl hstays => exact hstays.1
        | inr henters => cases henters.1

/-- **A call keeps the index right exactly if it knows where its site is.** -/
theorem agrees_step_iff (h : Kept c) (hagrees : Agrees (listedIn c) (regionOf c)) (hsame : e.SameSite)
    (hstep : Step c e c') : Agrees (listedIn c') (regionOf c') ↔ e.KnowsRegion c := by
  obtain ⟨hrefiles, hregion⟩ := step_refiles h hagrees hsame hstep
  rw [hregion]
  exact hagrees.refiles_iff hrefiles

end

/-! ### The pools of a region -/

/-- The sites of the list that are cached got the next generations, and no other record
was written. -/
structure Touches (siteIDs : List String) (c c' : SiteCache) : Prop where
  counter : c.generation ≤ c'.generation
  keys : ∀ siteID, siteID ∈ c'.siteCacheInfos ↔ siteID ∈ c.siteCacheInfos
  written : ∀ siteID ∈ siteIDs, siteID ∈ c.siteCacheInfos → c.generation < c'.generationOf siteID
  others : ∀ siteID, ¬ (siteID ∈ siteIDs ∧ siteID ∈ c.siteCacheInfos) →
    c'.siteCacheInfos.lookup siteID = c.siteCacheInfos.lookup siteID

section
variable {c c' c'' : SiteCache} {siteID : String} {siteIDs : List String}

theorem touches_nil : Touches [] c c :=
  ⟨Nat.le_refl _, fun _ => Iff.rfl, fun _ h => absurd h List.not_mem_nil, fun _ _ => rfl⟩

theorem Touches.cons (h : Touches [siteID] c c') (hrest : Touches siteIDs c' c'') :
    Touches (siteID :: siteIDs) c c'' where
  counter := h.counter.trans hrest.counter
  keys key := (hrest.keys key).trans (h.keys key)
  written key hkey hmem := by
    by_cases hagain : key ∈ siteIDs
    · exact h.counter.trans_lt (hrest.written key hagain ((h.keys key).mpr hmem))
    · have hfirst : key = siteID := (List.mem_cons.mp hkey).resolve_right hagain
      rw [generationOf, hrest.others key fun hboth => hagain hboth.1]
      exact h.written key (hfirst ▸ List.mem_singleton_self _) hmem
  others key hkey := by
    rw [hrest.others key fun hboth => hkey ⟨List.mem_cons_of_mem _ hboth.1, (h.keys key).mp hboth.2⟩]
    refine h.others key fun hboth => hkey ⟨?_, hboth.2⟩
    rw [List.mem_singleton.mp hboth.1]
    exact List.mem_cons_self

variable {update : Nat → CachedInfo → Outcome CachedInfo}

theorem touches_updateRecord (h : Kept c) (hstamps : CachedInfo.Stamps update) (siteID : String)
    (missing : Option String) :
    ∃ c', logged (c.updateRecord siteID missing update) = .ok c' ∧ Kept c' ∧ Touches [siteID] c c' := by
  obtain ⟨c', hcall, ⟨hmem, info, hupdates⟩ | ⟨hmem, rfl⟩⟩ := updates_updateRecord h.sited hstamps siteID missing
  · refine ⟨c', hcall, CollectorCache.Kept.updates h hupdates, ?_, fun key => ?_, fun key hkey _ => ?_,
      fun key hkey => hupdates.lookup_ne fun heq => ?_⟩
    · rw [hupdates.counter]
      exact Nat.le_succ _
    · rw [hupdates.mem]
      exact or_iff_right_of_imp fun heq => heq ▸ hmem
    · rw [List.mem_singleton.mp hkey, hupdates.generationOf_self]
      exact Nat.lt_succ_self _
    · exact hkey ⟨List.mem_singleton.mpr heq, heq ▸ hmem⟩
  · exact ⟨c', hcall, h, Nat.le_refl _, fun _ => Iff.rfl,
      fun key hkey hcached => absurd (List.mem_singleton.mp hkey ▸ hcached) hmem, fun _ _ => rfl⟩

theorem touches_loop {missing : String → Option String} (h : Kept c)
    (hstamps : CachedInfo.Stamps update) (siteIDs : List String) :
    ∃ c', siteIDs.foldlM (fun c siteID => logged (c.updateRecord siteID (missing siteID) update)) c =
      .ok c' ∧ Touches siteIDs c c' := by
  induction siteIDs generalizing c with
  | nil => exact ⟨c, rfl, touches_nil⟩
  | cons siteID rest ih =>
    obtain ⟨c₁, hcall, hkept, hfirst⟩ := touches_updateRecord h hstamps siteID (missing siteID)
    obtain ⟨c', hloop, hrest⟩ := ih hkept
    refine ⟨c', ?_, hfirst.cons hrest⟩
    rw [List.foldlM_cons, hcall]
    exact hloop

end

/-- The records that a call changes are those of the region. -/
def ReachesRegion (c : SiteCache) (region : String) (result : Outcome SiteCache) : Prop :=
  ∃ c', result = .ok c' ∧ ∀ siteID,
    c'.siteCacheInfos.lookup siteID ≠ c.siteCacheInfos.lookup siteID ↔ regionOf c siteID = some region

theorem reachesRegion_updateRegion {c : SiteCache} {update : Nat → CachedInfo → Outcome CachedInfo}
    {missing : String → Option String} (h : Kept c) (hagrees : Agrees (listedIn c) (regionOf c))
    (hstamps : CachedInfo.Stamps update) (ord : List String) (region : String) :
    ReachesRegion c region
      (c.updateRegion ord region fun siteID => updateRecord siteID (missing siteID) update) := by
  unfold ReachesRegion updateRegion
  cases hsites : c.regionToSite.lookup region with
  | none =>
    refine ⟨c, rfl, fun siteID => iff_of_false (fun hne => hne rfl) fun hregion => ?_⟩
    have hlisted := (hagrees region siteID).mpr hregion
    rw [listedIn, hsites] at hlisted
    exact notMem_empty _ hlisted
  | some siteIDs =>
    obtain ⟨c', hloop, htouches⟩ := touches_loop h hstamps ((Map.entriesBy ord siteIDs).map Prod.fst)
    refine ⟨c', hloop, fun siteID => ?_⟩
    have hlisted : siteID ∈ (Map.entriesBy ord siteIDs).map Prod.fst ↔ regionOf c siteID = some region := by
      rw [← hagrees region siteID, listedIn, hsites, Option.getD_some, (Map.entriesBy_perm ord siteIDs).mem_iff,
        mem_keys]
    constructor
    · intro hchanged
      by_contra hregion
      exact hchanged (htouches.others siteID fun hboth => hregion (hlisted.mp hboth.1))
    · intro hregion hsame
      have hnewer := htouches.written siteID (hlisted.mpr hregion) (mem_of_regionOf hregion)
      rw [generationOf, hsame] at hnewer
      exact absurd (h.stamped.bound siteID) (Nat.not_le_of_lt hnewer)

/-! ### Runs -/

/-- **The index is right**, and the pools of a region go to its sites. -/
structure Indexed (c : SiteCache) : Prop where
  index : ∀ region siteID, listedIn c region siteID ↔ regionOf c siteID = some region
  eipPools : ∀ ord eipPool, ReachesRegion c eipPool.region (c.updateEipPool ord eipPool)
  volumePools : ∀ ord volumePool, ReachesRegion c volumePool.region (c.updateVolumePool ord volumePool)

theorem Kept.indexed_iff {c : SiteCache} (h : Kept c) : Indexed c ↔ Agrees (listedIn c) (regionOf c) where
  mp hindexed := hindexed.index
  mpr hagrees := {
    index := hagrees
    eipPools := fun ord eipPool =>
      reachesRegion_updateRegion h hagrees (CachedInfo.stamps_updateSiteWithEipPool eipPool) ord _
    volumePools := fun ord volumePool =>
      reachesRegion_updateRegion h hagrees (CachedInfo.stamps_updateSiteWithVolumePool volumePool) ord _ }

theorem kept_new : Kept {} := CollectorCache.kept_empty

theorem indexed_new : Indexed {} := by
  refine kept_new.indexed_iff.mpr fun region siteID => iff_of_false (fun hlisted => ?_) (fun hregion => ?_)
  · exact notMem_empty _ hlisted
  · cases hregion

/-- **The index stays right exactly through the calls that know where their site is.** -/
theorem indexed_run_iff {c : SiteCache} {es : List SiteCall} (h : Run Step (fun _ e => e.SameSite) {} es c) :
    (Run Step (fun c e => e.SameSite ∧ e.KnowsRegion c) {} es c → Indexed c) ∧
      ∀ e c', e.SameSite → Step c e c' → Indexed c → (Indexed c' ↔ e.KnowsRegion c) := by
  refine h.kept_iff (fun _ _ _ hkept hsame hstep => Kept.step hkept hsame hstep) ?_ kept_new indexed_new
  intro c e c' hkept hindexed hsame hstep
  rw [(hkept.step hsame hstep).indexed_iff]
  exact agrees_step_iff hkept (hkept.indexed_iff.mp hindexed) hsame hstep

def siteIn (region : String) : CachedSite := { siteID := "s", regionAzMap := { region := region } }

/-- A site is moved by an update that names the region it was in. -/
theorem indexed_after_move : ∃ c, Run Step (fun c e => e.SameSite ∧ e.KnowsRegion c) {}
    [.addSite {} (siteIn "r"), .updateSite {} (siteIn "r") (siteIn "q")] c ∧ Indexed c := by
  obtain ⟨c, hadd, hkept⟩ := kept_new.call (e := .addSite {} (siteIn "r")) trivial
  obtain ⟨c', hmove, -⟩ := hkept.call (e := .updateSite {} (siteIn "r") (siteIn "q")) rfl
  have hregion : regionOf c "s" = some "r" := by
    obtain ⟨-, hregion⟩ := step_refiles kept_new indexed_new.index (e := .addSite {} (siteIn "r")) trivial hadd
    rw [hregion]
    exact update_self ..
  have hknows : SiteCall.KnowsRegion (.updateSite {} (siteIn "r") (siteIn "q")) c :=
    fun region h => Or.inl (hregion.symm.trans h)
  have hrun : Run Step (fun c e => e.SameSite ∧ e.KnowsRegion c) {}
      [.addSite {} (siteIn "r"), .updateSite {} (siteIn "r") (siteIn "q")] c' :=
    .cons ⟨trivial, fun region h => by cases h⟩ hadd (.cons ⟨rfl, hknows⟩ hmove (.nil c'))
  exact ⟨c', hrun, (indexed_run_iff (hrun.mono fun _ _ h => h.1)).1 hrun⟩

/-- A site that is added again in another region stays listed in the first, and gets the
pools of the first. -/
theorem listed_in_two_regions : ∃ c, Run Step (fun _ e => e.SameSite) {}
    [.addSite {} (siteIn "r"), .addSite {} (siteIn "q")] c ∧
      listedIn c "r" "s" ∧ regionOf c "s" = some "q" ∧ ¬ Indexed c := by
  obtain ⟨c, hadd, hkept⟩ := kept_new.call (e := .addSite {} (siteIn "r")) trivial
  obtain ⟨c', hagain, -⟩ := hkept.call (e := .addSite {} (siteIn "q")) trivial
  have hrefiles : Refiles "s" none (some "r") (listedIn {}) (listedIn c) :=
    @refiles_addSite {} c {} (siteIn "r") hadd
  have hrefiled : Refiles "s" none (some "q") (listedIn c) (listedIn c') :=
    @refiles_addSite c c' {} (siteIn "q") hagain
  have hlisted : listedIn c "r" "s" := (hrefiles "r" "s").mpr (Or.inr ⟨rfl, rfl⟩)
  have hstays : listedIn c' "r" "s" :=
    (hrefiled "r" "s").mpr (Or.inl ⟨hlisted, fun hleaves => by cases hleaves.1⟩)
  have hregion : regionOf c' "s" = some "q" := by
    obtain ⟨c₁, hcall, hrecorded, -, -⟩ := recorded_addSite {} (siteIn "q") c
    cases hagain.symm.trans hcall
    rw [regionOf_recorded hrecorded rfl]
    exact update_self ..
  refine ⟨c', .cons trivial hadd (.cons trivial hagain (.nil c')), hstays, hregion, fun hindexed => ?_⟩
  have hsame := (hindexed.index "r" "s").mp hstays
  rw [hregion] at hsame
  exact absurd (Option.some.inj hsame) (by decide)

end GlobalScheduler.Cache.SchedulerCache.RegionIndex
