import GlobalScheduler.LinkedMap
import GlobalScheduler.Cache.SchedulerCache

/-! The scheduler's cache with the pointers of its linked list.

The items of `siteCacheInfos` are linked in both directions, from `headSiteCacheInfo` on.
An item is known by its address, which it keeps for as long as the site is cached. The
calls are those on the cache with the names of the sites, where the pointers mirror such a
list, step by step. So the pointers are sound after any calls. -/
namespace GlobalScheduler.Cache

open Go LinkedMap LinkedMap.Pointers Transition Outcome AList Map
open SiteCache hiding items

abbrev LinkedCache := SiteCache (Pointers String)

/-- The pointers mirror a list of names, and are those of the cached sites. -/
structure Threaded (c : LinkedCache) : Prop where
  mirrors : ∃ names, c.recent.Mirrors names
  mem : ∀ siteID, siteID ∈ c.recent.item ↔ siteID ∈ c.siteCacheInfos

theorem threaded_empty : Threaded {} :=
  ⟨⟨[], mirrors_empty⟩, fun _ => Iff.rfl⟩

namespace Threaded
variable {c c' : LinkedCache} {siteID : String} (h : Threaded c)
include h

/-- Whatever else a call changes. -/
theorem frame (hrecent : c'.recent = c.recent) (hinfos : c'.siteCacheInfos = c.siteCacheInfos) : Threaded c' where
  mirrors := hrecent ▸ h.mirrors
  mem := by rw [hrecent, hinfos]; exact h.mem

/-! ### The linked list -/

theorem write (hmem : siteID ∈ c.siteCacheInfos) (info : CachedInfo) (generation : Nat) :
    Threaded { c with siteCacheInfos := c.siteCacheInfos.insert siteID info, generation := generation } where
  mirrors := h.mirrors
  mem key := by
    rw [h.mem, mem_insert]
    exact (or_iff_right_of_imp fun heq => heq ▸ hmem).symm

/-- An item is made if there is none, and goes to the head: only then is it in the list. -/
theorem use (siteID : String) (info : CachedInfo) (generation : Nat) : Threaded
    ({ c with
      siteCacheInfos := c.siteCacheInfos.insert siteID info
      recent := c.recent.fresh siteID
      generation := generation }.moveSiteCacheInfoToHead siteID) := by
  rw [move_of_mem ((mem_insert _).mpr (Or.inl rfl))]
  obtain ⟨names, hnames⟩ := h.mirrors
  refine ⟨⟨_, hnames.use siteID⟩, fun key => ?_⟩
  show key ∈ ((c.recent.fresh siteID).touch siteID).item ↔ _
  rw [touch_item, mem_fresh, mem_insert, h.mem]

theorem moveSiteCacheInfoToHead (siteID : String) : Threaded (c.moveSiteCacheInfoToHead siteID) := by
  unfold SiteCache.moveSiteCacheInfoToHead
  split
  case isTrue hmem =>
    obtain ⟨names, hnames⟩ := h.mirrors
    refine ⟨⟨_, hnames.touch ((h.mem siteID).mpr hmem)⟩, fun key => ?_⟩
    show key ∈ (c.recent.touch siteID).item ↔ _
    rw [touch_item, h.mem]
  case isFalse => exact h

theorem removeSiteCacheInfoFromList (siteID : String) : Threaded (c.removeSiteCacheInfoFromList siteID) := by
  unfold SiteCache.removeSiteCacheInfoFromList
  split
  case isTrue hmem =>
    obtain ⟨names, hnames⟩ := h.mirrors
    refine ⟨⟨_, hnames.drop ((h.mem siteID).mpr hmem)⟩, fun key => ?_⟩
    show key ∈ (c.recent.drop siteID).item ↔ _
    rw [mem_drop, h.mem, mem_erase]
  case isFalse => exact h

theorem place (siteID : String) : Threaded ((c.ensure siteID).moveSiteCacheInfoToHead siteID) := by
  unfold ensure
  split
  · exact h.moveSiteCacheInfoToHead siteID
  · exact h.use siteID {} c.generation

/-! ### Records -/

variable {update : Nat → CachedInfo → Outcome CachedInfo}

theorem stampRecord (hcall : c.stampRecord siteID update = .ok c') : Threaded c' := by
  unfold SiteCache.stampRecord at hcall
  cases hlook : c.siteCacheInfos.lookup siteID with
  | none =>
    rw [hlook] at hcall
    cases hcall
  | some info =>
    rw [hlook] at hcall
    obtain ⟨info', -, hcall⟩ := bind_ok.mp hcall
    cases hcall
    exact h.write (mem_of_lookup hlook) info' _

theorem updateRecord {missing : Option String} {r : LinkedCache × Option String}
    (hcall : c.updateRecord siteID missing update = .ok r) : Threaded r.1 := by
  unfold SiteCache.updateRecord at hcall
  split at hcall
  · obtain ⟨c₁, hstamp, hcall⟩ := bind_ok.mp hcall
    cases hcall
    exact (h.stampRecord hstamp).moveSiteCacheInfoToHead siteID
  · cases hcall
    exact h

variable {ord : List String} {region : String}

theorem updateRegion {update : String → LinkedCache → Outcome (LinkedCache × Option String)}
    (hupdate : ∀ siteID c r, Threaded c → update siteID c = .ok r → Threaded r.1)
    (hcall : c.updateRegion ord region update = .ok c') : Threaded c' := by
  unfold SiteCache.updateRegion at hcall
  split at hcall
  · cases hcall
    exact h
  · refine foldlM_keeps Threaded (fun c siteID c' _ hc hround => ?_) h hcall
    obtain ⟨r, hrecord, rfl⟩ := map_ok.mp hround
    exact hupdate siteID c r hc hrecord

theorem updateZone {az : String} (hcall : c.updateZone ord region az update = .ok c') : Threaded c' := by
  obtain ⟨found, -, hcall⟩ := bind_ok.mp hcall
  cases found with
  | none =>
    cases hcall
    exact h
  | some found =>
    obtain ⟨c₁, hstamp, hcall⟩ := bind_ok.mp hcall
    cases hcall
    exact (h.stampRecord hstamp).moveSiteCacheInfoToHead found.2.siteID

theorem rewrite (siteID : String) (update : CachedInfo → CachedInfo) :
    Threaded (match c.siteCacheInfos.lookup siteID with
      | none => c
      | some info => { c with
          siteCacheInfos := c.siteCacheInfos.insert siteID (update info)
          }.moveSiteCacheInfoToHead siteID) := by
  split
  case h_1 => exact h
  case h_2 info hlook => exact (h.write (mem_of_lookup hlook) _ c.generation).moveSiteCacheInfoToHead siteID

/-! ### Sites -/

theorem deleteRegionToSite (site : CachedSite) : Threaded (c.deleteRegionToSite site) := by
  unfold SiteCache.deleteRegionToSite
  split
  · exact h
  · exact h.frame rfl rfl

theorem addSite {env : Env} {site : CachedSite} (hcall : c.addSite env site = .ok c') : Threaded c' := by
  unfold SiteCache.addSite at hcall
  refine stampRecord ?_ hcall
  exact (h.place site.siteID).frame rfl rfl

theorem updateSite {env : Env} {oldSite : Option CachedSite} {newSite : CachedSite}
    (hcall : c.updateSite env oldSite newSite = .ok c') : Threaded c' := by
  obtain ⟨siteTree, -, hcall⟩ := bind_ok.mp hcall
  cases oldSite with
  | none => cases hcall
  | some oldSite =>
    have htree : Threaded { c.placeSite newSite with siteTree := siteTree } :=
      (h.place newSite.siteID).frame rfl rfl
    refine stampRecord ?_ hcall
    exact (htree.deleteRegionToSite oldSite).frame rfl rfl

theorem removeSite (site : CachedSite) : Threaded (SchedulerCache.removeSite site c).1 := by
  unfold SchedulerCache.removeSite dropSite
  split
  · have hremoved := h.removeSiteCacheInfoFromList site.siteID
    split
    · exact hremoved.frame rfl rfl
    · refine deleteRegionToSite ?_ site
      exact hremoved.frame rfl rfl
  · exact h

/-! ### Stacks -/

theorem addStack (stack : PodStack) : Threaded (c.addStack stack) :=
  h.use _ _ _

theorem removeStack (stack : PodStack) : Threaded (c.removeStack stack) :=
  h.rewrite stack.selected.siteID (·.removeStack stack)

end Threaded

namespace SchedulerCache.Linked

theorem threaded_kept : KeptByStacks Threaded where
  add stack h := h.addStack stack
  remove stack h := h.removeStack stack
  states _ _ h := h.frame rfl rfl

/-! ### Calls -/

/-- The calls that change the cache, with what else they read. -/
inductive Call where
  | addSite (env : Env) (site : CachedSite)
  | updateSite (env : Env) (oldSite : Option CachedSite) (newSite : CachedSite)
  | removeSite (site : CachedSite)
  | addStack (stack : PodStack)
  | updateStack (oldStack newStack : PodStack)
  | removeStack (stack : PodStack)
  | assumeStack (stack : PodStack)
  | forgetStack (stack : PodStack)
  | updateSiteWithEipPool (siteID : String) (eipPool : EipPool)
  | updateSiteWithVolumePool (siteID : String) (volumePool : CachedInfo.RegionVolumePool)
  | updateSiteWithResInfo (env : Env) (siteID : String) (resInfo : AllResInfo)
  | updateEipPool (eipPool : EipPool)
  | updateVolumePool (volumePool : CachedInfo.RegionVolumePool)
  | updateSiteWithRatio (env : Env) (region az : String) (ratios : List CachedInfo.AllocationRatio)
  | updateSpotResources (region az : String) (spotRes : Map String SpotResource)
  | updateQos (env : Env) (siteID : String) (metricDatas : List CachedInfo.NetMetricData)

section
variable {L : Type} [Recency.ByUse String L]

/-- A call, with the order of its loop over a map. -/
def call (ord : List String) (c : SiteCache L) : Call → Outcome (Option (SiteCache L))
  | .addSite env site => (c.addSite env site).map some
  | .updateSite env oldSite newSite => (c.updateSite env oldSite newSite).map some
  | .removeSite site => pure (some (removeSite site c).1)
  | .addStack stack => pure ((addStack stack c).map Prod.fst)
  | .updateStack oldStack newStack => pure (some (updateStack oldStack newStack c).1)
  | .removeStack stack => pure (some (removeStack stack c).1)
  | .assumeStack stack => pure (some (assumeStack stack c).1)
  | .forgetStack stack => pure (some (forgetStack stack c).1)
  | .updateSiteWithEipPool siteID eipPool =>
    (c.updateSiteWithEipPool siteID eipPool).map fun r => some r.1
  | .updateSiteWithVolumePool siteID volumePool =>
    (c.updateSiteWithVolumePool siteID volumePool).map fun r => some r.1
  | .updateSiteWithResInfo env siteID resInfo =>
    (c.updateSiteWithResInfo env siteID resInfo).map fun r => some r.1
  | .updateEipPool eipPool => (c.updateEipPool ord eipPool).map some
  | .updateVolumePool volumePool => (c.updateVolumePool ord volumePool).map some
  | .updateSiteWithRatio env region az ratios =>
    (c.updateSiteWithRatio env ord region az ratios).map some
  | .updateSpotResources region az spotRes => (c.updateSpotResources ord region az spotRes).map some
  | .updateQos env siteID metricDatas => pure (some (c.updateQos env siteID metricDatas))

/-- The call returns; the runtime chooses the order of its loop. -/
def Step (c : SiteCache L) (op : Call) (c' : SiteCache L) : Prop :=
  ∃ ord, call ord c op = .ok (some c')

end

variable {c c' : LinkedCache}

/-- **Every call keeps the pointers in step with the cached sites.** -/
theorem threaded_step (c : LinkedCache) (op : Call) (c' : LinkedCache) (h : Threaded c) (hstep : Step c op c') :
    Threaded c' := by
  obtain ⟨ord, hcall⟩ := hstep
  cases op with
  | addSite env site =>
    obtain ⟨c₁, hadd, heq⟩ := map_ok.mp hcall
    cases heq
    exact h.addSite hadd
  | updateSite env oldSite newSite =>
    obtain ⟨c₁, hupdate, heq⟩ := map_ok.mp hcall
    cases heq
    exact h.updateSite hupdate
  | removeSite site =>
    cases hcall
    exact h.removeSite site
  | addStack stack =>
    obtain ⟨r, hadd, rfl⟩ := Option.map_eq_some_iff.mp (pure_ok.mp hcall)
    exact threaded_kept.of_addStack h hadd
  | updateStack oldStack newStack =>
    cases hcall
    exact threaded_kept.of_updateStack h oldStack newStack
  | removeStack stack =>
    cases hcall
    exact threaded_kept.of_removeStack h stack
  | assumeStack stack =>
    cases hcall
    exact threaded_kept.of_assumeStack h stack
  | forgetStack stack =>
    cases hcall
    exact threaded_kept.of_forgetStack h stack
  | updateSiteWithEipPool siteID _ | updateSiteWithVolumePool siteID _ | updateSiteWithResInfo _ siteID _ =>
    obtain ⟨r, hupdate, heq⟩ := map_ok.mp hcall
    cases heq
    exact h.updateRecord hupdate
  | updateEipPool _ | updateVolumePool _ =>
    obtain ⟨c₁, hupdate, heq⟩ := map_ok.mp hcall
    cases heq
    exact h.updateRegion (fun _ _ _ h hcall => h.updateRecord hcall) hupdate
  | updateSiteWithRatio _ _ _ _ | updateSpotResources _ _ _ =>
    obtain ⟨c₁, hupdate, heq⟩ := map_ok.mp hcall
    cases heq
    exact h.updateZone hupdate
  | updateQos env siteID metricDatas =>
    cases hcall
    exact h.rewrite siteID (·.updateQos env metricDatas)

/-- **The list is sound after any calls**, and its items are those of the cached sites. -/
theorem runs_wellLinked {ops : List Call} (h : Run Step (fun _ _ => True) {} ops c) :
    WellLinked c.recent ∧ ∀ siteID, siteID ∈ c.recent.item ↔ siteID ∈ c.siteCacheInfos := by
  have hthreaded : Threaded c :=
    h.invariant (fun _ _ _ hc _ hstep => threaded_step _ _ _ hc hstep) threaded_empty
  obtain ⟨names, hnames⟩ := hthreaded.mirrors
  exact ⟨hnames.wellLinked, hthreaded.mem⟩

/-- The first of three sites moves to the head from the end, and the one behind it is removed. -/
theorem runs_wellLinked_three : ∃ c : LinkedCache, Run Step (fun _ _ => True) {}
    [.addSite {} { siteID := "a" }, .addSite {} { siteID := "b" }, .addSite {} { siteID := "c" },
      .updateQos {} "a" [], .removeSite { siteID := "c" }] c ∧
    WellLinked c.recent ∧ c.recent.links.head = some 0 ∧ c.recent.links.next 0 = some 1 ∧
    c.recent.links.prev 1 = some 0 ∧ c.recent.links.next 1 = none := by
  have hrun : ∃ c : LinkedCache, Run Step (fun _ _ => True) {}
      [.addSite {} { siteID := "a" }, .addSite {} { siteID := "b" }, .addSite {} { siteID := "c" },
        .updateQos {} "a" [], .removeSite { siteID := "c" }] c ∧
      c.recent.links.head = some 0 ∧ c.recent.links.next 0 = some 1 ∧ c.recent.links.prev 1 = some 0 ∧
      c.recent.links.next 1 = none :=
    ⟨_, (((((Run.nil _).snoc trivial ⟨[], rfl⟩).snoc trivial ⟨[], rfl⟩).snoc trivial ⟨[], rfl⟩).snoc
      trivial ⟨[], rfl⟩).snoc trivial ⟨[], rfl⟩, rfl, rfl, rfl, rfl⟩
  obtain ⟨c, hrun, hlinks⟩ := hrun
  exact ⟨c, hrun, (runs_wellLinked hrun).1, hlinks⟩

end SchedulerCache.Linked

end GlobalScheduler.Cache
