import GlobalScheduler.Cache.SiteCacheProofs

/-! The collector's cache.

All that the collector does with its cache gives the record it changes the next
generation, and only sites have records. So the generations fall along the linked list,
and a snapshot that was brought up to date is a copy of the cache. -/
namespace GlobalScheduler.Cache.CollectorCache

open Go SiteCache RefMap Map AList Option

/-! ### The code -/

def removeSite (siteID : String) (c : SiteCache) : Outcome (SiteCache × Option String) :=
  match c.siteCacheInfos.lookup siteID with
  | none => pure (c, some (siteNotFound siteID))
  | some info => do
    let site ← info.getSite
    pure ((c.removeSiteCacheInfoFromList siteID).dropSite site)

/-- The flavors by their ID in a region, and the first of every ID. -/
def flavorMaps (flavors : List StoredFlavor) : Map String StoredFlavor × Map String StoredFlavor :=
  flavors.foldl (fun maps rf =>
    (maps.1.insert rf.regionFlavorID rf, if rf.id ∈ maps.2 then maps.2 else maps.2.insert rf.id rf))
    (∅, ∅)

def updateSnapshot (env : Env) (ord : List String) (s : Session) :
    Outcome (Option (Session × Option String)) := do
  match ← s.cache.updateSnapshot ord s.snapshot with
  | none => pure none
  | some (cache, snapshot, some err) => pure (some (⟨cache, snapshot⟩, some err))
  | some (cache, snapshot, none) =>
    let maps := flavorMaps env.flavorList
    pure (some (⟨cache, { snapshot with regionFlavorMap := maps.1, flavorMap := maps.2 }⟩, none))

/-- A call, with the orders of the loops over maps and what else it reads. -/
inductive Call where
  | addSite (env : Env) (site : CachedSite)
  | updateSite (env : Env) (oldSite newSite : CachedSite) (same : oldSite.siteID = newSite.siteID)
  | removeSite (siteID : String)
  | updateEipPool (ord : List String) (eipPool : EipPool)
  | updateVolumePool (ord : List String) (volumePool : CachedInfo.RegionVolumePool)
  | updateSiteWithRatio (env : Env) (ord : List String) (region az : String)
      (ratios : List CachedInfo.AllocationRatio)
  | updateSiteWithResInfo (env : Env) (siteID : String) (resInfo : AllResInfo)
  | updateSpotResources (ord : List String) (region az : String) (spotRes : Map String SpotResource)
  | updateSnapshot (env : Env) (ord : List String)

def call (s : Session) : Call → Outcome (Option Session)
  | .addSite env site => s.onCache fun c => c.addSite env site
  | .updateSite env oldSite newSite _ => s.onCache fun c => c.updateSite env (some oldSite) newSite
  | .removeSite siteID => s.onCache fun c => logged (removeSite siteID c)
  | .updateEipPool ord eipPool => s.onCache fun c => c.updateEipPool ord eipPool
  | .updateVolumePool ord volumePool => s.onCache fun c => c.updateVolumePool ord volumePool
  | .updateSiteWithRatio env ord region az ratios =>
    s.onCache fun c => c.updateSiteWithRatio env ord region az ratios
  | .updateSiteWithResInfo env siteID resInfo =>
    s.onCache fun c => logged (c.updateSiteWithResInfo env siteID resInfo)
  | .updateSpotResources ord region az spotRes =>
    s.onCache fun c => c.updateSpotResources ord region az spotRes
  | .updateSnapshot env ord => do
    match ← updateSnapshot env ord s with
    | none => pure none
    | some (s, _) => pure (some s)

/-- A sequence of calls; nothing if one does not return. -/
def run : List Call → Session → Outcome (Option Session)
  | [], s => pure (some s)
  | first :: rest, s => do
    match ← call s first with
    | none => pure none
    | some s => run rest s

/-! ### What every call keeps -/

/-- The records all have a site, which the tree has as well. -/
structure Sited (c : SiteCache) : Prop where
  filed : c.Filed
  sites : ∀ key info, c.siteCacheInfos.lookup key = some info → info.site ≠ none
  zones : ∀ siteID, siteID ∈ c.siteTree.zones ↔ siteID ∈ c.siteCacheInfos

/-- The generations fall along the list, and the counter is not below any. -/
structure Stamped (c : SiteCache) : Prop where
  newest : Recency.NewestFirst c.generationOf c.recent
  bound : ∀ key, c.generationOf key ≤ c.generation

/-- The snapshot has what was not updated since. -/
structure Follows (c : SiteCache) (snapshot : CacheSnapshot) : Prop where
  since : snapshot.generation ≤ c.generation
  copied : ∀ key info, c.siteCacheInfos.lookup key = some info →
    info.generation ≤ snapshot.generation → snapshot.siteCacheInfoMap.get? key = info.clone?

structure Kept (s : Session) : Prop where
  sited : Sited s.cache
  stamped : Stamped s.cache
  follows : Follows s.cache s.snapshot
  apart : s.snapshot.siteCacheInfoMap.Apart
  listed : SiteCache.Listed s.snapshot

theorem kept_empty : Kept {} where
  sited := ⟨filed_empty, (fun _ _ h => by cases h), fun _ => by simp⟩
  stamped := ⟨List.Pairwise.nil, fun _ => Nat.le_refl 0⟩
  follows := ⟨Nat.le_refl 0, fun _ _ h => by cases h⟩
  apart := apart_empty
  listed := List.Perm.refl []

variable {s : Session} {c c' : SiteCache} {key : String} {info : CachedInfo}

/-- One record was written with the next generation. -/
structure Updates (key : String) (info : CachedInfo) (c c' : SiteCache) : Prop extends
    SiteCache.Recorded key info c c' where
  site : ∃ site, info.site = some site ∧ site.siteID = key
  next : info.generation = c.generation + 1
  counter : c'.generation = c.generation + 1
  spread : c'.siteTree.Spread
  tree : ∀ siteID, siteID ∈ c'.siteTree.zones ↔ siteID = key ∨ siteID ∈ c.siteTree.zones

theorem Updates.sited (h : Updates key info c c') (hc : Sited c) : Sited c' := by
  obtain ⟨site, hsite, hid⟩ := h.site
  refine ⟨h.filed hc.filed (fun site' hsite' => ?_) h.spread, fun key' info' hlook => ?_, fun siteID => ?_⟩
  · rw [hsite] at hsite'
    cases hsite'
    exact hid
  · by_cases heq : key' = key
    · subst heq
      rw [h.lookup_self] at hlook
      cases hlook
      simp [hsite]
    · rw [h.lookup_ne heq] at hlook
      exact hc.sites key' info' hlook
  · rw [h.tree, h.mem, hc.zones]

theorem Updates.generationOf_self (h : Updates key info c c') : c'.generationOf key = c.generation + 1 := by
  simp [generationOf, h.lookup_self, h.next]

theorem Updates.generationOf_ne (h : Updates key info c c') {key' : String} (hne : key' ≠ key) :
    c'.generationOf key' = c.generationOf key' := by
  rw [generationOf, h.lookup_ne hne, generationOf]

theorem Updates.stamped (h : Updates key info c c') (hc : Stamped c) (hnodup : c.recent.Nodup) :
    Stamped c' := by
  refine ⟨?_, fun key' => ?_⟩
  · rw [h.recent]
    refine hc.newest.touch (fun key' hne => h.generationOf_ne hne) (fun key' _ => ?_) hnodup
    rw [h.generationOf_self]
    exact Nat.lt_succ_of_le (hc.bound key')
  · rw [h.counter]
    by_cases heq : key' = key
    · rw [heq, h.generationOf_self]
    · rw [h.generationOf_ne heq]
      exact Nat.le_succ_of_le (hc.bound key')

theorem Updates.follows {snapshot : CacheSnapshot} (h : Updates key info c c')
    (hc : Follows c snapshot) : Follows c' snapshot := by
  refine ⟨?_, fun key' info' hlook hold => ?_⟩
  · rw [h.counter]
    exact Nat.le_succ_of_le hc.since
  · by_cases heq : key' = key
    · -- The record that was written is newer than the snapshot.
      subst heq
      rw [h.lookup_self] at hlook
      cases hlook
      have hsince := hc.since
      rw [h.next] at hold
      omega
    · rw [h.lookup_ne heq] at hlook
      exact hc.copied key' info' hlook hold

theorem Kept.updates (h : Kept s) (hupdates : Updates key info s.cache c') : Kept { s with cache := c' } where
  sited := hupdates.sited h.sited
  stamped := hupdates.stamped h.stamped h.sited.filed.nodup
  follows := hupdates.follows h.follows
  apart := h.apart
  listed := h.listed

/-! ### The calls on the cache -/

/-- The call returns and keeps the invariant, whatever the snapshot. -/
def Keeps (call : SiteCache → Outcome SiteCache) : Prop :=
  ∀ s, Kept s → ∃ c', call s.cache = .ok c' ∧ Kept { s with cache := c' }

theorem keeps_addSite (env : Env) (site : CachedSite) : Keeps fun c => c.addSite env site := by
  intro s h
  obtain ⟨c', hcall, hrecorded, htree, hcounter⟩ := recorded_addSite env site s.cache
  have hspread := h.sited.filed.spread
  refine ⟨c', hcall, h.updates ⟨hrecorded, ⟨site, rfl, rfl⟩, rfl, hcounter, ?_, fun siteID => ?_⟩⟩
  · rw [htree]
    exact hspread.addSite site
  · rw [htree, hspread.mem_addSite]

theorem mem_zones_placeSite (hc : Sited c) (site : CachedSite) (siteID : String) :
    siteID ∈ (c.placeSite site).siteTree.zones ↔ siteID = site.siteID ∨ siteID ∈ c.siteTree.zones := by
  show siteID ∈ SiteTree.zones (if _ then _ else _) ↔ _
  split
  case isFalse => exact hc.filed.spread.mem_addSite
  case isTrue hmem =>
    constructor
    · exact Or.inr
    · intro h
      cases h with
      | inl heq => exact heq ▸ (hc.zones _).mpr hmem
      | inr hold => exact hold

theorem keeps_updateSite (env : Env) (oldSite newSite : CachedSite)
    (same : oldSite.siteID = newSite.siteID) : Keeps fun c => c.updateSite env (some oldSite) newSite := by
  intro s h
  obtain ⟨c', hcall, hrecorded, hspread, htree, hcounter⟩ :=
    recorded_updateSite h.sited.filed.spread env oldSite newSite
  refine ⟨c', hcall, h.updates
    ⟨hrecorded, ⟨newSite, rfl, rfl⟩, rfl, hcounter, hspread, fun siteID => ?_⟩⟩
  rw [htree same]
  exact mem_zones_placeSite h.sited newSite siteID

variable {update : Nat → CachedInfo → Outcome CachedInfo}

theorem updates_stampRecord (hc : Sited c)
    (hstamps : CachedInfo.Stamps update) (hlook : c.siteCacheInfos.lookup key = some info) :
    ∃ c₁ info', c.stampRecord key update = .ok c₁ ∧
      Updates key info' c (c₁.moveSiteCacheInfoToHead key) := by
  have hsome := hc.sites key info hlook
  obtain ⟨info', hupdate, hsite, hnext⟩ := hstamps (c.generation + 1) info hsome
  refine ⟨_, info', stampRecord_ok hlook hupdate, ?_⟩
  rw [move_of_mem (mem_insert _ |>.mpr (Or.inl rfl))]
  obtain ⟨site, hsite'⟩ := ne_none_iff_exists'.mp hsome
  have hid := hc.filed.keyed key info site hlook hsite'
  have hmem : key ∈ c.siteTree.zones :=
    (hc.zones key).mpr (mem_of_lookup hlook)
  refine ⟨⟨rfl, rfl, rfl, rfl⟩, ⟨site, hsite.trans hsite', hid⟩, hnext, rfl, hc.filed.spread, fun siteID => ?_⟩
  exact (or_iff_right_of_imp fun heq => heq ▸ hmem).symm

/-- A record that is there is written, and where there is none nothing happens. -/
theorem updates_updateRecord (hc : Sited c) (hstamps : CachedInfo.Stamps update) (siteID : String)
    (missing : Option String) : ∃ c', logged (c.updateRecord siteID missing update) = .ok c' ∧
      (siteID ∈ c.siteCacheInfos ∧ (∃ info, Updates siteID info c c') ∨ siteID ∉ c.siteCacheInfos ∧ c' = c) := by
  unfold updateRecord
  split
  case isTrue hmem =>
    obtain ⟨info, hlook⟩ := exists_lookup hmem
    obtain ⟨c₁, info', hstamp, hupdates⟩ := updates_stampRecord hc hstamps hlook
    rw [hstamp]
    exact ⟨_, rfl, Or.inl ⟨hmem, info', hupdates⟩⟩
  case isFalse hmem => exact ⟨c, rfl, Or.inr ⟨hmem, rfl⟩⟩

theorem keeps_updateRecord (hstamps : CachedInfo.Stamps update) (siteID : String) (missing : Option String) :
    Keeps fun c => logged (c.updateRecord siteID missing update) := by
  intro s h
  obtain ⟨c', hcall, ⟨-, info, hupdates⟩ | ⟨-, rfl⟩⟩ := updates_updateRecord h.sited hstamps siteID missing
  · exact ⟨c', hcall, h.updates hupdates⟩
  · exact ⟨s.cache, hcall, h⟩

theorem keeps_updateRegion (ord : List String) (region : String)
    {update : String → SiteCache → Outcome (SiteCache × Option String)}
    (hkeeps : ∀ siteID, Keeps fun c => logged (update siteID c)) :
    Keeps fun c => c.updateRegion ord region update := by
  intro s h
  show ∃ c', updateRegion ord region update s.cache = .ok c' ∧ _
  unfold updateRegion
  split
  · exact ⟨s.cache, rfl, h⟩
  · exact Outcome.foldlM_ok (fun c => Kept { s with cache := c }) _
      (fun c siteID _ hc => hkeeps siteID { s with cache := c } hc) h

theorem findInZone_spec {region az : String} {entries : List (String × CachedInfo)}
    (hsites : ∀ e ∈ entries, e.2.site ≠ none) :
    ∃ found, findInZone region az entries = .ok found ∧
      ∀ key site, found = some (key, site) → ∃ info, (key, info) ∈ entries ∧ info.site = some site := by
  induction entries with
  | nil => exact ⟨none, rfl, fun key site h => by cases h⟩
  | cons e rest ih =>
    obtain ⟨site, hsite⟩ := ne_none_iff_exists'.mp (hsites e List.mem_cons_self)
    have hget : e.2.getSite = .ok site := by simp [CachedInfo.getSite, hsite]; rfl
    simp only [findInZone, hget]
    by_cases hzone : site.regionAzMap.region = region ∧ site.regionAzMap.availabilityZone = az
    · refine ⟨some (e.1, site), if_pos hzone, fun key site' heq => ?_⟩
      cases heq
      exact ⟨e.2, List.mem_cons_self, hsite⟩
    · obtain ⟨found, hfound, hspec⟩ := ih fun e he => hsites e (List.mem_cons_of_mem _ he)
      refine ⟨found, (if_neg hzone).trans hfound, fun key site' heq => ?_⟩
      obtain ⟨info, hmem, hinfo⟩ := hspec key site' heq
      exact ⟨info, List.mem_cons_of_mem _ hmem, hinfo⟩

theorem keeps_updateZone (ord : List String) (region az : String) (hstamps : CachedInfo.Stamps update) :
    Keeps fun c => c.updateZone ord region az update := by
  intro s h
  obtain ⟨found, hfound, hspec⟩ : ∃ found, findInZone region az
      (entriesBy ord s.cache.siteCacheInfos) = .ok found ∧ _ :=
    findInZone_spec fun e he => h.sited.sites e.1 e.2 (mem_entriesBy.mp he)
  show ∃ c', (findInZone region az _ >>= _) = .ok c' ∧ _
  rw [hfound]
  cases found with
  | none => exact ⟨s.cache, rfl, h⟩
  | some found =>
    obtain ⟨info, hmem, hsite⟩ := hspec found.1 found.2 rfl
    have hlook := mem_entriesBy.mp hmem
    have hid := h.sited.filed.keyed found.1 info found.2 hlook hsite
    obtain ⟨c₁, info', hstamp, hupdates⟩ := updates_stampRecord h.sited hstamps hlook
    refine ⟨_, ?_, h.updates hupdates⟩
    show (stampRecord found.1 update s.cache >>= _) = _
    rw [hstamp, ← hid]
    rfl

/-- One record is gone. -/
structure Removes (key : String) (c c' : SiteCache) : Prop where
  infos : c'.siteCacheInfos = c.siteCacheInfos.erase key
  recent : c'.recent = c.recent.erase key
  counter : c'.generation = c.generation
  spread : c'.siteTree.Spread
  tree : ∀ siteID, siteID ∈ c'.siteTree.zones ↔ siteID ≠ key ∧ siteID ∈ c.siteTree.zones

theorem Removes.lookup (h : Removes key c c') {key' : String} (hlook : c'.siteCacheInfos.lookup key' = some info) :
    key' ≠ key ∧ c.siteCacheInfos.lookup key' = some info := by
  rw [h.infos] at hlook
  by_cases heq : key' = key
  · subst heq
    simp at hlook
  · exact ⟨heq, by rwa [lookup_erase_ne heq] at hlook⟩

theorem Removes.sited (h : Removes key c c') (hc : Sited c) : Sited c' where
  filed := hc.filed.erase h.infos h.recent h.spread
  sites key' info hlook := hc.sites key' info (h.lookup hlook).2
  zones siteID := by rw [h.tree, h.infos, mem_erase, hc.zones]

theorem Removes.stamped (h : Removes key c c') (hc : Stamped c) (hnodup : c.recent.Nodup) : Stamped c' := by
  have hothers : ∀ key' ≠ key, c'.generationOf key' = c.generationOf key' := by
    intro key' hne
    simp [generationOf, h.infos, lookup_erase_ne hne]
  refine ⟨?_, fun key' => ?_⟩
  · rw [h.recent]
    exact hc.newest.erase hothers hnodup
  · rw [h.counter]
    by_cases heq : key' = key
    · subst heq
      simp [generationOf, h.infos]
    · rw [hothers key' heq]
      exact hc.bound key'

theorem Kept.removes (h : Kept s) (hremoves : Removes key s.cache c') : Kept { s with cache := c' } where
  sited := hremoves.sited h.sited
  stamped := hremoves.stamped h.stamped h.sited.filed.nodup
  follows := by
    refine ⟨?_, fun key' info hlook => h.follows.copied key' info (hremoves.lookup hlook).2⟩
    rw [hremoves.counter]
    exact h.follows.since
  apart := h.apart
  listed := h.listed

theorem removes_dropSite {site : CachedSite} (hc : Sited c) (hmem : site.siteID ∈ c.siteCacheInfos) :
    Removes site.siteID c ((c.removeSiteCacheInfoFromList site.siteID).dropSite site).1 := by
  have hspread := hc.filed.spread
  rw [dropSite_eq, removeSiteCacheInfoFromList, if_pos hmem]
  exact ⟨rfl, rfl, rfl, hspread.removeSite site, fun _ => hspread.mem_removeSite⟩

theorem keeps_removeSite (siteID : String) : Keeps fun c => logged (removeSite siteID c) := by
  intro s h
  cases hlook : s.cache.siteCacheInfos.lookup siteID with
  | none =>
    refine ⟨s.cache, ?_, h⟩
    simp only [removeSite, hlook]
    rfl
  | some info =>
    have hmem : siteID ∈ s.cache.siteCacheInfos := mem_of_lookup hlook
    obtain ⟨site, hsite⟩ := ne_none_iff_exists'.mp (h.sited.sites siteID info hlook)
    have hget : info.getSite = .ok site := by simp [CachedInfo.getSite, hsite]; rfl
    have hid : site.siteID = siteID := h.sited.filed.keyed siteID info site hlook hsite
    refine ⟨_, ?_, h.removes (removes_dropSite h.sited (hid ▸ hmem))⟩
    simp only [removeSite, hlook, hget, hid]
    rfl

/-! ### Snapshots -/

theorem clone?_isSome (hc : Sited c) : (c.clone? key).isSome ↔ key ∈ c.siteCacheInfos := by
  constructor
  · intro h
    obtain ⟨clone, hclone⟩ := isSome_iff_exists.mp h
    exact mem_of_clone? hclone
  · intro h
    obtain ⟨info, hlook⟩ := exists_lookup h
    obtain ⟨site, hsite⟩ := ne_none_iff_exists'.mp (hc.sites key info hlook)
    simp [clone?, hlook, CachedInfo.clone?, hsite]

/-- What the list is not read up to has not changed since the last snapshot. -/
theorem Kept.catchesUp (h : Kept s) : SiteCache.CatchesUp s.cache s.snapshot := by
  refine ⟨fun siteID clone hunreached hclone => ?_, Or.inl fun siteID hmem => ?_⟩
  · obtain ⟨info, hlook, hinfo⟩ := bind_eq_some_iff.mp hclone
    have hlisted : siteID ∈ s.cache.recent :=
      (h.sited.filed.listed siteID).mpr (mem_of_clone? hclone)
    have hold : ¬ s.snapshot.generation < s.cache.generationOf siteID :=
      fun hnew => hunreached ((h.stamped.newest.mem_reached hlisted).mpr hnew)
    have hgeneration : s.cache.generationOf siteID = info.generation := by
      simp [generationOf, hlook]
    rw [h.follows.copied siteID info hlook (by omega), hinfo]
  · exact isSome_iff_ne_none.mp ((clone?_isSome h.sited).mpr hmem)

/-- The generation of a snapshot is that of the head, which is not above the counter. -/
theorem generation_refresh_le (hc : Stamped c) {snapshot : CacheSnapshot}
    (hsince : snapshot.generation ≤ c.generation) (ord : List String) :
    (c.refresh ord snapshot).1.generation ≤ c.generation := by
  show (c.items.head?.map CachedInfo.generation).getD snapshot.generation ≤ c.generation
  cases hhead : c.items.head? with
  | none => exact hsince
  | some info =>
    obtain ⟨key, -, hlook⟩ := List.mem_filterMap.mp (List.mem_of_head? hhead)
    have hbound := hc.bound key
    rw [generationOf, hlook] at hbound
    exact hbound

/-- **An update of the snapshot** returns no error, and the snapshot is a copy. -/
theorem Kept.updateSnapshot (h : Kept s) (env : Env) (ord : List String) :
    ∃ s', updateSnapshot env ord s = .ok (some (s', none)) ∧ Kept s' ∧
      SiteCache.Copied s'.cache s'.snapshot := by
  have hfiled := h.sited.filed
  have hcopied : SiteCache.Copied s.cache (s.cache.refresh ord s.snapshot).1 :=
    h.catchesUp.copied hfiled h.apart
  obtain ⟨c', list, hupdate, hdealt, hlist⟩ := updateSnapshot_listed ord hfiled h.listed
    fun siteID => by rw [h.sited.zones, ← get?_isSome, hcopied, clone?_isSome h.sited]
  obtain ⟨siteTree, rfl, hzones, hspread⟩ := hdealt
  refine ⟨_, by rw [CollectorCache.updateSnapshot, hupdate]; rfl, ?_, ?_⟩
  case refine_2 => exact hcopied
  refine ⟨⟨?_, h.sited.sites, ?_⟩, ⟨h.stamped.newest, h.stamped.bound⟩, ⟨?_, ?_⟩, ?_, hlist⟩
  · exact ⟨hfiled.keyed, hfiled.nodup, hfiled.listed, hspread⟩
  · intro siteID
    show siteID ∈ siteTree.zones ↔ _
    rw [hzones, h.sited.zones]
  · exact generation_refresh_le h.stamped h.follows.since ord
  · intro key info hlook _
    have hget := hcopied key
    rwa [clone?, hlook] at hget
  · exact apart_refresh hfiled h.apart

/-! ### Sequences of calls -/

theorem Kept.onCache (h : Kept s) {f : SiteCache → Outcome SiteCache} (hf : Keeps f) :
    ∃ s', s.onCache f = .ok (some s') ∧ Kept s' := by
  obtain ⟨c', hcall, hkept⟩ := hf s h
  refine ⟨_, ?_, hkept⟩
  rw [Session.onCache, hcall]
  rfl

theorem Kept.call (h : Kept s) (op : Call) : ∃ s', call s op = .ok (some s') ∧ Kept s' := by
  cases op with
  | addSite env site => exact h.onCache (keeps_addSite env site)
  | updateSite env oldSite newSite same => exact h.onCache (keeps_updateSite env oldSite newSite same)
  | removeSite siteID => exact h.onCache (keeps_removeSite siteID)
  | updateEipPool ord eipPool =>
    exact h.onCache (keeps_updateRegion ord _ fun siteID =>
      keeps_updateRecord (CachedInfo.stamps_updateSiteWithEipPool eipPool) siteID _)
  | updateVolumePool ord volumePool =>
    exact h.onCache (keeps_updateRegion ord _ fun siteID =>
      keeps_updateRecord (CachedInfo.stamps_updateSiteWithVolumePool volumePool) siteID _)
  | updateSiteWithRatio env ord region az ratios =>
    exact h.onCache (keeps_updateZone ord region az (CachedInfo.stamps_updateSiteWithRatio env ratios))
  | updateSiteWithResInfo env siteID resInfo =>
    exact h.onCache (keeps_updateRecord (CachedInfo.stamps_updateSiteWithResInfo env resInfo) siteID none)
  | updateSpotResources ord region az spotRes =>
    exact h.onCache (keeps_updateZone ord region az (CachedInfo.stamps_updateSpotResources spotRes))
  | updateSnapshot env ord =>
    obtain ⟨s', hupdate, hkept, -⟩ := h.updateSnapshot env ord
    refine ⟨s', ?_, hkept⟩
    rw [CollectorCache.call, hupdate]
    rfl

theorem Kept.run (h : Kept s) (ops : List Call) : ∃ s', run ops s = .ok (some s') ∧ Kept s' := by
  induction ops generalizing s with
  | nil => exact ⟨s, rfl, h⟩
  | cons op ops ih =>
    obtain ⟨s₁, hcall, hkept⟩ := h.call op
    obtain ⟨s', hrun, hkept'⟩ := ih hkept
    refine ⟨s', ?_, hkept'⟩
    rw [CollectorCache.run, hcall]
    exact hrun

/-- **The snapshot is a copy of the cache.** After any sequence of calls an update of the
snapshot returns no error; the map then has the clone of every cached record and nothing
else, and the list has the records of the map, each once. -/
theorem snapshot_is_copy (ops : List Call) :
    ∃ s, run ops {} = .ok (some s) ∧ ∀ env ord, ∃ s', updateSnapshot env ord s = .ok (some (s', none)) ∧
      (∀ siteID, siteID ∈ s'.snapshot.siteCacheInfoMap.ptr ↔ siteID ∈ s'.cache.siteCacheInfos) ∧
      (∀ siteID info, s'.cache.siteCacheInfos.lookup siteID = some info →
        ∃ site, info.site = some site ∧
          s'.snapshot.siteCacheInfoMap.get? siteID = some (info.cloneOf site)) ∧
      s'.snapshot.siteCacheInfoList.Nodup ∧
      ∀ cell, cell ∈ s'.snapshot.siteCacheInfoList ↔
        ∃ siteID, s'.snapshot.siteCacheInfoMap.ptr.lookup siteID = some cell := by
  obtain ⟨s, hrun, hkept⟩ := kept_empty.run ops
  refine ⟨s, hrun, fun env ord => ?_⟩
  obtain ⟨s', hupdate, hkept', hcopied⟩ := hkept.updateSnapshot env ord
  refine ⟨s', hupdate, fun siteID => ?_, fun siteID info hlook => ?_, ?_, fun cell => ?_⟩
  · rw [← get?_isSome, hcopied, clone?_isSome hkept'.sited]
  · obtain ⟨site, hsite⟩ := ne_none_iff_exists'.mp (hkept'.sited.sites siteID info hlook)
    refine ⟨site, hsite, ?_⟩
    rw [hcopied, clone?, hlook, bind_some, CachedInfo.clone?, hsite, map_some]
  · exact hkept'.listed.nodup_iff.mpr hkept'.apart.nodup_pointers
  · rw [hkept'.listed.mem_iff, mem_pointers]

end GlobalScheduler.Cache.CollectorCache
