import GlobalScheduler.Cache.SnapshotProofs

/-! What the operations do to the records.

Nearly every operation writes one record and moves it to the head of the list. -/
namespace GlobalScheduler.Cache.SiteCache

open Go Outcome AList Recency

/-- One record was written, and is at the head. -/
structure Recorded (key : String) (info : CachedInfo) (c c' : SiteCache) : Prop where
  infos : c'.siteCacheInfos = c.siteCacheInfos.insert key info
  recent : c'.recent = touch key c.recent
  states : c'.stackStates = c.stackStates
  assumed : c'.assumedStacks = c.assumedStacks

variable {c c' : SiteCache} {key siteID : String} {info info' : CachedInfo}

theorem Recorded.lookup_ne (h : Recorded key info c c') {key' : String} (hne : key' ≠ key) :
    c'.siteCacheInfos.lookup key' = c.siteCacheInfos.lookup key' := by
  rw [h.infos, lookup_insert_ne hne]

theorem Recorded.lookup_self (h : Recorded key info c c') : c'.siteCacheInfos.lookup key = some info := by
  rw [h.infos, lookup_insert]

theorem Recorded.mem (h : Recorded key info c c') {key' : String} :
    key' ∈ c'.siteCacheInfos ↔ key' = key ∨ key' ∈ c.siteCacheInfos := by
  rw [h.infos, mem_insert]

theorem Recorded.filed (h : Recorded key info c c') (hc : c.Filed)
    (hkey : ∀ site, info.site = some site → site.siteID = key) (hspread : c'.siteTree.Spread) :
    c'.Filed where
  keyed key' info' site hlook hsite := by
    by_cases heq : key' = key
    · subst heq
      rw [h.lookup_self] at hlook
      cases hlook
      exact hkey site hsite
    · rw [h.lookup_ne heq] at hlook
      exact hc.keyed key' info' site hlook hsite
  nodup := by
    rw [h.recent]
    exact nodup_touch hc.nodup
  listed key' := by rw [h.recent, mem_touch, h.mem, hc.listed]
  spread := hspread

theorem Filed.congr (h : c.Filed) (hinfos : c'.siteCacheInfos = c.siteCacheInfos)
    (hrecent : c'.recent = c.recent) (htree : c'.siteTree = c.siteTree) : c'.Filed := by
  obtain ⟨hkeyed, hnodup, hlisted, hspread⟩ := h
  rw [← hinfos] at hkeyed hlisted
  rw [← hrecent] at hnodup hlisted
  exact ⟨hkeyed, hnodup, hlisted, htree ▸ hspread⟩

theorem Filed.keyed_recordOf (h : c.Filed) {site : CachedSite} (hsite : (c.recordOf key).site = some site) :
    site.siteID = key := by
  unfold recordOf at hsite
  cases hlook : c.siteCacheInfos.lookup key with
  | none => simp [hlook] at hsite
  | some info => exact h.keyed key info site hlook (by simpa [hlook] using hsite)

theorem filed_empty : Filed {} where
  keyed key info site h := by cases h
  nodup := List.nodup_nil
  listed key := by simp
  spread := SiteTree.spread_empty

theorem Filed.erase (h : c.Filed) (hinfos : c'.siteCacheInfos = c.siteCacheInfos.erase key)
    (hrecent : c'.recent = c.recent.erase key) (hspread : c'.siteTree.Spread) : c'.Filed where
  keyed key' info site hlook hsite := by
    rw [hinfos] at hlook
    by_cases heq : key' = key
    · subst heq
      simp at hlook
    · exact h.keyed key' info site (by rwa [lookup_erase_ne heq] at hlook) hsite
  nodup := by
    rw [hrecent]
    exact h.nodup.erase key
  listed key' := by rw [hrecent, hinfos, h.nodup.mem_erase_iff, mem_erase, h.listed]
  spread := hspread

theorem Filed.removeSiteCacheInfoFromList (h : c.Filed) (siteID : String) :
    (c.removeSiteCacheInfoFromList siteID).Filed := by
  unfold SiteCache.removeSiteCacheInfoFromList
  split
  · exact h.erase rfl rfl h.spread
  · exact h

/-! ### Sites -/

theorem lookup_ensure : (c.ensure siteID).siteCacheInfos.lookup siteID = some (c.recordOf siteID) := by
  unfold ensure recordOf
  split
  case isTrue hmem =>
    obtain ⟨info, hlook⟩ := Map.exists_lookup hmem
    rw [hlook]
    rfl
  case isFalse hmem =>
    rw [lookup_eq_none.mpr hmem]
    exact lookup_insert _

theorem insert_ensure :
    (c.ensure siteID).siteCacheInfos.insert siteID info = c.siteCacheInfos.insert siteID info := by
  unfold ensure
  split
  · rfl
  · exact insert_insert _

theorem ensure_eq : c.ensure siteID = { c with siteCacheInfos := (c.ensure siteID).siteCacheInfos } := by
  unfold ensure
  split <;> rfl

theorem move_of_mem {L : Type} [ByUse String L] {c : SiteCache L} (h : siteID ∈ c.siteCacheInfos) :
    c.moveSiteCacheInfoToHead siteID = { c with recent := ByUse.touch siteID c.recent } :=
  if_pos h

theorem move_ensure : (c.ensure siteID).moveSiteCacheInfoToHead siteID = { c with
      siteCacheInfos := (c.ensure siteID).siteCacheInfos
      recent := touch siteID c.recent } := by
  have hmem : siteID ∈ (c.ensure siteID).siteCacheInfos :=
    Map.mem_of_lookup lookup_ensure
  rw [move_of_mem hmem, ensure_eq]
  rfl

theorem stampRecord_ok {update : Nat → CachedInfo → Outcome CachedInfo}
    (hlook : c.siteCacheInfos.lookup siteID = some info)
    (hupdate : update (c.generation + 1) info = .ok info') :
    c.stampRecord siteID update = .ok { c with
      siteCacheInfos := c.siteCacheInfos.insert siteID info', generation := c.generation + 1 } := by
  rw [stampRecord, hlook]
  show (update (c.generation + 1) info >>= _) = _
  rw [hupdate]
  rfl

variable (site : CachedSite)

theorem deleteRegionToSite_eq (c : SiteCache) :
    c.deleteRegionToSite site = { c with regionToSite := (c.deleteRegionToSite site).regionToSite } := by
  unfold deleteRegionToSite
  split <;> rfl

theorem dropSite_eq (c : SiteCache) : (c.dropSite site).1 = { c with
    siteTree := (c.siteTree.removeSite site).1
    regionToSite := (c.dropSite site).1.regionToSite } := by
  unfold dropSite
  split
  case h_1 htree => rw [htree]
  case h_2 htree => rw [htree, deleteRegionToSite_eq]

/-- The end of `AddSite` and `UpdateSite`: the record is there and at the head, and gets the site. -/
theorem recorded_setSite {c₀ : SiteCache} (env : Env) (site : CachedSite)
    (hinfos : c₀.siteCacheInfos = (c.ensure site.siteID).siteCacheInfos)
    (hrecent : c₀.recent = touch site.siteID c.recent)
    (hstates : c₀.stackStates = c.stackStates) (hassumed : c₀.assumedStacks = c.assumedStacks)
    (hgeneration : c₀.generation = c.generation) :
    ∃ c', c₀.stampRecord site.siteID (fun generation n => pure (n.setSite env generation site)) = .ok c' ∧
      Recorded site.siteID ((c.recordOf site.siteID).setSite env (c.generation + 1) site) c c' ∧
      c'.siteTree = c₀.siteTree ∧ c'.generation = c.generation + 1 := by
  refine ⟨_, stampRecord_ok (by rw [hinfos, lookup_ensure]) rfl, ⟨?_, hrecent, hstates, hassumed⟩, rfl, ?_⟩
  · show c₀.siteCacheInfos.insert _ _ = _
    rw [hinfos, hgeneration, insert_ensure]
  · show c₀.generation + 1 = _
    rw [hgeneration]

theorem recorded_addSite (env : Env) (site : CachedSite) (c : SiteCache) :
    ∃ c', c.addSite env site = .ok c' ∧
      Recorded site.siteID ((c.recordOf site.siteID).setSite env (c.generation + 1) site) c c' ∧
      c'.siteTree = c.siteTree.addSite site ∧ c'.generation = c.generation + 1 := by
  rw [addSite, move_ensure]
  exact recorded_setSite env site rfl rfl rfl rfl rfl

theorem placeSite_eq (c : SiteCache) : c.placeSite site = { c with
    siteCacheInfos := (c.ensure site.siteID).siteCacheInfos
    recent := touch site.siteID c.recent
    siteTree := (c.placeSite site).siteTree } := by
  rw [placeSite, move_ensure]

theorem spread_placeSite (h : c.siteTree.Spread) (site : CachedSite) :
    (c.placeSite site).siteTree.Spread := by
  show SiteTree.Spread (if _ then _ else _)
  split
  · exact h
  · exact h.addSite site

theorem recorded_updateSite (h : c.siteTree.Spread) (env : Env) (oldSite newSite : CachedSite) :
    ∃ c', c.updateSite env (some oldSite) newSite = .ok c' ∧
      Recorded newSite.siteID ((c.recordOf newSite.siteID).setSite env (c.generation + 1) newSite) c c' ∧
      c'.siteTree.Spread ∧
      (oldSite.siteID = newSite.siteID → c'.siteTree = (c.placeSite newSite).siteTree) ∧
      c'.generation = c.generation + 1 := by
  obtain ⟨siteTree, htree, hspread, hsame⟩ := (spread_placeSite h newSite).updateSite oldSite newSite
  obtain ⟨c₀, hc₀⟩ : ∃ c₀, c₀ = (({ c.placeSite newSite with siteTree := siteTree } :
    SiteCache).deleteRegionToSite oldSite).updateRegionToSite newSite := ⟨_, rfl⟩
  have hcall : c.updateSite env (some oldSite) newSite = c₀.stampRecord newSite.siteID
      fun generation n => pure (n.setSite env generation newSite) := by
    rw [updateSite, htree, hc₀]
    rfl
  rw [deleteRegionToSite_eq, placeSite_eq] at hc₀
  obtain ⟨c', hstamp, hrecorded, hsiteTree, hgeneration⟩ : ∃ c', c₀.stampRecord newSite.siteID _ = .ok c' ∧
      Recorded newSite.siteID ((c.recordOf newSite.siteID).setSite env (c.generation + 1) newSite) c c' ∧
      c'.siteTree = c₀.siteTree ∧ c'.generation = c.generation + 1 :=
    recorded_setSite env newSite (by rw [hc₀]; rfl) (by rw [hc₀]; rfl) (by rw [hc₀]; rfl)
      (by rw [hc₀]; rfl) (by rw [hc₀]; rfl)
  have htree' : c'.siteTree = siteTree := by
    rw [hsiteTree, hc₀]
    rfl
  exact ⟨c', hcall.trans hstamp, hrecorded, htree' ▸ hspread, fun heq => htree'.trans (hsame heq), hgeneration⟩

variable {env : Env}

theorem Filed.addSite (h : c.Filed) {site : CachedSite} (hcall : c.addSite env site = .ok c') : c'.Filed := by
  obtain ⟨c₁, hcall₁, hrecorded, htree, -⟩ := recorded_addSite env site c
  cases hcall.symm.trans hcall₁
  refine hrecorded.filed h (fun site' hsite => ?_) (htree ▸ h.spread.addSite site)
  cases hsite
  rfl

variable {oldSite : Option CachedSite} {newSite : CachedSite}

theorem recorded_of_updateSite (h : c.siteTree.Spread) (hcall : c.updateSite env oldSite newSite = .ok c') :
    Recorded newSite.siteID ((c.recordOf newSite.siteID).setSite env (c.generation + 1) newSite) c c' ∧
      c'.siteTree.Spread := by
  cases oldSite with
  | none =>
    obtain ⟨siteTree, -, hpanic⟩ := bind_ok.mp hcall
    exact (throw_ok.mp hpanic).elim
  | some oldSite =>
    obtain ⟨c₁, hcall₁, hrecorded, hspread, -, -⟩ := recorded_updateSite h env oldSite newSite
    cases hcall.symm.trans hcall₁
    exact ⟨hrecorded, hspread⟩

theorem Filed.updateSite (h : c.Filed) (hcall : c.updateSite env oldSite newSite = .ok c') : c'.Filed := by
  obtain ⟨hrecorded, hspread⟩ := recorded_of_updateSite h.spread hcall
  refine hrecorded.filed h (fun site' hsite => ?_) hspread
  cases hsite
  rfl

theorem Filed.dropSite (h : c.Filed) (site : CachedSite) : (c.dropSite site).1.Filed := by
  rw [dropSite_eq]
  exact ⟨h.keyed, h.nodup, h.listed, h.spread.removeSite site⟩

/-! ### Records that are rewritten in place -/

/-- Either there is no record, and nothing happens, or it is rewritten and moved. -/
structure Rewrites (siteID : String) (update : CachedInfo → CachedInfo) (c c' : SiteCache) : Prop where
  tree : c'.siteTree = c.siteTree
  record : c' = c ∨ ∃ info, c.siteCacheInfos.lookup siteID = some info ∧ Recorded siteID (update info) c c'

variable {update : CachedInfo → CachedInfo}

theorem Rewrites.filed (h : Rewrites siteID update c c')
    (hc : c.Filed) (hsite : ∀ info, (update info).site = info.site) : c'.Filed := by
  cases h.record with
  | inl heq => exact heq ▸ hc
  | inr hrecord =>
    obtain ⟨info, hlook, hrecorded⟩ := hrecord
    refine hrecorded.filed hc (fun site h => ?_) (h.tree ▸ hc.spread)
    exact hc.keyed siteID info site hlook ((hsite info).symm.trans h)

theorem rewrites_of_lookup (hc' : c' = match c.siteCacheInfos.lookup siteID with
      | none => c
      | some info => { c with
          siteCacheInfos := c.siteCacheInfos.insert siteID (update info)
          }.moveSiteCacheInfoToHead siteID) : Rewrites siteID update c c' := by
  subst hc'
  split
  case h_1 => exact ⟨rfl, Or.inl rfl⟩
  case h_2 info hlook =>
    rw [move_of_mem ((mem_insert _).mpr (Or.inl rfl))]
    exact ⟨rfl, Or.inr ⟨info, hlook, rfl, rfl, rfl, rfl⟩⟩

theorem rewrites_updateQos (env : Env) (siteID : String) (metricDatas : List CachedInfo.NetMetricData)
    (c : SiteCache) : Rewrites siteID (·.updateQos env metricDatas) c (c.updateQos env siteID metricDatas) :=
  rewrites_of_lookup rfl

theorem rewrites_removeStack (stack : PodStack) (c : SiteCache) :
    Rewrites stack.selected.siteID (·.removeStack stack) c (c.removeStack stack) :=
  rewrites_of_lookup rfl

theorem recorded_addStack (stack : PodStack) (c : SiteCache) : Recorded stack.selected.siteID
    ((c.recordOf stack.selected.siteID).addStack (c.generation + 1) stack) c (c.addStack stack) := by
  rw [addStack, move_of_mem ((mem_insert _).mpr (Or.inl rfl))]
  exact ⟨rfl, rfl, rfl, rfl⟩

theorem siteTree_addStack (stack : PodStack) (c : SiteCache) : (c.addStack stack).siteTree = c.siteTree := by
  rw [addStack, move_of_mem ((mem_insert _).mpr (Or.inl rfl))]

theorem Filed.addStack (h : c.Filed) (stack : PodStack) : (c.addStack stack).Filed :=
  (recorded_addStack stack c).filed h (fun _ hsite => h.keyed_recordOf hsite)
    (siteTree_addStack stack c ▸ h.spread)

theorem Filed.removeStack (h : c.Filed) (stack : PodStack) : (c.removeStack stack).Filed :=
  (rewrites_removeStack stack c).filed h fun _ => rfl

end GlobalScheduler.Cache.SiteCache
