import GlobalScheduler.Cache.SiteCache

/-! When a snapshot is a copy of the cache.

The map of a snapshot should have the clone of every record with a site, and nothing else.
An update copies the records it reaches, and it deletes as many names as the map has more
than the cache. So the map is a copy afterwards if the records that are not reached were
copied before, and if the count is not off: it is where a record without a site is cached,
which the map never has. -/
namespace GlobalScheduler.Cache.SiteCache

open Go RefMap AList Recency Option

/-- What every operation of a cache keeps. -/
structure Filed (c : SiteCache) : Prop where
  keyed : ∀ key info site, c.siteCacheInfos.lookup key = some info → info.site = some site →
    site.siteID = key
  nodup : c.recent.Nodup
  listed : ∀ key, key ∈ c.recent ↔ key ∈ c.siteCacheInfos
  spread : c.siteTree.Spread

def clone? (c : SiteCache) (siteID : String) : Option CachedInfo :=
  (c.siteCacheInfos.lookup siteID).bind CachedInfo.clone?

def generationOf (c : SiteCache) (siteID : String) : Nat :=
  ((c.siteCacheInfos.lookup siteID).map CachedInfo.generation).getD 0

def reached (c : SiteCache) (snapshot : CacheSnapshot) : List String :=
  Recency.reached c.generationOf snapshot.generation c.recent

/-- The snapshot has the clones of the records with a site, and no others. -/
def Copied (c : SiteCache) (snapshot : CacheSnapshot) : Prop :=
  ∀ siteID, snapshot.siteCacheInfoMap.get? siteID = c.clone? siteID

variable {c : SiteCache} {snapshot : CacheSnapshot} {ord : List String} {key siteID : String} {info : CachedInfo}

theorem mem_of_clone? {clone : CachedInfo} (h : c.clone? siteID = some clone) :
    siteID ∈ c.siteCacheInfos := by
  obtain ⟨info, hlook, -⟩ := bind_eq_some_iff.mp h
  exact Map.mem_of_lookup hlook

/-! ### The records that are copied -/

/-- Some cells are written, in a map whose keys do not share any. Unless the flag is raised
no key is new. -/
structure Writes (written : String → Option CachedInfo)
    (s s' : RefMap String CachedInfo × Bool) : Prop where
  apart : s.1.Apart → s'.1.Apart
  get? : s.1.Apart → ∀ k, s'.1.get? k = (written k).or (s.1.get? k)
  same : s'.2 = false → s.2 = false ∧ s'.1.ptr = s.1.ptr

section
variable {written written' : String → Option CachedInfo} {s s' s'' : RefMap String CachedInfo × Bool}

theorem Writes.refl (h : ∀ k, written k = none) : Writes written s s :=
  ⟨id, fun _ k => by rw [h k, none_or], fun hflag => ⟨hflag, rfl⟩⟩

theorem Writes.trans (h : Writes written s s') (h' : Writes written' s' s'') :
    Writes (fun k => (written' k).or (written k)) s s'' where
  apart := h'.apart ∘ h.apart
  get? hapart k := by rw [h'.get? (h.apart hapart) k, h.get? hapart k, Option.or_assoc]
  same hflag := by
    obtain ⟨hflag', hptr'⟩ := h'.same hflag
    obtain ⟨hflag, hptr⟩ := h.same hflag'
    exact ⟨hflag, hptr'.trans hptr⟩

end

theorem writes_copyRecord (h : c.Filed) (hlook : c.siteCacheInfos.lookup key = some info)
    (s : RefMap String CachedInfo × Bool) :
    Writes (fun k => if k = key then c.clone? k else none) s (copyRecord s info) := by
  have hclone : c.clone? key = info.clone? := by rw [clone?, hlook, bind_some]
  cases hsite : info.site with
  | none =>
    simp only [copyRecord, hsite]
    refine Writes.refl fun k => ?_
    split
    case isTrue heq => rw [heq, hclone, CachedInfo.clone?, hsite, map_none]
    case isFalse => rfl
  | some np =>
    have hid : np.siteID = key := h.keyed key info np hlook hsite
    simp only [copyRecord, hsite, hid]
    refine ⟨fun hapart => hapart.write _ _, fun hapart k => ?_, fun hflag => ?_⟩
    · rw [hapart.get?_write]
      split
      case isTrue heq => rw [heq, hclone, CachedInfo.clone?, hsite, map_some, some_or]
      case isFalse => rw [none_or]
    · simp only [Bool.or_eq_false_iff, decide_eq_false_iff_not, not_not] at hflag
      exact ⟨hflag.1, ptr_write_of_mem hflag.2 _⟩

theorem writes_copyRecords (h : c.Filed) (since : Nat) {l : List String}
    (hl : ∀ key ∈ l, key ∈ c.siteCacheInfos) (s : RefMap String CachedInfo × Bool) :
    Writes (fun k => if k ∈ Recency.reached c.generationOf since l then c.clone? k else none) s
      (copyRecords since (l.filterMap c.siteCacheInfos.lookup) s) := by
  induction l generalizing s with
  | nil => exact Writes.refl fun k => by simp [Recency.reached]
  | cons key l ih =>
    obtain ⟨info, hlook⟩ := Map.exists_lookup (hl key List.mem_cons_self)
    have hgeneration : c.generationOf key = info.generation := by simp [generationOf, hlook]
    simp only [List.filterMap_cons, hlook, copyRecords]
    split
    case isTrue hold =>
      refine Writes.refl fun k => ?_
      rw [reached_cons_of_le (by rwa [hgeneration])]
      rfl
    case isFalse hnew =>
      have hrest := (writes_copyRecord h hlook s).trans
        (ih (fun key hkey => hl key (List.mem_cons_of_mem _ hkey)) (copyRecord s info))
      rw [reached_cons_of_lt (by rw [hgeneration]; omega)]
      convert hrest using 2 with k
      by_cases hkey : k = key
      · subst hkey
        by_cases hmem : k ∈ Recency.reached c.generationOf since l <;> simp [hmem]
      · simp [hkey]

/-! ### The names that are deleted -/

theorem removeDeletedSiteCacheInfosFromSnapshot_eq (names : List String) (toDelete : Nat)
    (m : RefMap String CachedInfo) :
    c.removeDeletedSiteCacheInfosFromSnapshot names toDelete m =
      ((names.filter (· ∉ c.siteCacheInfos.keys)).take toDelete).foldl erase m := by
  induction names generalizing toDelete m with
  | nil => simp [removeDeletedSiteCacheInfosFromSnapshot]
  | cons name rest ih =>
    cases toDelete with
    | zero => simp [removeDeletedSiteCacheInfosFromSnapshot]
    | succ toDelete =>
      rw [removeDeletedSiteCacheInfosFromSnapshot]
      by_cases hname : name ∈ c.siteCacheInfos
      · have hkey : name ∈ c.siteCacheInfos.keys := mem_keys.mp hname
        rw [if_pos hname, ih, List.filter_cons_of_neg (by simpa using hkey)]
      · have hkey : name ∉ c.siteCacheInfos.keys := fun hin => hname (mem_keys.mpr hin)
        rw [if_neg hname, ih, List.filter_cons_of_pos (by simpa using hkey), List.take_succ_cons,
          List.foldl_cons]

def copies (snapshot : CacheSnapshot) (c : SiteCache) : RefMap String CachedInfo :=
  (copyRecords snapshot.generation c.items (snapshot.siteCacheInfoMap, false)).1

def dropped (ord : List String) (snapshot : CacheSnapshot) (c : SiteCache) : List String :=
  surplus c.siteCacheInfos.keys (names ord (c.copies snapshot))

theorem names_perm (ord : List String) (m : RefMap String CachedInfo) : (names ord m).Perm m.ptr.keys :=
  Map.entriesBy_perm ord m.ptr

theorem refresh_map (ord : List String) (snapshot : CacheSnapshot) (c : SiteCache) :
    (c.refresh ord snapshot).1.siteCacheInfoMap =
      (c.dropped ord snapshot).foldl erase (c.copies snapshot) := by
  have hlength := (names_perm ord (c.copies snapshot)).length_eq
  rw [dropped, surplus, hlength]
  show (if _ then _ else _) = _
  split
  case isTrue => rw [removeDeletedSiteCacheInfosFromSnapshot_eq]; rfl
  case isFalse hless =>
    rw [decide_eq_true_eq, not_lt] at hless
    have hzero : (c.copies snapshot).ptr.keys.length - c.siteCacheInfos.keys.length = 0 :=
      Nat.sub_eq_zero_of_le hless
    rw [hzero]
    rfl

theorem get?_refresh (siteID : String) :
    (c.refresh ord snapshot).1.siteCacheInfoMap.get? siteID =
      if siteID ∈ c.dropped ord snapshot then none else (c.copies snapshot).get? siteID := by
  rw [refresh_map, get?_foldl_erase]

/-! ### Copies -/

theorem writes_copies (h : c.Filed) (snapshot : CacheSnapshot) :
    Writes (fun k => if k ∈ c.reached snapshot then c.clone? k else none)
      (snapshot.siteCacheInfoMap, false)
      (copyRecords snapshot.generation c.items (snapshot.siteCacheInfoMap, false)) :=
  writes_copyRecords h snapshot.generation (fun key hkey => (h.listed key).mp hkey) _

theorem mem_names {m : RefMap String CachedInfo} {name : String} : name ∈ names ord m ↔ name ∈ m.ptr := by
  rw [(names_perm ord m).mem_iff, ← mem_keys]

/-- If all cached records have a site and are in the map, all other names go. -/
theorem mem_dropped (hsub : ∀ siteID ∈ c.siteCacheInfos, siteID ∈ (c.copies snapshot).ptr) :
    siteID ∈ c.dropped ord snapshot ↔ siteID ∈ (c.copies snapshot).ptr ∧ siteID ∉ c.siteCacheInfos := by
  rw [dropped, mem_surplus ((names_perm ord _).nodup_iff.mpr (keys_nodup _))
    (keys_nodup _) fun siteID hkey => mem_names.mpr (hsub siteID (mem_keys.mpr hkey)),
    mem_names, ← mem_keys]

theorem not_mem_of_mem_dropped (h : siteID ∈ c.dropped ord snapshot) : siteID ∉ c.siteCacheInfos :=
  fun hmem => not_mem_live_of_mem_surplus h (mem_keys.mp hmem)

theorem length_kept_le (hcopied : Copied c (c.refresh ord snapshot).1) :
    ((names ord (c.copies snapshot)).filter (· ∉ c.dropped ord snapshot)).length ≤
      (c.siteCacheInfos.keys.filter fun siteID => (c.clone? siteID).isSome).length := by
  have hnodup : (names ord (c.copies snapshot)).Nodup :=
    (names_perm ord _).nodup_iff.mpr (keys_nodup _)
  refine ((hnodup.filter _).subperm fun name hname => ?_).length_le
  obtain ⟨hmem, hkept⟩ := List.mem_filter.mp hname
  have hget := hcopied name
  rw [get?_refresh, if_neg (by simpa using hkept)] at hget
  have hsome : (c.clone? name).isSome := by
    rw [← hget, get?_isSome]
    exact mem_names.mp hmem
  obtain ⟨clone, hclone⟩ := isSome_iff_exists.mp hsome
  exact List.mem_filter.mpr ⟨mem_keys.mp (mem_of_clone? hclone), hsome⟩

/-- A snapshot that an update makes a copy: what is not reached is there, and the count of
names to delete is not off unless there is nothing to delete. -/
structure CatchesUp (c : SiteCache) (snapshot : CacheSnapshot) : Prop where
  unreached : ∀ siteID clone, siteID ∉ c.reached snapshot → c.clone? siteID = some clone →
    snapshot.siteCacheInfoMap.get? siteID = some clone
  counted : (∀ siteID ∈ c.siteCacheInfos, c.clone? siteID ≠ none) ∨
    ∀ siteID ∈ snapshot.siteCacheInfoMap.ptr, c.clone? siteID ≠ none

section
variable (h : c.Filed) (hapart : snapshot.siteCacheInfoMap.Apart)
include h hapart

theorem get?_copies (siteID : String) :
    (c.copies snapshot).get? siteID = (if siteID ∈ c.reached snapshot then c.clone? siteID else none).or
      (snapshot.siteCacheInfoMap.get? siteID) :=
  (writes_copies h snapshot).get? hapart siteID

/-- Every record with a site is copied if those that are not reached were. -/
theorem get?_copies_of_clone?
    (hunreached : ∀ siteID clone, siteID ∉ c.reached snapshot → c.clone? siteID = some clone →
      snapshot.siteCacheInfoMap.get? siteID = some clone) {clone : CachedInfo} (hclone : c.clone? siteID = some clone) :
    (c.copies snapshot).get? siteID = some clone := by
  rw [get?_copies h hapart]
  by_cases hreached : siteID ∈ c.reached snapshot
  · simp [hreached, hclone]
  · simp [hreached, hunreached siteID clone hreached hclone]

theorem mem_ptr_of_mem_copies (hclone : c.clone? siteID = none) :
    siteID ∈ (c.copies snapshot).ptr ↔ siteID ∈ snapshot.siteCacheInfoMap.ptr := by
  rw [← get?_isSome, ← get?_isSome, get?_copies h hapart, hclone, ite_self, none_or]

theorem CatchesUp.copied (hup : CatchesUp c snapshot) : Copied c (c.refresh ord snapshot).1 := by
  intro siteID
  rw [get?_refresh]
  have hcopied : ∀ siteID clone, c.clone? siteID = some clone →
      (c.copies snapshot).get? siteID = some clone := fun _ _ =>
    get?_copies_of_clone? h hapart hup.unreached
  cases hclone : c.clone? siteID with
  | some clone =>
    rw [if_neg fun hdropped => not_mem_of_mem_dropped hdropped (mem_of_clone? hclone),
      hcopied siteID clone hclone]
  | none =>
    split
    case isTrue => rfl
    case isFalse hkept =>
      rw [← not_isSome_iff_eq_none, get?_isSome]
      intro hmem
      have hold := (mem_ptr_of_mem_copies h hapart hclone).mp hmem
      cases hup.counted with
      | inr hnone => exact hnone siteID hold hclone
      | inl hsites =>
        -- Every cached record is in the map, so all that is not cached was deleted.
        refine hkept ((mem_dropped fun siteID hcached => ?_).mpr
          ⟨hmem, fun hcached => hsites siteID hcached hclone⟩)
        obtain ⟨clone, hclone⟩ := ne_none_iff_exists'.mp (hsites siteID hcached)
        rw [← get?_isSome, hcopied siteID clone hclone]
        rfl

theorem CatchesUp.of_copied (hcopied : Copied c (c.refresh ord snapshot).1) : CatchesUp c snapshot := by
  refine ⟨fun siteID clone hunreached hclone => ?_, ?_⟩
  · have hget := hcopied siteID
    rw [get?_refresh, hclone, if_neg fun hdropped =>
      not_mem_of_mem_dropped hdropped (mem_of_clone? hclone), get?_copies h hapart,
      if_neg hunreached, none_or] at hget
    exact hget
  · by_cases hsites : ∀ siteID ∈ c.siteCacheInfos, c.clone? siteID ≠ none
    · exact Or.inl hsites
    · refine Or.inr fun name hname hnone => ?_
      have hdropped : name ∈ c.dropped ord snapshot := by
        have hmem := (mem_ptr_of_mem_copies h hapart hnone).mpr hname
        rw [← get?_isSome] at hmem
        by_contra hkept
        have hget := hcopied name
        rw [get?_refresh, if_neg hkept, hnone] at hget
        simp [hget] at hmem
      -- As a name was deleted, at least as many are left as are cached, and that is more than
      -- there are records with a site.
      have hkept : c.siteCacheInfos.keys.length ≤ _ := length_le_kept
        ((names_perm ord _).nodup_iff.mpr (keys_nodup _)) hdropped
      have hfewer : (c.siteCacheInfos.keys.filter fun siteID => (c.clone? siteID).isSome).length <
          c.siteCacheInfos.keys.length := by
        simp only [not_forall, not_not] at hsites
        obtain ⟨siteID, hcached, hclone⟩ := hsites
        refine List.length_filter_lt_length_iff_exists.mpr ⟨siteID, mem_keys.mp hcached, ?_⟩
        simp [hclone]
      exact absurd (Nat.le_trans hkept (length_kept_le hcopied)) (Nat.not_le_of_lt hfewer)

theorem copied_refresh_iff :
    Copied c (c.refresh ord snapshot).1 ↔ CatchesUp c snapshot :=
  ⟨CatchesUp.of_copied h hapart, CatchesUp.copied h hapart⟩

theorem apart_refresh :
    (c.refresh ord snapshot).1.siteCacheInfoMap.Apart := by
  rw [refresh_map]
  exact RefMap.Apart.foldl_erase ((writes_copies h snapshot).apart hapart) _

end

theorem ptr_refresh (h : c.Filed) (hflag : (c.refresh ord snapshot).2 = false) :
    (c.refresh ord snapshot).1.siteCacheInfoMap.ptr = snapshot.siteCacheInfoMap.ptr := by
  obtain ⟨hadded, hmore⟩ := Bool.or_eq_false_iff.mp hflag
  have hmap : (c.refresh ord snapshot).1.siteCacheInfoMap = c.copies snapshot := by
    show (if _ then _ else _) = _
    rw [if_neg (by simpa using hmore)]
    rfl
  rw [hmap]
  exact ((writes_copies h snapshot).same hadded).2

/-! ### The list -/

/-- The list has the records of the map, each once. -/
def Listed (snapshot : CacheSnapshot) : Prop :=
  snapshot.siteCacheInfoList.Perm snapshot.siteCacheInfoMap.pointers

/-- The same cache, but for how far its tree was dealt out. -/
def Dealt (c c' : SiteCache) : Prop :=
  ∃ siteTree : SiteTree, c' = { c with siteTree := siteTree } ∧
    siteTree.zones = c.siteTree.zones ∧ siteTree.Spread

theorem Dealt.refl (h : c.siteTree.Spread) : Dealt c c := ⟨c.siteTree, rfl, rfl, h⟩

theorem Dealt.trans {c' c'' : SiteCache} (h : Dealt c c') (h' : Dealt c' c'') : Dealt c c'' := by
  obtain ⟨siteTree, rfl, hzones, -⟩ := h
  obtain ⟨siteTree', rfl, hzones', hspread⟩ := h'
  exact ⟨siteTree', rfl, hzones'.trans hzones, hspread⟩

theorem Dealt.filed {c' : SiteCache} (h : Dealt c c') (hc : c.Filed) : c'.Filed := by
  obtain ⟨siteTree, rfl, -, hspread⟩ := h
  exact ⟨hc.keyed, hc.nodup, hc.listed, hspread⟩

theorem updateSiteCacheInfoSnapshotList_ok (h : c.siteTree.Spread) (snapshot : CacheSnapshot) :
    ∃ (c' : SiteCache) (siteIDs : List String), c.updateSiteCacheInfoSnapshotList snapshot =
        .ok (some (c', { snapshot with
          siteCacheInfoList := siteIDs.filterMap snapshot.siteCacheInfoMap.ptr.lookup })) ∧
      Dealt c c' ∧ siteIDs.Perm c.siteTree.zones := by
  obtain ⟨siteTree, siteIDs, hnexts, hperm, hzones, hspread⟩ := h.nexts
  refine ⟨{ c with siteTree := siteTree }, siteIDs, ?_, ⟨siteTree, rfl, hzones, hspread⟩, hperm⟩
  rw [updateSiteCacheInfoSnapshotList, hnexts]
  rfl

theorem updateSnapshot_of_relist {c' : SiteCache} {snapshot' : CacheSnapshot}
    (h : c.relist (c.refresh ord snapshot).1 (c.refresh ord snapshot).2 = .ok (some (c', snapshot'))) :
    c.updateSnapshot ord snapshot = c'.checkList snapshot' := by
  rw [updateSnapshot, h]
  rfl

theorem relist_ok (h : c.siteTree.Spread) (snapshot : CacheSnapshot) (updateAllLists : Bool) :
    ∃ c' list, c.relist snapshot updateAllLists =
      .ok (some (c', { snapshot with siteCacheInfoList := list })) ∧ Dealt c c' := by
  cases updateAllLists with
  | false => exact ⟨c, snapshot.siteCacheInfoList, rfl, Dealt.refl h⟩
  | true =>
    obtain ⟨c', siteIDs, hlist, hdealt, -⟩ := updateSiteCacheInfoSnapshotList_ok h snapshot
    exact ⟨c', _, hlist, hdealt⟩

theorem checkList_ok (h : c.siteTree.Spread) (snapshot : CacheSnapshot) :
    ∃ c' list err, c.checkList snapshot =
      .ok (some (c', { snapshot with siteCacheInfoList := list }, err)) ∧ Dealt c c' := by
  unfold checkList
  split
  · exact ⟨c, snapshot.siteCacheInfoList, none, rfl, Dealt.refl h⟩
  · obtain ⟨c', siteIDs, hlist, hdealt, -⟩ := updateSiteCacheInfoSnapshotList_ok h snapshot
    refine ⟨c', siteIDs.filterMap snapshot.siteCacheInfoMap.ptr.lookup,
      some (notConsistent snapshot c), ?_, hdealt⟩
    rw [hlist]
    rfl

/-- **An update of a snapshot returns**, with the map brought up to date. -/
theorem updateSnapshot_ok (h : c.Filed) (ord : List String) (snapshot : CacheSnapshot) :
    ∃ c' list err, c.updateSnapshot ord snapshot =
      .ok (some (c', { (c.refresh ord snapshot).1 with siteCacheInfoList := list }, err)) ∧
      Dealt c c' := by
  obtain ⟨c₁, list₁, hrelist, hdealt₁⟩ := relist_ok h.spread (c.refresh ord snapshot).1
    (c.refresh ord snapshot).2
  obtain ⟨c', list, err, hcheck, hdealt⟩ := checkList_ok (hdealt₁.filed h).spread
    { (c.refresh ord snapshot).1 with siteCacheInfoList := list₁ }
  exact ⟨c', list, err, (updateSnapshot_of_relist hrelist).trans hcheck, hdealt₁.trans hdealt⟩

/-- If the tree has the sites of the map, the list has the records of the map, each once, and
there is no error. -/
theorem updateSnapshot_listed (ord : List String) (h : c.Filed) (hlisted : Listed snapshot)
    (hzones : ∀ siteID, siteID ∈ c.siteTree.zones ↔
      siteID ∈ (c.refresh ord snapshot).1.siteCacheInfoMap.ptr) :
    ∃ c' list, c.updateSnapshot ord snapshot =
      .ok (some (c', { (c.refresh ord snapshot).1 with siteCacheInfoList := list }, none)) ∧
      Dealt c c' ∧ list.Perm (c.refresh ord snapshot).1.siteCacheInfoMap.pointers := by
  have hperm : c.siteTree.zones.Perm (c.refresh ord snapshot).1.siteCacheInfoMap.ptr.keys :=
    (List.perm_ext_iff_of_nodup h.spread.count.1 (keys_nodup _)).mpr fun siteID => by
      rw [hzones, mem_keys]
  obtain ⟨c', list, hrelist, hdealt, hlist⟩ : ∃ c' list,
      c.relist (c.refresh ord snapshot).1 (c.refresh ord snapshot).2 =
        .ok (some (c', { (c.refresh ord snapshot).1 with siteCacheInfoList := list })) ∧
      Dealt c c' ∧ list.Perm (c.refresh ord snapshot).1.siteCacheInfoMap.pointers := by
    cases hflag : (c.refresh ord snapshot).2 with
    | false =>
      refine ⟨c, snapshot.siteCacheInfoList, rfl, Dealt.refl h.spread, ?_⟩
      rw [pointers, ptr_refresh h hflag]
      exact hlisted
    | true =>
      obtain ⟨c', siteIDs, hupdate, hdealt, hsites⟩ :=
        updateSiteCacheInfoSnapshotList_ok h.spread (c.refresh ord snapshot).1
      exact ⟨c', _, hupdate, hdealt, (hsites.trans hperm).filterMap _⟩
  refine ⟨c', list, ?_, hdealt, hlist⟩
  rw [updateSnapshot_of_relist hrelist]
  obtain ⟨siteTree, rfl, hzones', hspread⟩ := hdealt
  have hlength : list.length = siteTree.numSites := by
    rw [hlist.length_eq, length_pointers, ← hperm.length_eq, hspread.count.2, hzones']
  exact if_pos hlength

end GlobalScheduler.Cache.SiteCache
