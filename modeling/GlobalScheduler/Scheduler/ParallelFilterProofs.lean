import GlobalScheduler.Scheduler.ParallelFilter

/-! What the parallel filter finds.

The invariant of the workers names the records that have claimed a place, in the order of their
claims: they are the finished records that pass and those that a worker is about to write. So
each place has one record, and no place is claimed beyond the result. -/
namespace GlobalScheduler.ParallelFilter

open Go WorkerPool Multiset SiteCacheInfo AList Map
open List hiding range

/-! ### What the workers keep -/

def Call.passing (c : Call) (i : Nat) : Option SiteCacheInfo := c.infos[i]?.filter c.passes

def CheckSite.storing : CheckSite → Option SiteCacheInfo
  | .store info _ => some info
  | _ => none

def stored (running : Multiset (Nat × CheckSite)) : Multiset SiteCacheInfo :=
  running.filterMap fun r => r.2.storing

variable {i : Nat} {running : Multiset (Nat × CheckSite)}

theorem stored_cons_none {l : CheckSite}
    (h : l.storing = none) : stored ((i, l) ::ₘ running) = stored running :=
  filterMap_cons_none (i, l) running h

variable {info : SiteCacheInfo}

theorem stored_cons_store {i length : Nat} :
    stored ((i, .store info length) ::ₘ running) = info ::ₘ stored running :=
  filterMap_cons_some (fun r : Nat × CheckSite => r.2.storing) (i, .store info length) running rfl

/-- What a worker knows at a point of `checkSite` for piece `i`; `claims` are the records that have
claimed a place, in order. -/
def Knows (c : Call) (claims : List SiteCacheInfo) (i : Nat) : CheckSite → Prop
  | .check j => j = i
  | .claim info => c.infos[i]? = some info ∧ ¬ c.Fails info ∧ c.passes info = true
  | .store info length => c.infos[i]? = some info ∧ ¬ c.Fails info ∧ c.passes info = true ∧
      0 < length ∧ claims[length - 1]? = some info
  | .refuse info status => c.infos[i]? = some info ∧ ¬ c.Fails info ∧ c.passes info = false ∧
      status.isSuccess = false

/-- The invariant of the workers. -/
structure Kept (c : Call) (claims : List SiteCacheInfo) (finished : Multiset Nat)
    (running : Multiset (Nat × CheckSite)) (s : Shared) : Prop where
  room : s.filtered.length = c.infos.length
  count : s.filteredLen = claims.length
  claimed : (claims : Multiset SiteCacheInfo) =
    finished.filterMap c.passing + stored running
  written : ∀ j info, claims[j]? = some info →
    s.filtered[j]? = some info.site ∨ ∃ i, (i, .store info (j + 1)) ∈ running
  knows : ∀ r ∈ running, Knows c claims r.1 r.2

/-- The filters yield an error for the record of the piece. -/
def FailsAt (c : Call) (i : Nat) : Prop := ∃ info, c.infos[i]? = some info ∧ c.Fails info

section Steps
variable {c : Call} {claims claims' : List SiteCacheInfo} {finished : Multiset Nat}
  {running : Multiset (Nat × CheckSite)} {s s' : Shared} {i : Nat} {l l' : CheckSite}

theorem Knows.mono (h : Knows c claims i l)
    (hclaims : ∀ (j : Nat) info, claims[j]? = some info → claims'[j]? = some info) : Knows c claims' i l := by
  cases l with
  | check j => exact h
  | claim info => exact h
  | store info length =>
    obtain ⟨hinfo, hfails, hpasses, hpos, hclaim⟩ := h
    exact ⟨hinfo, hfails, hpasses, hpos, hclaims _ _ hclaim⟩
  | refuse info status => exact h

/-- No more places are claimed than there are sites, so the counter stays in the slice. -/
theorem Kept.claims_le (h : Kept c claims finished running s)
    (hpieces : finished + running.map Prod.fst ≤ range c.infos.length) : claims.length ≤ c.infos.length := by
  have hle : ∀ {α β : Type} (f : α → Option β) (m : Multiset α), (m.filterMap f).card ≤ m.card :=
    fun f m => Quot.inductionOn m fun l => length_filterMap_le f l
  have hcard := congrArg card h.claimed
  have hall := card_le_card hpieces
  have hfinished := hle c.passing finished
  have hrunning : (stored running).card ≤ running.card := hle _ running
  simp only [coe_card, card_add, card_map, card_range] at hcard hall
  omega

/-- A worker that has claimed no place may go. -/
theorem Kept.drop (h : Kept c claims finished ((i, l) ::ₘ running) s) (hl : l.storing = none) :
    Kept c claims finished running s where
  room := h.room
  count := h.count
  claimed := by rw [h.claimed, stored_cons_none hl]
  written j info hj := by
    refine (h.written j info hj).imp id fun ⟨i', hi'⟩ => ⟨i', ?_⟩
    refine (mem_cons.mp hi').resolve_left fun heq => ?_
    cases heq
    cases hl
  knows r hr := h.knows r (mem_cons_of_mem hr)

/-- A worker comes that has claimed no place. -/
theorem Kept.push (h : Kept c claims finished running s) (hl : l.storing = none) (hknows : Knows c claims i l) :
    Kept c claims finished ((i, l) ::ₘ running) s where
  room := h.room
  count := h.count
  claimed := by rw [h.claimed, stored_cons_none hl]
  written j info hj := (h.written j info hj).imp id fun ⟨i', hi'⟩ => ⟨i', mem_cons_of_mem hi'⟩
  knows r hr := by
    cases mem_cons.mp hr with
    | inl heq => exact heq ▸ hknows
    | inr hold => exact h.knows r hold

theorem Kept.refuse (h : Kept c claims finished running s) (hpassing : c.passing i = none)
    (statuses : Map String Status) :
    Kept c claims (i ::ₘ finished) running { s with statuses := statuses } :=
  ⟨h.room, h.count, by rw [filterMap_cons_none _ _ hpassing, h.claimed], h.written, h.knows⟩

theorem Kept.claim (h : Kept c claims finished ((i, .claim info) ::ₘ running) s) :
    Kept c (claims ++ [info]) finished ((i, .store info (s.filteredLen + 1)) ::ₘ running)
      { s with filteredLen := s.filteredLen + 1 } := by
  have hkeep : ∀ (j : Nat) info', claims[j]? = some info' → (claims ++ [info])[j]? = some info' := by
    intro j info' hj
    rw [getElem?_append_left (List.getElem?_eq_some_iff.mp hj).1, hj]
  obtain ⟨hinfo, hfails, hpasses⟩ := h.knows _ (mem_cons_self _ _)
  have hrest := h.drop rfl
  refine ⟨h.room, ?_, ?_, ?_, ?_⟩
  · rw [length_append, length_singleton, ← h.count]
  · rw [stored_cons_store, ← coe_add, hrest.claimed, add_cons, coe_singleton, add_comm, singleton_add]
  · intro j info' hj
    by_cases hlast : j < claims.length
    · rw [getElem?_append_left hlast] at hj
      exact (hrest.written j info' hj).imp id fun ⟨i', hi'⟩ => ⟨i', mem_cons_of_mem hi'⟩
    · obtain ⟨hlen, hget⟩ := List.getElem?_eq_some_iff.mp hj
      rw [length_append, length_singleton] at hlen
      have hj' : j = claims.length := by omega
      subst hj'
      rw [getElem_concat_length rfl] at hget
      rw [← hget, ← h.count]
      exact Or.inr ⟨i, mem_cons_self _ _⟩
  · intro r hr
    cases mem_cons.mp hr with
    | inl heq =>
      subst heq
      refine ⟨hinfo, hfails, hpasses, Nat.succ_pos _, ?_⟩
      rw [Nat.add_sub_cancel, h.count, getElem?_concat_length]
    | inr hold => exact Knows.mono (hrest.knows r hold) hkeep

theorem Kept.store {length : Nat} (h : Kept c claims finished ((i, .store info length) ::ₘ running) s)
    (hroom : length - 1 < s.filtered.length) :
    Kept c claims (i ::ₘ finished) running
      { s with filtered := s.filtered.set (length - 1) info.site } := by
  obtain ⟨hinfo, hfails, hpasses, hpos, hclaim⟩ := h.knows _ (mem_cons_self _ _)
  have hpassing : c.passing i = some info := by
    rw [Call.passing, hinfo]
    simp [hpasses]
  refine ⟨?_, h.count, ?_, ?_, fun r hr => h.knows r (mem_cons_of_mem hr)⟩
  · rw [length_set]
    exact h.room
  · have hclaimed := h.claimed
    rw [stored_cons_store, add_cons] at hclaimed
    rw [filterMap_cons_some _ _ _ hpassing, hclaimed, cons_add]
  · intro j info' hj
    by_cases hplace : length - 1 = j
    · subst hplace
      rw [hclaim] at hj
      cases hj
      exact Or.inl (getElem?_set_self hroom)
    · rw [getElem?_set_ne hplace]
      refine (h.written j info' hj).imp id fun ⟨i', hi'⟩ => ⟨i', ?_⟩
      refine (mem_cons.mp hi').resolve_left fun heq => ?_
      cases heq
      exact hplace (Nat.add_sub_cancel j 1)

end Steps

theorem not_failsAt {c : Call} (hinfo : c.infos[i]? = some info) (h : ¬ c.Fails info) : ¬ FailsAt c i := by
  intro ⟨info', hinfo', hfails⟩
  rw [hinfo] at hinfo'
  cases hinfo'
  exact h hfails

theorem act_check {c : Call} {s : Shared} (h : i < c.infos.length) :
    act c (.check i) s = .ok (match c.stackPassesFiltersOnSite i c.infos[i] with
      | (_, _, some err) => .fails err
      | (fits, status, none) => .goes s (if fits then .claim c.infos[i] else .refuse c.infos[i] status)) := by
  refine Outcome.bind_ok.mpr ⟨c.infos[i], index_natCast h, ?_⟩
  rcases c.stackPassesFiltersOnSite i c.infos[i] with ⟨fits, status, _ | err⟩ <;> rfl

/-- **Each action of a worker keeps the invariant**, and none panics if every record has a site. -/
theorem discipline (c : Call) (hsites : ∀ info ∈ c.infos, info.site ≠ none) :
    (checkSite c).Discipline c.infos.length (FailsAt c) fun finished running s =>
      ∃ claims, Kept c claims finished running s where
  begins := fun _ _ _ _ ⟨claims, h⟩ _ => ⟨claims, h.push rfl rfl⟩
  acts := by
    intro finished running s i l ⟨claims, h⟩ hpieces
    have hknows := h.knows _ (mem_cons_self _ _)
    cases l with
    | check j =>
      have hij : j = i := hknows
      subst hij
      have hlt : j < c.infos.length := (fresh_of_le hpieces).1
      have hinfo : c.infos[j]? = some c.infos[j] := getElem?_eq_getElem hlt
      refine ⟨_, act_check hlt, ?_⟩
      cases c.stackPassesFiltersOnSite_cases j c.infos[j] with
      | inl hfails =>
        obtain ⟨hfails, _, status, err, hverdict⟩ := hfails
        rw [hverdict]
        exact ⟨_, hinfo, hfails⟩
      | inr hright =>
        obtain ⟨hfails, status, hverdict, hstatus⟩ := hright
        rw [hverdict]
        cases hpasses : c.passes c.infos[j] with
        | true => exact ⟨claims, (h.drop rfl).push rfl ⟨hinfo, hfails, hpasses⟩⟩
        | false => exact ⟨claims, (h.drop rfl).push rfl ⟨hinfo, hfails, hpasses, hstatus.trans hpasses⟩⟩
    | claim info => exact ⟨_, rfl, claims ++ [info], h.claim⟩
    | store info length =>
      obtain ⟨hinfo, hfails, hpasses, hpos, hclaim⟩ := hknows
      have hroom : length - 1 < s.filtered.length := by
        have hlt := (List.getElem?_eq_some_iff.mp hclaim).1
        have hle := h.claims_le (by simpa using hpieces)
        rw [h.room]
        omega
      exact ⟨_, if_pos hroom, not_failsAt hinfo hfails, claims, h.store hroom⟩
    | refuse info status =>
      obtain ⟨hinfo, hfails, hpasses, hstatus⟩ := hknows
      obtain ⟨site, hsite⟩ := Option.ne_none_iff_exists'.mp (hsites info (mem_of_getElem? hinfo))
      have hpassing : c.passing i = none := by
        show c.infos[i]?.filter c.passes = none
        rw [hinfo]
        simp [hpasses]
      refine ⟨.done { s with statuses := s.statuses.insert site.siteID status }, ?_,
        not_failsAt hinfo hfails, claims, (h.drop rfl).refuse hpassing _⟩
      show act c (.refuse info status) s = _
      rw [act, hstatus, getSite_ok.mpr hsite]
      rfl

/-! ### What is found -/

theorem range_passing (c : Call) :
    (range c.infos.length).filterMap c.passing = (c.infos.filter c.passes : Multiset SiteCacheInfo) := by
  have hplaces : (List.range c.infos.length).map (c.infos[·]?) = c.infos.map some := by
    refine ext_getElem? fun i => ?_
    by_cases hi : i < c.infos.length
    · simp [hi]
    · simp [hi]
  have hlist : (List.range c.infos.length).filterMap c.passing = c.infos.filter c.passes := by
    show (List.range c.infos.length).filterMap ((Option.filter c.passes) ∘ (c.infos[·]?)) = _
    rw [← List.filterMap_map, hplaces, List.filterMap_map, ← List.filterMap_eq_filter]
    rfl
  exact congrArg ofList hlist

/-- **What is found once every site was checked**: the sites that pass. -/
theorem Kept.result {c : Call} {claims : List SiteCacheInfo} {s : Shared}
    (h : Kept c claims (range c.infos.length) 0 s) :
    s.filtered.take s.filteredLen = claims.map site ∧ claims.Perm (c.infos.filter c.passes) := by
  refine ⟨?_, ?_⟩
  · refine ext_getElem? fun j => ?_
    rw [h.count, getElem?_map]
    cases hj : claims[j]? with
    | none =>
      have hlen : (s.filtered.take claims.length).length ≤ j :=
        (length_take_le _ _).trans (getElem?_eq_none_iff.mp hj)
      rw [getElem?_eq_none_iff.mpr hlen]
      rfl
    | some info =>
      -- No worker is left that still has to write.
      rw [getElem?_take_of_lt (List.getElem?_eq_some_iff.mp hj).1]
      exact (h.written j info hj).resolve_right fun ⟨i, hi⟩ => notMem_zero _ hi
  · have hclaimed := h.claimed
    rw [range_passing] at hclaimed
    exact coe_eq_coe.mp (hclaimed.trans (add_zero _))

theorem map_site {infos : List SiteCacheInfo} (h : ∀ info ∈ infos, info.site ≠ none) :
    infos.map site = (infos.filterMap site).map some := by
  induction infos with
  | nil => rfl
  | cons info rest ih =>
    obtain ⟨site, hsite⟩ := Option.ne_none_iff_exists'.mp (h info mem_cons_self)
    rw [List.map_cons, filterMap_cons_some hsite, List.map_cons, hsite,
      ih fun info' hin => h info' (mem_cons_of_mem info hin)]

/-- The sites of the map that every filter accepts. -/
def passingSites (filters : List SiteFilter) (siteCacheInfoMap : Map String SiteCacheInfo) (stack : Stack) :
    List Site :=
  (((entriesBy [] siteCacheInfoMap).map Prod.snd).filter (accepts filters stack)).filterMap
    site

theorem kept_start (c : Call) : Kept c [] 0 0 { filtered := replicate c.infos.length none } := by
  refine ⟨length_replicate, rfl, rfl, ?_, ?_⟩
  · intro j info hj
    cases hj
  · intro r hr
    exact absurd hr (notMem_zero r)

/-- **Whatever the order of the map, of the merges and of the workers**: if the filters yield an error
for some site, an error is returned, and otherwise the sites that every filter accepts, each once. -/
theorem findSitesThatPassFilters_exact (filters : List SiteFilter) (runAllFilters : Bool)
    (ord : List String) (merges : Nat → List String) {siteCacheInfoMap : Map String SiteCacheInfo} {stack : Stack}
    (hmap : siteCacheInfoMap.keys ≠ [])
    (hsites : ∀ id info, siteCacheInfoMap.lookup id = some info → info.site ≠ none)
    (hstack : stack.selector.siteID = "") :
    findSitesThatPassFilters filters runAllFilters ord merges siteCacheInfoMap stack fun result =>
      ((∃ id info, siteCacheInfoMap.lookup id = some info ∧
        YieldsError filters runAllFilters stack info) → ∃ err, result = .error err) ∧
      ((¬ ∃ id info, siteCacheInfoMap.lookup id = some info ∧
        YieldsError filters runAllFilters stack info) →
        ∃ sites : List Site, result = .ok (sites.map some) ∧
          sites.Perm (passingSites filters siteCacheInfoMap stack)) := by
  let c : Call := ⟨filters, runAllFilters, stack, (entriesBy ord siteCacheInfoMap).map Prod.snd, merges⟩
  have hsome : ∀ info ∈ c.infos, info.site ≠ none := fun info hin =>
    (mem_values.mp hin).elim fun id hid => hsites id info hid
  have hpassing : ((c.infos.filter c.passes).filterMap site).Perm (passingSites filters siteCacheInfoMap stack) :=
    (((entriesBy_perm_entriesBy ord [] siteCacheInfoMap).map Prod.snd).filter _).filterMap _
  have hne : c.infos ≠ [] := by
    rwa [Ne, List.map_eq_nil_iff, entriesBy_eq_nil]
  unfold findSitesThatPassFilters allSiteCacheInfos
  rw [if_pos hstack, if_neg hne]
  split
  case isTrue hnone =>
    subst hnone
    refine ⟨?_, ?_⟩
    · intro hyields
      obtain ⟨id, info, -, name, status, hlookup, -⟩ := hyields
      cases hlookup
    · intro _
      have hall : c.infos.filter c.passes = c.infos := filter_eq_self.mpr fun _ _ => rfl
      rw [hall] at hpassing
      exact ⟨c.infos.filterMap site, by rw [← map_site hsome], hpassing⟩
  case isFalse hfilters =>
    refine ((discipline c hsome).inevitably ⟨[], kept_start c⟩ (by decide)).mono ?_
    intro t ht
    obtain ⟨hdone, hend⟩ := ht
    refine ⟨hdone, ?_⟩
    cases hend with
    | inl hright =>
      obtain ⟨hnone, hnew, claims, hkept⟩ := hright
      obtain ⟨htake, hclaims⟩ := hkept.result
      refine ⟨fun ⟨id, info, hid, hfails⟩ => ?_,
        fun _ => ⟨claims.filterMap site, ?_, (hclaims.filterMap _).trans hpassing⟩⟩
      · obtain ⟨i, hi⟩ := getElem?_of_mem (mem_values.mpr ⟨id, hid⟩ : info ∈ c.infos)
        exact absurd ⟨info, hi, hfails⟩ (hnone i (List.getElem?_eq_some_iff.mp hi).1)
      · rw [found, hnew, htake, map_site]
        exact fun info hin => hsome info (mem_filter.mp (hclaims.mem_iff.mp hin)).1
    | inr herror =>
      obtain ⟨⟨i, -, info, hi, hfails⟩, err, herr⟩ := herror
      refine ⟨fun _ => ⟨err, by rw [found, herr]⟩, fun hnone => absurd ?_ hnone⟩
      obtain ⟨id, hid⟩ := mem_values.mp (mem_of_getElem? hi)
      exact ⟨id, info, hid, hfails⟩

/-- A filter that refuses the site `b`. -/
def refusesB : SiteFilter where
  name := "f"
  filter := fun _ info => if info.site = some { siteID := "b" } then ⟨.unschedulable, []⟩ else .nil

/-- The sites `a` and `b`. -/
def sitesAB : Map String SiteCacheInfo :=
  ((∅ : Map String SiteCacheInfo).insert "b" { site := some { siteID := "b" } }).insert "a"
    { site := some { siteID := "a" } }

theorem sitesAB_records {id : String} (h : sitesAB.lookup id = some info) :
    info = { site := some { siteID := "a" } } ∨ info = { site := some { siteID := "b" } } := by
  rw [sitesAB] at h
  by_cases ha : id = "a"
  · rw [ha, lookup_insert] at h
    exact Or.inl (Option.some.inj h).symm
  · rw [lookup_insert_ne ha] at h
    by_cases hb : id = "b"
    · rw [hb, lookup_insert] at h
      exact Or.inr (Option.some.inj h).symm
    · rw [lookup_insert_ne hb, lookup_empty] at h
      cases h

/-- Of the two sites the one that is not refused is found, whatever the two workers do. -/
theorem findSitesThatPassFilters_exact_two : sitesAB.keys ≠ [] ∧
    findSitesThatPassFilters [refusesB] true [] (fun _ => []) sitesAB {} fun result =>
      result = .ok [some { siteID := "a" }] := by
  have hkeys : sitesAB.keys ≠ [] := by decide
  have hsites : ∀ id info, sitesAB.lookup id = some info → info.site ≠ none := by
    intro id info hlookup
    cases sitesAB_records hlookup with
    | inl heq => simp [heq]
    | inr heq => simp [heq]
  have herror : ¬ ∃ id info, sitesAB.lookup id = some info ∧ YieldsError [refusesB] true {} info := by
    intro ⟨id, info, hlookup, hyields⟩
    have hrefusals : Refusals (runFilters true {} info [refusesB] ∅) := by
      cases sitesAB_records hlookup with
      | inl heq => exact heq ▸ refusals_empty
      | inr heq => exact heq ▸ refusals_empty.insert "f" rfl
    exact hrefusals.no_error hyields
  have hpassing : passingSites [refusesB] sitesAB {} = [{ siteID := "a" }] := by decide +kernel
  refine ⟨hkeys, findSitesThatPassFilters_mono ?_
    (findSitesThatPassFilters_exact [refusesB] true [] (fun _ => []) hkeys hsites rfl)⟩
  intro result hresult
  obtain ⟨sites, heq, hperm⟩ := hresult.2 herror
  rw [heq, hperm.eq_singleton]
  rfl

end GlobalScheduler.ParallelFilter
