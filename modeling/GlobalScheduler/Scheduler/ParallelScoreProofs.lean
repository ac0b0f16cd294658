import GlobalScheduler.Scheduler.ParallelScore

/-! What the parallel scoring gives.

The first pool writes every place of the table with the raw score of its plugin and site, in
whatever order; the second takes each list from its first place to its last, so that a
list is always a piece of weighted scores followed by raw ones (`row`). For a
configuration that `NewFramework` has accepted the weights are those of the score section, and there
are too few plugins for a sum to overflow. -/
namespace GlobalScheduler.ParallelScore

open Go WorkerPool NewFramework Outcome AList Call Map Multiset Option
open List hiding range mem_range

/-- A plugin succeeds with a score in range. -/
def Valid (scored : Int × Status) : Prop :=
  scored.2.isSuccess = true ∧ minSiteScore ≤ scored.1 ∧ scored.1 ≤ maxSiteScore

namespace Call
variable (c : Call)

/-- The places of a plugin and a site, before and after the weight is applied. -/
def raw (pl : String) (site : Site) : SiteScore :=
  { siteID := site.siteID, score := (c.runScorePlugin pl site).1 }

def InRange (pl : String) (site : Site) : Prop :=
  minSiteScore ≤ (c.runScorePlugin pl site).1 ∧ (c.runScorePlugin pl site).1 ≤ maxSiteScore

def weighted (pl : String) (site : Site) : SiteScore :=
  { siteID := site.siteID, score := int64 ((c.runScorePlugin pl site).1 * c.weight pl) }

/-- The list of a plugin once the first `i` places are weighted. -/
def row (pl : String) (i : Nat) : List SiteScore :=
  (c.sites.take i).map (c.weighted pl) ++ (c.sites.drop i).map (c.raw pl)

/-! ### The table -/

/-- The table has a list for each plugin, and each list a place for each site. -/
structure Table (scores : PluginToSiteScores) : Prop where
  keys : ∀ pl, pl ∈ scores ↔ pl ∈ c.scorePlugins
  room : ∀ pl list, scores.lookup pl = some list → list.length = c.sites.length

variable {c} {scores scores' : PluginToSiteScores} {pl pl' : String} {i i' : Nat} {site : Site}
  {list : List SiteScore} {v : SiteScore}

theorem Table.lookup (h : c.Table scores) (hpl : pl ∈ c.scorePlugins) :
    ∃ list, scores.lookup pl = some list ∧ list.length = c.sites.length := by
  obtain ⟨list, hlist⟩ := exists_lookup ((h.keys pl).mpr hpl)
  exact ⟨list, hlist, h.room pl list hlist⟩

theorem write_eq (hlist : scores.lookup pl = some list) (hi : i < list.length) :
    write scores pl i v = .ok (scores.insert pl (list.set i v)) := by
  rw [write, hlist]
  exact if_pos hi

theorem Table.write (h : c.Table scores) (hlist : scores.lookup pl = some list) :
    c.Table (scores.insert pl (list.set i v)) where
  keys := by
    intro name
    rw [mem_insert_of_lookup hlist, h.keys name]
  room := by
    intro name list' hname
    by_cases heq : name = pl
    · rw [heq, lookup_insert] at hname
      rw [← some.inj hname, length_set]
      exact h.room pl list hlist
    · rw [lookup_insert_ne heq] at hname
      exact h.room name list' hname

theorem lookup_noScores (c : Call) (pl : String) : c.noScores.lookup pl =
    if pl ∈ c.scorePlugins then some (List.replicate c.sites.length { siteID := "" }) else none := by
  have hloop : ∀ (pls : List String) (scores : PluginToSiteScores),
      (pls.foldl (fun scores pl' => scores.insert pl' (List.replicate c.sites.length { siteID := "" }))
        scores).lookup pl =
        if pl ∈ pls then some (List.replicate c.sites.length { siteID := "" }) else scores.lookup pl := by
    intro pls
    induction pls with
    | nil => exact fun _ => rfl
    | cons pl' rest ih =>
      intro scores
      rw [List.foldl_cons, ih]
      by_cases heq : pl = pl'
      · subst heq
        simp
      · simp [heq, lookup_insert_ne heq]
  exact hloop c.scorePlugins ∅

theorem noScores_table (c : Call) : c.Table c.noScores where
  keys := by
    intro pl
    rw [← lookup_isSome, lookup_noScores]
    split <;> simp [*]
  room := by
    intro pl list hlist
    rw [lookup_noScores] at hlist
    have heq := some.inj (ite_none_right_eq_some.mp hlist).2
    rw [← heq, length_replicate]

/-! ### The raw scores -/

/-- The plugin has scored the site, and its place says so. -/
def Scored (c : Call) (scores : PluginToSiteScores) (pl : String) (i : Nat) : Prop :=
  ∃ list site, scores.lookup pl = some list ∧ c.sites[i]? = some site ∧
    (c.runScorePlugin pl site).2.isSuccess = true ∧ list[i]? = some (c.raw pl site)

/-- A plugin fails on the site. -/
def FailsOn (c : Call) (i : Nat) : Prop :=
  ∃ site, c.sites[i]? = some site ∧ ∃ pl ∈ c.scorePlugins, (c.runScorePlugin pl site).2.isSuccess = false

/-- What holds of a site in the first pool: a worker has run the plugins before those it has still to run. -/
def Scoring (c : Call) (i : Nat) : Job.Position ScoreSite → PluginToSiteScores → Prop
  | .waiting, _ => True
  | .working l, scores => l.i = i ∧ ∃ before, c.scorePlugins = before ++ l.todo ∧
      ∀ pl ∈ before, c.Scored scores pl i
  | .finished, scores => ∀ pl ∈ c.scorePlugins, c.Scored scores pl i

/-- The right score at one place keeps what is at the others, and what was there. -/
theorem Scored.write (h : c.Scored scores pl' i') (hlist : scores.lookup pl = some list)
    (hsite : c.sites[i]? = some site) : c.Scored (scores.insert pl (list.set i (c.raw pl site))) pl' i' := by
  obtain ⟨list', site', hlist', hsite', hsuccess, hplace⟩ := h
  by_cases hpl : pl' = pl
  · subst hpl
    rw [hlist] at hlist'
    cases hlist'
    refine ⟨_, site', lookup_insert _, hsite', hsuccess, ?_⟩
    by_cases hi : i = i'
    · subst hi
      rw [hsite] at hsite'
      cases hsite'
      rw [getElem?_set_self (List.getElem?_eq_some_iff.mp hplace).1]
    · rw [getElem?_set_ne hi]
      exact hplace
  · exact ⟨list', site', by rw [lookup_insert_ne hpl, hlist'], hsite', hsuccess, hplace⟩

theorem Scoring.write {p : Job.Position ScoreSite} (h : c.Scoring i' p scores) (hlist : scores.lookup pl = some list)
    (hsite : c.sites[i]? = some site) : c.Scoring i' p (scores.insert pl (list.set i (c.raw pl site))) := by
  cases p with
  | waiting => trivial
  | working l =>
    obtain ⟨hi, before, hbefore, hscored⟩ := h
    exact ⟨hi, before, hbefore, fun pl' hpl' => (hscored pl' hpl').write hlist hsite⟩
  | finished => exact fun pl' hpl' => (h pl' hpl').write hlist hsite

/-- **The first pool** fills the table, place by place. -/
theorem scoring (c : Call) : c.scoreSite.Discipline c.sites.length c.FailsOn (Job.Placed c.Table c.Scoring) := by
  refine .of_apart (fun i scores _ => ⟨rfl, [], rfl, by simp⟩) ?_
  intro i l scores hlt htable hknows
  obtain ⟨hi, before, hbefore, hscored⟩ := hknows
  have hsite : c.sites[i]? = some c.sites[i] := getElem?_eq_getElem hlt
  rcases l with ⟨j, _ | ⟨pl, rest⟩⟩
  · rw [append_nil] at hbefore
    subst hbefore
    refine ⟨.done scores, rfl, ?_, htable, hscored, fun _ _ _ => id⟩
    rintro ⟨site, hsite, pl, hpl, hstatus⟩
    obtain ⟨_, site', _, hsite', hsuccess, _⟩ := hscored pl hpl
    cases hsite.symm.trans hsite'
    cases hstatus.symm.trans hsuccess
  · dsimp only at hi hbefore
    subst j
    have hpl : pl ∈ c.scorePlugins := by
      rw [hbefore]
      exact mem_append.mpr (Or.inr mem_cons_self)
    obtain ⟨list, hlist, hlen⟩ := htable.lookup hpl
    cases hstatus : (c.runScorePlugin pl c.sites[i]).2.isSuccess with
    | false =>
      refine ⟨.fails (c.runScorePlugin pl c.sites[i]).2.message, ?_, _, hsite, pl, hpl, hstatus⟩
      refine bind_ok.mpr ⟨c.sites[i], index_natCast hlt, ?_⟩
      dsimp only
      rw [hstatus]
      rfl
    | true =>
      refine ⟨.goes _ ⟨i, rest⟩, ?_, htable.write hlist, ⟨rfl, before ++ [pl], by simpa using hbefore, ?_⟩,
        fun _ _ _ h => h.write hlist hsite⟩
      · refine bind_ok.mpr ⟨c.sites[i], index_natCast hlt, ?_⟩
        dsimp only
        rw [hstatus]
        exact bind_ok.mpr ⟨_, write_eq hlist (hlen ▸ hlt), rfl⟩
      · intro pl' hpl'
        cases mem_append.mp hpl' with
        | inl hold => exact (hscored pl' hold).write hlist hsite
        | inr hthis =>
          rw [List.mem_singleton.mp hthis]
          exact ⟨_, _, lookup_insert _, hsite, hstatus, getElem?_set_self (hlen ▸ hlt)⟩

theorem rows_of_scoring (h : Job.Placed c.Table c.Scoring (range c.sites.length) 0 scores)
    (hpl : pl ∈ c.scorePlugins) : scores.lookup pl = some (c.row pl 0) := by
  obtain ⟨list, hlist, hlen⟩ := h.always.lookup hpl
  rw [hlist]
  refine congrArg some (ext_getElem? fun i => ?_)
  by_cases hi : i < c.sites.length
  · obtain ⟨list', site, hlist', hsite, _, hplace⟩ := h.finished i (mem_range.mpr hi) pl hpl
    rw [hlist] at hlist'
    cases hlist'
    simp [hplace, row, hsite]
  · have hnone : list[i]? = none := getElem?_eq_none_iff.mpr (by omega)
    have hrow : (c.row pl 0)[i]? = none := getElem?_eq_none_iff.mpr (by simp [row]; omega)
    rw [hnone, hrow]

/-! ### The weights -/

theorem length_row (c : Call) (pl : String) (i : Nat) : (c.row pl i).length = c.sites.length := by
  rw [row, length_append, length_map, length_map, ← length_append, take_append_drop]

theorem row_at (hsite : c.sites[i]? = some site) : (c.row pl i)[i]? = some (c.raw pl site) := by
  have hlen : (c.sites.take i).length = i :=
    length_take_of_le (List.getElem?_eq_some_iff.mp hsite).1.le
  rw [row, getElem?_append_right (by rw [length_map, hlen]), length_map, hlen]
  simp [hsite]

theorem row_set (hsite : c.sites[i]? = some site) :
    (c.row pl i).set i (c.weighted pl site) = c.row pl (i + 1) := by
  have hlen : (c.sites.take i).length = i :=
    length_take_of_le (List.getElem?_eq_some_iff.mp hsite).1.le
  obtain ⟨hlt, hget⟩ := List.getElem?_eq_some_iff.mp hsite
  rw [row, row, set_append_right _ _ (by rw [length_map, hlen]), length_map, hlen,
    Nat.sub_self, drop_eq_getElem_cons hlt, hget, List.map_cons, set_cons_zero,
    take_succ_eq_append_getElem hlt, hget, map_append, append_assoc]
  rfl

/-- The first `i` places of the plugin are weighted, and were in range. -/
def WeightedTo (c : Call) (scores : PluginToSiteScores) (pl : String) (i : Nat) : Prop :=
  scores.lookup pl = some (c.row pl i) ∧ ∀ site ∈ c.sites.take i, c.InRange pl site

theorem WeightedTo.next (h : c.WeightedTo scores pl i) (hsite : c.sites[i]? = some site) (hrange : c.InRange pl site) :
    c.WeightedTo (scores.insert pl (c.row pl (i + 1))) pl (i + 1) := by
  refine ⟨lookup_insert _, ?_⟩
  intro site' hsite'
  obtain ⟨hi, hget⟩ := List.getElem?_eq_some_iff.mp hsite
  rw [take_succ_eq_append_getElem hi, hget] at hsite'
  cases mem_append.mp hsite' with
  | inl hbefore => exact h.2 site' hbefore
  | inr hthis => exact List.mem_singleton.mp hthis ▸ hrange

theorem WeightedTo.read (h : c.WeightedTo scores pl i) (hsite : c.sites[i]? = some site) :
    index ((scores.lookup pl).getD []) (i : Int) = .ok (c.raw pl site) := by
  have hget : (c.row pl i)[i]? = some (c.raw pl site) := row_at hsite
  obtain ⟨hbound, hget⟩ := List.getElem?_eq_some_iff.mp hget
  rw [h.1, getD_some, index_natCast hbound, hget]

/-- A score of the plugin is out of range. -/
def OutOfRange (c : Call) (k : Nat) : Prop :=
  ∃ pl, c.scorePlugins[k]? = some pl ∧ ∃ site ∈ c.sites, ¬ c.InRange pl site

/-- What a worker at the plugin `k` knows when the first `i` places are weighted. -/
def Knows (c : Call) (k : Nat) (pl : String) (i : Nat) : Job.Position ApplyWeight → Prop
  | .waiting => i = 0
  | .working (.begin k') => k' = k ∧ i = 0
  | .working (.read pl' weight todo) => pl' = pl ∧ weight = c.weight pl ∧ i + todo.length = c.sites.length ∧
      todo = range' i todo.length
  | .working (.store pl' weight i' siteScore rest) => pl' = pl ∧ weight = c.weight pl ∧ i' = i ∧
      i + 1 + rest.length = c.sites.length ∧ rest = range' (i + 1) rest.length ∧
      ∃ site, c.sites[i]? = some site ∧ siteScore = c.raw pl site ∧ c.InRange pl site
  | .finished => i = c.sites.length

/-- What holds of a plugin in the second pool. -/
def Weighing (c : Call) (k : Nat) (p : Job.Position ApplyWeight) (scores : PluginToSiteScores) : Prop :=
  ∀ pl, c.scorePlugins[k]? = some pl → ∃ i, c.WeightedTo scores pl i ∧ c.Knows k pl i p

theorem not_outOfRange {k : Nat} (hpl : c.scorePlugins[k]? = some pl)
    (h : c.WeightedTo scores pl c.sites.length) : ¬ c.OutOfRange k := by
  intro ⟨pl', hpl', site, hsite, hout⟩
  rw [hpl] at hpl'
  cases hpl'
  exact hout (h.2 site (by rwa [take_length]))

/-- **The second pool** weighs the lists, place by place. -/
theorem weighing (c : Call) (hnodup : c.scorePlugins.Nodup) :
    c.applyWeight.Discipline c.scorePlugins.length c.OutOfRange
      (Job.Placed (fun scores => ∀ pl, pl ∈ scores ↔ pl ∈ c.scorePlugins) c.Weighing) := by
  refine .of_apart (fun k scores h pl hpl => (h pl hpl).imp fun i hi => ⟨hi.1, rfl, hi.2⟩) ?_
  intro k l scores hlt hkeys hknows
  have hpl : c.scorePlugins[k]? = some c.scorePlugins[k] := getElem?_eq_getElem hlt
  generalize c.scorePlugins[k] = pl at hpl
  obtain ⟨i, hrow, hknows⟩ := hknows pl hpl
  have honly : ∀ {p scores'}, (∃ i, c.WeightedTo scores' pl i ∧ c.Knows k pl i p) → c.Weighing k p scores' := by
    rintro p scores' hthis pl' hpl'
    cases hpl.symm.trans hpl'
    exact hthis
  cases l with
  | begin k' =>
    obtain ⟨rfl, rfl⟩ := hknows
    obtain ⟨hbound, hget⟩ := List.getElem?_eq_some_iff.mp hpl
    refine ⟨_, bind_ok.mpr ⟨_, index_natCast hlt, rfl⟩, hkeys, honly ⟨0, hrow, hget, ?_, ?_, ?_⟩, fun _ _ _ => id⟩
    · rw [hget]
    · rw [length_range, Nat.zero_add]
    · rw [length_range, range_eq_range']
  | read pl' weight todo =>
    obtain ⟨rfl, hweight, hlen, htodo⟩ := hknows
    cases todo with
    | nil =>
      have hi : i = c.sites.length := hlen
      exact ⟨.done scores, rfl, not_outOfRange hpl (hi ▸ hrow), hkeys, honly ⟨i, hrow, hi⟩, fun _ _ _ => id⟩
    | cons j rest =>
      rw [length_cons] at hlen
      rw [length_cons, range'_succ, cons.injEq] at htodo
      obtain ⟨rfl, hrest⟩ := htodo
      have hj : j < c.sites.length := by omega
      have hsite : c.sites[j]? = some c.sites[j] := getElem?_eq_getElem hj
      have hread := hrow.read hsite
      by_cases hrange : (c.raw pl' c.sites[j]).score > maxSiteScore ∨ (c.raw pl' c.sites[j]).score < minSiteScore
      · refine ⟨_, bind_ok.mpr ⟨_, hread, if_pos hrange⟩, pl', hpl, c.sites[j], getElem_mem hj, ?_⟩
        intro hin
        obtain ⟨hlow, hhigh⟩ := hin
        exact hrange.elim (not_lt.mpr hhigh) (not_lt.mpr hlow)
      · have hin := hrange
        rw [not_or, not_lt, not_lt] at hin
        refine ⟨_, bind_ok.mpr ⟨_, hread, if_neg hrange⟩, hkeys, honly ⟨j, hrow, rfl, hweight, rfl, ?_, hrest, _, hsite,
          rfl, hin.2, hin.1⟩, fun _ _ _ => id⟩
        omega
  | store pl' weight i' siteScore rest =>
    obtain ⟨rfl, rfl, rfl, hlen, hrest, site, hsite, rfl, hrange⟩ := hknows
    have hwrite : write scores pl' i' (c.weighted pl' site) = .ok (scores.insert pl' (c.row pl' (i' + 1))) := by
      rw [write_eq hrow.1 (by rw [length_row]; omega), row_set hsite]
    refine ⟨_, bind_ok.mpr ⟨_, hwrite, rfl⟩, fun pl => (mem_insert_of_lookup hrow.1 _ pl).trans (hkeys pl),
      honly ⟨i' + 1, hrow.next hsite hrange, rfl, rfl, hlen, hrest⟩, ?_⟩
    -- No other plugin has the name.
    intro k' hk' p hother pl hpl'
    have hne : pl ≠ pl' := by
      rintro rfl
      exact hk' ((getElem?_inj (List.getElem?_eq_some_iff.mp hpl').1 hnodup).mp (hpl'.trans hpl.symm))
    simpa only [WeightedTo, lookup_insert_ne hne] using hother pl hpl'

/-! ### The scores -/

theorem runScorePlugins_mono {Q Q' : Except String PluginToSiteScores → Prop}
    (weaker : ∀ result, Q result → Q' result) (h : c.runScorePlugins Q) : c.runScorePlugins Q' := by
  refine Inevitably.mono h fun t ⟨hdone, ht⟩ => ⟨hdone, ?_⟩
  cases herr : t.shared.errCh.err with
  | some err =>
    rw [herr] at ht
    exact weaker _ ht
  | none =>
    rw [herr] at ht
    refine Inevitably.mono ht fun t' ⟨hdone', ht'⟩ => ⟨hdone', ?_⟩
    cases herr' : t'.shared.errCh.err with
    | some err | none =>
      rw [herr'] at ht'
      exact weaker _ ht'

theorem prioritizeSites_mono {sums : Nat → List String} {Q Q' : Except String (List SiteScore) → Prop}
    (weaker : ∀ result, Q result → Q' result) (h : c.prioritizeSites sums Q) : c.prioritizeSites sums Q' := by
  rw [prioritizeSites] at h ⊢
  split
  case isTrue hnone =>
    rw [if_pos hnone] at h
    exact weaker _ h
  case isFalse hsome =>
    rw [if_neg hsome] at h
    refine runScorePlugins_mono ?_ h
    intro result hresult
    cases result with
    | error err => exact weaker _ hresult
    | ok scores =>
      obtain ⟨list, hlist, hsorted⟩ := hresult
      exact ⟨list, hlist, fun sorted hperm hpairs => weaker _ (hsorted sorted hperm hpairs)⟩

/-- Every score is weighted, and was valid. -/
structure AllWeighted (c : Call) (scores : PluginToSiteScores) : Prop where
  keys : ∀ pl, pl ∈ scores ↔ pl ∈ c.scorePlugins
  valid : ∀ site ∈ c.sites, ∀ pl ∈ c.scorePlugins, Valid (c.runScorePlugin pl site)
  rows : ∀ pl ∈ c.scorePlugins, scores.lookup pl = some (c.sites.map (c.weighted pl))

/-- When all plugins are weighted and none has failed, all is as it should be. -/
theorem allWeighted (h : Job.Placed (fun scores => ∀ pl, pl ∈ scores ↔ pl ∈ c.scorePlugins) c.Weighing
    (range c.scorePlugins.length) 0 scores) (hnone : ∀ i < c.sites.length, ¬ c.FailsOn i) : c.AllWeighted scores := by
  have hrows : ∀ pl ∈ c.scorePlugins, c.WeightedTo scores pl c.sites.length := by
    intro pl hpl
    obtain ⟨k, hk⟩ := getElem?_of_mem hpl
    obtain ⟨_, hrow, rfl⟩ := h.finished k (mem_range.mpr (List.getElem?_eq_some_iff.mp hk).1) pl hk
    exact hrow
  refine ⟨h.always, ?_, ?_⟩
  · intro site hsite pl hpl
    refine ⟨?_, (hrows pl hpl).2 site (by rwa [take_length])⟩
    obtain ⟨i, hi⟩ := getElem?_of_mem hsite
    by_contra hfails
    exact hnone i (List.getElem?_eq_some_iff.mp hi).1 ⟨site, hi, pl, hpl, by simpa using hfails⟩
  · intro pl hpl
    rw [(hrows pl hpl).1, row, take_length, drop_length]
    simp

/-- **`RunScorePlugins`, whatever the workers do**: an error and some score that is not valid, or all
scores weighted. -/
theorem runScorePlugins_exact (c : Call) (hnodup : c.scorePlugins.Nodup) :
    c.runScorePlugins fun result =>
      (∃ err, result = .error err) ∧
        (∃ site ∈ c.sites, ∃ pl ∈ c.scorePlugins, ¬ Valid (c.runScorePlugin pl site)) ∨
      ∃ scores, result = .ok scores ∧ c.AllWeighted scores := by
  refine ((scoring c).inevitably (.init (noScores_table c) fun _ => trivial) (by decide)).mono fun t ht => ⟨ht.1, ?_⟩
  cases ht.2 with
  | inr hfails =>
    obtain ⟨⟨i, _, site, hsite, pl, hpl, hstatus⟩, err, herr⟩ := hfails
    rw [herr]
    refine Or.inl ⟨⟨_, rfl⟩, site, mem_of_getElem? hsite, pl, hpl, ?_⟩
    intro hvalid
    rw [hvalid.1] at hstatus
    cases hstatus
  | inl hright =>
    obtain ⟨hnone, hnew, hscored⟩ := hright
    have hshared : t.shared = { state := t.shared.state } := by
      rw [← hnew]
    rw [hnew]
    show Inevitably _ _ (initial 16 c.scorePlugins.length t.shared)
    rw [hshared]
    have hwaiting : ∀ k, c.Weighing k .waiting t.shared.state := fun k pl hpl =>
      ⟨0, ⟨rows_of_scoring hscored (mem_of_getElem? hpl), by simp⟩, rfl⟩
    refine ((weighing c hnodup).inevitably (.init hscored.always.keys hwaiting) (by decide)).mono fun t' ht' => ⟨ht'.1, ?_⟩
    cases ht'.2 with
    | inr hfails =>
      obtain ⟨⟨k, _, pl, hpl, site, hsite, hout⟩, err, herr⟩ := hfails
      rw [herr]
      exact Or.inl ⟨⟨_, rfl⟩, site, hsite, pl, mem_of_getElem? hpl, fun hvalid => hout hvalid.2⟩
    | inl hright' =>
      obtain ⟨_, hnew', hweighed⟩ := hright'
      rw [hnew']
      exact Or.inr ⟨_, rfl, allWeighted hweighed hnone⟩

/-! ### The sums -/

theorem AllWeighted.perm (h : c.AllWeighted scores) (hnodup : c.scorePlugins.Nodup) (ord : List String) :
    ((entriesBy ord scores).map Prod.fst).Perm c.scorePlugins := by
  refine (perm_ext_iff_of_nodup (entriesBy_nodup ord scores) hnodup).mpr fun pl => ?_
  rw [(entriesBy_perm ord scores).mem_iff, ← h.keys pl]
  rfl

def total (c : Call) (site : Site) : SiteScore :=
  { siteID := site.siteID, az := site.regionAzMap.availabilityZone, region := site.regionAzMap.region
    score := (c.scorePlugins.map fun pl => (c.weighted pl site).score).sum }

/-- **The sum for a site is exact** if it is not too much. -/
theorem AllWeighted.summarize (h : c.AllWeighted scores) (hnodup : c.scorePlugins.Nodup)
    (hfits : Fits64 (c.total site).score) (sums : Nat → List String) (hsite : c.sites[i]? = some site) :
    summarize sums scores site i = .ok (c.total site) := by
  have hperm := h.perm hnodup (sums i)
  have hround : ∀ (score : Int), ∀ e ∈ entriesBy (sums i) scores, (do
      let siteScore ← index e.2 i
      pure (int64 (score + siteScore.score)) : Outcome Int) =
        .ok (int64 (score + (c.weighted e.1 site).score)) := by
    intro score e he
    have hpl : e.1 ∈ c.scorePlugins := hperm.mem_iff.mp (mem_map_of_mem he)
    have hlist : e.2 = c.sites.map (c.weighted e.1) :=
      some.inj ((mem_entriesBy.mp he).symm.trans (h.rows e.1 hpl))
    obtain ⟨hi, hget⟩ := List.getElem?_eq_some_iff.mp hsite
    have hlt : i < e.2.length := by rw [hlist, length_map]; exact hi
    refine bind_ok.mpr ⟨_, index_natCast hlt, ?_⟩
    simp [hlist, hget]
    rfl
  have hsum : (entriesBy (sums i) scores).foldl
      (fun score e => int64 (score + (c.weighted e.1 site).score)) 0 =
        (c.scorePlugins.map fun pl => (c.weighted pl site).score).sum := by
    have hscores := (hperm.map fun pl => (c.weighted pl site).score).sum_eq
    rw [List.map_map] at hscores
    rw [foldl_int64 (f := fun e : String × List SiteScore => (c.weighted e.1 site).score), Int.zero_add]
    · exact hscores
    · exact ⟨by decide, by decide⟩
    · rw [Int.zero_add]
      exact hscores ▸ hfits
  refine bind_ok.mpr ⟨_, foldlM_eq_foldl hround 0, ?_⟩
  rw [hsum]
  rfl

theorem mapM_summarize (h : c.AllWeighted scores) (hnodup : c.scorePlugins.Nodup)
    (hfits : ∀ site ∈ c.sites, Fits64 (c.total site).score) (sums : Nat → List String) :
    c.sites.zipIdx.mapM (fun e => summarize sums scores e.1 e.2) = .ok (c.sites.map c.total) := by
  have hround : ∀ e ∈ c.sites.zipIdx, summarize sums scores e.1 e.2 = .ok (c.total e.1) := by
    intro e he
    have hsite : c.sites[e.2]? = some e.1 := mk_mem_zipIdx_iff_getElem?.mp he
    exact h.summarize hnodup (hfits e.1 (mem_of_getElem? hsite)) sums hsite
  rw [mapM_eq_map hround]
  refine congrArg Except.ok ?_
  show c.sites.zipIdx.map (c.total ∘ Prod.fst) = _
  rw [← List.map_map, zipIdx_map_fst]

end Call

/-! ### Accepted configurations -/

section Accepted
variable {ord : List String} {plugins : Plugins} {fw : Configured}

theorem weightOf_bounds (conf : PluginConf) : -0x80000000 ≤ weightOf conf ∧ weightOf conf ≤ 0x7fffffff := by
  rw [weightOf]
  split
  · omega
  · exact conf.int32

/-- The raw score of a plugin of the configuration. -/
def rawScore (scorer : String → Scorer) (stack : Stack) (siteCacheInfoMap : Map String SiteCacheInfo)
    (conf : PluginConf) (site : Site) : Int × Status :=
  scorer conf.name stack (siteCacheInfoMap.lookup site.siteID)

/-- The weighted sum over some plugins of the configuration. -/
def weightedSum (raw : PluginConf → Int × Status) (confs : List PluginConf) : Int :=
  (confs.map fun conf => weightOf conf * (raw conf).1).sum

theorem weighted_bounds {raw : Int × Status} (h : Valid raw) (conf : PluginConf) :
    -0x3200000000 ≤ weightOf conf * raw.1 ∧ weightOf conf * raw.1 ≤ 0x3200000000 := by
  obtain ⟨hlow, hhigh⟩ := weightOf_bounds conf
  obtain ⟨_, hmin, hmax⟩ := h
  have hmin : 0 ≤ raw.1 := hmin
  have hmax : raw.1 ≤ 100 := hmax
  constructor
  · nlinarith
  · nlinarith

/-- **No sum overflows**: there are twelve plugins at most. -/
theorem weightedSum_fits {raw : PluginConf → Int × Status} {confs part : List PluginConf}
    (hlen : confs.length ≤ 12) (h : ∀ conf ∈ confs, Valid (raw conf)) (hpart : part.Subperm confs) :
    Fits64 (weightedSum raw part) := by
  refine fits64_sum (n := 12) (b := 0x3200000000) ?_ (by decide) ?_
  · rw [length_map]
    exact hpart.length_le.trans hlen
  · intro x hx
    obtain ⟨conf, hconf, rfl⟩ := mem_map.mp hx
    exact weighted_bounds (h conf (hpart.subset hconf)) conf

/-- The entry of a site: its score is the weighted sum over the score section. -/
def entry (raw : PluginConf → Site → Int × Status) (confs : List PluginConf) (site : Site) : SiteScore :=
  { siteID := site.siteID, az := site.regionAzMap.availabilityZone, region := site.regionAzMap.region
    score := weightedSum (fun conf => raw conf site) confs }

section Framework
variable {c : Call} (h : newFramework ord newRegistry (some plugins) = .ok c.fw)
include h

theorem scorePlugins_eq : c.scorePlugins = (plugins .score).map PluginConf.name := (newFramework_score h).1

theorem forall_scorePlugins (P : String → Prop) :
    (∀ pl ∈ c.scorePlugins, P pl) ↔ ∀ conf ∈ plugins .score, P conf.name := by
  rw [scorePlugins_eq h, List.forall_mem_map]

theorem weight_eq {conf : PluginConf} (hconf : conf ∈ plugins .score) : c.weight conf.name = weightOf conf := by
  obtain ⟨_, _, _, hweights⟩ := newFramework_score h
  rw [weight, hweights conf hconf]
  rfl

/-- In an accepted configuration a score counts with the weight of its section. -/
theorem weighted_score {conf : PluginConf} (hconf : conf ∈ plugins .score) {site : Site}
    (hvalid : Valid (c.runScorePlugin conf.name site)) :
    (c.weighted conf.name site).score = weightOf conf * (c.runScorePlugin conf.name site).1 := by
  obtain ⟨hlow, hhigh⟩ := weighted_bounds hvalid conf
  show int64 ((c.runScorePlugin conf.name site).1 * c.weight conf.name) = _
  rw [weight_eq h hconf, Int.mul_comm]
  exact int64_of_fits ⟨by omega, by omega⟩

/-- What is summed up for a site is the weighted sum over the section. -/
theorem total_eq {site : Site} (hvalid : ∀ conf ∈ plugins .score, Valid (c.runScorePlugin conf.name site)) :
    c.total site = entry (fun conf site => c.runScorePlugin conf.name site) (plugins .score) site := by
  rw [total, entry, weightedSum, scorePlugins_eq h, List.map_map]
  refine congrArg (fun l : List Int => SiteScore.mk site.siteID _ _ l.sum 0) ?_
  exact map_congr_left fun conf hconf => weighted_score h hconf (hvalid conf hconf)

end Framework

/-- **Whatever the workers do, and in whatever order the runtime ranges over its maps**: if some
score fails or is out of range, an error is returned, and otherwise the sites, best first, each
with the weighted sum of its scores; none of the sums on the way overflows. -/
theorem prioritizeSites_exact (h : newFramework ord newRegistry (some plugins) = .ok fw)
    (hscore : plugins .score ≠ []) (scorer : String → Scorer) (stack : Stack)
    (siteCacheInfoMap : Map String SiteCacheInfo) (sites : List Site) (sums : Nat → List String) :
    (mk fw scorer stack siteCacheInfoMap sites).prioritizeSites sums (fun result =>
      ((∃ site ∈ sites, ∃ conf ∈ plugins .score, ¬ Valid (rawScore scorer stack siteCacheInfoMap conf site)) →
        ∃ err, result = .error err) ∧
      ((∀ site ∈ sites, ∀ conf ∈ plugins .score, Valid (rawScore scorer stack siteCacheInfoMap conf site)) →
        ∃ list, result = .ok list ∧
          list.Perm (sites.map (entry (rawScore scorer stack siteCacheInfoMap) (plugins .score))) ∧
          list.Pairwise fun a b => b.score ≤ a.score)) ∧
    ((∀ site ∈ sites, ∀ conf ∈ plugins .score, Valid (rawScore scorer stack siteCacheInfoMap conf site)) →
      ∀ site ∈ sites, ∀ part : List PluginConf, part.Subperm (plugins .score) →
        Fits64 (weightedSum (fun conf => rawScore scorer stack siteCacheInfoMap conf site) part)) := by
  let c : Call := ⟨fw, scorer, stack, siteCacheInfoMap, sites⟩
  have haccepted : newFramework ord newRegistry (some plugins) = .ok c.fw := h
  obtain ⟨hnames, hnodup, hlen, _⟩ := newFramework_score h
  have hlen' : (plugins .score).length ≤ 12 := by
    rwa [hnames, length_map] at hlen
  have hsome : c.scorePlugins ≠ [] := by
    rw [scorePlugins_eq haccepted]
    exact mt map_eq_nil_iff.mp hscore
  refine ⟨?_, fun hvalid site hsite part hpart => weightedSum_fits hlen' (hvalid site hsite) hpart⟩
  rw [prioritizeSites, if_neg fun hzero => hsome (length_eq_zero_iff.mp hzero)]
  refine runScorePlugins_mono ?_ (c.runScorePlugins_exact hnodup)
  intro result hresult
  cases hresult with
  | inl herror =>
    obtain ⟨⟨err, rfl⟩, site, hsite, pl, hpl, hinvalid⟩ := herror
    refine ⟨fun _ => ⟨err, rfl⟩, fun hvalid => absurd ?_ hinvalid⟩
    exact (forall_scorePlugins haccepted fun pl => Valid (c.runScorePlugin pl site)).mpr (hvalid site hsite) pl hpl
  | inr hweighted =>
    obtain ⟨scores, rfl, hscores⟩ := hweighted
    have hvalid : ∀ site ∈ sites, ∀ conf ∈ plugins .score, Valid (c.runScorePlugin conf.name site) :=
      fun site hsite => (forall_scorePlugins haccepted _).mp (hscores.valid site hsite)
    have htotal : ∀ site ∈ sites, c.total site = _ := fun site hsite => total_eq haccepted (hvalid site hsite)
    have hfits : ∀ site ∈ sites, Fits64 (c.total site).score := fun site hsite =>
      htotal site hsite ▸ weightedSum_fits hlen' (hvalid site hsite) (Subperm.refl _)
    refine ⟨_, mapM_summarize hscores hnodup hfits sums, fun sorted hperm hsorted => ⟨?_, ?_⟩⟩
    · rintro ⟨site, hsite, conf, hconf, hno⟩
      exact absurd (hvalid site hsite conf hconf) hno
    · intro _
      rw [map_congr_left htotal] at hperm
      exact ⟨sorted, rfl, hperm, hsorted⟩

end Accepted

theorem smallConf_int32 (w : Nat) : -0x80000000 ≤ ((w % 100 : Nat) : Int) ∧ ((w % 100 : Nat) : Int) ≤ 0x7fffffff := by
  omega

def smallConf (name : String) (w : Nat) : PluginConf := ⟨name, ((w % 100 : Nat) : Int), smallConf_int32 w⟩

/-- Two score plugins; one of them also filters, with another weight. -/
def twoScores : Plugins
  | .filter => [smallConf "Flavor" 7]
  | .score => [smallConf "Flavor" 0, smallConf "StackAffinity" 2]
  | .queueSort => [smallConf "PrioritySort" 1]
  | .bind => [smallConf "DefaultBinder" 1]
  | _ => []

def preferRecords (name : String) : Scorer := fun _ info =>
  (if name = "Flavor" then if info.isSome then 60 else 50 else 10, .nil)

def recordB : Map String SiteCacheInfo := (∅ : Map String SiteCacheInfo).insert "b" { site := some { siteID := "b" } }

/-- Of two sites the one with a record comes first, and `Flavor` counts once. -/
theorem prioritizeSites_exact_two : ∃ fw, newFramework [] newRegistry (some twoScores) = .ok fw ∧
    (mk fw preferRecords {} recordB [{ siteID := "a" }, { siteID := "b" }]).prioritizeSites (fun _ => [])
      fun result => result = .ok [{ siteID := "b", score := 80 }, { siteID := "a", score := 70 }] := by
  have haccepted : (newFramework [] newRegistry (some twoScores)).isOk = true := by decide +kernel
  cases hfw : newFramework [] newRegistry (some twoScores) with
  | error err =>
    rw [hfw] at haccepted
    cases haccepted
  | ok fw =>
    refine ⟨fw, rfl, prioritizeSites_mono ?_ (prioritizeSites_exact hfw (by decide) preferRecords {} recordB
      [{ siteID := "a" }, { siteID := "b" }] fun _ => []).1⟩
    intro result hresult
    have hvalid : ∀ site ∈ [({ siteID := "a" } : Site), { siteID := "b" }], ∀ conf ∈ twoScores .score,
        Valid (rawScore preferRecords {} recordB conf site) := by
      intro site hsite conf hconf
      refine ⟨rfl, ?_⟩
      simp only [rawScore, preferRecords, minSiteScore, maxSiteScore]
      split_ifs <;> decide
    obtain ⟨list, heq, hperm, hsorted⟩ := hresult.2 hvalid
    have hentries : [({ siteID := "a" } : Site), { siteID := "b" }].map
        (entry (rawScore preferRecords {} recordB) (twoScores .score)) =
          [{ siteID := "a", score := 70 }, { siteID := "b", score := 80 }] := by
      decide +kernel
    rw [hentries] at hperm
    rw [heq]
    refine congrArg Except.ok ?_
    have hlen := hperm.length_eq
    have ha := (hperm.mem_iff (a := { siteID := "a", score := 70 })).mpr (by simp)
    have hb := (hperm.mem_iff (a := { siteID := "b", score := 80 })).mpr (by simp)
    match list, hlen with
    | [x, y], _ =>
      have hle : y.score ≤ x.score := by simpa using hsorted
      simp only [List.mem_cons, not_mem_nil, or_false] at ha hb
      rcases ha with rfl | rfl
      · rcases hb with hb | rfl
        · exact absurd hb (by decide)
        · exact absurd hle (by decide)
      · rcases hb with rfl | hb
        · rfl
        · exact absurd hb (by decide)

end GlobalScheduler.ParallelScore
