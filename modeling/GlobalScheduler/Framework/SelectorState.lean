import GlobalScheduler.LastWrite
import GlobalScheduler.Framework.CycleState

/-! What a cycle remembers of the reports on a site.

Scoring by flavors reports the flavors chosen for a site and the copies it can take, and
filtering by volumes reports copies, too. Of these reports the first of a cycle only creates
the store, those with a float are refused, and a stored zero counts as nothing stored. -/
namespace GlobalScheduler

open Go LastWrite AList List Option

/-! ### Reports -/

/-- A report: by the score of the flavor plugin, or by the filter of the volume plugin. -/
inductive Report where
  | flavor (siteID : String) (flavors : List FlavorInfo) (count : Nat)
  | volume (siteID : String) (count : Nat)

namespace Report

def siteID : Report → String
  | .flavor siteID _ _ => siteID
  | .volume siteID _ => siteID

def count : Report → Nat
  | .flavor _ _ count => count
  | .volume _ count => count

def updateInfo : Report → List (String × UpdateValue)
  | .flavor _ flavors count => [("Flavors", .flavors flavors), ("StackMaxCount", .int count)]
  | .volume _ count => [("StackMaxCount", .float64 (.fin count))]

def listFor (id : String) : Report → Option (List FlavorInfo)
  | .flavor siteID flavors _ => if siteID = id then some flavors else none
  | .volume _ _ => none

/-- The report, if the score of the flavor plugin made it on the site. -/
def scored (id : String) : Report → Option (List FlavorInfo × Nat)
  | .flavor siteID flavors count => if siteID = id then some (flavors, count) else none
  | .volume _ _ => none

def apply (state : CycleState) (r : Report) : CycleState :=
  (updateSiteSelectorState state r.siteID r.updateInfo).1

end Report

def reported (state : CycleState) (calls : List Report) : CycleState := calls.foldl Report.apply state

/-! ### What is stored -/

/-- A stored zero counts as nothing stored. -/
def lower (stored count : Int) : Int := if stored = 0 ∨ stored > count then count else stored

def store (info : SiteSelectorInfo) (heard : List FlavorInfo × Nat) : SiteSelectorInfo :=
  ⟨heard.1, lower info.stackMaxCount heard.2⟩

section Store
variable {state : CycleState} {infos : Map String SiteSelectorInfo}

/-- After the first call a report of the score is stored, and one of the volumes is not. -/
theorem apply_lookup (hinfos : state.siteTempSelected = some infos) (r : Report) (id : String) :
    ∃ infos', (r.apply state).siteTempSelected = some infos' ∧
      infos'.lookup id = ((r.scored id).map fun heard => store ((infos.lookup id).getD {}) heard).or
        (infos.lookup id) := by
  cases r with
  | volume siteID count =>
    refine ⟨infos, ?_, rfl⟩
    simp [Report.apply, Report.updateInfo, updateSiteSelectorState, hinfos, applyUpdate]
  | flavor siteID flavors count =>
    refine ⟨infos.insert siteID (store ((infos.lookup siteID).getD {}) (flavors, count)), ?_, ?_⟩
    · have hstore : ∀ info : SiteSelectorInfo,
          (Report.flavor siteID flavors count).updateInfo.foldlM applyUpdate info =
            some (store info (flavors, count)) := by
        intro info
        by_cases hlower : info.stackMaxCount = 0 ∨ info.stackMaxCount > count
        · simp [Report.updateInfo, applyUpdate, store, lower, hlower]
        · simp [Report.updateInfo, applyUpdate, store, lower, hlower]
      rw [Report.apply, updateSiteSelectorState, hinfos]
      dsimp only
      rw [hstore]
      rfl
    · by_cases hid : siteID = id
      · subst hid
        simp [Report.scored]
      · simp [Report.scored, hid, lookup_insert_ne (Ne.symm hid)]

theorem reported_lookup (hinfos : state.siteTempSelected = some infos) (calls : List Report) (id : String) :
    getSiteSelectorState (reported state calls) id = (calls.filterMap (Report.scored id)).foldl
      (fun stored heard => some (store (stored.getD {}) heard)) (infos.lookup id) := by
  induction calls generalizing state infos with
  | nil => simp [reported, getSiteSelectorState, hinfos]
  | cons r rest ih =>
    obtain ⟨infos', hinfos', hlookup⟩ := apply_lookup hinfos r id
    refine (ih hinfos').trans ?_
    rw [hlookup]
    cases hscored : r.scored id with
    | none => rw [filterMap_cons_none hscored, map_none, none_or]
    | some heard => rw [filterMap_cons_some hscored, foldl_cons, map_some, some_or]

theorem apply_first (hstate : state.siteTempSelected = none) (r : Report) :
    (r.apply state).siteTempSelected = some (singleton r.siteID {}) := by
  rw [Report.apply, updateSiteSelectorState, hstate]

end Store

/-! ### The smallest number of copies -/

variable (counts : List Nat)

def lowest : Int := counts.foldl (fun stored count => lower stored count) 0

theorem lowest_concat (count : Nat) : lowest (counts ++ [count]) = lower (lowest counts) count := by
  simp [lowest]

theorem lowest_nonneg : 0 ≤ lowest counts := by
  induction counts using reverseRecOn with
  | nil => exact le_refl 0
  | append_singleton counts count ih =>
    rw [lowest_concat, lower]
    split
    · exact Int.natCast_nonneg count
    · exact ih

theorem lowest_eq_zero_iff : lowest counts = 0 ↔ counts.getLast?.getD 0 = 0 := by
  induction counts using reverseRecOn with
  | nil => exact iff_of_true rfl rfl
  | append_singleton counts count _ =>
    have hnonneg := lowest_nonneg counts
    rw [lowest_concat, lower, getLast?_concat, getD_some]
    split
    · exact Int.natCast_eq_zero
    · omega

theorem lowest_isLeast {counts : List Nat} (hzero : 0 ∉ counts) (hne : counts ≠ []) :
    ∃ n ∈ counts, lowest counts = n ∧ ∀ m ∈ counts, n ≤ m := by
  induction counts using reverseRecOn with
  | nil => exact absurd rfl hne
  | append_singleton counts count ih =>
    rw [lowest_concat, lower]
    by_cases hfirst : counts = []
    · subst hfirst
      exact ⟨count, by simp, if_pos (Or.inl rfl), by simp⟩
    · have hcounts : 0 ∉ counts := fun hmem => hzero (mem_append_left _ hmem)
      obtain ⟨n, hn, hlowest, hleast⟩ := ih hcounts hfirst
      have hpos : n ≠ 0 := fun h0 => hcounts (h0 ▸ hn)
      rw [hlowest]
      split
      case isTrue hless =>
        refine ⟨count, by simp, rfl, fun m hm => ?_⟩
        cases mem_append.mp hm with
        | inl hm => have := hleast m hm; omega
        | inr hm => rw [mem_singleton.mp hm]
      case isFalse hle =>
        refine ⟨n, mem_append_left _ hn, rfl, fun m hm => ?_⟩
        cases mem_append.mp hm with
        | inl hm => exact hleast m hm
        | inr hm => rw [mem_singleton.mp hm]; omega

/-! ### The reports that count -/

/-- The reports of the score on a site, without the first call of the cycle. -/
def heard (id : String) (calls : List Report) : List (List FlavorInfo × Nat) :=
  calls.tail.filterMap (Report.scored id)

theorem getSiteSelectorState_reported {state : CycleState} (hstate : state.siteTempSelected = none)
    (first : Report) (rest : List Report) (id : String) :
    getSiteSelectorState (reported state (first :: rest)) id =
      if heard id (first :: rest) = [] then (if first.siteID = id then some {} else none)
      else some ⟨((heard id (first :: rest)).getLast?.map (·.1)).getD [],
        lowest ((heard id (first :: rest)).map (·.2))⟩ := by
  have hstored : ∀ hs : List (List FlavorInfo × Nat), hs ≠ [] → ∀ start : Option SiteSelectorInfo,
      start.getD {} = {} →
      hs.foldl (fun stored heard => some (store (stored.getD {}) heard)) start =
        some ⟨(hs.getLast?.map (·.1)).getD [], lowest (hs.map (·.2))⟩ := by
    intro hs hne start hstart
    induction hs using reverseRecOn with
    | nil => exact absurd rfl hne
    | append_singleton hs last ih =>
      rw [foldl_append, foldl_cons, foldl_nil, getLast?_concat, map_append, map_singleton, lowest_concat]
      by_cases hfirst : hs = []
      · subst hfirst
        rw [foldl_nil, hstart]
        rfl
      · rw [ih hfirst]
        rfl
  have hsingleton : (singleton first.siteID {} : Map String SiteSelectorInfo).lookup id =
      if first.siteID = id then some {} else none := by
    show ((∅ : Map String SiteSelectorInfo).insert first.siteID {}).lookup id = _
    by_cases hid : first.siteID = id
    · rw [if_pos hid, hid, lookup_insert]
    · rw [if_neg hid, lookup_insert_ne (Ne.symm hid), lookup_empty]
  refine (reported_lookup (apply_first hstate first) rest id).trans ?_
  rw [heard, tail_cons, hsingleton]
  by_cases hnone : rest.filterMap (Report.scored id) = []
  · rw [if_pos hnone, hnone, foldl_nil]
  · rw [if_neg hnone]
    refine hstored _ hnone _ ?_
    split <;> rfl

/-! ### When nothing is lost -/

/-- For every site that was reported on, the smallest number and the last list are kept. -/
def NothingLost (state : CycleState) (calls : List Report) : Prop :=
  ∀ id, (∃ r ∈ calls, r.siteID = id) → ∃ info, getSiteSelectorState (reported state calls) id = some info ∧
    IsLeast {n : Int | ∃ r ∈ calls, r.siteID = id ∧ (r.count : Int) = n} info.stackMaxCount ∧
    info.flavors = (latest (Report.listFor id) calls).getD []

/-- The reports that count say it all: without one the site is that of the first call, and zero
and no list were reported for it; otherwise no report is below them, and a zero among them is
the last. -/
def HeardAll (calls : List Report) (id : String) : Prop :=
  if heard id calls = [] then
    calls.head?.map Report.siteID = some id ∧ (∃ r ∈ calls, r.siteID = id ∧ r.count = 0) ∧
      ∀ r ∈ calls, ∀ flvs, r.listFor id = some flvs → flvs = []
  else
    (∀ r ∈ calls, r.siteID = id → ∃ h ∈ heard id calls, h.2 ≤ r.count) ∧
      (0 ∈ (heard id calls).map (·.2) → ((heard id calls).map (·.2)).getLast? = some 0)

section NothingLost
variable {id : String} {calls : List Report}

theorem count_of_mem_heard {h : List FlavorInfo × Nat} (hmem : h ∈ heard id calls) :
    ∃ r ∈ calls, r.siteID = id ∧ r.count = h.2 := by
  obtain ⟨r, hr, hscored⟩ := mem_filterMap.mp hmem
  refine ⟨r, mem_of_mem_tail hr, ?_⟩
  cases r with
  | volume siteID count => cases hscored
  | flavor siteID flavors count =>
    rw [Report.scored] at hscored
    split at hscored
    case isTrue hid =>
      cases hscored
      exact ⟨hid, rfl⟩
    case isFalse => cases hscored

theorem listFor_eq (id : String) (r : Report) : r.listFor id = (r.scored id).map (·.1) := by
  cases r with
  | volume siteID count => rfl
  | flavor siteID flavors count =>
    rw [Report.listFor, Report.scored]
    split <;> rfl

theorem latest_listFor (id : String) (calls : List Report) :
    latest (Report.listFor id) calls = (calls.filterMap (Report.scored id)).getLast?.map (·.1) := by
  induction calls using reverseRecOn with
  | nil => rfl
  | append_singleton calls r ih =>
    rw [latest_append, ih, filterMap_append, latest, reverse_singleton, findSome?_singleton, listFor_eq]
    cases hscored : r.scored id with
    | none => simp [hscored]
    | some h => simp [hscored]

/-- With reports that count, the stored number is the minimum exactly if they say it all. -/
theorem lowest_isLeast_iff (hheard : heard id calls ≠ []) :
    IsLeast {n : Int | ∃ r ∈ calls, r.siteID = id ∧ (r.count : Int) = n}
        (lowest ((heard id calls).map (·.2))) ↔
      (∀ r ∈ calls, r.siteID = id → ∃ h ∈ heard id calls, h.2 ≤ r.count) ∧
        (0 ∈ (heard id calls).map (·.2) → ((heard id calls).map (·.2)).getLast? = some 0) := by
  have hcounts : (heard id calls).map (·.2) ≠ [] := by simpa using hheard
  have hzero := lowest_eq_zero_iff ((heard id calls).map (·.2))
  obtain ⟨last, hlast⟩ := ne_none_iff_exists'.mp (mt getLast?_eq_none_iff.mp hcounts)
  rw [hlast, getD_some] at hzero
  rw [hlast, some.injEq]
  by_cases hmem : 0 ∈ (heard id calls).map (·.2)
  · obtain ⟨h, hh, hh0⟩ := mem_map.mp hmem
    obtain ⟨r, hr, hid, hcount⟩ := count_of_mem_heard hh
    have hnonneg := lowest_nonneg ((heard id calls).map (·.2))
    constructor
    · intro hleast
      have hle : lowest ((heard id calls).map (·.2)) ≤ 0 := hleast.2 ⟨r, hr, hid, by omega⟩
      exact ⟨fun r' _ _ => ⟨h, hh, by omega⟩, fun _ => hzero.mp (by omega)⟩
    · intro ⟨_, hlast0⟩
      rw [hzero.mpr (hlast0 hmem)]
      refine ⟨⟨r, hr, hid, by omega⟩, fun n ⟨r', _, _, hn⟩ => by omega⟩
  · obtain ⟨n, hn, hlowest, hleast⟩ := lowest_isLeast hmem hcounts
    obtain ⟨h, hh, rfl⟩ := mem_map.mp hn
    obtain ⟨r, hr, hid, hcount⟩ := count_of_mem_heard hh
    rw [hlowest]
    constructor
    · intro hall
      refine ⟨fun r' hr' hid' => ⟨h, hh, ?_⟩, fun h0 => absurd h0 hmem⟩
      have : (h.2 : Int) ≤ r'.count := hall.2 ⟨r', hr', hid', rfl⟩
      omega
    · intro ⟨hall, _⟩
      refine ⟨⟨r, hr, hid, by rw [hcount]⟩, fun n ⟨r', hr', hid', hn⟩ => ?_⟩
      obtain ⟨h', hh', hle⟩ := hall r' hr' hid'
      have := hleast h'.2 (mem_map_of_mem hh')
      omega

theorem isLeast_zero_iff : IsLeast {n : Int | ∃ r ∈ calls, r.siteID = id ∧ (r.count : Int) = n} 0 ↔
    ∃ r ∈ calls, r.siteID = id ∧ r.count = 0 := by
  constructor
  · intro ⟨⟨r, hr, hid, hcount⟩, _⟩
    exact ⟨r, hr, hid, by omega⟩
  · intro ⟨r, hr, hid, hcount⟩
    exact ⟨⟨r, hr, hid, by omega⟩, fun n ⟨r', _, _, hn⟩ => by omega⟩

end NothingLost

/-- **Nothing is lost exactly if the reports that count say it all.** -/
theorem nothingLost_iff (state : CycleState) (hstate : state.siteTempSelected = none)
    (calls : List Report) :
    NothingLost state calls ↔ ∀ id, (∃ r ∈ calls, r.siteID = id) → HeardAll calls id := by
  refine forall_congr' fun id => forall_congr' fun ⟨r, hr, _⟩ => ?_
  cases calls with
  | nil => cases hr
  | cons first rest =>
    rw [getSiteSelectorState_reported hstate, HeardAll]
    have hlatest : latest (Report.listFor id) (first :: rest) =
        ((heard id (first :: rest)).getLast?.map (·.1)).or (first.listFor id) := by
      rw [latest_cons, latest_listFor]
      rfl
    rw [hlatest]
    by_cases hheard : heard id (first :: rest) = []
    · have hlists : ∀ r' ∈ rest, r'.listFor id = none := by
        intro r' hr'
        rw [listFor_eq, filterMap_eq_nil_iff.mp hheard r' hr', map_none]
      rw [if_pos hheard, if_pos hheard, hheard]
      by_cases hid : first.siteID = id
      · rw [if_pos hid]
        simp only [some.injEq, exists_eq_left', isLeast_zero_iff, head?_cons, map_some,
          hid, true_and, getLast?_nil, map_none, none_or]
        refine and_congr_right fun _ => ?_
        constructor
        · intro hnil r' hr' flvs hflvs
          cases mem_cons.mp hr' with
          | inl hfirst =>
            rw [← hfirst, hflvs] at hnil
            exact hnil.symm
          | inr hrest =>
            rw [hlists r' hrest] at hflvs
            cases hflvs
        · intro hnil
          cases hfirst : first.listFor id with
          | none => rfl
          | some flvs => exact (hnil first mem_cons_self flvs hfirst).symm
      · rw [if_neg hid]
        simp [hid]
    · rw [if_neg hheard, if_neg hheard]
      obtain ⟨last, hlast⟩ := ne_none_iff_exists'.mp (mt getLast?_eq_none_iff.mp hheard)
      simp only [some.injEq, exists_eq_left', hlast, map_some, some_or, getD_some,
        and_true]
      exact lowest_isLeast_iff hheard

/-- Two reports of the score after one of the volumes: nothing is lost. -/
theorem nothingLost_iff_scores :
    NothingLost {} [.volume "a" 7, .flavor "a" [] 3, .flavor "a" [] 5] := by
  refine (nothingLost_iff {} rfl _).mpr fun id ⟨r, hr, hid⟩ => ?_
  have ha : id = "a" := by
    rw [← hid]
    simp only [mem_cons, not_mem_nil, or_false] at hr
    obtain rfl | rfl | rfl := hr <;> rfl
  subst ha
  rw [HeardAll]
  simp [heard, Report.scored, Report.siteID, Report.count]

/-- The report of a cycle that comes first is lost. -/
theorem nothingLost_fails : ¬ NothingLost {} [.flavor "a" [⟨⟨"small", none⟩, 1⟩] 3] := by
  intro h
  obtain ⟨info, hinfo, -, hflavors⟩ := h "a" ⟨_, mem_singleton_self _, rfl⟩
  have hempty : info = {} := by
    have : getSiteSelectorState (reported {} [.flavor "a" [⟨⟨"small", none⟩, 1⟩] 3]) "a" = some {} := by
      rfl
    rw [hinfo] at this
    exact some.inj this
  rw [hempty] at hflavors
  cases hflavors

end GlobalScheduler
