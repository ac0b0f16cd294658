import GlobalScheduler.Cache.SiteCacheInfo
import GlobalScheduler.Transition

/-! The tree of sites, and the order it gives them.

The tree groups the sites by zone and deals them out one zone after the other, going on
from where it stopped. The zone of a site is the site itself, so every zone has one site,
and a zone is spent once it was dealt. When all are spent the round starts again.

A list of all sites is made by asking for as many as there are. It has every site once,
although it may start in the middle of a round: the spent zones always come first. -/
namespace GlobalScheduler.Cache

open Go Transition Outcome AList
open List hiding beq_eq_decide mem_keys

/-! ### The code -/

structure SiteArray where
  siteIDs : List String
  lastIndex : Nat := 0
deriving DecidableEq, Repr

structure SiteTree where
  tree : Map String SiteArray := ∅
  zones : List String := []
  zoneIndex : Nat := 0
  numSites : Nat := 0
deriving DecidableEq

def getZoneKey (site : CachedSite) : String := site.siteID

/-- The next site of a zone, and whether there is none left. -/
def SiteArray.next (na : SiteArray) : SiteArray × String × Bool :=
  if na.siteIDs = [] then (na, "", false)
  else match na.siteIDs[na.lastIndex]? with
    | none => (na, "", true)
    | some siteID => ({ na with lastIndex := na.lastIndex + 1 }, siteID, false)

namespace SiteTree

def addSite (nt : SiteTree) (site : CachedSite) : SiteTree :=
  let zone := getZoneKey site
  match nt.tree.lookup zone with
  | some na =>
    if site.siteID ∈ na.siteIDs then nt
    else { nt with
      tree := nt.tree.insert zone { na with siteIDs := na.siteIDs ++ [site.siteID] }
      numSites := nt.numSites + 1 }
  | none => { nt with
      tree := nt.tree.insert zone ⟨[site.siteID], 0⟩
      zones := nt.zones ++ [zone]
      numSites := nt.numSites + 1 }

def newSiteCacheTree (sites : List CachedSite) : SiteTree := sites.foldl addSite {}

def removeZone (nt : SiteTree) (zone : String) : SiteTree :=
  { nt with tree := nt.tree.erase zone, zones := nt.zones.erase zone }

/-- The text of an error; `%q` puts a plain text in quotes. -/
def notFound (siteID zone : String) : String :=
  "site \"" ++ siteID ++ "\" in group \"" ++ zone ++ "\" was not found"

def removeSite (nt : SiteTree) (n : CachedSite) : SiteTree × Option String :=
  let zone := getZoneKey n
  match nt.tree.lookup zone with
  | some na =>
    if n.siteID ∈ na.siteIDs then
      let siteIDs := na.siteIDs.erase n.siteID
      let nt := { nt with
        tree := nt.tree.insert zone { na with siteIDs := siteIDs }, numSites := nt.numSites - 1 }
      (if siteIDs = [] then nt.removeZone zone else nt, none)
    else (nt, some (notFound n.siteID zone))
  | none => (nt, some (notFound n.siteID zone))

/-- `old` may be nil; it is looked into where its zone differs from the new one. -/
def updateSite (nt : SiteTree) (old : Option CachedSite) (new : CachedSite) : Outcome SiteTree :=
  let oldZone := (old.map getZoneKey).getD ""
  if oldZone = getZoneKey new then pure nt
  else match old with
    | none => throw .nilPointer
    | some old => pure ((nt.removeSite old).1.addSite new)

def resetExhausted (nt : SiteTree) : SiteTree :=
  { nt with tree := Map.mapVals (fun _ na => { na with lastIndex := 0 }) nt.tree, zoneIndex := 0 }

/-- One round of the loop of `next`: the next zone is asked. -/
def visit (nt : SiteTree) : Outcome (SiteTree × String × Bool) :=
  let i := if nt.zones.length ≤ nt.zoneIndex then 0 else nt.zoneIndex
  match nt.zones[i]? with
  | none => throw .indexOutOfRange
  | some zone =>
    match nt.tree.lookup zone with
    | none => throw .nilPointer
    | some na =>
      let (na, siteID, exhausted) := na.next
      pure ({ nt with tree := nt.tree.insert zone na, zoneIndex := i + 1 }, siteID, exhausted)

/-- The loop of `next`, for so many rounds; nothing if it has not come to an end by then. -/
def nextLoop : Nat → Nat → SiteTree → Outcome (Option (SiteTree × String))
  | 0, _, _ => pure none
  | rounds + 1, numExhaustedZones, nt => do
    let (nt, siteID, exhausted) ← nt.visit
    if exhausted then
      nextLoop rounds (numExhaustedZones + 1)
        (if nt.zones.length ≤ numExhaustedZones + 1 then nt.resetExhausted else nt)
    else pure (some (nt, siteID))

/-- The next site. One round more than there are zones is enough. -/
def next (nt : SiteTree) : Outcome (Option (SiteTree × String)) :=
  if nt.zones = [] then pure (some (nt, "")) else nextLoop (nt.zones.length + 1) 0 nt

/-- The sites of so many calls of `next`. -/
def nexts : Nat → SiteTree → Outcome (Option (SiteTree × List String))
  | 0, nt => pure (some (nt, []))
  | count + 1, nt => do
    match ← nt.next with
    | none => pure none
    | some (nt, siteID) =>
      match ← nexts count nt with
      | none => pure none
      | some (nt, siteIDs) => pure (some (nt, siteID :: siteIDs))

/-! ### Spent zones -/

/-- Every zone has its one site, which is dealt if the zone is one of the spent ones. -/
structure Marked (nt : SiteTree) (spent : Finset String) : Prop where
  nodup : nt.zones.Nodup
  keys : ∀ zone, zone ∈ nt.tree → zone ∈ nt.zones
  arrays : ∀ zone ∈ nt.zones, nt.tree.lookup zone = some ⟨[zone], if zone ∈ spent then 1 else 0⟩
  count : nt.numSites = nt.zones.length

/-- The zones in the order in which they will be asked. -/
def upcoming (nt : SiteTree) : List String :=
  nt.zones.rotate (if nt.zones.length ≤ nt.zoneIndex then 0 else nt.zoneIndex)

variable {nt : SiteTree} {spent : Finset String} {zone : String} {rest : List String}

theorem upcoming_perm : nt.upcoming.Perm nt.zones := rotate_perm _ _

theorem Marked.congr {spent' : Finset String} (h : nt.Marked spent)
    (hsame : ∀ zone ∈ nt.zones, zone ∈ spent' ↔ zone ∈ spent) : nt.Marked spent' := by
  refine ⟨h.nodup, h.keys, fun zone hzone => ?_, h.count⟩
  rw [h.arrays zone hzone]
  simp only [hsame zone hzone]

/-- A state with the same zones, where the spent ones are these. -/
structure Follows (nt nt' : SiteTree) (spent : Finset String) : Prop where
  zones : nt'.zones = nt.zones
  marked : nt'.Marked spent

variable {nt' nt₁ : SiteTree} {site n : CachedSite}

theorem Follows.trans {nt nt'' : SiteTree} {spent spent' : Finset String}
    (h : Follows nt nt' spent) (h' : Follows nt' nt'' spent') : Follows nt nt'' spent' :=
  ⟨h'.zones.trans h.zones, h'.marked⟩

theorem marked_insert {tree : Map String SiteArray} {i : Nat} (h : nt.Marked spent)
    (hzone : zone ∈ nt.zones) (htree : tree = nt.tree.insert zone ⟨[zone], 1⟩) :
    Marked { nt with tree := tree, zoneIndex := i } (insert zone spent) := by
  subst htree
  refine ⟨h.nodup, fun zone' hmem => ?_, fun zone' hzone' => ?_, h.count⟩
  · cases (mem_insert _).mp hmem with
    | inl heq => exact heq ▸ hzone
    | inr hold => exact h.keys zone' hold
  · by_cases heq : zone' = zone
    · subst heq
      simp
    · simp [lookup_insert_ne heq, h.arrays zone' hzone', heq]

/-- A round of the loop asks the first of the upcoming zones, which goes to their end. -/
theorem visit_spec (h : nt.Marked spent) (hup : nt.upcoming = zone :: rest) :
    ∃ nt', nt.visit = .ok (nt', if zone ∈ spent then "" else zone, decide (zone ∈ spent)) ∧
      Follows nt nt' (insert zone spent) ∧ nt'.upcoming = rest ++ [zone] := by
  obtain ⟨i, hi⟩ : ∃ i, i = if nt.zones.length ≤ nt.zoneIndex then 0 else nt.zoneIndex := ⟨_, rfl⟩
  rw [upcoming, ← hi] at hup
  have hne : nt.zones ≠ [] := by
    intro hnil
    simp [hnil] at hup
  have hlt : i < nt.zones.length := by
    rw [hi]
    split
    · exact length_pos_iff.mpr hne
    · omega
  have hget : nt.zones[i]? = some zone := by
    rw [← head?_rotate hlt, hup, head?_cons]
  have hmem : zone ∈ nt.zones := mem_of_getElem? hget
  refine ⟨{ nt with tree := nt.tree.insert zone ⟨[zone], 1⟩, zoneIndex := i + 1 }, ?_,
    ⟨rfl, marked_insert h hmem rfl⟩, ?_⟩
  · simp only [visit, ← hi, hget, h.arrays zone hmem]
    by_cases hspent : zone ∈ spent <;> simp [SiteArray.next, hspent] <;> rfl
  · have hrotate : nt.zones.rotate (i + 1) = rest ++ [zone] := by
      rw [← rotate_rotate, hup, rotate_cons_succ, rotate_zero]
    rw [← hrotate, upcoming]
    split
    case isTrue hend =>
      have hlast : i + 1 = nt.zones.length := Nat.le_antisymm hlt hend
      rw [hlast, rotate_length, rotate_zero]
    case isFalse => rfl

/-! ### The next site -/

theorem nextLoop_head (h : nt.Marked spent) (hup : nt.upcoming = zone :: rest) (hfresh : zone ∉ spent)
    (rounds numExhaustedZones : Nat) :
    ∃ nt', nextLoop (rounds + 1) numExhaustedZones nt = .ok (some (nt', zone)) ∧
      Follows nt nt' (insert zone spent) ∧ nt'.upcoming = rest ++ [zone] := by
  obtain ⟨nt', hvisit, hfollows, hup'⟩ := visit_spec h hup
  refine ⟨nt', ?_, hfollows, hup'⟩
  simp only [hfresh, if_false, decide_false] at hvisit
  rw [nextLoop, hvisit]
  rfl

theorem nextLoop_of_exhausted {siteID : String}
    (hvisit : nt.visit = .ok (nt₁, siteID, true)) (rounds numExhaustedZones : Nat) :
    nextLoop (rounds + 1) numExhaustedZones nt = nextLoop rounds (numExhaustedZones + 1)
      (if nt₁.zones.length ≤ numExhaustedZones + 1 then nt₁.resetExhausted else nt₁) := by
  rw [nextLoop, hvisit]
  rfl

/-- Spent zones are passed over; as long as one is left, the round is not started again. -/
theorem nextLoop_passes (rounds numExhaustedZones : Nat) {passed : List String} (h : nt.Marked spent)
    (hup : nt.upcoming = passed ++ rest) (hpassed : ∀ z ∈ passed, z ∈ spent)
    (hbelow : numExhaustedZones + passed.length < nt.zones.length) :
    ∃ nt₁, nextLoop (rounds + passed.length) numExhaustedZones nt =
        nextLoop rounds (numExhaustedZones + passed.length) nt₁ ∧
      Follows nt nt₁ spent ∧ nt₁.upcoming = rest ++ passed := by
  induction passed generalizing nt numExhaustedZones rest with
  | nil => exact ⟨nt, rfl, ⟨rfl, h⟩, by rw [hup, nil_append, append_nil]⟩
  | cons first passed ih =>
    have hfirst : first ∈ spent := hpassed first mem_cons_self
    rw [length_cons] at hbelow
    rw [cons_append] at hup
    obtain ⟨nt₁, hvisit, hfollows, hup₁⟩ := visit_spec h hup
    rw [Finset.insert_eq_of_mem hfirst] at hfollows
    simp only [hfirst, if_true, decide_true] at hvisit
    rw [append_assoc] at hup₁
    obtain ⟨nt', hloop, hfollows', hup'⟩ := ih (numExhaustedZones + 1) hfollows.marked hup₁
      (fun z hz => hpassed z (mem_cons_of_mem first hz)) (by rw [hfollows.zones]; omega)
    have hnot : ¬ nt₁.zones.length ≤ numExhaustedZones + 1 := by
      rw [hfollows.zones]
      omega
    refine ⟨nt', ?_, hfollows.trans hfollows', by rw [hup', append_assoc]; rfl⟩
    rw [length_cons, ← Nat.add_assoc, nextLoop_of_exhausted hvisit, if_neg hnot, hloop, Nat.add_right_comm]
    rfl

theorem marked_resetExhausted (h : nt.Marked spent) : nt.resetExhausted.Marked ∅ := by
  refine ⟨h.nodup, fun zone hzone => h.keys zone ?_, fun zone hzone => ?_, h.count⟩
  · rw [← lookup_isSome, resetExhausted, Map.lookup_mapVals, Option.isSome_map] at hzone
    exact lookup_isSome.mp hzone
  · simp [resetExhausted, Map.lookup_mapVals, h.arrays zone hzone]

theorem next_fresh (h : nt.Marked spent) (hfresh : ∃ z ∈ nt.zones, z ∉ spent) :
    ∃ nt' zone, nt.next = .ok (some (nt', zone)) ∧ zone ∈ nt.zones ∧ zone ∉ spent ∧
      Follows nt nt' (insert zone spent) := by
  obtain ⟨z, hz, hzfresh⟩ := hfresh
  -- The first fresh one among the upcoming zones.
  obtain ⟨zone, hfind⟩ : ∃ zone, nt.upcoming.find? (· ∉ spent) = some zone := by
    rw [← Option.isSome_iff_exists, find?_isSome]
    exact ⟨z, upcoming_perm.mem_iff.mpr hz, by simpa using hzfresh⟩
  obtain ⟨hzone, passed, rest, hup, hpassed⟩ := find?_eq_some_iff_append.mp hfind
  have hmem : zone ∈ nt.zones := upcoming_perm.mem_iff.mp (by rw [hup]; simp)
  have hlength : passed.length < nt.zones.length := by
    rw [← upcoming_perm.length_eq, hup]
    simp
  obtain ⟨rounds, hrounds⟩ : ∃ rounds, nt.zones.length + 1 = rounds + 1 + passed.length :=
    ⟨nt.zones.length - passed.length, by omega⟩
  obtain ⟨nt₁, hpass, hfollows, hup₁⟩ :=
    nextLoop_passes (rounds + 1) 0 h hup (by simpa using hpassed) (by omega)
  obtain ⟨nt', hhead, hfollows', -⟩ := nextLoop_head hfollows.marked hup₁ (by simpa using hzone) rounds _
  refine ⟨nt', zone, ?_, hmem, by simpa using hzone, hfollows.trans hfollows'⟩
  rw [next, if_neg (ne_nil_of_mem hmem), hrounds, hpass, hhead]

theorem next_head (h : nt.Marked spent) (hup : nt.upcoming = zone :: rest) (hfresh : zone ∉ spent) :
    ∃ nt', nt.next = .ok (some (nt', zone)) ∧ Follows nt nt' (insert zone spent) ∧
      nt'.upcoming = rest ++ [zone] := by
  have hmem : zone ∈ nt.zones := upcoming_perm.mem_iff.mp (by rw [hup]; exact mem_cons_self)
  rw [next, if_neg (ne_nil_of_mem hmem)]
  exact nextLoop_head h hup hfresh nt.zones.length 0

/-- When all zones are spent they are all passed over, and the round starts again. -/
theorem next_spent (h : nt.Marked spent) (hall : ∀ z ∈ nt.zones, z ∈ spent) (hzones : nt.zones = zone :: rest) :
    ∃ nt', nt.next = .ok (some (nt', zone)) ∧ Follows nt nt' {zone} ∧
      nt'.upcoming = rest ++ [zone] := by
  obtain ⟨passed, last, hup⟩ : ∃ passed last, nt.upcoming = passed ++ [last] :=
    ⟨_, _, (dropLast_append_getLast (by simp [upcoming, rotate_eq_nil_iff, hzones])).symm⟩
  have hspent : ∀ z ∈ passed ++ [last], z ∈ spent := by
    rw [← hup]
    exact fun z hz => hall z (upcoming_perm.mem_iff.mp hz)
  have hlength : nt.zones.length + 1 = 2 + passed.length := by
    rw [← upcoming_perm.length_eq, hup, length_append, length_singleton]
    omega
  obtain ⟨nt₁, hpass, hfollows, hup₁⟩ := nextLoop_passes 2 0 h hup
    (fun z hz => hspent z (mem_append_left _ hz)) (by omega)
  obtain ⟨nt₂, hvisit, hfollows₂, -⟩ := visit_spec hfollows.marked hup₁
  have hlast : last ∈ spent := hspent last (mem_append_right _ mem_cons_self)
  simp only [hlast, if_true, decide_true] at hvisit
  have hzones₂ : nt₂.zones = nt.zones := hfollows₂.zones.trans hfollows.zones
  have hreset : nt₂.resetExhausted.upcoming = zone :: rest := by
    simp [upcoming, resetExhausted, hzones₂, hzones]
  obtain ⟨nt', hhead, hfollows', hup'⟩ := nextLoop_head (marked_resetExhausted hfollows₂.marked)
    hreset (Finset.notMem_empty zone) 0 (0 + passed.length + 1)
  refine ⟨nt', ?_, ⟨hfollows'.zones.trans hzones₂, hfollows'.marked⟩, hup'⟩
  rw [next, if_neg (by simp [hzones]), hlength, hpass, nextLoop_of_exhausted hvisit,
    if_pos (by rw [hzones₂]; omega), hhead]

/-! ### All sites -/

theorem nexts_succ {siteID : String} {siteIDs : List String} {count : Nat}
    (hnext : nt.next = .ok (some (nt₁, siteID))) (hnexts : nexts count nt₁ = .ok (some (nt', siteIDs))) :
    nexts (count + 1) nt = .ok (some (nt', siteID :: siteIDs)) := by
  rw [nexts, hnext]
  show (nexts count nt₁ >>= _) = _
  rw [hnexts]
  rfl

theorem nexts_add {siteIDs siteIDs' : List String} {count count' : Nat}
    (h : nexts count nt = .ok (some (nt₁, siteIDs))) (h' : nexts count' nt₁ = .ok (some (nt', siteIDs'))) :
    nexts (count + count') nt = .ok (some (nt', siteIDs ++ siteIDs')) := by
  induction count generalizing nt siteIDs with
  | zero =>
    cases h
    rw [Nat.zero_add, h', nil_append]
  | succ count ih =>
    obtain ⟨r, hnext, h⟩ := bind_ok.mp h
    cases r with
    | none => cases h
    | some r =>
      obtain ⟨r', hnexts, h⟩ := bind_ok.mp h
      cases r' with
      | none => cases h
      | some r' =>
        cases h
        rw [Nat.add_right_comm]
        exact nexts_succ hnext (ih hnexts)

def fresh (nt : SiteTree) (spent : Finset String) : List String := nt.zones.filter (· ∉ spent)

theorem nexts_fresh (h : nt.Marked spent) :
    ∃ nt' siteIDs, nexts (nt.fresh spent).length nt = .ok (some (nt', siteIDs)) ∧
      siteIDs.Perm (nt.fresh spent) ∧ Follows nt nt' nt.zones.toFinset := by
  generalize hcount : (nt.fresh spent).length = count
  induction count generalizing nt spent with
  | zero =>
    have hnone : nt.fresh spent = [] := length_eq_zero_iff.mp hcount
    refine ⟨nt, [], rfl, by rw [hnone], rfl, h.congr fun zone hzone => ?_⟩
    have hspent := filter_eq_nil_iff.mp hnone zone hzone
    simp only [mem_toFinset, hzone, true_iff]
    simpa using hspent
  | succ count ih =>
    obtain ⟨z, hz⟩ := exists_mem_of_length_pos (l := nt.fresh spent) (by omega)
    obtain ⟨hzone, hzfresh⟩ := mem_filter.mp hz
    obtain ⟨nt₁, zone, hnext, hmem, hfresh, hfollows⟩ := next_fresh h ⟨z, hzone, by simpa using hzfresh⟩
    have hin : zone ∈ nt.fresh spent := mem_filter.mpr ⟨hmem, by simpa using hfresh⟩
    have hrest : nt₁.fresh (insert zone spent) = (nt.fresh spent).erase zone := by
      rw [fresh, fresh, (h.nodup.filter _).erase_eq_filter, hfollows.zones, filter_filter]
      refine filter_congr fun z _ => ?_
      simp [Finset.mem_insert, not_or, bne, beq_eq_decide]
    have hless : (nt₁.fresh (insert zone spent)).length = count := by
      rw [hrest, length_erase_of_mem hin, hcount, Nat.add_sub_cancel]
    obtain ⟨nt', siteIDs, hnexts, hperm, hfollows'⟩ := ih hfollows.marked hless
    rw [hfollows.zones] at hfollows'
    refine ⟨nt', zone :: siteIDs, nexts_succ hnext hnexts, ?_, hfollows.trans hfollows'⟩
    rw [hrest] at hperm
    exact (hperm.cons zone).trans (perm_cons_erase hin).symm

theorem nexts_upcoming {fresh : List String} (h : nt.Marked spent)
    (hup : nt.upcoming = fresh ++ rest) (hfresh : ∀ z ∈ fresh, z ∉ spent) :
    ∃ nt', nexts fresh.length nt = .ok (some (nt', fresh)) ∧ Follows nt nt' (spent ∪ fresh.toFinset) := by
  induction fresh generalizing nt spent rest with
  | nil =>
    refine ⟨nt, rfl, rfl, ?_⟩
    rw [toFinset_nil, Finset.union_empty]
    exact h
  | cons zone fresh ih =>
    have hnodup : (zone :: fresh).Nodup := by
      have hall : nt.upcoming.Nodup := upcoming_perm.nodup_iff.mpr h.nodup
      rw [hup] at hall
      exact hall.of_append_left
    rw [cons_append] at hup
    obtain ⟨nt₁, hnext, hfollows, hup₁⟩ := next_head h hup (hfresh zone mem_cons_self)
    rw [append_assoc] at hup₁
    obtain ⟨nt', hnexts, hfollows'⟩ := ih hfollows.marked hup₁ (by
      intro z hz hspent
      cases Finset.mem_insert.mp hspent with
      | inl heq => exact (nodup_cons.mp hnodup).1 (heq ▸ hz)
      | inr hold => exact hfresh z (mem_cons_of_mem zone hz) hold)
    refine ⟨nt', nexts_succ hnext hnexts, ?_⟩
    rw [toFinset_cons, Finset.union_insert, ← Finset.insert_union]
    exact hfollows.trans hfollows'

/-- The spent zones come first. -/
def Spread (nt : SiteTree) : Prop :=
  ∃ used fresh, nt.zones = used ++ fresh ∧ nt.Marked used.toFinset

/-- **A list of all sites** has each of them once, and the next one will as well. -/
theorem Spread.nexts (h : nt.Spread) :
    ∃ nt' siteIDs, nexts nt.numSites nt = .ok (some (nt', siteIDs)) ∧ siteIDs.Perm nt.zones ∧
      nt'.zones = nt.zones ∧ nt'.Spread := by
  obtain ⟨used, late, hzones, hmarked⟩ := h
  have hdisjoint : ∀ z ∈ late, z ∉ used := by
    have hnodup := hmarked.nodup
    rw [hzones] at hnodup
    exact fun z hlate hused => disjoint_of_nodup_append hnodup hused hlate
  have hfresh : nt.fresh used.toFinset = late := by
    rw [fresh, hzones, filter_append, filter_eq_nil_iff.mpr, nil_append, filter_eq_self]
    · intro z hz
      simpa using hdisjoint z hz
    · intro z hz
      simpa using hz
  obtain ⟨nt₁, siteIDs, hnexts, hperm, hfollows⟩ := nexts_fresh hmarked
  rw [hfresh] at hnexts hperm
  have hcount : nt.numSites = late.length + used.length := by
    rw [hmarked.count, hzones, length_append, Nat.add_comm]
  cases hused : used with
  | nil =>
    subst hused
    rw [length_nil, Nat.add_zero] at hcount
    refine ⟨nt₁, siteIDs, by rw [hcount, hnexts], hzones ▸ hperm, hfollows.zones, nt.zones, [], ?_, ?_⟩
    · rw [hfollows.zones, append_nil]
    · exact hfollows.marked
  | cons zone others =>
    -- All are spent now; the round starts again and goes on to the last of the used ones.
    rw [hused] at hzones
    have hzones₁ : nt₁.zones = zone :: (others ++ late) := by
      rw [hfollows.zones, hzones, cons_append]
    obtain ⟨nt₂, hnext, hfollows₂, hup⟩ := next_spent hfollows.marked
      (fun z hz => by rw [hfollows.zones] at hz; exact mem_toFinset.mpr hz) hzones₁
    have hnodup : (zone :: (others ++ late)).Nodup := hzones₁ ▸ hfollows.marked.nodup
    rw [append_assoc] at hup
    obtain ⟨nt₃, hothers, hfollows₃⟩ := nexts_upcoming hfollows₂.marked hup (by
      intro z hz hspent
      rw [Finset.mem_singleton] at hspent
      exact (nodup_cons.mp hnodup).1 (mem_append_left _ (hspent ▸ hz)))
    refine ⟨nt₃, siteIDs ++ zone :: others, ?_, ?_, ?_, used, late, ?_, ?_⟩
    · rw [hcount, hused, length_cons]
      exact nexts_add hnexts (nexts_succ hnext hothers)
    · rw [hzones]
      exact (hperm.append_right _).trans perm_append_comm
    · rw [hfollows₃.zones, hfollows₂.zones, hfollows.zones]
    · rw [hfollows₃.zones, hfollows₂.zones, hfollows.zones, hzones, hused]
    · rw [hused, toFinset_cons, Finset.insert_eq]
      exact hfollows₃.marked

/-! ### Updates of the tree -/

theorem spread_empty : Spread {} :=
  ⟨[], [], rfl, nodup_nil, fun _ h => absurd h (notMem_empty _), fun _ h => absurd h not_mem_nil,
    rfl⟩

theorem Marked.addSite_of_mem (h : nt.Marked spent) (hmem : site.siteID ∈ nt.zones) :
    nt.addSite site = nt := by
  simp [addSite, getZoneKey, h.arrays _ hmem]

theorem Marked.addSite_of_not_mem (h : nt.Marked spent) (hnew : site.siteID ∉ nt.zones) :
    (nt.addSite site).zones = nt.zones ++ [site.siteID] ∧
      (nt.addSite site).Marked (spent.erase site.siteID) := by
  have hlook : nt.tree.lookup site.siteID = none :=
    lookup_eq_none.mpr fun hmem => hnew (h.keys _ hmem)
  have hadd : nt.addSite site = { nt with
      tree := nt.tree.insert site.siteID ⟨[site.siteID], 0⟩
      zones := nt.zones ++ [site.siteID]
      numSites := nt.numSites + 1 } := by
    simp [addSite, getZoneKey, hlook]
  rw [hadd]
  refine ⟨rfl, ?_, fun zone hzone => ?_, fun zone hzone => ?_, ?_⟩
  · exact nodup_append.mpr ⟨h.nodup, nodup_singleton _, by
      intro a ha b hb heq
      exact hnew (mem_singleton.mp hb ▸ heq ▸ ha)⟩
  · cases (mem_insert _).mp hzone with
    | inl heq => simp [heq]
    | inr hold => simp [h.keys zone hold]
  · by_cases heq : zone = site.siteID
    · subst heq
      simp
    · have hold : zone ∈ nt.zones := by simpa [heq] using hzone
      simp [lookup_insert_ne heq, h.arrays zone hold, heq]
  · simp [h.count]

theorem Spread.addSite (h : nt.Spread) (site : CachedSite) : (nt.addSite site).Spread := by
  obtain ⟨used, late, hzones, hmarked⟩ := h
  by_cases hmem : site.siteID ∈ nt.zones
  · rw [hmarked.addSite_of_mem hmem]
    exact ⟨used, late, hzones, hmarked⟩
  · obtain ⟨hzones', hmarked'⟩ := hmarked.addSite_of_not_mem hmem
    refine ⟨used, late ++ [site.siteID], by rw [hzones', hzones, append_assoc],
      hmarked'.congr fun zone _ => ?_⟩
    have hunused : site.siteID ∉ used := fun hused => hmem (hzones ▸ mem_append_left _ hused)
    constructor
    · intro hused
      exact Finset.mem_erase.mpr ⟨fun heq => hunused (heq ▸ mem_toFinset.mp hused), hused⟩
    · exact Finset.mem_of_mem_erase

theorem Spread.mem_addSite (h : nt.Spread) :
    zone ∈ (nt.addSite site).zones ↔ zone = site.siteID ∨ zone ∈ nt.zones := by
  obtain ⟨used, late, -, hmarked⟩ := h
  by_cases hmem : site.siteID ∈ nt.zones
  · rw [hmarked.addSite_of_mem hmem]
    exact (or_iff_right_of_imp fun heq => heq ▸ hmem).symm
  · rw [(hmarked.addSite_of_not_mem hmem).1, mem_append, mem_singleton, or_comm]

theorem Marked.removeSite_of_not_mem (h : nt.Marked spent) (hmem : n.siteID ∉ nt.zones) :
    nt.removeSite n = (nt, some (notFound n.siteID n.siteID)) := by
  have hlook : nt.tree.lookup n.siteID = none :=
    lookup_eq_none.mpr fun hin => hmem (h.keys _ hin)
  simp [removeSite, getZoneKey, hlook]

theorem Marked.removeSite_of_mem (h : nt.Marked spent) (hmem : n.siteID ∈ nt.zones) :
    ∃ nt', nt.removeSite n = (nt', none) ∧ nt'.zones = nt.zones.erase n.siteID ∧ nt'.Marked spent := by
  obtain ⟨tree, htree⟩ : ∃ tree, tree = (nt.tree.insert n.siteID
      ⟨[], if n.siteID ∈ spent then 1 else 0⟩).erase n.siteID := ⟨_, rfl⟩
  have hkeys : ∀ zone, zone ∈ tree → zone ≠ n.siteID ∧ zone ∈ nt.zones := by
    intro zone hzone
    rw [htree, mem_erase, mem_insert] at hzone
    exact ⟨hzone.1, h.keys zone (hzone.2.resolve_left hzone.1)⟩
  refine ⟨{ nt with tree := tree, zones := nt.zones.erase n.siteID, numSites := nt.numSites - 1 },
    ?_, rfl, h.nodup.erase _, fun zone hzone => ?_, fun zone hzone => ?_, ?_⟩
  · simp [removeSite, getZoneKey, h.arrays _ hmem, removeZone, htree]
  · exact (h.nodup.mem_erase_iff).mpr (hkeys zone hzone)
  · obtain ⟨hne, hold⟩ := h.nodup.mem_erase_iff.mp hzone
    show tree.lookup zone = _
    rw [htree, lookup_erase_ne hne, lookup_insert_ne hne, h.arrays zone hold]
  · show nt.numSites - 1 = (nt.zones.erase n.siteID).length
    rw [h.count, length_erase_of_mem hmem]

theorem Spread.removeSite (h : nt.Spread) (n : CachedSite) : (nt.removeSite n).1.Spread := by
  obtain ⟨used, late, hzones, hmarked⟩ := h
  by_cases hmem : n.siteID ∈ nt.zones
  · obtain ⟨nt', hremove, hzones', hmarked'⟩ := hmarked.removeSite_of_mem hmem
    rw [hremove]
    by_cases hused : n.siteID ∈ used
    · refine ⟨used.erase n.siteID, late, ?_, hmarked'.congr fun zone hzone => ?_⟩
      · rw [hzones', hzones, erase_append_left _ hused]
      · rw [hzones', hmarked.nodup.mem_erase_iff] at hzone
        rw [mem_toFinset, mem_toFinset, mem_erase_of_ne hzone.1]
    · exact ⟨used, late.erase n.siteID, by rw [hzones', hzones, erase_append_right _ hused], hmarked'⟩
  · rw [hmarked.removeSite_of_not_mem hmem]
    exact ⟨used, late, hzones, hmarked⟩

theorem Spread.mem_removeSite (h : nt.Spread) :
    zone ∈ (nt.removeSite n).1.zones ↔ zone ≠ n.siteID ∧ zone ∈ nt.zones := by
  obtain ⟨used, late, -, hmarked⟩ := h
  by_cases hmem : n.siteID ∈ nt.zones
  · obtain ⟨nt', hremove, hzones', -⟩ := hmarked.removeSite_of_mem hmem
    rw [hremove, hzones', hmarked.nodup.mem_erase_iff]
  · rw [hmarked.removeSite_of_not_mem hmem]
    constructor
    · intro hzone
      exact ⟨fun heq => hmem (heq ▸ hzone), hzone⟩
    · exact And.right

theorem Spread.removeSite_found (h : nt.Spread) (hmem : n.siteID ∈ nt.zones) :
    nt.removeSite n = ((nt.removeSite n).1, none) := by
  obtain ⟨used, late, -, hmarked⟩ := h
  obtain ⟨nt', hremove, -, -⟩ := hmarked.removeSite_of_mem hmem
  rw [hremove]

theorem Spread.count (h : nt.Spread) : nt.zones.Nodup ∧ nt.numSites = nt.zones.length := by
  obtain ⟨used, late, -, hmarked⟩ := h
  exact ⟨hmarked.nodup, hmarked.count⟩

theorem Spread.updateSite (h : nt.Spread) (old new : CachedSite) :
    ∃ nt', nt.updateSite (some old) new = .ok nt' ∧ nt'.Spread ∧
      (old.siteID = new.siteID → nt' = nt) := by
  by_cases hsame : old.siteID = new.siteID
  · exact ⟨nt, by simp [SiteTree.updateSite, getZoneKey, hsame]; rfl, h, fun _ => rfl⟩
  · exact ⟨_, by simp [SiteTree.updateSite, getZoneKey, hsame]; rfl,
      (h.removeSite old).addSite new, fun heq => absurd heq hsame⟩

/-! ### Whole runs -/

/-- What is done with a tree; a rebuild asks for as many sites as the tree counts. -/
inductive Use where
  | addSite (site : CachedSite)
  | updateSite (old : Option CachedSite) (new : CachedSite)
  | removeSite (n : CachedSite)
  | rebuild
deriving DecidableEq

/-- A use that returns. -/
def Step (nt : SiteTree) : Use → SiteTree → Prop
  | .addSite site, nt' => nt' = nt.addSite site
  | .updateSite old new, nt' => nt.updateSite old new = .ok nt'
  | .removeSite n, nt' => nt' = (nt.removeSite n).1
  | .rebuild, nt' => ∃ siteIDs, nexts nt.numSites nt = .ok (some (nt', siteIDs))

def sites (nt : SiteTree) : List String := nt.tree.entries.flatMap (·.2.siteIDs)

theorem spread_newSiteCacheTree (sites : List CachedSite) : (newSiteCacheTree sites).Spread := by
  suffices h : ∀ nt : SiteTree, nt.Spread → (sites.foldl addSite nt).Spread from h {} spread_empty
  induction sites with
  | nil => exact fun nt h => h
  | cons site rest ih => exact fun nt h => ih _ (h.addSite site)

theorem Spread.step {use : Use} (h : nt.Spread) (hstep : nt.Step use nt') : nt'.Spread := by
  cases use with
  | addSite site =>
    cases hstep
    exact h.addSite site
  | updateSite old new =>
    cases old with
    | some old =>
      obtain ⟨nt₁, hupdate, hspread, -⟩ := h.updateSite old new
      rw [Step, hupdate] at hstep
      cases hstep
      exact hspread
    | none =>
      -- Without an old site the call returns for the empty zone alone, and does nothing.
      rw [Step, SiteTree.updateSite] at hstep
      split at hstep
      · cases hstep
        exact h
      · exact absurd hstep (by simp [throw_ok])
  | removeSite n =>
    cases hstep
    exact h.removeSite n
  | rebuild =>
    obtain ⟨siteIDs, hnexts⟩ := hstep
    obtain ⟨nt₁, _, hnexts₁, -, -, hspread⟩ := h.nexts
    rw [hnexts₁] at hnexts
    cases hnexts
    exact hspread

theorem Marked.siteIDs (h : nt.Marked spent) {na : SiteArray} (hna : nt.tree.lookup zone = some na) :
    na.siteIDs = [zone] := by
  have hmem : zone ∈ nt.tree := Map.mem_of_lookup hna
  rw [h.arrays zone (h.keys zone hmem)] at hna
  cases hna
  rfl

theorem Marked.mem_zones (h : nt.Marked spent) : zone ∈ nt.zones ↔ zone ∈ nt.tree := by
  constructor
  · intro hzone
    rw [← lookup_isSome, h.arrays zone hzone]
    rfl
  · exact h.keys zone

theorem Marked.sites_perm (h : nt.Marked spent) : nt.sites.Perm nt.zones := by
  have hkeys : nt.sites = nt.tree.keys := by
    rw [sites, AList.keys, List.keys, map_eq_flatMap]
    refine flatMap_congr fun e he => ?_
    exact h.siteIDs (mem_lookup_iff.mpr he)
  rw [hkeys]
  refine (perm_ext_iff_of_nodup nt.tree.keys_nodup h.nodup).mpr fun zone => ?_
  rw [h.mem_zones, mem_keys]

/-- **Every rebuild has every site of the tree once**, and the tree's own figures are right,
after any uses of a new tree. -/
theorem rebuild_exact {created : List CachedSite} {uses : List Use}
    (h : Run Step (fun _ _ => True) (newSiteCacheTree created) uses nt) :
    (∃ nt' siteIDs, nexts nt.numSites nt = .ok (some (nt', siteIDs)) ∧
      siteIDs.Nodup ∧ siteIDs.Perm nt.sites) ∧
    nt.numSites = nt.sites.length ∧
    nt.zones.Nodup ∧ (∀ zone, zone ∈ nt.zones ↔ zone ∈ nt.tree) ∧
    ∀ zone na, nt.tree.lookup zone = some na → na.siteIDs ≠ [] := by
  have hspread : nt.Spread :=
    h.invariant (fun _ _ _ hs _ hstep => hs.step hstep) (spread_newSiteCacheTree created)
  obtain ⟨nt', siteIDs, hnexts, hperm, -, -⟩ := hspread.nexts
  obtain ⟨used, late, -, hmarked⟩ := hspread
  have hsites := hmarked.sites_perm
  refine ⟨⟨nt', siteIDs, hnexts, ?_, ?_⟩, ?_, hmarked.nodup, fun zone => hmarked.mem_zones, ?_⟩
  · exact hperm.nodup_iff.mpr hmarked.nodup
  · exact hperm.trans hsites.symm
  · rw [hmarked.count, hsites.length_eq]
  · intro zone na hna
    rw [hmarked.siteIDs hna]
    exact cons_ne_nil _ _

/-- Three sites are listed, one of them goes and another comes: the next list starts in the
middle of a round. -/
theorem rebuild_exact_changed :
    ∃ nt : SiteTree, Run Step (fun _ _ => True)
        (newSiteCacheTree [{ siteID := "a" }, { siteID := "b" }, { siteID := "c" }])
        ([] ++ [.rebuild] ++ [.removeSite { siteID := "b" }] ++ [.addSite { siteID := "d" }]) nt ∧
      ∃ nt' siteIDs, nexts nt.numSites nt = .ok (some (nt', siteIDs)) ∧
        siteIDs.Nodup ∧ siteIDs.Perm nt.sites := by
  obtain ⟨nt₁, siteIDs, hnexts, -⟩ :=
    (spread_newSiteCacheTree [{ siteID := "a" }, { siteID := "b" }, { siteID := "c" }]).nexts
  have h₁ : Run Step (fun _ _ => True) _ ([] ++ [.rebuild]) nt₁ :=
    .snoc (.nil _) trivial ⟨siteIDs, hnexts⟩
  have h₂ := h₁.snoc trivial (show Step _ (.removeSite { siteID := "b" }) _ from rfl)
  have h₃ := h₂.snoc trivial (show Step _ (.addSite { siteID := "d" }) _ from rfl)
  exact ⟨_, h₃, (rebuild_exact h₃).1⟩

end SiteTree

end GlobalScheduler.Cache
