import GlobalScheduler.Controllers.Util
import GlobalScheduler.Go.Int64
import GlobalScheduler.Go.Panic
import Mathlib.Data.List.Range

/-! The distributor controller.

Pods and allocations hash to a key, and a distributor serves those whose key is in its
range. The controller divides the keys anew whenever a distributor comes or goes. The
keys are all of the non-negative 64-bit integers, so the division works at the edge of
what the machine can count. -/
namespace GlobalScheduler.Distributors

open Go Util List

theorem int64_of_le {x : Int} (hlow : -1 ≤ x) (hhigh : x ≤ maxInt64) : int64 x = x :=
  int64_of_fits ⟨by omega, hhigh⟩

/-! ### The resources -/

structure DistributorRange where
  start : Int
  last : Int
deriving DecidableEq, Repr

structure Distributor where
  nameSpace : String
  name : String
  range : DistributorRange := ⟨0, 0⟩
deriving DecidableEq, Repr

/-- The namespace and the name. -/
def Distributor.key (d : Distributor) : String × String := (d.nameSpace, d.name)

/-- The field selectors of a distributor process: keys from the start to the end. -/
def DistributorRange.Has (range : DistributorRange) (key : Int) : Prop :=
  range.start ≤ key ∧ key ≤ range.last

/-! ### Rebalancing -/

/-- The loop of `rebalance` over the distributors of the lister, which it writes to; `update`
is the answer of the API server to the `i`-th of them. -/
def rebalanceLoop (update : Nat → Distributor → Option String) (ranges : List (Int × Int)) :
    Nat → List Distributor → Outcome (List Distributor × Option String)
  | _, [] => pure ([], none)
  | i, d :: rest => do
    let range ← index ranges i
    let d := { d with range := ⟨range.1, range.2⟩ }
    match update i d with
    | some err => pure (d :: rest, some err)
    | none =>
      let (rest, err) ← rebalanceLoop update ranges (i + 1) rest
      pure (d :: rest, err)

/-- `rebalance`, with the lister's answer: the distributors it leaves, and its error. -/
def rebalance (update : Nat → Distributor → Option String)
    (listed : Except String (List Distributor)) : Outcome (List Distributor × Option String) :=
  match listed with
  | .error err => pure ([], some err)
  | .ok distributors =>
    if distributors.length < 1 then pure (distributors, none)
    else rebalanceLoop update (evenlyDivide int64 distributors.length maxInt64) 0 distributors

/-! ### An even division -/

def width (range : Int × Int) : Int := range.2 - range.1 + 1

/-- The ranges divide the keys up to `upper` evenly among at most `size`. -/
structure EvenDivision (size upper : Int) (ranges : List (Int × Int)) : Prop where
  count : (ranges.length : Int) = min size (upper + 1)
  nonempty : ∀ range ∈ ranges, range.1 ≤ range.2
  first : ranges.head?.map Prod.fst = some 0
  final : ranges.getLast?.map Prod.snd = some upper
  consecutive : ranges.IsChain fun range next => next.1 = range.2 + 1
  covers : ∀ key, 0 ≤ key → key ≤ upper →
    ∃! i : Fin ranges.length, (ranges.get i).1 ≤ key ∧ key ≤ (ranges.get i).2
  nonincreasing : ranges.Pairwise fun range later => width later ≤ width range
  even : ∀ range ∈ ranges, ∀ other ∈ ranges, width range ≤ width other + 1

section KeyRanges
variable {size upper : Nat}

theorem width_keyRange (i : Nat) : width (keyRange size upper i) =
    (upper / size : Nat) + if i ≤ upper % size then 1 else 0 := by
  have hsucc := @bound_succ size upper i
  simp only [width, keyRange]
  split_ifs at hsucc ⊢ <;> omega

theorem rangeCount_pos (upper : Nat) (hsize : 0 < size) : 0 < rangeCount size upper :=
  lt_min hsize (Nat.succ_pos upper)

theorem keyRanges_last (hsize : 0 < size) :
    ((range (rangeCount size upper)).map (keyRange size upper)).getLast?.map Prod.snd =
      some (upper : Int) := by
  obtain ⟨n, hn⟩ := Nat.exists_eq_succ_of_ne_zero (rangeCount_pos upper hsize).ne'
  have hend : bound size upper (rangeCount size upper) = upper + 1 := bound_rangeCount hsize
  rw [hn] at hend
  rw [hn, range_succ, map_append, map_singleton, getLast?_concat]
  simp only [Option.map_some, keyRange, hend]
  simp

/-- A key is in the range with the number that `existsUnique_range` gives it. -/
theorem keyRanges_cover (hsize : 0 < size) {key : Int} (hlow : 0 ≤ key) (hhigh : key ≤ upper)
    {ranges : List (Int × Int)}
    (hranges : ranges = (range (rangeCount size upper)).map (keyRange size upper)) :
    ∃! i : Fin ranges.length, (ranges.get i).1 ≤ key ∧ key ≤ (ranges.get i).2 := by
  lift key to Nat using hlow
  have hlength : ranges.length = rangeCount size upper := by simp [hranges]
  have hget : ∀ i : Fin ranges.length, ranges.get i = keyRange size upper i := by
    intro i
    simp [hranges]
  have hin : ∀ i : Fin ranges.length, ((ranges.get i).1 ≤ key ∧ (key : Int) ≤ (ranges.get i).2) ↔
      bound size upper i ≤ key ∧ key < bound size upper (i + 1) := by
    intro i
    rw [hget i, keyRange]
    omega
  obtain ⟨i, ⟨hi, hkey⟩, honly⟩ := existsUnique_range hsize (Int.ofNat_le.mp hhigh)
  refine ⟨⟨i, hlength ▸ hi⟩, (hin _).mpr hkey, fun j hj => Fin.ext ?_⟩
  exact honly j ⟨hlength ▸ j.isLt, (hin j).mp hj⟩

theorem keyRanges_even (hsize : 0 < size) : EvenDivision size upper
    ((range (rangeCount size upper)).map (keyRange size upper)) where
  count := by
    rw [length_map, length_range, rangeCount]
    omega
  nonempty := by
    intro range hmem
    obtain ⟨i, hi, rfl⟩ := mem_map.mp hmem
    have hlt := bound_lt (mem_range.mp hi)
    simp only [keyRange]
    omega
  first := by
    obtain ⟨n, hn⟩ := Nat.exists_eq_succ_of_ne_zero (rangeCount_pos upper hsize).ne'
    rw [hn, range_succ_eq_map]
    simp [keyRange, bound_zero]
  final := keyRanges_last hsize
  consecutive := by
    rw [isChain_map, isChain_range]
    intro i _
    simp [keyRange]
  covers := fun key hlow hhigh => keyRanges_cover hsize hlow hhigh rfl
  nonincreasing := by
    rw [pairwise_map]
    refine pairwise_lt_range.imp fun {i j} hij => ?_
    rw [width_keyRange, width_keyRange]
    split_ifs <;> omega
  even := by
    intro range hmem other hother
    obtain ⟨i, _, rfl⟩ := mem_map.mp hmem
    obtain ⟨j, _, rfl⟩ := mem_map.mp hother
    rw [width_keyRange, width_keyRange]
    split_ifs <;> omega

end KeyRanges

theorem evenlyDivide_int64 {size upper : Nat} (hsize : 0 < size) (hmax : size ≤ maxInt64)
    (hupper : upper ≤ maxInt64) : evenlyDivide int64 size upper =
      (range (rangeCount size upper)).map (keyRange size upper) := by
  apply evenlyDivide_eq hsize
  · intro x hlow hhigh
    exact int64_of_le hlow (hhigh.trans hupper)
  · intro hmore
    exact int64_of_le (by omega) (by omega)

theorem evenlyDivide_even {size upper : Int} (hsize : 1 ≤ size) (hmax : size ≤ maxInt64)
    (hlow : 0 ≤ upper) (hupper : upper ≤ maxInt64) :
    EvenDivision size upper (evenlyDivide int64 size upper) := by
  lift size to Nat using by omega
  lift upper to Nat using hlow
  have hpos : 0 < size := by omega
  rw [evenlyDivide_int64 hpos hmax hupper]
  exact keyRanges_even hpos

/-! ### What rebalancing leaves -/

/-- The distributors are those that were listed, and each was updated as it is left; an error
is the API server's answer to one of the updates. -/
structure Updated (update : Nat → Distributor → Option String) (i : Nat)
    (distributors left : List Distributor) (err : Option String) : Prop where
  keys : left.map Distributor.key = distributors.map Distributor.key
  all : err = none → ∀ j d, left[j]? = some d → update (i + j) d = none
  failed : ∀ e, err = some e → ∃ j d, left[j]? = some d ∧ update (i + j) d = some e

variable {distributors : List Distributor}

/-- Every distributor the loop comes to has a range, and without an error it comes to all. -/
theorem rebalanceLoop_ok (update : Nat → Distributor → Option String) {ranges : List (Int × Int)}
    {i : Nat} (h : i + distributors.length ≤ ranges.length) :
    ∃ left err, rebalanceLoop update ranges i distributors = .ok (left, err) ∧
      Updated update i distributors left err ∧
      (err = none → left.map (fun d => (d.range.start, d.range.last)) =
        (ranges.drop i).take distributors.length) := by
  induction distributors generalizing i with
  | nil => exact ⟨[], none, rfl, ⟨rfl, by simp, by simp⟩, by simp⟩
  | cons d rest ih =>
    rw [length_cons] at h
    have hi : i < ranges.length := by omega
    unfold rebalanceLoop
    rw [index_natCast hi]
    simp only [bind, Except.bind]
    split
    case h_1 err hfailed =>
      refine ⟨_, _, rfl, ⟨rfl, by simp, fun e he => ⟨0, _, rfl, ?_⟩⟩, by simp⟩
      exact hfailed.trans he
    case h_2 hdone =>
      obtain ⟨left, err, hloop, hupdated, hleft⟩ := ih (i := i + 1) (by omega)
      rw [hloop]
      refine ⟨_, _, rfl, ⟨?_, fun hnone j d' hd' => ?_, fun e he => ?_⟩, fun hnone => ?_⟩
      · rw [map_cons, map_cons, hupdated.keys]
        rfl
      · cases j with
        | zero => exact Option.some_inj.mp hd' ▸ hdone
        | succ j => simpa [Nat.add_right_comm, Nat.add_assoc] using hupdated.all hnone j d' hd'
      · obtain ⟨j, d', hd', hfailed⟩ := hupdated.failed e he
        exact ⟨j + 1, d', hd', by simpa [Nat.add_right_comm, Nat.add_assoc] using hfailed⟩
      · rw [drop_eq_getElem_cons hi, length_cons, take_succ_cons, map_cons, hleft hnone]

/-- The distributors that rebalancing leaves share the keys as the ranges do. -/
theorem rebalance_shares (update : Nat → Distributor → Option String)
    (hmax : distributors.length ≤ maxInt64) :
    ∃ left err, rebalance update (.ok distributors) = .ok (left, err) ∧
      Updated update 0 distributors left err ∧
      (err = none → distributors ≠ [] → ∀ key, 0 ≤ key → key ≤ maxInt64 →
        ∃! i : Fin left.length, (left.get i).range.Has key) := by
  unfold rebalance
  dsimp only
  split
  case isTrue hempty =>
    obtain rfl := length_eq_zero_iff.mp (Nat.lt_one_iff.mp hempty)
    exact ⟨[], none, rfl, ⟨rfl, by simp, by simp⟩, fun _ hsome => absurd rfl hsome⟩
  case isFalse hsome =>
    have heven : EvenDivision distributors.length maxInt64
        (evenlyDivide int64 distributors.length maxInt64) :=
      evenlyDivide_even (by omega) hmax (by decide) le_rfl
    generalize evenlyDivide int64 distributors.length maxInt64 = ranges at heven
    have hcount : ranges.length = distributors.length := by
      have hlength := heven.count
      rw [min_eq_left (by omega)] at hlength
      exact Int.ofNat_inj.mp hlength
    have henough : 0 + distributors.length ≤ ranges.length := by omega
    obtain ⟨left, err, hloop, hupdated, hleft⟩ := rebalanceLoop_ok update henough
    refine ⟨left, err, hloop, hupdated, fun hnone _ key hlow hhigh => ?_⟩
    have hranges : ranges = left.map fun d => (d.range.start, d.range.last) := by
      rw [hleft hnone, drop_zero, ← hcount, take_length]
    obtain ⟨i, hi, honly⟩ := heven.covers key hlow hhigh
    have hlefts : left.length = ranges.length := by rw [hranges, length_map]
    have hin : ∀ j : Fin left.length, (left.get j).range.Has key ↔
        (ranges.get (j.cast hlefts)).1 ≤ key ∧ key ≤ (ranges.get (j.cast hlefts)).2 := by
      intro j
      simp [hranges, DistributorRange.Has]
    refine ⟨i.cast hlefts.symm, (hin _).mpr hi, fun j hj => ?_⟩
    have hij := honly _ ((hin j).mp hj)
    rw [← hij]
    rfl

/-- **`EvenlyDivide` divides the keys evenly, to the edge of the machine's integers**, and so
rebalancing has a range for every distributor that is listed, and with updates that succeed
gives every key to exactly one of them. -/
theorem hash_keys_divided :
    (∀ size upper : Int, 1 ≤ size → size ≤ maxInt64 → 0 ≤ upper → upper ≤ maxInt64 →
      EvenDivision size upper (evenlyDivide int64 size upper)) ∧
    ∀ (update : Nat → Distributor → Option String) (distributors : List Distributor),
      (distributors.length : Int) ≤ maxInt64 →
      ∃ left err, rebalance update (.ok distributors) = .ok (left, err) ∧
        Updated update 0 distributors left err ∧
        (err = none → distributors ≠ [] → ∀ key, 0 ≤ key → key ≤ maxInt64 →
          ∃! i : Fin left.length, (left.get i).range.Has key) :=
  ⟨fun _ _ hsize hmax hlow hupper => evenlyDivide_even hsize hmax hlow hupper,
    fun update _ hmax => rebalance_shares update hmax⟩

def threeDistributors : List Distributor :=
  [⟨"ns", "a", ⟨0, 0⟩⟩, ⟨"ns", "b", ⟨0, 0⟩⟩, ⟨"ns", "c", ⟨0, 0⟩⟩]

/-- Three distributors, and an API server that takes every update. -/
theorem hash_keys_divided_three :
    EvenDivision 3 maxInt64 (evenlyDivide int64 3 maxInt64) ∧
    ∃ left err, rebalance (fun _ _ => none) (.ok threeDistributors) = .ok (left, err) ∧
      err = none ∧ left.map (·.name) = ["a", "b", "c"] ∧
      ∃! i : Fin left.length, (left.get i).range.Has 4611686018427387904 := by
  refine ⟨hash_keys_divided.1 3 maxInt64 (by decide) (by decide) (by decide) le_rfl, ?_⟩
  obtain ⟨left, err, hleft, -, hkeys⟩ := hash_keys_divided.2 (fun _ _ => none) threeDistributors
    (by decide)
  have hrun : (rebalance (fun _ _ => none) (.ok threeDistributors)).map
      (fun r => (r.1.map (·.name), r.2)) = .ok (["a", "b", "c"], none) := by decide +kernel
  rw [hleft] at hrun
  obtain ⟨hnames, herr⟩ := Prod.mk.inj (Except.ok.inj hrun)
  exact ⟨left, err, hleft, herr, hnames, hkeys herr (by decide) _ (by decide) (by decide)⟩

end GlobalScheduler.Distributors
