import GlobalScheduler.Go.Sort
import Mathlib.Data.Nat.SuccPred
import Mathlib.Order.SuccPred.IntervalSucc

/-! The helpers the controllers share: sorted arrays and ranges of keys. -/
namespace GlobalScheduler.Util

open Go List

/-! ### Sorted arrays -/

section SortedArray
variable {α : Type} [LinearOrder α] {ss : List α} {s : α}

/-- `InsertIntoSortedArray`. -/
def insertIntoSortedArray (ss : List α) (s : α) : List α :=
  let i := searchSlice ss s
  ss.take i ++ s :: ss.drop i

/-- `RemoveFromSortedArray`. -/
def removeFromSortedArray (ss : List α) (s : α) : List α :=
  let i := searchSlice ss s
  if ss[i]? = some s then ss.take i ++ ss.drop (i + 1) else ss

theorem mem_insertIntoSortedArray {x : α} : x ∈ insertIntoSortedArray ss s ↔ x = s ∨ x ∈ ss := by
  rw [insertIntoSortedArray, mem_append, mem_cons, or_left_comm, ← mem_append, take_append_drop]

theorem insertIntoSortedArray_sorted (h : ss.Pairwise (· ≤ ·)) :
    (insertIntoSortedArray ss s).Pairwise (· ≤ ·) :=
  (searchSlice_spec h s).insert_sorted h

theorem insertIntoSortedArray_nodup (h : ss.Nodup) (hs : s ∉ ss) : (insertIntoSortedArray ss s).Nodup := by
  rw [insertIntoSortedArray, nodup_middle, take_append_drop]
  exact nodup_cons.mpr ⟨hs, h⟩

theorem removeFromSortedArray_eq (h : ss.Pairwise (· ≤ ·)) : removeFromSortedArray ss s = ss.erase s := by
  have hsplit := searchSlice_spec h s
  unfold removeFromSortedArray
  dsimp only
  split_ifs with hfound
  · obtain ⟨hlt, hget⟩ := List.getElem?_eq_some_iff.mp hfound
    conv_rhs => rw [← take_append_drop (searchSlice ss s) ss]
    rw [erase_append_right _ hsplit.notMem_take, drop_eq_getElem_cons hlt, hget, erase_cons_head]
  · rw [erase_of_not_mem]
    exact fun hs => hfound (hsplit.getElem? h hs)

theorem removeFromSortedArray_sublist (h : ss.Pairwise (· ≤ ·)) :
    (removeFromSortedArray ss s).Sublist ss := by
  rw [removeFromSortedArray_eq h]
  exact erase_sublist

theorem mem_removeFromSortedArray (h : ss.Pairwise (· ≤ ·)) (hnodup : ss.Nodup) {x : α} :
    x ∈ removeFromSortedArray ss s ↔ x ≠ s ∧ x ∈ ss := by
  rw [removeFromSortedArray_eq h, hnodup.mem_erase_iff]

end SortedArray

/-! ### Ranges -/

/-- The loop of `EvenlyDivide`, with `left` ranges still to make. -/
def evenlyDivideLoop (int : Int → Int) (upper chunk mod : Int) : Nat → Int → Int → List (Int × Int)
  | 0, _, _ => []
  | left + 1, i, start =>
    let last := int (start + chunk - 1)
    let last := if i ≤ mod then int (last + 1) else last
    if start > upper ∨ last > upper then []
    else (start, last) :: evenlyDivideLoop int upper chunk mod left (i + 1) (int (last + 1))

/-- `EvenlyDivide`, with `int` what the machine makes of the value of a sum. -/
def evenlyDivide (int : Int → Int) (size upper : Int) : List (Int × Int) :=
  if size ≤ 0 then []
  else evenlyDivideLoop int upper (upper.tdiv size) (upper.tmod size) size.toNat 0 0

/-- Where the `i`-th range begins. The first `upper % size + 1` ranges have one key more
than the others. -/
def bound (size upper i : Nat) : Nat := i * (upper / size) + min i (upper % size + 1)

def rangeCount (size upper : Nat) : Nat := min size (upper + 1)

section Ranges
variable {size upper i : Nat}

theorem bound_zero : bound size upper 0 = 0 := by simp [bound]

theorem bound_succ : bound size upper (i + 1) =
    bound size upper i + upper / size + if i ≤ upper % size then 1 else 0 := by
  unfold bound
  rw [Nat.succ_mul]
  split <;> omega

theorem bound_monotone (size upper : Nat) : Monotone (bound size upper) := by
  apply monotone_nat_of_le_succ
  intro i
  rw [bound_succ, Nat.add_assoc]
  exact Nat.le_add_right _ _

theorem bound_lt (h : i < rangeCount size upper) : bound size upper i < bound size upper (i + 1) := by
  rw [bound_succ]
  split
  · exact Nat.lt_succ_of_le (Nat.le_add_right _ _)
  case isFalse hlarge =>
    -- The ranges after the longer ones have keys when there are as many keys as ranges.
    have hsize : size ≤ upper := by
      by_contra hsmall
      rw [Nat.mod_eq_of_lt (by omega)] at hlarge
      unfold rangeCount at h
      omega
    have hchunk : 0 < upper / size := Nat.div_pos hsize (by unfold rangeCount at h; omega)
    omega

theorem bound_rangeCount (hsize : 0 < size) : bound size upper (rangeCount size upper) = upper + 1 := by
  unfold rangeCount
  rcases le_total size (upper + 1) with hle | hle
  · rw [min_eq_left hle, bound, min_eq_right (by have := Nat.mod_lt upper hsize; omega), ← Nat.add_assoc, Nat.div_add_mod]
  · rw [min_eq_right hle, bound]
    rcases hle.eq_or_lt with heq | hlt
    · rw [heq, Nat.div_eq_of_lt (by omega), Nat.mod_eq_of_lt (by omega)]
      omega
    · rw [Nat.div_eq_of_lt (by omega), Nat.mod_eq_of_lt (by omega)]
      omega

theorem bound_le (hsize : 0 < size) (h : i ≤ rangeCount size upper) : bound size upper i ≤ upper + 1 :=
  (bound_monotone size upper h).trans_eq (bound_rangeCount hsize)

theorem eq_rangeCount (hsize : 0 < size) (h : i ≤ rangeCount size upper)
    (hall : bound size upper i = upper + 1) : i = rangeCount size upper := by
  rcases h.eq_or_lt with heq | hlt
  · exact heq
  · have hnext := bound_lt hlt
    have hle := bound_le hsize (Nat.succ_le_of_lt hlt)
    rw [hall] at hnext
    exact absurd hle (not_le.mpr hnext)

/-- The `i`-th range. -/
def keyRange (size upper i : Nat) : Int × Int :=
  (bound size upper i, bound size upper (i + 1) - 1)

/-- The end of a range as the loop computes it, on a machine that has the numbers up to
`upper`. -/
theorem keyRange_end {int : Int → Int} (hint : ∀ x : Int, -1 ≤ x → x ≤ upper → int x = x)
    (hlast : bound size upper (i + 1) ≤ upper + 1) :
    (if (i : Int) ≤ (upper % size : Nat) then int (int (bound size upper i + (upper / size : Nat) - 1) + 1)
      else int (bound size upper i + (upper / size : Nat) - 1)) = (bound size upper (i + 1) : Int) - 1 := by
  have hsucc := @bound_succ size upper i
  generalize upper / size = chunk at *
  generalize upper % size = mod at *
  split_ifs at hsucc ⊢ with hlonger hlonger' <;> try omega
  · rw [hint (bound size upper i + chunk - 1) (by omega) (by omega), hint _ (by omega) (by omega)]
    omega
  · rw [hint _ (by omega) (by omega)]
    omega

/-- The loop makes the ranges from the `i`-th on, on a machine that has the numbers up to
`upper`, and the next one where the loop looks at it. -/
theorem evenlyDivideLoop_eq {int : Int → Int} (hsize : 0 < size)
    (hint : ∀ x : Int, -1 ≤ x → x ≤ upper → int x = x)
    (hnext : upper + 1 < size → int (upper + 1) = upper + 1) {left : Nat} {start : Int}
    (hleft : i + left = size) (hi : i ≤ rangeCount size upper)
    (hstart : left ≠ 0 → start = bound size upper i) :
    evenlyDivideLoop int upper (upper / size : Nat) (upper % size : Nat) left i start =
      (range' i (rangeCount size upper - i)).map (keyRange size upper) := by
  induction left generalizing i start with
  | zero =>
    have hall : rangeCount size upper - i = 0 := by unfold rangeCount at *; omega
    rw [hall]
    rfl
  | succ left ih =>
    cases hstart (Nat.succ_ne_zero left)
    unfold evenlyDivideLoop
    dsimp only
    rcases hi.eq_or_lt with heq | hi
    · -- All keys are handed out.
      have hbound : bound size upper i = upper + 1 := by rw [heq, bound_rangeCount hsize]
      rw [if_pos (Or.inl (by omega)), heq, Nat.sub_self]
      rfl
    · have hlast : bound size upper (i + 1) ≤ upper + 1 := bound_le hsize hi
      have hlt := bound_lt hi
      rw [keyRange_end hint hlast, if_neg (by omega), Int.sub_add_cancel,
        show rangeCount size upper - i = rangeCount size upper - (i + 1) + 1 by omega,
        range'_succ, map_cons]
      congr 1
      refine ih (i := i + 1) (by omega) hi fun hmore => ?_
      -- The start of the next range is past all keys only where there are fewer than ranges.
      rcases hlast.eq_or_lt with heq | hlt
      · have hcount := eq_rangeCount hsize hi heq
        rw [heq]
        exact hnext (by unfold rangeCount at hcount; omega)
      · exact hint _ (by omega) (by omega)

/-- **`EvenlyDivide` makes consecutive ranges of all keys**, on a machine that has the
numbers it needs. -/
theorem evenlyDivide_eq {int : Int → Int} (hsize : 0 < size)
    (hint : ∀ x : Int, -1 ≤ x → x ≤ upper → int x = x)
    (hnext : upper + 1 < size → int (upper + 1) = upper + 1) :
    evenlyDivide int size upper =
      (range (rangeCount size upper)).map (keyRange size upper) := by
  rw [evenlyDivide, if_neg (by omega), Int.toNat_natCast, range_eq_range']
  exact evenlyDivideLoop_eq hsize hint hnext (Nat.zero_add size) (Nat.zero_le _)
    (fun _ => by rw [bound_zero]; rfl)

theorem exists_range {key n : Nat} (h : key < bound size upper n) :
    ∃ i < n, bound size upper i ≤ key ∧ key < bound size upper (i + 1) := by
  induction n with
  | zero =>
    rw [bound_zero] at h
    cases h
  | succ n ih =>
    by_cases hbefore : key < bound size upper n
    · obtain ⟨i, hi, hin⟩ := ih hbefore
      exact ⟨i, hi.trans (Nat.lt_succ_self n), hin⟩
    · exact ⟨n, Nat.lt_succ_self n, not_lt.mp hbefore, h⟩

/-- **Every key is in exactly one range.** -/
theorem existsUnique_range (hsize : 0 < size) {key : Nat} (hkey : key ≤ upper) :
    ∃! i, i < rangeCount size upper ∧
      bound size upper i ≤ key ∧ key < bound size upper (i + 1) := by
  obtain ⟨i, hi, hin⟩ : ∃ i < rangeCount size upper,
      bound size upper i ≤ key ∧ key < bound size upper (i + 1) := by
    apply exists_range
    rw [bound_rangeCount hsize]
    exact Nat.lt_succ_of_le hkey
  refine ⟨i, ⟨hi, hin⟩, fun j hj => ?_⟩
  by_contra hne
  have hdisjoint := (bound_monotone size upper).pairwise_disjoint_on_Ico_succ hne
  exact Set.disjoint_left.mp hdisjoint hj.2 hin

end Ranges

end GlobalScheduler.Util
