import Mathlib.Data.List.Perm.Basic

/-! `container/heap`.

The elements of a heap stand in a slice, with the children of place `i` at the places
`2 * i + 1` and `2 * i + 2`. What goes first is decided by the function `less` of the call;
nothing says that it is an order, or the same one in the next call. What a heap holds does
not depend on it: every operation rearranges the slice around what it puts in or takes
out. -/
namespace Go.Heap

open List

variable {α : Type} (less : α → α → Bool)

def swap (i j : Nat) (h : List α) : List α :=
  match h[i]?, h[j]? with
  | some a, some b => (h.set i b).set j a
  | _, _ => h

variable (h : List α)

def lessAt (i j : Nat) : Bool :=
  match h[i]?, h[j]? with
  | some a, some b => less a b
  | _, _ => false

def up (j : Nat) (h : List α) : List α :=
  let i := (j - 1) / 2
  if i = j then h
  else if lessAt less h j i then up i (swap i j h)
  else h
termination_by j

/-- The child of `i` that goes first, among the first `n` places. -/
def child (i n : Nat) : Nat :=
  if 2 * i + 2 < n ∧ lessAt less h (2 * i + 2) (2 * i + 1) then 2 * i + 2 else 2 * i + 1

theorem lt_child (i n : Nat) : i < child less h i n := by
  rw [child]
  split <;> omega

/-- The slice, and where the element of place `i` has come to. -/
def down (i n : Nat) (h : List α) : List α × Nat :=
  if n ≤ 2 * i + 1 then (h, i)
  else if lessAt less h (child less h i n) i then
    down (child less h i n) n (swap i (child less h i n) h)
  else (h, i)
termination_by n - i
decreasing_by
  have := lt_child less h i n
  omega

/-- Puts the element of place `i` right, among the first `n`. -/
def settle (i n : Nat) (h : List α) : List α :=
  let (h', i') := down less i n h
  if i < i' then h' else up less i h'

def push (x : α) (h : List α) : List α := up less h.length (h ++ [x])

def pop : Option (α × List α) :=
  let n := h.length - 1
  let h' := (down less 0 n (swap 0 n h)).1
  h'.getLast?.map fun x => (x, h'.dropLast)

/-- The heap without the element of place `i`. -/
def remove (i : Nat) (h : List α) : List α :=
  let n := h.length - 1
  let h' := if n = i then h else settle less i n (swap i n h)
  h'.dropLast

/-- The element of place `i` has changed. -/
def fix (i : Nat) (h : List α) : List α := settle less i h.length h

/-! ### What the operations rearrange, and what they leave in place -/

theorem swap_perm (i j : Nat) (h : List α) : (swap i j h).Perm h := by
  rw [swap]
  split
  · next a b hi hj =>
    obtain ⟨hlt, rfl⟩ := List.getElem?_eq_some_iff.mp hi
    obtain ⟨hlt', rfl⟩ := List.getElem?_eq_some_iff.mp hj
    exact set_set_perm hlt hlt'
  · exact List.Perm.refl h

variable {i j k : Nat}

theorem swap_getElem? (hi : k ≠ i) (hj : k ≠ j) : (swap i j h)[k]? = h[k]? := by
  rw [swap]
  split
  · rw [getElem?_set_ne (Ne.symm hj), getElem?_set_ne (Ne.symm hi)]
  · rfl

theorem swap_getElem?_right (hi : i < h.length) (hj : j < h.length) :
    (swap i j h)[j]? = h[i]? := by
  simp [swap, hi, hj]

theorem swap_getElem?_left (hi : i < h.length) (hj : j < h.length) :
    (swap i j h)[i]? = h[j]? := by
  by_cases hij : i = j
  · subst hij
    exact swap_getElem?_right h hi hj
  · rw [swap, getElem?_eq_getElem hi, getElem?_eq_getElem hj]
    rw [getElem?_set_ne (Ne.symm hij), getElem?_set_self hi]

theorem up_perm (j : Nat) (h : List α) : (up less j h).Perm h := by
  fun_induction up less j h with
  | case1 | case3 => exact List.Perm.refl _
  | case2 j h i _ _ ih => exact ih.trans (swap_perm i j h)

theorem up_getElem? (hk : j < k) : (up less j h)[k]? = h[k]? := by
  fun_induction up less j h with
  | case1 => rfl
  | case2 j h i _ _ ih =>
    have hi : i ≤ j := by omega
    rw [ih (by omega), swap_getElem? h (by omega) (by omega)]
  | case3 => rfl

theorem down_perm (i n : Nat) (h : List α) : (down less i n h).1.Perm h := by
  fun_induction down less i n h with
  | case1 | case3 => exact List.Perm.refl _
  | case2 i h _ _ ih => exact ih.trans (swap_perm i _ h)

theorem down_getElem? {n : Nat} (hi : i < n) (hk : n ≤ k) : (down less i n h).1[k]? = h[k]? := by
  fun_induction down less i n h with
  | case1 => rfl
  | case2 i h hchild _ ih =>
    have hlt : child less h i n < n := by
      rw [child]
      split <;> omega
    rw [ih hlt, swap_getElem? h (by omega) (by omega)]
  | case3 => rfl

theorem settle_perm (i n : Nat) (h : List α) : (settle less i n h).Perm h := by
  rw [settle]
  split
  next h' i' hdown =>
    have hperm : h'.Perm h := by
      have := down_perm less i n h
      rwa [hdown] at this
    split
    · exact hperm
    · exact (up_perm less i h').trans hperm

theorem settle_getElem? {n : Nat} (hi : i < n) (hk : n ≤ k) : (settle less i n h)[k]? = h[k]? := by
  rw [settle]
  split
  next h' i' hdown =>
    have hsame : h'[k]? = h[k]? := by
      have := down_getElem? less h hi hk
      rwa [hdown] at this
    split
    · exact hsame
    · rw [up_getElem? less h' (by omega), hsame]

/-! ### What the operations put in and take out -/

theorem push_perm (x : α) (h : List α) : (push less x h).Perm (x :: h) :=
  (up_perm less _ _).trans perm_append_comm

theorem fix_perm (i : Nat) (h : List α) : (fix less i h).Perm h := settle_perm less i _ h

theorem dropLast_perm {h h' : List α} {x : α} (hperm : h'.Perm h) (hlast : h'[h.length - 1]? = some x) :
    h'.getLast? = some x ∧ (x :: h'.dropLast).Perm h := by
  have hget : h'.getLast? = some x := by rw [getLast?_eq_getElem?, hperm.length_eq, hlast]
  refine ⟨hget, List.Perm.trans ?_ hperm⟩
  have hsplit : h'.dropLast ++ [x] = h' := dropLast_append_getLast? x hget
  calc (x :: h'.dropLast).Perm (h'.dropLast ++ [x]) := (perm_append_singleton x _).symm
    _ = h' := hsplit

theorem pop_perm (x : α) (rest : List α) :
    ∃ h', pop less (x :: rest) = some (x, h') ∧ h'.Perm rest := by
  have hlength : (x :: rest).length - 1 = rest.length := by simp
  have hlast : (down less 0 rest.length (swap 0 rest.length (x :: rest))).1[rest.length]? = some x := by
    have hswap : (swap 0 rest.length (x :: rest))[rest.length]? = some x :=
      swap_getElem?_right (x :: rest) (by simp) (by simp)
    by_cases hn : 0 < rest.length
    · rw [down_getElem? less _ hn (Nat.le_refl _), hswap]
    · rw [down, if_pos (by omega), hswap]
  have hperm := (down_perm less 0 rest.length (swap 0 rest.length (x :: rest))).trans (swap_perm 0 _ _)
  obtain ⟨hget, hrest⟩ := dropLast_perm hperm (by rwa [hlength])
  refine ⟨_, ?_, hrest.cons_inv⟩
  simp [pop, hget]

theorem pop_nil : pop less ([] : List α) = none := by
  have hnil : (down less 0 0 (swap 0 0 ([] : List α))).1 = [] :=
    ((down_perm less 0 0 _).trans (swap_perm 0 0 _)).eq_nil
  simp [pop, hnil]

theorem remove_perm {h : List α} {x : α} (hx : h[i]? = some x) : (x :: remove less i h).Perm h := by
  obtain ⟨hi, -⟩ := List.getElem?_eq_some_iff.mp hx
  rw [remove]
  split
  · next hn => exact (dropLast_perm (List.Perm.refl h) (by rw [hn, hx])).2
  · next hn =>
    refine (dropLast_perm ((settle_perm less i _ _).trans (swap_perm i _ h)) ?_).2
    rw [settle_getElem? less _ (by omega) (Nat.le_refl _), swap_getElem?_right h hi (by omega), hx]

end Go.Heap
