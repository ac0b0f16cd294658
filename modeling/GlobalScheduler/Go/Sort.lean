import Mathlib.Data.List.Sort

/-! Go's `sort.Search`, and sorted slices.

The search halves an interval of indices. On a predicate that stays true once it is
true it finds the first index at which it is; on a sorted slice that is the place of a
value, with smaller elements before it and the others from there on. -/
namespace Go

open List

/-! ### The search -/

/-- The loop of `sort.Search`; it has as many rounds as the interval is long at most. -/
def searchLoop (f : Nat → Bool) : Nat → Nat → Nat → Nat
  | 0, i, _ => i
  | rounds + 1, i, j =>
    if i < j then
      let h := (i + j) / 2
      if f h then searchLoop f rounds i h else searchLoop f rounds (h + 1) j
    else i

/-- `sort.Search`. -/
def search (n : Nat) (f : Nat → Bool) : Nat := searchLoop f n 0 n

/-- `i` is the first index below `n` at which `f` is true, and `n` if there is none. -/
structure FirstTrue (n : Nat) (f : Nat → Bool) (i : Nat) : Prop where
  le : i ≤ n
  before : ∀ k < i, f k = false
  from_on : ∀ k, i ≤ k → k < n → f k = true

theorem searchLoop_spec {n : Nat} {f : Nat → Bool}
    (hmono : ∀ k l, k ≤ l → l < n → f k = true → f l = true) {rounds i j : Nat}
    (hij : i ≤ j) (hjn : j ≤ n) (hrounds : j ≤ i + rounds) (hbefore : ∀ k < i, f k = false)
    (hfrom : ∀ k, j ≤ k → k < n → f k = true) : FirstTrue n f (searchLoop f rounds i j) := by
  induction rounds generalizing i j with
  | zero => exact ⟨hij.trans hjn, hbefore, fun k hk => hfrom k (hrounds.trans hk)⟩
  | succ rounds ih =>
    unfold searchLoop
    dsimp only
    split_ifs with hlt hmid
    · refine ih (by omega) (by omega) (by omega) hbefore fun k hk hkn => ?_
      exact hmono _ k hk hkn hmid
    · refine ih (by omega) hjn (by omega) (fun k hk => ?_) hfrom
      -- Were it true at `k`, it would be at the middle.
      by_contra htrue
      exact hmid (hmono k _ (by omega) (by omega) (eq_true_of_ne_false htrue))
    · exact ⟨hij.trans hjn, hbefore, fun k hk => hfrom k (by omega)⟩

theorem search_spec {n : Nat} {f : Nat → Bool}
    (hmono : ∀ k l, k ≤ l → l < n → f k = true → f l = true) : FirstTrue n f (search n f) :=
  searchLoop_spec hmono (Nat.zero_le n) le_rfl (by omega) (fun k hk => absurd hk (Nat.not_lt_zero k))
    (fun k hk hkn => absurd hkn (by omega))

/-! ### Sorted slices -/

variable {α : Type} [LinearOrder α]

/-- `ss[i] >= s`. -/
def atLeast (ss : List α) (s : α) (i : Nat) : Bool := ss[i]?.all fun x => decide (s ≤ x)

/-- `sort.SearchStrings`, for any ordered type. -/
def searchSlice (ss : List α) (s : α) : Nat := search ss.length (atLeast ss s)

theorem atLeast_eq {ss : List α} {s : α} {i : Nat} (h : i < ss.length) :
    atLeast ss s i = decide (s ≤ ss[i]) := by
  simp [atLeast, getElem?_eq_getElem h]

/-- The slice splits at `i` into what is smaller than `s` and the others. -/
structure SplitsAt (ss : List α) (s : α) (i : Nat) : Prop where
  smaller : ∀ x ∈ ss.take i, x < s
  others : ∀ x ∈ ss.drop i, s ≤ x

theorem searchSlice_spec {ss : List α} (h : ss.Pairwise (· ≤ ·)) (s : α) :
    SplitsAt ss s (searchSlice ss s) := by
  have hfirst : FirstTrue ss.length (atLeast ss s) (searchSlice ss s) := by
    apply search_spec
    intro k l hkl hl hk
    have hklen := hkl.trans_lt hl
    rw [atLeast_eq hklen, decide_eq_true_eq] at hk
    rw [atLeast_eq hl, decide_eq_true_eq]
    rcases hkl.eq_or_lt with rfl | hkl
    · exact hk
    · exact hk.trans (pairwise_iff_getElem.mp h k l hklen hl hkl)
  refine ⟨fun x hx => ?_, fun x hx => ?_⟩
  · obtain ⟨k, hk, rfl⟩ := mem_take_iff_getElem.mp hx
    have hfalse := hfirst.before k (by omega)
    rw [atLeast_eq (by omega), decide_eq_false_iff_not] at hfalse
    exact not_le.mp hfalse
  · obtain ⟨k, hk, rfl⟩ := mem_drop_iff_getElem.mp hx
    have htrue := hfirst.from_on (searchSlice ss s + k) (by omega) (by omega)
    rw [atLeast_eq (by omega), decide_eq_true_eq] at htrue
    exact htrue

section SplitsAt
variable {ss : List α} {s : α} {i : Nat}

theorem SplitsAt.insert_sorted (h : SplitsAt ss s i) (hsorted : ss.Pairwise (· ≤ ·)) :
    (ss.take i ++ s :: ss.drop i).Pairwise (· ≤ ·) := by
  rw [pairwise_append, pairwise_cons]
  refine ⟨hsorted.sublist (take_sublist i ss),
    ⟨h.others, hsorted.sublist (drop_sublist i ss)⟩, fun x hx y hy => ?_⟩
  rcases mem_cons.mp hy with rfl | hy
  · exact (h.smaller x hx).le
  · exact (h.smaller x hx).le.trans (h.others y hy)

theorem SplitsAt.notMem_take (h : SplitsAt ss s i) : s ∉ ss.take i :=
  fun hs => lt_irrefl s (h.smaller s hs)

theorem SplitsAt.getElem? (h : SplitsAt ss s i) (hsorted : ss.Pairwise (· ≤ ·)) (hs : s ∈ ss) :
    ss[i]? = some s := by
  rw [← take_append_drop i ss] at hs
  have hmem := (mem_append.mp hs).resolve_left h.notMem_take
  have hdrop := hsorted.sublist (drop_sublist i ss)
  have hothers := h.others
  rw [← head?_drop]
  cases hlist : ss.drop i with
  | nil =>
    rw [hlist] at hmem
    cases hmem
  | cons x rest =>
    rw [hlist] at hmem hdrop hothers
    rcases mem_cons.mp hmem with rfl | hrest
    · rfl
    · rw [head?_cons, le_antisymm ((pairwise_cons.mp hdrop).1 s hrest) (hothers x mem_cons_self)]

end SplitsAt

end Go
