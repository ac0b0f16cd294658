import Mathlib.Logic.Equiv.Basic
import Mathlib.Order.WithBot
import GlobalScheduler.Go.Heap

/-! Heaps that are in order.

Where `less` agrees with a rank of the elements, the operations of `container/heap` keep
every element at or after its parent, so that the first element has the least rank. While
an operation is at work one place is out of order: an element that is put there may go
before its parent or after its children. -/
namespace Go.Heap

/-! ### Orders with a place left out -/

section Places
variable {γ : Type} {f : Nat → γ} {n i j : Nat}

theorem swapped_ne {k : Nat} (hi : k ≠ i) (hj : k ≠ j) : (f ∘ Equiv.swap i j) k = f k :=
  congrArg f (Equiv.swap_apply_of_ne_of_ne hi hj)

theorem swapped_left : (f ∘ Equiv.swap i j) i = f j := congrArg f (Equiv.swap_apply_left i j)

theorem swapped_right : (f ∘ Equiv.swap i j) j = f i := congrArg f (Equiv.swap_apply_right i j)

variable [Preorder γ]

/-- Of the first `n` places, none goes before its parent. -/
def OrderedTo (f : Nat → γ) (n : Nat) : Prop := ∀ k, 0 < k → k < n → f ((k - 1) / 2) ≤ f k

/-- All is in order but for the place `i` and its parent. -/
structure OrderedBelow (f : Nat → γ) (n i : Nat) : Prop where
  others : ∀ k, 0 < k → k < n → k ≠ i → f ((k - 1) / 2) ≤ f k
  through : ∀ k, 0 < k → k < n → (k - 1) / 2 = i → 0 < i → f ((i - 1) / 2) ≤ f k

/-- All is in order but for the place `i`, its parent and its children. -/
structure OrderedAround (f : Nat → γ) (n i : Nat) : Prop where
  others : ∀ k, 0 < k → k < n → k ≠ i → (k - 1) / 2 ≠ i → f ((k - 1) / 2) ≤ f k
  through : ∀ k, 0 < k → k < n → (k - 1) / 2 = i → 0 < i → f ((i - 1) / 2) ≤ f k

theorem OrderedTo.around (h : OrderedTo f n) (i : Nat) : OrderedAround f n i where
  others k hk hkn _ _ := h k hk hkn
  through k hk hkn hparent hi := by
    have hik := h k hk hkn
    rw [hparent] at hik
    exact (h i hi (by omega)).trans hik

theorem OrderedAround.congr {g : Nat → γ} (hsame : ∀ k, k ≠ i → f k = g k) (h : OrderedAround f n i) :
    OrderedAround g n i where
  others k hk hkn hki hparent := by
    rw [← hsame k hki, ← hsame _ hparent]
    exact h.others k hk hkn hki hparent
  through k hk hkn hparent hi := by
    rw [← hsame k (by omega), ← hsame _ (by omega)]
    exact h.through k hk hkn hparent hi

theorem OrderedTo.first_le (h : OrderedTo f n) {k : Nat} (hk : k < n) : f 0 ≤ f k := by
  induction k using Nat.strong_induction_on with
  | _ k ih =>
    by_cases hzero : k = 0
    · rw [hzero]
    · exact (ih ((k - 1) / 2) (by omega) (by omega)).trans (h k (by omega) hk)

theorem OrderedBelow.finish (h : OrderedBelow f n i) (hparent : 0 < i → f ((i - 1) / 2) ≤ f i) :
    OrderedTo f n := by
  intro k hk hkn
  by_cases hki : k = i
  · subst hki
    exact hparent hk
  · exact h.others k hk hkn hki

theorem OrderedAround.below (h : OrderedAround f n i)
    (hchildren : ∀ k, 0 < k → k < n → (k - 1) / 2 = i → f i ≤ f k) : OrderedBelow f n i where
  others k hk hkn hki := by
    by_cases hparent : (k - 1) / 2 = i
    · rw [hparent]
      exact hchildren k hk hkn hparent
    · exact h.others k hk hkn hki hparent
  through := h.through

theorem OrderedBelow.up (h : OrderedBelow f n j) (hi : i = (j - 1) / 2) (hj : 0 < j) (hjn : j < n)
    (hle : f j ≤ f i) : OrderedBelow (f ∘ Equiv.swap i j) n i where
  others k hk hkn hki := by
    by_cases hkj : k = j
    · subst hkj
      rw [← hi, swapped_left, swapped_right]
      exact hle
    rw [swapped_ne hki hkj]
    by_cases hparent : (k - 1) / 2 = j
    · rw [hparent, swapped_right, hi]
      exact h.through k hk hkn hparent hj
    have hik := h.others k hk hkn hkj
    by_cases hsibling : (k - 1) / 2 = i
    · rw [hsibling] at hik ⊢
      rw [swapped_left]
      exact hle.trans hik
    · rw [swapped_ne hsibling hparent]
      exact hik
  through k hk hkn hparent hpos := by
    rw [swapped_ne (by omega) (by omega)]
    have hii := h.others i hpos (by omega) (by omega)
    by_cases hkj : k = j
    · rw [hkj, swapped_right]
      exact hii
    · rw [swapped_ne (by omega) hkj]
      have hik := h.others k hk hkn hkj
      rw [hparent] at hik
      exact hii.trans hik

/-- One step down: the element of place `i` goes after that of its first child. -/
theorem OrderedAround.down {c : Nat} (h : OrderedAround f n i) (hc : (c - 1) / 2 = i) (hpos : 0 < c)
    (hcn : c < n) (hfirst : ∀ k, 0 < k → k < n → (k - 1) / 2 = i → f c ≤ f k) :
    OrderedAround (f ∘ Equiv.swap i c) n c where
  others k hk hkn hkc hparent := by
    by_cases hki : k = i
    · subst hki
      rw [swapped_ne (by omega) hparent, swapped_left]
      exact h.through c hpos hcn hc hk
    rw [swapped_ne hki hkc]
    by_cases hsibling : (k - 1) / 2 = i
    · rw [hsibling, swapped_left]
      exact hfirst k hk hkn hsibling
    · rw [swapped_ne hsibling hparent]
      exact h.others k hk hkn hki hsibling
  through k hk hkn hparent _ := by
    rw [hc, swapped_left, swapped_ne (by omega) (by omega)]
    have hck := h.others k hk hkn (by omega) (by omega)
    rwa [hparent] at hck

end Places

/-! ### The order of a slice -/

variable {α β : Type} {less : α → α → Bool} {rank : α → β} {h : List α} {i j n : Nat}

/-- The rank of the element of a place, after all others where there is none. -/
def rankAt (rank : α → β) (h : List α) (k : Nat) : WithTop β := (h[k]?).elim ⊤ fun x => (rank x : WithTop β)

theorem rankAt_of_some {x : α} (hx : h[i]? = some x) : rankAt rank h i = rank x := by
  rw [rankAt, hx, Option.elim_some]

theorem rankAt_congr {h' : List α} {k : Nat} (heq : h[k]? = h'[k]?) : rankAt rank h k = rankAt rank h' k := by
  rw [rankAt, heq, rankAt]

theorem rankAt_swap (hi : i < h.length) (hj : j < h.length) :
    rankAt rank (swap i j h) = rankAt rank h ∘ Equiv.swap i j := by
  funext k
  by_cases hkj : k = j
  · rw [hkj, swapped_right, rankAt, swap_getElem?_right h hi hj, rankAt]
  by_cases hki : k = i
  · rw [hki, swapped_left, rankAt, swap_getElem?_left h hi hj, rankAt]
  · rw [swapped_ne hki hkj]
    exact rankAt_congr (swap_getElem? h hki hkj)

theorem swap_length (i j : Nat) (h : List α) : (swap i j h).length = h.length := (swap_perm i j h).length_eq

theorem child_parent (less : α → α → Bool) (h : List α) (i n : Nat) : (child less h i n - 1) / 2 = i := by
  unfold child
  split <;> omega

theorem child_lt (hi : 2 * i + 1 < n) : child less h i n < n := by
  unfold child
  split
  · next hsecond => exact hsecond.1
  · exact hi

variable [LinearOrder β]

/-- No element goes before its parent. -/
def Ordered (rank : α → β) (h : List α) : Prop := OrderedTo (rankAt rank h) h.length

/-- The order of the elements is that of their ranks. -/
structure Agrees (less : α → α → Bool) (rank : α → β) : Prop where
  before : ∀ a b, less a b = true → rank a ≤ rank b
  after : ∀ a b, less a b = false → rank b ≤ rank a

section
variable (hagrees : Agrees less rank)
include hagrees

theorem Agrees.le_of_lessAt (hless : lessAt less h i j = true) : rankAt rank h i ≤ rankAt rank h j := by
  unfold lessAt at hless
  split at hless
  · next a b ha hb =>
    rw [rankAt_of_some ha, rankAt_of_some hb]
    exact WithTop.coe_le_coe.mpr (hagrees.before a b hless)
  · cases hless

theorem Agrees.le_of_not_lessAt (hless : lessAt less h i j = false)
    (hj : j < h.length) : rankAt rank h j ≤ rankAt rank h i := by
  unfold lessAt at hless
  cases ha : h[i]? with
  | none =>
    simp only [rankAt, ha, Option.elim_none]
    exact le_top
  | some a =>
    have hb := List.getElem?_eq_getElem hj
    rw [ha, hb] at hless
    rw [rankAt_of_some ha, rankAt_of_some hb]
    exact WithTop.coe_le_coe.mpr (hagrees.after a _ hless)

/-! ### The loops -/

theorem up_ordered (hn : n ≤ h.length) (hj : j < n)
    (hbelow : OrderedBelow (rankAt rank h) n j) : OrderedTo (rankAt rank (up less j h)) n := by
  fun_induction up less j h with
  | case1 j h i hi =>
    apply hbelow.finish
    intro hpos
    omega
  | case2 j h i hi hless ih =>
    apply ih (by rwa [swap_length]) (by omega)
    rw [rankAt_swap (by omega) (by omega)]
    exact hbelow.up rfl (by omega) hj (hagrees.le_of_lessAt hless)
  | case3 j h i hi hless =>
    apply hbelow.finish
    intro hpos
    exact hagrees.le_of_not_lessAt (Bool.eq_false_iff.mpr hless) (by omega)

theorem child_first (hn : n ≤ h.length) {k : Nat} (hk : 0 < k) (hkn : k < n) (hparent : (k - 1) / 2 = i) :
    rankAt rank h (child less h i n) ≤ rankAt rank h k := by
  have hchildren : k = 2 * i + 1 ∨ k = 2 * i + 2 := by omega
  unfold child
  split
  · next hsecond =>
    cases hchildren with
    | inl hleft =>
      rw [hleft]
      exact hagrees.le_of_lessAt hsecond.2
    | inr hright => rw [hright]
  · next hfirst =>
    cases hchildren with
    | inl hleft => rw [hleft]
    | inr hright =>
      rw [hright]
      apply hagrees.le_of_not_lessAt _ (by omega)
      rw [← Bool.not_eq_true]
      intro hless
      exact hfirst ⟨by omega, hless⟩

/-- An element that moves down leaves all in order; one that stays is in order with its
children. -/
theorem down_ordered (hn : n ≤ h.length) (hi : i < n) (haround : OrderedAround (rankAt rank h) n i) :
    down less i n h = (h, i) ∧ OrderedBelow (rankAt rank h) n i ∨
      i < (down less i n h).2 ∧ OrderedTo (rankAt rank (down less i n h).1) n := by
  fun_induction down less i n h with
  | case1 i h hleaf =>
    refine Or.inl ⟨rfl, haround.below ?_⟩
    intro k hk hkn hparent
    omega
  | case2 i h hchild hless ih =>
    have hc := child_parent less h i n
    have hic := lt_child less h i n
    have hcn : child less h i n < n := child_lt (by omega)
    have hswapped : rankAt rank (swap i (child less h i n) h) =
        rankAt rank h ∘ Equiv.swap i (child less h i n) := rankAt_swap (by omega) (by omega)
    have hmoved := haround.down hc (by omega) hcn fun k => child_first hagrees hn
    rw [← hswapped] at hmoved
    right
    cases ih (by rwa [swap_length]) hcn hmoved with
    | inl hstays =>
      rw [hstays.1]
      refine ⟨hic, hstays.2.finish ?_⟩
      intro _
      rw [hc, hswapped, swapped_left, swapped_right]
      exact hagrees.le_of_lessAt hless
    | inr hmoves => exact ⟨hic.trans hmoves.1, hmoves.2⟩
  | case3 i h hchild hless =>
    refine Or.inl ⟨rfl, haround.below ?_⟩
    intro k hk hkn hparent
    have hic := hagrees.le_of_not_lessAt (Bool.eq_false_iff.mpr hless) (show i < h.length by omega)
    exact hic.trans (child_first hagrees hn hk hkn hparent)

theorem settle_ordered (hn : n ≤ h.length) (hi : i < n)
    (haround : OrderedAround (rankAt rank h) n i) : OrderedTo (rankAt rank (settle less i n h)) n := by
  unfold settle
  cases down_ordered hagrees hn hi haround with
  | inl hstays =>
    rw [hstays.1]
    show OrderedTo (rankAt rank (if i < i then h else up less i h)) n
    rw [if_neg (Nat.lt_irrefl i)]
    exact up_ordered hagrees hn hi hstays.2
  | inr hmoves =>
    show OrderedTo (rankAt rank (if i < (down less i n h).2 then (down less i n h).1 else _)) n
    rw [if_pos hmoves.1]
    exact hmoves.2

end

/-! ### The operations -/

theorem ordered_nil : Ordered rank ([] : List α) := by
  intro k _ hkn
  exact absurd hkn (Nat.not_lt_zero k)

theorem ordered_congr {rank' : α → β} (hrank : ∀ x ∈ h, rank x = rank' x) :
    Ordered rank h ↔ Ordered rank' h := by
  have hsame : rankAt rank h = rankAt rank' h := by
    funext k
    cases hx : h[k]? with
    | none => simp [rankAt, hx]
    | some x => rw [rankAt_of_some hx, rankAt_of_some hx, hrank x (List.mem_of_getElem? hx)]
  unfold Ordered
  rw [hsame]

theorem Ordered.map {g : β → β} (hg : Monotone g) (hordered : Ordered rank h) :
    Ordered (fun x => g (rank x)) h := by
  intro k hk hkn
  have hparent := List.getElem?_eq_getElem (show (k - 1) / 2 < h.length by omega)
  have hchild := List.getElem?_eq_getElem hkn
  have hle := hordered k hk hkn
  rw [rankAt_of_some hparent, rankAt_of_some hchild] at hle ⊢
  exact WithTop.coe_le_coe.mpr (hg (WithTop.coe_le_coe.mp hle))

theorem Ordered.head_le {x y : α} (hordered : Ordered rank h) (hx : h.head? = some x) (hy : y ∈ h) :
    rank x ≤ rank y := by
  obtain ⟨k, hk⟩ := List.mem_iff_getElem?.mp hy
  have hle := hordered.first_le (List.getElem?_eq_some_iff.mp hk).1
  rw [rankAt_of_some hk, rankAt_of_some ((List.head?_eq_getElem? ..).symm.trans hx)] at hle
  exact WithTop.coe_le_coe.mp hle

theorem ordered_dropLast (hordered : OrderedTo (rankAt rank h) (h.length - 1)) : Ordered rank h.dropLast := by
  intro k hk hkn
  rw [List.length_dropLast] at hkn
  have hsame : ∀ m ≤ k, rankAt rank h.dropLast m = rankAt rank h m := by
    intro m hm
    apply rankAt_congr
    rw [List.getElem?_dropLast, if_pos (by omega)]
  rw [hsame k le_rfl, hsame _ (by omega)]
  exact hordered k hk hkn

theorem push_ordered (hagrees : Agrees less rank) (hordered : Ordered rank h) (x : α) :
    Ordered rank (push less x h) := by
  have hlength : (push less x h).length = h.length + 1 := (push_perm less x h).length_eq
  have hsame : ∀ k < h.length, rankAt rank (h ++ [x]) k = rankAt rank h k :=
    fun k hk => rankAt_congr (List.getElem?_append_left hk)
  unfold Ordered
  rw [hlength]
  apply up_ordered hagrees (by simp) (Nat.lt_succ_self _)
  constructor
  · intro k hk hkn hne
    rw [hsame k (by omega), hsame _ (by omega)]
    exact hordered k hk (by omega)
  · intro k hk hkn hparent _
    omega

theorem fix_ordered (hagrees : Agrees less rank) (hi : i < h.length)
    (haround : OrderedAround (rankAt rank h) h.length i) : Ordered rank (fix less i h) := by
  unfold Ordered
  rw [(fix_perm less i h).length_eq]
  exact settle_ordered hagrees le_rfl hi haround

theorem pop_ordered (hagrees : Agrees less rank) (hordered : Ordered rank h) {x : α} {rest : List α}
    (hpop : pop less h = some (x, rest)) : Ordered rank rest := by
  obtain ⟨last, -, hrest⟩ := Option.map_eq_some_iff.mp hpop
  cases hrest
  have hlength : (down less 0 (h.length - 1) (swap 0 (h.length - 1) h)).1.length = h.length :=
    ((down_perm less 0 _ _).trans (swap_perm 0 _ h)).length_eq
  apply ordered_dropLast
  rw [hlength]
  by_cases hn : 0 < h.length - 1
  · have haround : OrderedAround (rankAt rank (swap 0 (h.length - 1) h)) (h.length - 1) 0 := by
      rw [rankAt_swap (by omega) (by omega)]
      constructor
      · intro k hk hkn hne hparent
        rw [swapped_ne hne (by omega), swapped_ne hparent (by omega)]
        exact hordered k hk (by omega)
      · intro k hk hkn hparent hpos
        omega
    cases down_ordered hagrees (by rw [swap_length]; omega) hn haround with
    | inl hstays =>
      rw [hstays.1]
      exact hstays.2.finish fun hpos => absurd hpos (Nat.lt_irrefl 0)
    | inr hmoves => exact hmoves.2
  · intro k hk hkn
    omega

theorem remove_ordered (hagrees : Agrees less rank) (hi : i < h.length)
    (haround : OrderedAround (rankAt rank h) h.length i) : Ordered rank (remove less i h) := by
  unfold remove
  dsimp only
  split
  · next hlast =>
    apply ordered_dropLast
    intro k hk hkn
    exact haround.others k hk (by omega) (by omega) (by omega)
  · next hne =>
    have hlength : (settle less i (h.length - 1) (swap i (h.length - 1) h)).length = h.length :=
      ((settle_perm less i _ _).trans (swap_perm i _ h)).length_eq
    apply ordered_dropLast
    rw [hlength]
    apply settle_ordered hagrees (by rw [swap_length]; omega) (by omega)
    rw [rankAt_swap hi (by omega)]
    constructor
    · intro k hk hkn hki hparent
      rw [swapped_ne hki (by omega), swapped_ne hparent (by omega)]
      exact haround.others k hk (by omega) hki hparent
    · intro k hk hkn hparent hpos
      rw [swapped_ne (by omega) (by omega), swapped_ne (by omega) (by omega)]
      exact haround.through k hk (by omega) hparent hpos

end Go.Heap
