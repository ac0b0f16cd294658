import Mathlib.Order.Antisymmetrization
import GlobalScheduler.Go.HeapOrder
import GlobalScheduler.Go.Panic

/-! `container/heap` over a data structure of the caller's.

The functions of the package see the structure through `heap.Interface` only. Where the
structure stands for a slice, and `Less` and `Swap` do to it what they do to a slice, the
loops end without a panic and do to it what they do to a slice. -/
namespace Go.Heap

/-- The methods that the loops call. -/
structure Interface (σ : Type) where
  less : Nat → Nat → σ → Outcome Bool
  swap : Nat → Nat → σ → Outcome σ

namespace Interface
variable {σ : Type} (I : Interface σ)

def up (j : Nat) (s : σ) : Outcome σ :=
  if (j - 1) / 2 = j then pure s
  else do
    if ← I.less j ((j - 1) / 2) s then up ((j - 1) / 2) (← I.swap ((j - 1) / 2) j s)
    else pure s
termination_by j

/-- The child of `i` that goes first, among the first `n` places. -/
def child (i n : Nat) (s : σ) : Outcome { j // i < j } := do
  let second ← if 2 * i + 2 < n then I.less (2 * i + 2) (2 * i + 1) s else pure false
  if second then pure ⟨2 * i + 2, by omega⟩ else pure ⟨2 * i + 1, by omega⟩

/-- The structure, and where the element of place `i` has come to. -/
def down (i n : Nat) (s : σ) : Outcome (σ × Nat) :=
  if n ≤ 2 * i + 1 then pure (s, i)
  else do
    let j ← I.child i n s
    if ← I.less j i s then down j n (← I.swap i j s) else pure (s, i)
termination_by n - i
decreasing_by
  have := j.2
  omega

/-- `if !down(h, i, n) { up(h, i) }`. -/
def settle (i n : Nat) (s : σ) : Outcome σ := do
  let (s, i') ← I.down i n s
  if i < i' then pure s else I.up i s

end Interface

/-- `Less` and `Swap` of a structure that stands for a slice. -/
structure Contract {σ α : Type} (I : Interface σ) (less : α → α → Bool) (stands : σ → List α → Prop) : Prop where
  less : ∀ {s l i j}, stands s l → i < l.length → j < l.length → I.less i j s = .ok (lessAt less l i j)
  swap : ∀ {s l i j}, stands s l → i < l.length → j < l.length →
    ∃ s', I.swap i j s = .ok s' ∧ stands s' (swap i j l)

variable {σ α : Type} {I : Interface σ} {less : α → α → Bool} {stands : σ → List α → Prop} {s : σ} {l : List α}
  {i j n : Nat}

theorem Contract.up (hI : Contract I less stands) (h : stands s l) (hj : j < l.length) :
    ∃ s', I.up j s = .ok s' ∧ stands s' (up less j l) := by
  revert s
  fun_induction Heap.up less j l with
  | case1 j l i hi =>
    intro s h
    rw [Interface.up, if_pos hi]
    exact ⟨s, rfl, h⟩
  | case2 j l i hi hless ih =>
    intro s h
    obtain ⟨s₁, hswap, hs₁⟩ := hI.swap h (show (j - 1) / 2 < l.length by omega) hj
    obtain ⟨s', hup, hs'⟩ := ih (by rw [swap_length]; omega) hs₁
    rw [Interface.up, if_neg hi, hI.less h hj (by omega), hless]
    exact ⟨s', Outcome.bind_ok.mpr ⟨true, rfl, Outcome.bind_ok.mpr ⟨s₁, hswap, hup⟩⟩, hs'⟩
  | case3 j l i hi hless =>
    intro s h
    rw [Interface.up, if_neg hi, hI.less h hj (by omega), eq_false_of_ne_true hless]
    exact ⟨s, rfl, h⟩

theorem Contract.child (hI : Contract I less stands) (h : stands s l) (hn : n ≤ l.length) :
    ∃ hlt, I.child i n s = .ok ⟨child less l i n, hlt⟩ := by
  unfold Interface.child Heap.child
  by_cases hsecond : 2 * i + 2 < n
  · rw [if_pos hsecond, hI.less h (by omega) (by omega)]
    cases lessAt less l (2 * i + 2) (2 * i + 1) <;> simp [hsecond] <;> exact ⟨by omega, rfl⟩
  · rw [if_neg hsecond]
    simp only [hsecond, false_and, if_false]
    exact ⟨by omega, rfl⟩

theorem Contract.down (hI : Contract I less stands) (h : stands s l) (hn : n ≤ l.length) :
    ∃ s', I.down i n s = .ok (s', (down less i n l).2) ∧ stands s' (down less i n l).1 := by
  fun_induction Heap.down less i n l generalizing s with
  | case1 i l hend =>
    rw [Interface.down, if_pos hend]
    exact ⟨s, rfl, h⟩
  | case2 i l hend hless ih =>
    obtain ⟨hlt, hchild⟩ := hI.child (i := i) h hn
    have hc : Heap.child less l i n < n := child_lt (by omega)
    obtain ⟨s₁, hswap, hs₁⟩ := hI.swap h (show i < l.length by omega) (Nat.lt_of_lt_of_le hc hn)
    obtain ⟨s', hdown, hs'⟩ := ih hs₁ (by rwa [swap_length])
    rw [Interface.down, if_neg hend, hchild]
    refine ⟨s', Outcome.bind_ok.mpr ⟨_, rfl, Outcome.bind_ok.mpr ⟨true, ?_, ?_⟩⟩, hs'⟩
    · rw [hI.less h (Nat.lt_of_lt_of_le hc hn) (by omega), hless]
    · exact Outcome.bind_ok.mpr ⟨s₁, hswap, hdown⟩
  | case3 i l hend hless =>
    obtain ⟨hlt, hchild⟩ := hI.child (i := i) h hn
    have hc : Heap.child less l i n < n := child_lt (by omega)
    rw [Interface.down, if_neg hend, hchild]
    refine ⟨s, Outcome.bind_ok.mpr ⟨_, rfl, Outcome.bind_ok.mpr ⟨false, ?_, rfl⟩⟩, h⟩
    rw [hI.less h (Nat.lt_of_lt_of_le hc hn) (by omega), eq_false_of_ne_true hless]

theorem Contract.settle (hI : Contract I less stands) (h : stands s l) (hn : n ≤ l.length) (hi : i < l.length) :
    ∃ s', I.settle i n s = .ok s' ∧ stands s' (settle less i n l) := by
  obtain ⟨s₁, hdown, hs₁⟩ := hI.down (i := i) h hn
  unfold Interface.settle Heap.settle
  rw [hdown]
  by_cases hmoved : i < (Heap.down less i n l).2
  · exact ⟨s₁, if_pos hmoved, by simpa [hmoved] using hs₁⟩
  · obtain ⟨s', hup, hs'⟩ := hI.up hs₁ (j := i) (by rwa [(down_perm less i n l).length_eq])
    exact ⟨s', (if_neg hmoved).trans hup, by simpa [hmoved] using hs'⟩

/-! ### Strict weak orders -/

/-- Elements of which neither is less are alike. -/
structure StrictWeak (less : α → α → Bool) : Prop where
  irrefl : ∀ a, less a a = false
  trans : ∀ a b c, less a b = true → less b c = true → less a c = true
  alike : ∀ a b c, less a b = false → less b a = false → less b c = false → less c b = false →
    less a c = false ∧ less c a = false

theorem StrictWeak.not_less_trans (h : StrictWeak less) {a b c : α} (hba : less b a = false)
    (hcb : less c b = false) : less c a = false := by
  by_contra hca
  rw [Bool.not_eq_false] at hca
  have hab : less a b = false := by
    by_contra hab
    rw [h.trans c a b hca (eq_true_of_ne_false hab)] at hcb
    cases hcb
  have hbc : less b c = false := by
    by_contra hbc
    rw [h.trans b c a (eq_true_of_ne_false hbc) hca] at hba
    cases hba
  rw [(h.alike a b c hab hba hbc hcb).2] at hca
  cases hca

theorem StrictWeak.exists_rank (h : StrictWeak less) : ∃ (β : Type) (_ : LinearOrder β) (rank : α → β),
    Agrees less rank ∧ ∀ a b, rank a ≤ rank b → less b a = false := by
  classical
  let order : Preorder α := {
    le := fun a b => less b a = false
    le_refl := h.irrefl
    le_trans := fun _ _ _ hab hbc => h.not_less_trans hab hbc }
  have htotal : Std.Total (α := α) (· ≤ ·) := ⟨fun a b => by
    by_contra hneither
    obtain ⟨hba, hab⟩ := not_or.mp hneither
    have hirrefl := h.trans a b a (eq_true_of_ne_false hab) (eq_true_of_ne_false hba)
    rw [h.irrefl] at hirrefl
    cases hirrefl⟩
  refine ⟨Antisymmetrization α (· ≤ ·), inferInstance, toAntisymmetrization (· ≤ ·), ⟨?_, ?_⟩, ?_⟩
  · intro a b hab
    refine toAntisymmetrization_le_toAntisymmetrization_iff.mpr ?_
    show less b a = false
    by_contra hba
    have hirrefl := h.trans a b a hab (eq_true_of_ne_false hba)
    rw [h.irrefl] at hirrefl
    cases hirrefl
  · exact fun a b hab => toAntisymmetrization_le_toAntisymmetrization_iff.mpr hab
  · exact fun a b hab => toAntisymmetrization_le_toAntisymmetrization_iff.mp hab

end Go.Heap
