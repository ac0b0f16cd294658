import Mathlib.Algebra.Order.BigOperators.Group.List
import Mathlib.Algebra.Order.Group.Int
import Mathlib.Algebra.Ring.Int.Defs

/-! 64-bit integers, which wrap around. -/
namespace Go

/-- What an `int64` holds after an operation with the exact result `n`. -/
def int64 (n : Int) : Int := (n + 0x8000000000000000) % 0x10000000000000000 - 0x8000000000000000

/-- `math.MaxInt64`. -/
def maxInt64 : Int := 0x7fffffffffffffff

/-- The exact result is one an `int64` holds. -/
def Fits64 (n : Int) : Prop := -0x8000000000000000 ≤ n ∧ n ≤ 0x7fffffffffffffff

theorem int64_of_fits {n : Int} (h : Fits64 n) : int64 n = n := by
  obtain ⟨hlow, hhigh⟩ := h
  rw [int64, Int.emod_eq_of_lt (by omega) (by omega)]
  omega

theorem int64_le {n : Int} (h : 0 ≤ n) : int64 n ≤ n := by
  unfold int64
  omega

theorem int64_add (m n : Int) : int64 (int64 m + n) = int64 (m + n) := by
  unfold int64
  omega

/-- A sum that wraps at every step is the exact one, wrapped once. -/
theorem foldl_int64_wrap {α : Type} (f : α → Int) (l : List α) (acc : Int) :
    l.foldl (fun acc a => int64 (acc + f a)) (int64 acc) = int64 (acc + (l.map f).sum) := by
  induction l generalizing acc with
  | nil => simp
  | cons a rest ih => rw [List.foldl_cons, int64_add, ih, List.map_cons, List.sum_cons, add_assoc]

theorem foldl_int64 {α : Type} {f : α → Int} {l : List α} {acc : Int} (hacc : Fits64 acc)
    (hsum : Fits64 (acc + (l.map f).sum)) :
    l.foldl (fun acc a => int64 (acc + f a)) acc = acc + (l.map f).sum := by
  rw [← int64_of_fits hsum, ← foldl_int64_wrap, int64_of_fits hacc]

theorem fits64_sum {l : List Int} {n : Nat} {b : Int} (hlen : l.length ≤ n) (hb : n * b ≤ 0x7fffffffffffffff)
    (h : ∀ x ∈ l, -b ≤ x ∧ x ≤ b) : Fits64 l.sum := by
  have hhigh : l.sum ≤ l.length • b := List.sum_le_card_nsmul l b fun x hx => (h x hx).2
  have hlow : l.length • (-b) ≤ l.sum := List.card_nsmul_le_sum l (-b) fun x hx => (h x hx).1
  rw [nsmul_eq_mul] at hhigh hlow
  cases l with
  | nil => simp [Fits64]
  | cons x rest =>
    have hx := h x List.mem_cons_self
    have hle : ((x :: rest).length : Int) * b ≤ n * b :=
      Int.mul_le_mul_of_nonneg_right (Int.ofNat_le.mpr hlen) (by omega)
    rw [mul_neg] at hlow
    exact ⟨by omega, by omega⟩

end Go
