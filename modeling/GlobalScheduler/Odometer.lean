import Mathlib.Algebra.BigOperators.Group.List.Basic

/-! Counting through all tuples of bounded numbers.

The digits of an odometer are numbers below given bounds. `tuples` lists all its
positions in the order in which it counts, which is the lexicographic one, and
`tuplesFrom` those from a given position on. -/
namespace Odometer

open List

/-- All positions, the last digit moving fastest. -/
def tuples : List Nat → List (List Nat)
  | [] => [[]]
  | len :: lens => (range len).flatMap fun k => (tuples lens).map (k :: ·)

/-- The positions whose first digit is `k` at least. -/
def tuplesAbove (len k : Nat) (lens : List Nat) : List (List Nat) :=
  (range' k (len - k)).flatMap fun j => (tuples lens).map (j :: ·)

def tuplesFrom : List Nat → List Nat → List (List Nat)
  | len :: lens, k :: ix => (tuplesFrom lens ix).map (k :: ·) ++ tuplesAbove len (k + 1) lens
  | _, _ => [[]]

/-- Each digit is below its bound. -/
def Within (lens ix : List Nat) : Prop := List.Forall₂ (· < ·) ix lens

variable {lens ix : List Nat} {len k : Nat}

theorem within_iff : Within lens ix ↔ ix.length = lens.length ∧
    ∀ (j len k : Nat), lens[j]? = some len → ix[j]? = some k → k < len := by
  rw [Within, forall₂_iff_get]
  refine and_congr_right fun _ => ?_
  constructor
  · intro h j len k hlen hk
    obtain ⟨hj, rfl⟩ := List.getElem?_eq_some_iff.mp hk
    obtain ⟨hj', rfl⟩ := List.getElem?_eq_some_iff.mp hlen
    exact h j hj hj'
  · intro h j hj hj'
    exact h j _ _ (getElem?_eq_getElem hj') (getElem?_eq_getElem hj)

theorem mem_tuples : ix ∈ tuples lens ↔ Within lens ix := by
  unfold Within
  induction lens generalizing ix with
  | nil => simp [tuples, forall₂_nil_right_iff]
  | cons len lens ih =>
    rw [forall₂_cons_right_iff]
    simp only [tuples, mem_flatMap, mem_range, mem_map, ih]
    constructor
    · rintro ⟨k, hk, ix', hix', rfl⟩
      exact ⟨k, ix', hk, hix', rfl⟩
    · rintro ⟨k, ix', hk, hix', rfl⟩
      exact ⟨k, hk, ix', hix', rfl⟩

theorem length_tuples (lens : List Nat) : (tuples lens).length = lens.prod := by
  induction lens with
  | nil => rfl
  | cons len lens ih => simp [tuples, length_flatMap, ih]

theorem tuples_pairwise (lens : List Nat) : (tuples lens).Pairwise (· < ·) := by
  induction lens with
  | nil => exact pairwise_singleton _ _
  | cons len lens ih =>
    rw [tuples, pairwise_flatMap]
    constructor
    · intro k _
      rw [pairwise_map]
      exact ih.imp fun h => List.Lex.cons h
    · refine pairwise_lt_range.imp fun {j k} hjk => ?_
      intro x hx y hy
      obtain ⟨ix, -, rfl⟩ := mem_map.mp hx
      obtain ⟨ix', -, rfl⟩ := mem_map.mp hy
      exact List.Lex.rel hjk

theorem tuplesAbove_of_le (h : len ≤ k) (lens : List Nat) : tuplesAbove len k lens = [] := by
  rw [tuplesAbove, Nat.sub_eq_zero_of_le h]
  rfl

theorem tuplesAbove_of_lt (h : k < len) (lens : List Nat) :
    tuplesAbove len k lens = (tuples lens).map (k :: ·) ++ tuplesAbove len (k + 1) lens := by
  obtain ⟨rest, rfl⟩ := Nat.exists_eq_add_of_lt h
  have hlen : k + rest + 1 - k = rest + 1 := by omega
  have hrest : k + rest + 1 - (k + 1) = rest := by omega
  rw [tuplesAbove, tuplesAbove, hlen, hrest, range'_succ, flatMap_cons]

theorem tuplesFrom_zero (h : ∀ len ∈ lens, 0 < len) :
    tuplesFrom lens (lens.map fun _ => 0) = tuples lens := by
  induction lens with
  | nil => rfl
  | cons len lens ih =>
    have hpos : 0 < len := h len mem_cons_self
    have hrest := ih fun len' hlen' => h len' (mem_cons_of_mem len hlen')
    rw [map_cons, tuplesFrom, hrest, ← tuplesAbove_of_lt hpos, tuplesAbove, Nat.sub_zero,
      ← range_eq_range', tuples]

theorem Within.pos (h : Within lens ix) : ∀ len ∈ lens, 0 < len := by
  induction h with
  | nil => simp
  | cons hk _ ih =>
    intro len hlen
    rcases mem_cons.mp hlen with rfl | hlen
    · exact Nat.zero_lt_of_lt hk
    · exact ih len hlen

end Odometer
