import Mathlib.Data.Multiset.AddSub

/-! Deleting from a slice whose order does not matter.

The last element takes the place of the one that goes, and the slice is cut by one. -/
namespace Go

open List

variable {α β : Type}

/-- The first element with the property is deleted. -/
def swapDelete (p : α → Bool) (l : List α) : List α :=
  match l.findIdx? p, l.getLast? with
  | some idx, some last => (l.set idx last).dropLast
  | _, _ => l

theorem swapDelete_of_none {p : α → Bool} {l : List α} (h : l.findIdx? p = none) :
    swapDelete p l = l := by
  rw [swapDelete, h]

/-- The other elements stay, in another order. -/
theorem swapDelete_perm {p : α → Bool} {l : List α} {idx : Nat} (h : l.findIdx? p = some idx) :
    (swapDelete p l).Perm (l.eraseIdx idx) := by
  obtain ⟨hidx, -⟩ := findIdx?_eq_some_iff_getElem.mp h
  obtain ⟨last, hlast⟩ : ∃ last, l.getLast? = some last :=
    ⟨_, getLast?_eq_getLast_of_ne_nil (ne_nil_of_length_pos (Nat.zero_lt_of_lt hidx))⟩
  have hset : swapDelete p l = (l.set idx last).dropLast := by rw [swapDelete, h, hlast]
  rw [hset]
  obtain ⟨init, rfl⟩ := getLast?_eq_some_iff.mp hlast
  rw [length_append, length_singleton] at hidx
  by_cases hlt : idx < init.length
  · rw [set_append_left _ _ hlt, dropLast_concat, eraseIdx_append_of_lt_length hlt]
    exact (set_perm_cons_eraseIdx hlt last).trans (perm_append_singleton last _).symm
  · obtain rfl : idx = init.length := by omega
    rw [set_append_right _ _ (Nat.le_refl _), eraseIdx_append_of_length_le (Nat.le_refl _), Nat.sub_self]
    simp

/-- **By keys** it is the erasure of one element. -/
theorem swapDelete_keys [DecidableEq β] (key : α → β) (k : β) (l : List α) :
    ((swapDelete (key · = k) l).map key : Multiset β) = (l.map key : Multiset β).erase k := by
  cases h : l.findIdx? (key · = k) with
  | none =>
    have habsent : k ∉ (l.map key : Multiset β) := by
      simpa [findIdx?_eq_none_iff] using h
    rw [swapDelete_of_none h, Multiset.erase_of_notMem habsent]
  | some idx =>
    obtain ⟨hidx, hkey, -⟩ := findIdx?_eq_some_iff_getElem.mp h
    have hkey := of_decide_eq_true hkey
    have hsplit : (l.map key).Perm (k :: (l.eraseIdx idx).map key) := by
      simpa only [map_cons, hkey] using ((getElem_cons_eraseIdx_perm hidx).map key).symm
    rw [Multiset.coe_eq_coe.mpr hsplit, Multiset.coe_eq_coe.mpr ((swapDelete_perm h).map key)]
    exact (Multiset.erase_cons_head k _).symm

end Go
