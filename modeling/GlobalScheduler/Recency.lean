import Mathlib.Data.List.Perm.Subperm
import Mathlib.Data.List.Nodup

/-! Copies that catch up with a store.

A store lists its keys with the one updated last in front, and stamps each update with a
number that grows. A copy knows the stamp up to which it is current. To catch up it takes
the keys from the front for as long as their stamps are newer; that finds all of them if
the stamps fall along the list.

What is gone from the store is found by counting: as many keys go as the copy has more. -/
namespace Recency

open List

variable {K : Type}

/-! ### The list -/

/-- The keys that are found newer than a stamp, from the front up to the first that is not. -/
def reached (stamp : K → Nat) (since : Nat) (l : List K) : List K := l.takeWhile (since < stamp ·)

/-- The stamps fall along the list. -/
def NewestFirst (stamp : K → Nat) (l : List K) : Prop := l.Pairwise fun a b => stamp b < stamp a

variable {stamp stamp' : K → Nat} {since : Nat} {l : List K} {k k' : K}

theorem reached_cons_of_lt (h : since < stamp k) :
    reached stamp since (k :: l) = k :: reached stamp since l :=
  takeWhile_cons_of_pos (by simpa using h)

theorem reached_cons_of_le (h : stamp k ≤ since) : reached stamp since (k :: l) = [] :=
  takeWhile_cons_of_neg (by simpa using h)

theorem NewestFirst.mem_reached (h : NewestFirst stamp l) (hk : k ∈ l) :
    k ∈ reached stamp since l ↔ since < stamp k := by
  induction l with
  | nil => cases hk
  | cons first l ih =>
    obtain ⟨hfirst, hrest⟩ := pairwise_cons.mp h
    by_cases hnew : since < stamp first
    · rw [reached_cons_of_lt hnew, mem_cons]
      cases mem_cons.mp hk with
      | inl heq => simp [heq, hnew]
      | inr hmem =>
        have hne : k ≠ first := fun heq => Nat.lt_irrefl _ (heq ▸ hfirst k hmem)
        simp only [hne, false_or]
        exact ih hrest hmem
    · rw [reached_cons_of_le (Nat.le_of_not_lt hnew)]
      simp only [not_mem_nil, false_iff]
      cases mem_cons.mp hk with
      | inl heq => exact heq ▸ hnew
      | inr hmem => exact fun hlt => hnew (Nat.lt_trans hlt (hfirst k hmem))

variable [DecidableEq K]

def touch (k : K) (l : List K) : List K := k :: l.erase k

/-- A list of keys by their use, in some representation. A key that is new has no place in
the list before it is used. -/
class ByUse (K : outParam Type) (L : Type) extends EmptyCollection L where
  fresh : K → L → L
  touch : K → L → L
  drop : K → L → L

instance : ByUse K (List K) where
  fresh _ l := l
  touch := touch
  drop k l := l.erase k

theorem mem_touch : k' ∈ touch k l ↔ k' = k ∨ k' ∈ l := by
  by_cases h : k' = k
  · simp [touch, h]
  · simp [touch, h, mem_erase_of_ne h]

theorem nodup_touch (h : l.Nodup) : (touch k l).Nodup :=
  nodup_cons.mpr ⟨h.not_mem_erase, h.erase k⟩

theorem NewestFirst.erase (h : NewestFirst stamp l) (hothers : ∀ k' ≠ k, stamp' k' = stamp k')
    (hnodup : l.Nodup) : NewestFirst stamp' (l.erase k) := by
  refine (List.Pairwise.sublist erase_sublist h).imp_of_mem fun ha hb hlt => ?_
  rw [hothers _ (hnodup.mem_erase_iff.mp ha).1, hothers _ (hnodup.mem_erase_iff.mp hb).1]
  exact hlt

theorem NewestFirst.touch (h : NewestFirst stamp l) (hothers : ∀ k' ≠ k, stamp' k' = stamp k')
    (hnewest : ∀ k' ∈ l, stamp k' < stamp' k) (hnodup : l.Nodup) : NewestFirst stamp' (touch k l) := by
  refine pairwise_cons.mpr ⟨fun k' hk' => ?_, h.erase hothers hnodup⟩
  obtain ⟨hne, hmem⟩ := hnodup.mem_erase_iff.mp hk'
  rw [hothers k' hne]
  exact hnewest k' hmem

/-! ### What is gone -/

/-- As many of the keys that are not live as there are more keys than live ones. -/
def surplus (live keys : List K) : List K :=
  (keys.filter (· ∉ live)).take (keys.length - live.length)

variable {live keys : List K}

theorem not_mem_live_of_mem_surplus (h : k ∈ surplus live keys) : k ∉ live := by
  have hmem := mem_of_mem_take h
  simpa using (mem_filter.mp hmem).2

theorem mem_surplus (hkeys : keys.Nodup) (hlive : live.Nodup) (hsub : live ⊆ keys) :
    k ∈ surplus live keys ↔ k ∈ keys ∧ k ∉ live := by
  have hboth : (keys.filter (· ∈ live)).length = live.length := by
    refine List.Perm.length_eq ((perm_ext_iff_of_nodup (hkeys.filter _) hlive).mpr fun k => ?_)
    simp only [mem_filter, decide_eq_true_eq, and_iff_right_iff_imp]
    exact fun hk => hsub hk
  have hlength : (keys.filter (· ∉ live)).length = keys.length - live.length := by
    have hsum := length_eq_length_filter_add (l := keys) (· ∈ live)
    simp only [hboth, decide_not] at hsum ⊢
    omega
  rw [surplus, ← hlength, take_length, mem_filter, decide_eq_true_eq]

theorem length_le_kept (hkeys : keys.Nodup) (h : k ∈ surplus live keys) :
    live.length ≤ (keys.filter (· ∉ surplus live keys)).length := by
  have hgone : (keys.filter (· ∈ surplus live keys)).length ≤ (surplus live keys).length := by
    refine ((hkeys.filter _).subperm fun k hk => ?_).length_le
    simpa using (mem_filter.mp hk).2
  have hmost : (surplus live keys).length ≤ keys.length - live.length := length_take_le _ _
  have hsome : 0 < (surplus live keys).length := length_pos_of_mem h
  have hsum := length_eq_length_filter_add (l := keys) (· ∈ surplus live keys)
  simp only [decide_not] at hsum ⊢
  omega

end Recency
