import Mathlib.Algebra.BigOperators.Group.Finset.Basic
import Mathlib.Data.List.AList

/-! Reference counts.

A map from values to counts stands for a multiset: it has an entry for exactly the
values that occur. Taking a value in counts it up, and taking it out counts it down and
drops the entry with the last occurrence. -/
namespace RefCount

open Multiset

variable {α β : Type} [DecidableEq α]

/-- The map has how often each value occurs, and no entry for the others. -/
def Counts (m : AList fun _ : α => Int) (s : Multiset α) : Prop :=
  ∀ a, m.lookup a = if a ∈ s then some (s.count a : Int) else none

def incr (m : AList fun _ : α => Int) (a : α) : AList fun _ : α => Int :=
  match m.lookup a with
  | some n => m.insert a (n + 1)
  | none => m.insert a 1

def decr (m : AList fun _ : α => Int) (a : α) : AList fun _ : α => Int :=
  match m.lookup a with
  | some n => if n ≤ 1 then m.erase a else m.insert a (n - 1)
  | none => m

section
variable {m : AList fun _ : α => Int} {s : Multiset α} {a : α}

theorem counts_empty : Counts (∅ : AList fun _ : α => Int) 0 := fun a => by simp

theorem Counts.incr (h : Counts m s) (a : α) : Counts (incr m a) (a ::ₘ s) := by
  intro b
  have ha := h a
  unfold RefCount.incr
  by_cases hb : b = a
  · subst hb
    by_cases hmem : b ∈ s
    · rw [ha, if_pos hmem]
      simp
    · rw [ha, if_neg hmem]
      simp [count_eq_zero_of_notMem hmem]
  · rw [count_cons_of_ne hb]
    simp only [mem_cons, hb, false_or, ← h b]
    split <;> exact AList.lookup_insert_ne hb

theorem Counts.decr (h : Counts m (a ::ₘ s)) : Counts (decr m a) s := by
  intro b
  have ha := h a
  rw [if_pos (mem_cons_self a s), count_cons_self] at ha
  unfold RefCount.decr
  rw [ha]
  dsimp only
  by_cases hb : b = a
  · subst hb
    by_cases hmem : b ∈ s
    · have hpos := one_le_count_iff_mem.mpr hmem
      rw [if_neg (by omega), if_pos hmem]
      simp
    · rw [count_eq_zero_of_notMem hmem]
      simp [hmem]
  · have hkeep := h b
    rw [count_cons_of_ne hb] at hkeep
    simp only [mem_cons, hb, false_or] at hkeep
    rw [← hkeep]
    split
    · exact AList.lookup_erase_ne hb
    · exact AList.lookup_insert_ne hb

theorem Counts.incrAll (h : Counts m s) (l : List α) : Counts (l.foldl RefCount.incr m) (l + s) := by
  induction l generalizing m s with
  | nil =>
    rw [coe_nil, zero_add]
    exact h
  | cons a rest ih =>
    rw [List.foldl_cons, ← cons_coe, cons_add, ← add_cons]
    exact ih (h.incr a)

theorem Counts.decrAll {l : List α} (h : Counts m (l + s)) : Counts (l.foldl RefCount.decr m) s := by
  induction l generalizing m with
  | nil =>
    rw [coe_nil, zero_add] at h
    exact h
  | cons a rest ih =>
    rw [← cons_coe, cons_add] at h
    exact ih h.decr

end

/-! ### The values of things that come and go -/

/-- The values that the things have, as often as they have them. -/
def occurrences {α β : Type} (values : β → List α) (things : Finset β) : Multiset α :=
  ∑ b ∈ things, (values b : Multiset α)

theorem mem_occurrences {α β : Type} {values : β → List α} {things : Finset β} {a : α} :
    a ∈ occurrences values things ↔ ∃ b ∈ things, a ∈ values b := by
  simp [occurrences, mem_sum]

variable {values : β → List α} {things : Finset β} {b : β}

theorem count_occurrences {a : α} (hb : b ∈ things) (hvalue : values b = [a])
    (hother : ∀ b' ∈ things, b' ≠ b → a ∉ values b') : (occurrences values things).count a = 1 := by
  rw [occurrences, count_sum', Finset.sum_eq_single_of_mem b hb]
  · simp [hvalue]
  · intro b' hb' hne
    exact count_eq_zero_of_notMem (hother b' hb' hne)

variable [DecidableEq β] {m : AList fun _ : α => Int}

theorem Counts.insert (h : Counts m (occurrences values things)) (hb : b ∉ things) :
    Counts ((values b).foldl RefCount.incr m) (occurrences values (Insert.insert b things)) := by
  unfold occurrences
  rw [Finset.sum_insert hb]
  exact h.incrAll (values b)

theorem Counts.erase (h : Counts m (occurrences values things)) (hb : b ∈ things) :
    Counts ((values b).foldl RefCount.decr m) (occurrences values (things.erase b)) := by
  unfold occurrences at h
  rw [← Finset.add_sum_erase things _ hb] at h
  exact h.decrAll

end RefCount
