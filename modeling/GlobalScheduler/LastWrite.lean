import Mathlib.Init

/-! The last write to a place.

A loop writes to many places, and the last write to a place is the one that stands.
`write` says what a round writes to the place one looks at, if anything; `read_foldl`
reduces what is there after the loop to what is there after one round. Rounds that are
loops themselves have a `latest` for their `write`.

Where the rounds have different keys and only the round of one key touches the place, the
loop does there what that round does (`read_foldl_keyed`). -/
namespace LastWrite

open List

variable {α β σ : Type} {write : α → Option β} {l : List α}

def latest (write : α → Option β) (l : List α) : Option β := l.reverse.findSome? write

theorem latest_append (l l' : List α) : latest write (l ++ l') = (latest write l').or (latest write l) := by
  rw [latest, reverse_append, findSome?_append]
  rfl

theorem latest_cons (a : α) (l : List α) : latest write (a :: l) = (latest write l).or (write a) := by
  simp [latest]

theorem latest_eq_none_iff : latest write l = none ↔ ∀ a ∈ l, write a = none := by
  simp [latest]

theorem exists_of_latest {b : β} (h : latest write l = some b) : ∃ a ∈ l, write a = some b := by
  obtain ⟨a, ha, hwrite⟩ := exists_of_findSome?_eq_some h
  exact ⟨a, mem_reverse.mp ha, hwrite⟩

/-- **What is there after a loop**: what was written last, or else what was there before. -/
theorem read_foldl {f : σ → α → σ} (read : σ → Option β)
    (round : ∀ s a, read (f s a) = (write a).or (read s)) (l : List α) (s : σ) :
    read (l.foldl f s) = (latest write l).or (read s) := by
  induction l generalizing s with
  | nil => rfl
  | cons a rest ih => rw [foldl_cons, ih, round, latest_cons, Option.or_assoc]

/-! ### Rounds with keys -/

section Keyed
variable {κ ρ : Type} {f : σ → α → σ} {key : α → κ} {read : σ → ρ} {k : κ}

theorem read_foldl_same (read : σ → ρ) (same : ∀ s a, read (f s a) = read s) (l : List α) (s : σ) :
    read (l.foldl f s) = read s := by
  induction l generalizing s with
  | nil => rfl
  | cons a rest ih => rw [foldl_cons, ih, same]

theorem read_foldl_others (others : ∀ s a, key a ≠ k → read (f s a) = read s) {l : List α}
    (hl : ∀ a ∈ l, key a ≠ k) (s : σ) : read (l.foldl f s) = read s := by
  induction l generalizing s with
  | nil => rfl
  | cons a rest ih =>
    rw [foldl_cons, ih fun b hb => hl b (mem_cons_of_mem a hb)]
    exact others s a (hl a mem_cons_self)

/-- **The one round that matters** finds the place as it was at the start and leaves it as
it is at the end. -/
theorem read_foldl_keyed (others : ∀ s a, key a ≠ k → read (f s a) = read s) {l : List α}
    (hnodup : (l.map key).Nodup) {a : α} (ha : a ∈ l) (hkey : key a = k) (s : σ) :
    ∃ s₁, read s₁ = read s ∧ read (l.foldl f s) = read (f s₁ a) := by
  induction l generalizing s with
  | nil => cases ha
  | cons b rest ih =>
    obtain ⟨hfresh, hnodup⟩ := nodup_cons.mp hnodup
    rw [foldl_cons]
    rcases mem_cons.mp ha with rfl | ha
    · refine ⟨s, rfl, read_foldl_others others ?_ _⟩
      intro c hc hck
      exact hfresh (mem_map.mpr ⟨c, hc, hck.trans hkey.symm⟩)
    · have hb : key b ≠ k := fun hbk =>
        hfresh (mem_map.mpr ⟨a, ha, hkey.trans hbk.symm⟩)
      obtain ⟨s₁, hs₁, hend⟩ := ih hnodup ha (f s b)
      exact ⟨s₁, hs₁.trans (others s b hb), hend⟩

end Keyed

end LastWrite
