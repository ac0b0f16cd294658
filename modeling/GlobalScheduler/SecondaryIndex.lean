import Mathlib.Logic.Function.Basic

/-! A secondary index.

Every item has a home or none, and an index lists the items of each home. A call files an
item under another home and takes it from the home it believes it to be in. -/
namespace SecondaryIndex

variable {K R : Type}

/-- The index has every item under its home, and nowhere else. -/
def Agrees (index : R → K → Prop) (home : K → Option R) : Prop := ∀ r k, index r k ↔ home k = some r

/-- What a call does to the index: the item goes from one home, and to another. -/
def Refiles (item : K) (leaves enters : Option R) (index index' : R → K → Prop) : Prop :=
  ∀ r k, index' r k ↔ index r k ∧ ¬ (leaves = some r ∧ k = item) ∨ enters = some r ∧ k = item

variable [DecidableEq K] {index index' : R → K → Prop} {home : K → Option R} {item : K} {leaves enters : Option R}

/-- **The index still agrees exactly if the item left its home, or is to stay there.** -/
theorem Agrees.refiles_iff (h : Agrees index home) (hrefiles : Refiles item leaves enters index index') :
    Agrees index' (Function.update home item enters) ↔
      ∀ r, home item = some r → leaves = some r ∨ enters = some r := by
  constructor
  · intro hagrees r hr
    by_contra hneither
    have hfiled : index' r item := by
      refine (hrefiles r item).mpr (Or.inl ⟨(h r item).mpr hr, fun hleaves => ?_⟩)
      exact hneither (Or.inl hleaves.1)
    have henters := (hagrees r item).mp hfiled
    rw [Function.update_self] at henters
    exact hneither (Or.inr henters)
  · intro hleft r k
    rw [hrefiles r k]
    by_cases hk : k = item
    · subst hk
      rw [Function.update_self, h r k]
      constructor
      · intro hfiled
        cases hfiled with
        | inl hstays => exact (hleft r hstays.1).resolve_left fun hleaves => hstays.2 ⟨hleaves, rfl⟩
        | inr henters => exact henters.1
      · exact fun henters => Or.inr ⟨henters, rfl⟩
    · rw [Function.update_of_ne hk, ← h r k]
      simp [hk]

end SecondaryIndex
