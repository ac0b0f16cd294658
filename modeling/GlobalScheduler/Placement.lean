import Mathlib.Data.Set.Insert

/-! Items at places.

Each item has an identity, and the identities that are pending should each have one item, at
one place. An operation that puts an item at a place and takes away what had its identity
keeps this, and so does one that drops an identity from everywhere; an operation that also
takes away an item of another identity does not. -/
namespace Placement

variable {P A I : Type} {ident : A → I} {held held' : P → Set A} {pending pending' : Set I}

/-- The pending identities are those that have an item, and each has one. -/
structure Exact (ident : A → I) (held : P → Set A) (pending : Set I) : Prop where
  listed : ∀ i, i ∈ pending ↔ ∃ p, ∃ a ∈ held p, ident a = i
  once : ∀ p p' a a', a ∈ held p → a' ∈ held p' → ident a = ident a' → p = p' ∧ a = a'

/-- An item is put at a place, and what had its identity is gone. -/
def Puts (ident : A → I) (held held' : P → Set A) (place : P) (item : A) : Prop :=
  ∀ p a, a ∈ held' p ↔ (p = place ∧ a = item) ∨ (a ∈ held p ∧ ident a ≠ ident item)

variable {place : P} {item : A}

theorem Puts.of_place (hplace : ∀ a, a ∈ held' place ↔ a = item ∨ a ∈ held place ∧ ident a ≠ ident item)
    (hothers : ∀ p ≠ place, ∀ a, a ∈ held' p ↔ a ∈ held p ∧ ident a ≠ ident item) :
    Puts ident held held' place item := by
  intro p a
  by_cases hp : p = place
  · subst hp
    rw [hplace]
    simp only [true_and]
  · rw [hothers p hp]
    simp [hp]

/-- What has the identity is gone. -/
def Drops (ident : A → I) (held held' : P → Set A) (i : I) : Prop :=
  ∀ p a, a ∈ held' p ↔ a ∈ held p ∧ ident a ≠ i

/-- Every item is still there, apart from those of an identity. -/
def OthersKept (ident : A → I) (held held' : P → Set A) (i : Option I) : Prop :=
  ∀ p a, a ∈ held p → some (ident a) ≠ i → ∃ p', a ∈ held' p'

theorem Puts.othersKept (h : Puts ident held held' place item) :
    OthersKept ident held held' (some (ident item)) := by
  intro p a ha hne
  exact ⟨p, (h p a).mpr (Or.inr ⟨ha, fun heq => hne (congrArg some heq)⟩)⟩

theorem Drops.othersKept {i : I} (h : Drops ident held held' i) : OthersKept ident held held' (some i) := by
  intro p a ha hne
  exact ⟨p, (h p a).mpr ⟨ha, fun heq => hne (congrArg some heq)⟩⟩

theorem Exact.puts (h : Exact ident held pending) (hputs : Puts ident held held' place item) :
    Exact ident held' (insert (ident item) pending) where
  listed i := by
    rw [Set.mem_insert_iff, h.listed]
    constructor
    · rintro (rfl | ⟨p, a, ha, rfl⟩)
      · exact ⟨place, item, (hputs place item).mpr (Or.inl ⟨rfl, rfl⟩), rfl⟩
      · by_cases hident : ident a = ident item
        · exact ⟨place, item, (hputs place item).mpr (Or.inl ⟨rfl, rfl⟩), hident.symm⟩
        · exact ⟨p, a, (hputs p a).mpr (Or.inr ⟨ha, hident⟩), rfl⟩
    · rintro ⟨p, a, ha, rfl⟩
      rcases (hputs p a).mp ha with ⟨-, rfl⟩ | ⟨ha, -⟩
      · exact Or.inl rfl
      · exact Or.inr ⟨p, a, ha, rfl⟩
  once p p' a a' ha ha' hident := by
    rcases (hputs p a).mp ha with ⟨rfl, rfl⟩ | ⟨ha, hne⟩
    · rcases (hputs p' a').mp ha' with ⟨rfl, rfl⟩ | ⟨-, hne'⟩
      · exact ⟨rfl, rfl⟩
      · exact absurd hident.symm hne'
    · rcases (hputs p' a').mp ha' with ⟨rfl, rfl⟩ | ⟨ha', -⟩
      · exact absurd hident hne
      · exact h.once p p' a a' ha ha' hident

theorem Exact.moves {p : P} (h : Exact ident held pending)
    (hitem : item ∈ held p) (hputs : Puts ident held held' place item) :
    Exact ident held' pending ∧ ∀ p a, a ∈ held p → ∃ p', a ∈ held' p' := by
  have hpending : ident item ∈ pending := (h.listed _).mpr ⟨p, item, hitem, rfl⟩
  refine ⟨?_, fun p' a ha => ?_⟩
  · have hexact := h.puts hputs
    rwa [Set.insert_eq_of_mem hpending] at hexact
  · by_cases hident : ident a = ident item
    · obtain ⟨-, rfl⟩ := h.once p' p a item ha hitem hident
      exact ⟨place, (hputs place a).mpr (Or.inl ⟨rfl, rfl⟩)⟩
    · exact ⟨p', (hputs p' a).mpr (Or.inr ⟨ha, hident⟩)⟩

theorem Exact.drops {i : I} (h : Exact ident held pending) (hdrops : Drops ident held held' i) :
    Exact ident held' (pending \ {i}) where
  listed j := by
    rw [Set.mem_sdiff, Set.mem_singleton_iff, h.listed]
    constructor
    · rintro ⟨⟨p, a, ha, rfl⟩, hne⟩
      exact ⟨p, a, (hdrops p a).mpr ⟨ha, hne⟩, rfl⟩
    · rintro ⟨p, a, ha, rfl⟩
      obtain ⟨ha, hne⟩ := (hdrops p a).mp ha
      exact ⟨⟨p, a, ha, rfl⟩, hne⟩
  once p p' a a' ha ha' hident :=
    h.once p p' a a' ((hdrops p a).mp ha).1 ((hdrops p' a').mp ha').1 hident

/-- An item is gone whose identity is still pending, and nothing came for it. -/
theorem Exact.not_of_lost {p : P} {a : A} (h : Exact ident held pending) (ha : a ∈ held p)
    (hgone : a ∉ held' p) (hcame : ∀ p' a', a' ∈ held' p' → ident a' = ident a → a' ∈ held p')
    (hpending : ident a ∈ pending') : ¬ Exact ident held' pending' := by
  intro h'
  obtain ⟨p', a', ha', hident⟩ := (h'.listed _).mp hpending
  obtain ⟨rfl, rfl⟩ := h.once p' p a' a (hcame p' a' ha' hident) ha hident
  exact hgone ha'

end Placement
