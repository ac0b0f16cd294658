import Mathlib.Data.Set.Basic

/-! Consistent hashing.

Some points of a circle have an owner. A key belongs to the owner of the first point after
it: the least point that is greater, and the least of all if there is none. When points are
added, a key goes to an owner of the new points or stays where it is. -/
namespace HashRing

/-! ### Points and owners -/

section
variable {H O : Type} {circle circle' : H → Option O} {new : Set H} {owners : Set O}

def points (circle : H → Option O) : Set H := { point | circle point ≠ none }

/-- Points were given to some owners, and were perhaps taken from others. -/
structure Extends (circle circle' : H → Option O) (new : Set H) (owners : Set O) : Prop where
  given : ∀ point ∈ new, ∃ owner ∈ owners, circle' point = some owner
  others : ∀ point ∉ new, circle' point = circle point

theorem Extends.points_subset (h : Extends circle circle' new owners) : points circle ⊆ points circle' := by
  intro point hpoint hnone
  by_cases hnew : point ∈ new
  · obtain ⟨owner, -, howner⟩ := h.given point hnew
    rw [hnone] at howner
    cases howner
  · exact hpoint ((h.others point hnew).symm.trans hnone)

end

/-! ### The first point after a key -/

variable {H O : Type} [LinearOrder H] {ring ring' : Set H} {key point point' : H}

/-- The first point after the key, around the circle. -/
structure FirstAfter (ring : Set H) (key point : H) : Prop where
  mem : point ∈ ring
  first : ∀ p ∈ ring, key < p → key < point ∧ point ≤ p
  wraps : ¬ key < point → ∀ p ∈ ring, point ≤ p

theorem FirstAfter.unique (h : FirstAfter ring key point) (h' : FirstAfter ring key point') : point = point' := by
  by_cases hkey : key < point
  · obtain ⟨hkey', hle⟩ := h'.first point h.mem hkey
    exact le_antisymm (h.first point' h'.mem hkey').2 hle
  · have hkey' : ¬ key < point' := fun hlt => hkey (h.first point' h'.mem hlt).1
    exact le_antisymm (h.wraps hkey point' h'.mem) (h'.wraps hkey' point h.mem)

theorem FirstAfter.of_subset (h : FirstAfter ring' key point) (hsub : ring ⊆ ring') (hmem : point ∈ ring) :
    FirstAfter ring key point :=
  ⟨hmem, fun p hp => h.first p (hsub hp), fun hkey p hp => h.wraps hkey p (hsub hp)⟩

/-- The owner of the first point after the key. -/
def Owns (circle : H → Option O) (key : H) (owner : O) : Prop :=
  ∃ point, FirstAfter (points circle) key point ∧ circle point = some owner

variable {circle circle' : H → Option O} {new : Set H} {owners : Set O} {owner owner' : O}

theorem Owns.unique (h : Owns circle key owner) (h' : Owns circle key owner') : owner = owner' := by
  obtain ⟨point, hfirst, howner⟩ := h
  obtain ⟨point', hfirst', howner'⟩ := h'
  rw [hfirst.unique hfirst', howner'] at howner
  exact (Option.some.inj howner).symm

/-- **Only what comes to a new point moves**, and it moves to one of their owners. -/
theorem Extends.owns_cases (h : Extends circle circle' new owners) (howns : Owns circle' key owner') :
    (owner' ∈ owners ∧ ∃ point ∈ new, FirstAfter (points circle') key point) ∨ Owns circle key owner' := by
  obtain ⟨point, hfirst, howner⟩ := howns
  by_cases hnew : point ∈ new
  · obtain ⟨owner, hmem, hgiven⟩ := h.given point hnew
    rw [howner] at hgiven
    cases hgiven
    exact Or.inl ⟨hmem, point, hnew, hfirst⟩
  · have hold := (h.others point hnew).symm.trans howner
    have hpoint : point ∈ points circle := by
      intro hnone
      rw [hnone] at hold
      cases hold
    exact Or.inr ⟨point, hfirst.of_subset h.points_subset hpoint, hold⟩

end HashRing
