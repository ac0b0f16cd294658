import GlobalScheduler.Go.Map

/-! Go maps from keys to pointers.

In a `map[K]*V` two keys may hold the same pointer, and a write through one is
then seen through the other. A `RefMap` keeps the cells apart from the keys that
point at them; no pointer in it is nil or dangling. -/
namespace Go

open AList Map List

/-- A map whose values are pointers into `cells`. -/
structure RefMap (K V : Type) [DecidableEq K] where
  cells : List V
  ptr : Map K Nat
  valid : ∀ k i, ptr.lookup k = some i → i < cells.length

namespace RefMap
variable {K V : Type} [DecidableEq K]

instance [DecidableEq V] : DecidableEq (RefMap K V) := fun a b =>
  decidable_of_iff (a.cells = b.cells ∧ a.ptr = b.ptr) (by cases a; cases b; simp)

def empty : RefMap K V := ⟨[], ∅, by intro k i h; cases h⟩

/-- `*m[k]`, if the key is there. -/
def get? (m : RefMap K V) (k : K) : Option V := (m.ptr.lookup k).bind (m.cells[·]?)

/-- `m[k] = &v`, with a fresh cell. -/
def new (m : RefMap K V) (k : K) (v : V) : RefMap K V where
  cells := m.cells ++ [v]
  ptr := m.ptr.insert k m.cells.length
  valid := by
    intro k' i h
    rw [length_append, length_singleton]
    by_cases hk : k' = k
    · subst hk
      rw [lookup_insert] at h
      cases h
      exact Nat.lt_succ_self _
    · rw [lookup_insert_ne hk] at h
      exact Nat.lt_succ_of_lt (m.valid k' i h)

/-- `*m[k] = f(*m[k])`, seen by every key that shares the cell. -/
def modify (m : RefMap K V) (k : K) (f : V → V) : RefMap K V where
  cells := match m.ptr.lookup k with
    | none => m.cells
    | some i => m.cells.modify i f
  ptr := m.ptr
  valid := by
    intro k' i h
    split
    · exact m.valid k' i h
    · rw [length_modify]
      exact m.valid k' i h

/-- `m[k'] = m[k]`: the two keys share a cell from now on. -/
def share (m : RefMap K V) (k k' : K) : RefMap K V where
  cells := m.cells
  ptr := match m.ptr.lookup k with
    | none => m.ptr
    | some i => m.ptr.insert k' i
  valid := by
    intro k'' i h
    split at h
    · exact m.valid k'' i h
    case h_2 j hj =>
      by_cases hk : k'' = k'
      · subst hk
        rw [lookup_insert] at h
        cases h
        exact m.valid k _ hj
      · rw [lookup_insert_ne hk] at h
        exact m.valid k'' i h

theorem get?_new_self (m : RefMap K V) (k : K) (v : V) : (m.new k v).get? k = some v := by
  simp [get?, new]

variable {k : K} {m : RefMap K V}

theorem mem_new {k' : K} {v : V} : k' ∈ (m.new k v).ptr ↔ k' = k ∨ k' ∈ m.ptr :=
  mem_insert m.ptr

theorem get?_isSome : (m.get? k).isSome ↔ k ∈ m.ptr := by
  unfold get?
  cases h : m.ptr.lookup k with
  | none => simp [lookup_eq_none.mp h]
  | some i =>
    have hk : k ∈ m.ptr := mem_of_lookup h
    simp [hk, m.valid k i h]

/-- Writing through a key and storing its pointer under the same key changes that
key's value. -/
theorem get?_modify_share_self (m : RefMap K V) (k : K) (f : V → V) :
    ((m.modify k f).share k k).get? k = (m.get? k).map f := by
  cases h : m.ptr.lookup k with
  | none | some i => simp [get?, modify, share, h]

theorem mem_modify_share_self {k' : K} {f : V → V} : k' ∈ ((m.modify k f).share k k).ptr ↔ k' ∈ m.ptr := by
  cases h : m.ptr.lookup k with
  | none => simp [modify, share, h]
  | some i =>
    have hk : k ∈ m.ptr := mem_of_lookup h
    simp only [share, modify, h, mem_insert]
    constructor
    · rintro (rfl | hk')
      · exact hk
      · exact hk'
    · exact Or.inr

theorem lookup_modify_share (hk : k ∈ m.ptr) (k' : K) (f : V → V) (key : K) :
    ((m.modify k f).share k k').ptr.lookup key =
      if key = k' then m.ptr.lookup k else m.ptr.lookup key := by
  obtain ⟨i, hi⟩ := exists_lookup hk
  have hptr : ((m.modify k f).share k k').ptr = m.ptr.insert k' i := by
    simp [share, modify, hi]
  rw [hptr]
  split
  case isTrue heq => rw [heq, lookup_insert, hi]
  case isFalse hne => rw [lookup_insert_ne hne]

theorem cells_modify_share (m : RefMap K V) (k k' : K) (f : V → V) (i : Nat) :
    ((m.modify k f).share k k').cells[i]? =
      if m.ptr.lookup k = some i then m.cells[i]?.map f else m.cells[i]? := by
  show (m.modify k f).cells[i]? = _
  cases hk : m.ptr.lookup k with
  | none => simp [modify, hk]
  | some j =>
    simp only [modify, hk, getElem?_modify, Option.some.injEq]
    by_cases hj : j = i <;> simp [hj]

/-! ### Maps in which every key has a cell of its own -/

/-- `delete(m, k)`. The cell stays, for those who still hold the pointer. -/
def erase (m : RefMap K V) (k : K) : RefMap K V where
  cells := m.cells
  ptr := m.ptr.erase k
  valid := by
    intro k' i h
    by_cases hk : k' = k
    · subst hk
      rw [lookup_erase] at h
      cases h
    · rw [lookup_erase_ne hk] at h
      exact m.valid k' i h

/-- `*m[k] = v`, after `m[k] = new(V)` if the key was not there. -/
def write (m : RefMap K V) (k : K) (v : V) : RefMap K V :=
  if k ∈ m.ptr then m.modify k fun _ => v else m.new k v

/-- No two keys point at one cell. -/
def Apart (m : RefMap K V) : Prop :=
  ∀ k k' i, m.ptr.lookup k = some i → m.ptr.lookup k' = some i → k = k'

variable {m : RefMap K V}

theorem apart_empty : (empty : RefMap K V).Apart := by
  intro k k' i h
  cases h

theorem Apart.erase (h : m.Apart) (k : K) : (m.erase k).Apart := by
  have hlook : ∀ k' i, (m.erase k).ptr.lookup k' = some i → m.ptr.lookup k' = some i := by
    intro k' i hk'
    by_cases heq : k' = k
    · subst heq
      simp [RefMap.erase] at hk'
    · rwa [RefMap.erase, lookup_erase_ne heq] at hk'
  intro k₁ k₂ i h₁ h₂
  exact h k₁ k₂ i (hlook k₁ i h₁) (hlook k₂ i h₂)

theorem get?_erase (k k' : K) : (m.erase k).get? k' = if k' = k then none else m.get? k' := by
  split
  case isTrue heq =>
    subst heq
    simp [get?, RefMap.erase]
  case isFalse hne => simp [get?, RefMap.erase, lookup_erase_ne hne]

theorem get?_foldl_erase (ks : List K) (k : K) : (ks.foldl erase m).get? k = if k ∈ ks then none else m.get? k := by
  induction ks generalizing m with
  | nil => simp
  | cons first ks ih =>
    rw [foldl_cons, ih, get?_erase]
    by_cases hk : k = first <;> simp [hk]

theorem Apart.foldl_erase (h : m.Apart) (ks : List K) : (ks.foldl RefMap.erase m).Apart := by
  induction ks generalizing m with
  | nil => exact h
  | cons first ks ih => exact ih (h.erase first)

theorem ptr_write_of_mem (h : k ∈ m.ptr) (v : V) : (m.write k v).ptr = m.ptr := by
  rw [write, if_pos h]
  rfl

theorem ptr_write_of_not_mem (h : k ∉ m.ptr) (v : V) : (m.write k v).ptr = m.ptr.insert k m.cells.length := by
  rw [write, if_neg h]
  rfl

theorem Apart.write (h : m.Apart) (k : K) (v : V) : (m.write k v).Apart := by
  by_cases hk : k ∈ m.ptr
  · intro k₁ k₂ i
    rw [ptr_write_of_mem hk]
    exact h k₁ k₂ i
  · -- The new cell is beyond those any other key points at.
    have hnew : ∀ k' i, k' ≠ k → (m.write k v).ptr.lookup k' = some i →
        m.ptr.lookup k' = some i ∧ i < m.cells.length := by
      intro k' i hne hlook
      rw [ptr_write_of_not_mem hk, lookup_insert_ne hne] at hlook
      exact ⟨hlook, m.valid k' i hlook⟩
    have hself : (m.write k v).ptr.lookup k = some m.cells.length := by
      rw [ptr_write_of_not_mem hk, lookup_insert]
    intro k₁ k₂ i h₁ h₂
    by_cases heq₁ : k₁ = k <;> by_cases heq₂ : k₂ = k
    · rw [heq₁, heq₂]
    · rw [heq₁, hself] at h₁
      have hlt := (hnew k₂ i heq₂ h₂).2
      cases h₁
      exact absurd hlt (Nat.lt_irrefl _)
    · rw [heq₂, hself] at h₂
      have hlt := (hnew k₁ i heq₁ h₁).2
      cases h₂
      exact absurd hlt (Nat.lt_irrefl _)
    · exact h k₁ k₂ i (hnew k₁ i heq₁ h₁).1 (hnew k₂ i heq₂ h₂).1

theorem Apart.get?_write (h : m.Apart) (k k' : K) (v : V) :
    (m.write k v).get? k' = if k' = k then some v else m.get? k' := by
  by_cases hk : k ∈ m.ptr
  · obtain ⟨i, hi⟩ := exists_lookup hk
    have hlt := m.valid k i hi
    have hcells : (m.write k v).cells = m.cells.modify i fun _ => v := by
      rw [RefMap.write, if_pos hk]
      simp [modify, hi]
    simp only [get?, ptr_write_of_mem hk, hcells]
    split
    case isTrue heq =>
      subst heq
      simp [hi, hlt]
    case isFalse hne =>
      cases hi' : m.ptr.lookup k' with
      | none => rfl
      | some i' =>
        have hapart : i ≠ i' := fun heq => hne (h k' k i (heq ▸ hi') hi)
        exact getElem?_modify_ne _ _ hapart
  · have hcells : (m.write k v).cells = m.cells ++ [v] := by
      rw [RefMap.write, if_neg hk]
      rfl
    simp only [get?, ptr_write_of_not_mem hk, hcells]
    split
    case isTrue heq =>
      subst heq
      simp
    case isFalse hne =>
      rw [lookup_insert_ne hne]
      cases hi' : m.ptr.lookup k' with
      | none => rfl
      | some i' => simp [getElem?_append_left (m.valid k' i' hi')]

/-! ### The pointers of a map -/

def pointers (m : RefMap K V) : List Nat := m.ptr.keys.filterMap m.ptr.lookup

theorem mem_pointers {i : Nat} : i ∈ m.pointers ↔ ∃ k, m.ptr.lookup k = some i := by
  rw [pointers, mem_filterMap]
  constructor
  · intro h
    obtain ⟨k, -, hk⟩ := h
    exact ⟨k, hk⟩
  · intro h
    obtain ⟨k, hk⟩ := h
    exact ⟨k, mem_keys.mp (mem_of_lookup hk), hk⟩

theorem Apart.nodup_pointers (h : m.Apart) : m.pointers.Nodup :=
  m.ptr.keys_nodup.filterMap fun k k' i hk hk' => h k k' i hk hk'

theorem length_pointers : m.pointers.length = m.ptr.keys.length :=
  filterMap_length_eq_length.mpr fun _ hk =>
    lookup_isSome.mpr (mem_keys.mpr hk)

end RefMap

end Go
