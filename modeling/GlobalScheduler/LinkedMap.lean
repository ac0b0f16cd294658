import GlobalScheduler.LinkedList
import GlobalScheduler.Go.Map

/-! Keys whose items are linked by their use.

A key points at an item; the items are doubly linked, with the one used last at the head,
and leave the list when their key is deleted. The links mirror the list of the keys: each
operation on items and links is the operation on the list that a reader would think of. -/
namespace LinkedMap

open Go LinkedList AList

variable {K : Type} [DecidableEq K]

/-! ### The code -/

/-- The addresses of the items, the next address, and the links of the items. -/
structure Pointers (K : Type) where
  item : Map K Nat := ∅
  size : Nat := 0
  links : Links Nat := {}

namespace Pointers

/-- A key without an item gets one, which is not in the list. -/
def fresh (k : K) (p : Pointers K) : Pointers K :=
  if k ∈ p.item then p
  else { item := p.item.insert k p.size, size := p.size + 1, links := p.links.fresh p.size }

def touch (k : K) (p : Pointers K) : Pointers K :=
  match p.item.lookup k with
  | none => p
  | some ni => { p with links := p.links.moveToHead ni }

def drop (k : K) (p : Pointers K) : Pointers K :=
  match p.item.lookup k with
  | none => p
  | some ni => { p with links := p.links.remove ni, item := p.item.erase k }

instance : Recency.ByUse K (Pointers K) where
  emptyCollection := {}
  fresh := fresh
  touch := touch
  drop := drop

def items (p : Pointers K) (keys : List K) : List Nat := keys.filterMap fun k => p.item.lookup k

/-- The links lead through the items of the keys in order. -/
structure Mirrors (p : Pointers K) (recent : List K) : Prop where
  apart : ∀ k k' ni, p.item.lookup k = some ni → p.item.lookup k' = some ni → k = k'
  valid : ∀ k ni, p.item.lookup k = some ni → ni < p.size
  nodup : recent.Nodup
  listed : ∀ k, k ∈ recent ↔ k ∈ p.item
  linked : Linked p.links (p.items recent)

/-- **The structure is sound**: following `next` from the head ends after it has visited every
item of a key once and nothing else, and `prev` is the way back. -/
structure WellLinked (p : Pointers K) : Prop where
  visits : ∃ visited, Visits p.links.next p.links.head visited ∧ visited.Nodup ∧
    ∀ ni, ni ∈ visited ↔ ∃ k, p.item.lookup k = some ni
  back : ∀ k ni after, p.item.lookup k = some ni → p.links.next ni = some after →
    (∃ k', p.item.lookup k' = some after) ∧ p.links.prev after = some ni
  forth : ∀ k ni before, p.item.lookup k = some ni → p.links.prev ni = some before →
    (∃ k', p.item.lookup k' = some before) ∧ p.links.next before = some ni
  first : ∀ ni, p.links.head = some ni → p.links.prev ni = none

variable {p : Pointers K} {recent : List K} {k : K} {ni : Nat}

theorem items_cons_some {keys : List K} (h : p.item.lookup k = some ni) :
    p.items (k :: keys) = ni :: p.items keys := by
  simp [items, h]

theorem items_cons_none {keys : List K} (h : p.item.lookup k = none) : p.items (k :: keys) = p.items keys := by
  simp [items, h]

theorem mirrors_empty : Mirrors (∅ : Pointers K) [] where
  apart _ _ _ h := by cases h
  valid _ _ h := by cases h
  nodup := List.nodup_nil
  listed k := iff_of_false List.not_mem_nil (notMem_empty k)
  linked := linked_empty

theorem mem_fresh {k' : K} : k' ∈ (p.fresh k).item ↔ k' = k ∨ k' ∈ p.item := by
  unfold fresh
  split
  case isTrue hmem => exact (or_iff_right_of_imp fun heq => heq ▸ hmem).symm
  case isFalse => exact mem_insert _

theorem touch_item : (p.touch k).item = p.item := by
  unfold touch
  split <;> rfl

theorem mem_drop {k' : K} : k' ∈ (p.drop k).item ↔ k' ≠ k ∧ k' ∈ p.item := by
  unfold drop
  split
  case h_1 hnone =>
    refine (and_iff_right_of_imp fun hmem heq => ?_).symm
    rw [heq] at hmem
    exact lookup_eq_none.mp hnone hmem
  case h_2 => exact mem_erase

namespace Mirrors

section
variable (h : Mirrors p recent)
include h

theorem mem_items : ni ∈ p.items recent ↔ ∃ k, p.item.lookup k = some ni := by
  rw [items, List.mem_filterMap]
  constructor
  · intro hmem
    obtain ⟨k, -, hk⟩ := hmem
    exact ⟨k, hk⟩
  · intro hmem
    obtain ⟨k, hk⟩ := hmem
    exact ⟨k, (h.listed k).mpr (Map.mem_of_lookup hk), hk⟩

theorem items_erase (hitem : p.item.lookup k = some ni) :
    p.items (recent.erase k) = (p.items recent).erase ni := by
  have hapart := h.apart
  clear h
  induction recent with
  | nil => rfl
  | cons first rest ih =>
    by_cases heq : first = k
    · rw [heq, List.erase_cons_head, items_cons_some hitem, List.erase_cons_head]
    · rw [List.erase_cons_tail (by simpa using heq)]
      cases hfirst : p.item.lookup first with
      | none => rw [items_cons_none hfirst, items_cons_none hfirst, ih]
      | some ni' =>
        have hne : ni' ≠ ni := fun hsame => heq (hapart first k ni (hsame ▸ hfirst) hitem)
        rw [items_cons_some hfirst, items_cons_some hfirst, List.erase_cons_tail (by simpa using hne), ih]

theorem wellLinked : WellLinked p where
  visits := ⟨_, h.linked.visits, h.linked.nodup, fun _ => h.mem_items⟩
  back k ni after hitem hnext := by
    obtain ⟨hmem, hprev⟩ := h.linked.prev_of_next (h.mem_items.mpr ⟨k, hitem⟩) hnext
    exact ⟨h.mem_items.mp hmem, hprev⟩
  forth k ni before hitem hprev := by
    obtain ⟨hmem, hnext⟩ := h.linked.next_of_prev (h.mem_items.mpr ⟨k, hitem⟩) hprev
    exact ⟨h.mem_items.mp hmem, hnext⟩
  first ni hhead := h.linked.prev_head hhead

/-! ### The operations -/

theorem touch (hk : k ∈ p.item) : Mirrors (p.touch k) (Recency.touch k recent) := by
  obtain ⟨ni, hitem⟩ := Map.exists_lookup hk
  unfold Pointers.touch
  rw [hitem]
  refine ⟨h.apart, h.valid, Recency.nodup_touch h.nodup, fun k' => ?_, ?_⟩
  · rw [Recency.mem_touch, h.listed]
    exact or_iff_right_of_imp fun heq => heq ▸ hk
  · have hcons : p.items (Recency.touch k recent) = ni :: (p.items recent).erase ni := by
      rw [Recency.touch, items_cons_some hitem, h.items_erase hitem]
    exact hcons ▸ h.linked.moveToHead (h.mem_items.mpr ⟨k, hitem⟩)

theorem add (hk : k ∉ p.item) : Mirrors ((p.fresh k).touch k) (Recency.touch k recent) := by
  have hrecent : k ∉ recent := fun hmem => hk ((h.listed k).mp hmem)
  have hself : (p.item.insert k p.size).lookup k = some p.size := lookup_insert _
  -- The address is beyond those of all items.
  have hfresh : p.size ∉ p.items recent := by
    intro hmem
    obtain ⟨k', hk'⟩ := h.mem_items.mp hmem
    exact Nat.lt_irrefl _ (h.valid k' _ hk')
  unfold Pointers.touch fresh
  rw [if_neg hk]
  simp only [hself]
  constructor
  case apart =>
    intro k₁ k₂ ni h₁ h₂
    by_cases heq₁ : k₁ = k <;> by_cases heq₂ : k₂ = k
    · rw [heq₁, heq₂]
    · rw [heq₁, lookup_insert, Option.some_inj] at h₁
      rw [lookup_insert_ne heq₂] at h₂
      exact absurd (h.valid k₂ ni h₂) (h₁ ▸ Nat.lt_irrefl _)
    · rw [heq₂, lookup_insert, Option.some_inj] at h₂
      rw [lookup_insert_ne heq₁] at h₁
      exact absurd (h.valid k₁ ni h₁) (h₂ ▸ Nat.lt_irrefl _)
    · rw [lookup_insert_ne heq₁] at h₁
      rw [lookup_insert_ne heq₂] at h₂
      exact h.apart k₁ k₂ ni h₁ h₂
  case valid =>
    intro k' ni hitem
    by_cases heq : k' = k
    · rw [heq, lookup_insert, Option.some_inj] at hitem
      exact hitem ▸ Nat.lt_succ_self _
    · rw [lookup_insert_ne heq] at hitem
      exact Nat.lt_succ_of_lt (h.valid k' ni hitem)
  case nodup => exact Recency.nodup_touch h.nodup
  case listed =>
    intro k'
    rw [Recency.mem_touch, h.listed]
    exact (mem_insert _).symm
  case linked =>
    have hitems : (Recency.touch k recent).filterMap (fun k' => (p.item.insert k p.size).lookup k') =
        p.size :: p.items recent := by
      rw [Recency.touch, List.erase_of_not_mem hrecent, List.filterMap_cons, hself]
      refine congrArg _ (List.filterMap_congr fun k' hk' => ?_)
      have hne : k' ≠ k := fun heq => hrecent (heq ▸ hk')
      exact lookup_insert_ne hne
    unfold items
    rw [hitems]
    exact (h.linked.fresh hfresh).moveToHead_new hfresh (by simp [Links.fresh]) (by simp [Links.fresh])

/-- A key is used, and gets its item before that if it has none. -/
theorem use (k : K) : Mirrors ((p.fresh k).touch k) (Recency.touch k recent) := by
  by_cases hk : k ∈ p.item
  · rw [fresh, if_pos hk]
    exact h.touch hk
  · exact h.add hk

theorem drop (hk : k ∈ p.item) : Mirrors (p.drop k) (recent.erase k) := by
  obtain ⟨ni, hitem⟩ := Map.exists_lookup hk
  have hlook : ∀ k' ni', (p.item.erase k).lookup k' = some ni' → p.item.lookup k' = some ni' := by
    intro k' ni' hlook
    by_cases heq : k' = k
    · rw [heq, lookup_erase] at hlook
      cases hlook
    · rwa [lookup_erase_ne heq] at hlook
  unfold Pointers.drop
  rw [hitem]
  refine ⟨fun k₁ k₂ ni h₁ h₂ => h.apart k₁ k₂ ni (hlook _ _ h₁) (hlook _ _ h₂),
    fun k' ni hni => h.valid k' ni (hlook _ _ hni), h.nodup.erase k, fun k' => ?_, ?_⟩
  · rw [h.nodup.mem_erase_iff, h.listed]
    exact mem_erase.symm
  · have hitems : (recent.erase k).filterMap (fun k' => (p.item.erase k).lookup k') = (p.items recent).erase ni := by
      rw [← h.items_erase hitem]
      exact List.filterMap_congr fun k' hk' => lookup_erase_ne (h.nodup.mem_erase_iff.mp hk').1
    unfold items
    rw [hitems]
    exact h.linked.remove (h.mem_items.mpr ⟨k, hitem⟩)

end

end Mirrors

end Pointers

end LinkedMap
