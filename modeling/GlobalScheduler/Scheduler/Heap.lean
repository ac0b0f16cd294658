import Mathlib.Data.List.Nodup
import GlobalScheduler.Go.HeapOrder

/-! The heap of the scheduling queue.

The objects of the heap are found by their keys: an object is added over the one with its
key, if there is one, and an object is deleted by giving one with its key. The source keeps
a map from keys to objects and their places next to the slice, which `IndexedHeap` has; here
the slice has the objects, and no two of them have one key. -/
namespace GlobalScheduler

open Go.Heap List

/-- A heap, in the order of its slice. -/
structure Heap {α : Type} (keyFunc : α → String) where
  queue : List α := []
  distinct : (queue.map keyFunc).Nodup := by exact List.nodup_nil

namespace Heap
variable {α : Type} {keyFunc : α → String}

def getByKey (h : Heap keyFunc) (key : String) : Option α := h.queue.find? (keyFunc · = key)

def get (h : Heap keyFunc) (obj : α) : Option α := h.getByKey (keyFunc obj)

def index (h : Heap keyFunc) (key : String) : Option Nat := h.queue.findIdx? (keyFunc · = key)

def peek (h : Heap keyFunc) : Option α := h.queue.head?

def list (h : Heap keyFunc) : List α := h.queue

/-! ### Where an object is -/

variable {h : Heap keyFunc} {key : String} {obj x y : α} {i : Nat}

theorem eq_of_key (h : Heap keyFunc) (hx : x ∈ h.queue) (hy : y ∈ h.queue)
    (hkey : keyFunc x = keyFunc y) : x = y :=
  inj_on_of_nodup_map h.distinct hx hy hkey

theorem getByKey_eq_some : h.getByKey key = some x ↔ x ∈ h.queue ∧ keyFunc x = key := by
  constructor
  · intro hx
    exact ⟨mem_of_find?_eq_some hx, by simpa using find?_some hx⟩
  · rintro ⟨hx, rfl⟩
    cases hfound : h.getByKey (keyFunc x) with
    | none => simpa using find?_eq_none.mp hfound x hx
    | some y =>
      have hkey : keyFunc y = keyFunc x := by simpa using find?_some hfound
      rw [h.eq_of_key (mem_of_find?_eq_some hfound) hx hkey]

theorem getByKey_eq_none : h.getByKey key = none ↔ ∀ x ∈ h.queue, keyFunc x ≠ key := by
  rw [getByKey, find?_eq_none]
  simp

theorem index_eq_none : h.index key = none ↔ ∀ x ∈ h.queue, keyFunc x ≠ key := by
  rw [index, findIdx?_eq_none_iff]
  simp

theorem index_eq_some : h.index key = some i ↔ (h.queue.map keyFunc)[i]? = some key := by
  rw [index, findIdx?_eq_some_iff_getElem, List.getElem?_eq_some_iff]
  simp only [decide_eq_true_eq, length_map, getElem_map]
  refine exists_congr fun hi => and_iff_left_of_imp ?_
  rintro rfl j hj heq
  refine Nat.ne_of_lt hj ((List.getElem?_inj (by simp; omega) h.distinct).mp ?_)
  simp [hi, heq, Nat.lt_trans hj hi]

theorem index_split (hi : h.index key = some i) :
    ∃ before x after, h.queue = before ++ x :: after ∧ before.length = i ∧ keyFunc x = key := by
  obtain ⟨hlt, hkey, -⟩ := findIdx?_eq_some_iff_getElem.mp hi
  refine ⟨h.queue.take i, h.queue[i], h.queue.drop (i + 1), ?_, ?_, by simpa using hkey⟩
  · rw [getElem_cons_drop, take_append_drop]
  · rw [length_take, Nat.min_eq_left (Nat.le_of_lt hlt)]

variable {h' : Heap keyFunc}

theorem getByKey_write {value : Option α} (hvalue : ∀ y, value = some y → keyFunc y = key)
    (hmem : ∀ y, y ∈ h'.queue ↔ value = some y ∨ y ∈ h.queue ∧ keyFunc y ≠ key) :
    h'.getByKey = Function.update h.getByKey key value := by
  funext k
  refine Option.ext fun y => ?_
  rw [getByKey_eq_some, hmem]
  by_cases hk : k = key
  · rw [hk, Function.update_self]
    grind
  · rw [Function.update_of_ne hk, getByKey_eq_some]
    grind

/-- The objects with other keys. -/
def others (h : Heap keyFunc) (key : String) : List α := h.queue.filter (keyFunc · ≠ key)

theorem mem_others : y ∈ h.others key ↔ y ∈ h.queue ∧ keyFunc y ≠ key := by
  simp [others]

theorem nodup_others : ((h.others key).map keyFunc).Nodup := h.distinct.sublist (filter_sublist.map keyFunc)

theorem others_of_absent (habsent : ∀ x ∈ h.queue, keyFunc x ≠ key) : h.others key = h.queue :=
  filter_eq_self.mpr (by simpa using habsent)

theorem others_of_split {before after : List α} (hqueue : h.queue = before ++ x :: after) :
    h.others (keyFunc x) = before ++ after := by
  have hnodup := h.distinct
  rw [hqueue, (perm_middle.map keyFunc).nodup_iff, map_cons, nodup_cons, mem_map] at hnodup
  have hne : ∀ y ∈ before ++ after, decide (keyFunc y ≠ keyFunc x) = true := fun y hy =>
    decide_eq_true fun hkey => hnodup.1 ⟨y, hy, hkey⟩
  rw [← filter_eq_self.mpr hne, others, hqueue]
  simp

/-! ### The operations -/

variable (less : α → α → Bool)

/-- The slice after an object has been added, over the one with its key if there is one. -/
def added (obj : α) (h : Heap keyFunc) : List α :=
  match h.index (keyFunc obj) with
  | some i => fix less i (h.queue.set i obj)
  | none => push less obj h.queue

theorem added_perm : (h.added less obj).Perm (obj :: h.others (keyFunc obj)) := by
  rw [added]
  split
  · next i hi =>
    obtain ⟨before, x, after, hqueue, rfl, hkey⟩ := index_split hi
    rw [← hkey, others_of_split hqueue, hqueue, set_append_right _ _ (Nat.le_refl _), Nat.sub_self, set_cons_zero]
    exact (fix_perm less _ _).trans perm_middle
  · next hnone =>
    rw [others_of_absent (index_eq_none.mp hnone)]
    exact push_perm less obj h.queue

theorem mem_added : y ∈ h.added less obj ↔ y = obj ∨ y ∈ h.queue ∧ keyFunc y ≠ keyFunc obj := by
  rw [(added_perm less).mem_iff, mem_cons, mem_others]

theorem nodup_added (obj : α) (h : Heap keyFunc) : ((h.added less obj).map keyFunc).Nodup := by
  rw [((added_perm less).map keyFunc).nodup_iff, map_cons, nodup_cons]
  refine ⟨fun hmem => ?_, nodup_others⟩
  obtain ⟨y, hy, hkey⟩ := mem_map.mp hmem
  exact (mem_others.mp hy).2 hkey

def add (obj : α) (h : Heap keyFunc) : Heap keyFunc where
  queue := h.added less obj
  distinct := nodup_added less obj h

theorem getByKey_add : (h.add less obj).getByKey = Function.update h.getByKey (keyFunc obj) (some obj) :=
  getByKey_write (by simp) fun _ => (mem_added less).trans (by simp [eq_comm])

def update (obj : α) (h : Heap keyFunc) : Heap keyFunc := h.add less obj

theorem remove_perm (hi : h.index key = some i) : (remove less i h.queue).Perm (h.others key) := by
  obtain ⟨before, x, after, hqueue, rfl, rfl⟩ := index_split hi
  have hperm := Go.Heap.remove_perm (x := x) (i := before.length) (h := h.queue) less (by simp [hqueue])
  rw [others_of_split hqueue]
  exact (hperm.trans (hqueue ▸ perm_middle)).cons_inv

theorem nodup_remove (hi : h.index key = some i) : ((remove less i h.queue).map keyFunc).Nodup :=
  ((remove_perm less hi).map keyFunc).nodup_iff.mpr nodup_others

/-- There is an error if there is no object with the key. -/
def delete (obj : α) (h : Heap keyFunc) : Except String (Heap keyFunc) :=
  match hi : h.index (keyFunc obj) with
  | some i => .ok ⟨remove less i h.queue, nodup_remove less hi⟩
  | none => .error "object not found"

/-- The object with the key is gone, if there was one. -/
def deleteIfPresent (obj : α) (h : Heap keyFunc) : Heap keyFunc :=
  match h.delete less obj with
  | .ok h' => h'
  | .error _ => h

theorem delete_ok (hdelete : h.delete less obj = .ok h') :
    (∃ x ∈ h.queue, keyFunc x = keyFunc obj) ∧
      ∀ y, y ∈ h'.queue ↔ y ∈ h.queue ∧ keyFunc y ≠ keyFunc obj := by
  rw [delete] at hdelete
  split at hdelete
  · next i hi =>
    cases hdelete
    obtain ⟨before, x, after, hqueue, -, hkey⟩ := index_split hi
    refine ⟨⟨x, by simp [hqueue], hkey⟩, fun y => ?_⟩
    rw [(remove_perm less hi).mem_iff, mem_others]
  · cases hdelete

theorem delete_error {e : String} (hdelete : h.delete less obj = .error e) :
    ∀ x ∈ h.queue, keyFunc x ≠ keyFunc obj := by
  rw [delete] at hdelete
  split at hdelete
  · cases hdelete
  · next hnone => exact index_eq_none.mp hnone

theorem mem_deleteIfPresent :
    y ∈ (h.deleteIfPresent less obj).queue ↔ y ∈ h.queue ∧ keyFunc y ≠ keyFunc obj := by
  rw [deleteIfPresent]
  split
  · next h' hdelete => exact (delete_ok less hdelete).2 y
  · next e hdelete => exact ⟨fun hy => ⟨hy, delete_error less hdelete y hy⟩, And.left⟩

theorem deleteIfPresent_of_index (hi : h.index (keyFunc obj) = some i) :
    (h.deleteIfPresent less obj).queue = remove less i h.queue := by
  unfold deleteIfPresent delete
  grind

theorem deleteIfPresent_of_absent (hi : h.index (keyFunc obj) = none) : h.deleteIfPresent less obj = h := by
  unfold deleteIfPresent delete
  grind

theorem getByKey_deleteIfPresent :
    (h.deleteIfPresent less obj).getByKey = Function.update h.getByKey (keyFunc obj) none :=
  getByKey_write (by simp) fun _ => (mem_deleteIfPresent less).trans (by simp)

theorem pop_split {rest : List α} (hpop : Go.Heap.pop less h.queue = some (x, rest)) :
    ∃ after, h.queue = x :: after ∧ rest.Perm after := by
  cases hqueue : h.queue with
  | nil =>
    rw [hqueue, pop_nil] at hpop
    cases hpop
  | cons first after =>
    obtain ⟨rest', hpop', hperm⟩ := pop_perm less first after
    rw [hqueue, hpop'] at hpop
    cases hpop
    exact ⟨after, rfl, hperm⟩

theorem nodup_pop {rest : List α} (hpop : Go.Heap.pop less h.queue = some (x, rest)) :
    (rest.map keyFunc).Nodup := by
  obtain ⟨after, hqueue, hperm⟩ := pop_split less hpop
  have hnodup := h.distinct
  rw [hqueue, map_cons, nodup_cons] at hnodup
  exact ((hperm.map keyFunc).nodup_iff).mpr hnodup.2

/-- The head and the rest. Nothing can be popped from an empty heap. -/
def pop (h : Heap keyFunc) : Option (α × Heap keyFunc) :=
  match hpop : Go.Heap.pop less h.queue with
  | some (x, rest) => some (x, ⟨rest, nodup_pop less hpop⟩)
  | none => none

theorem queue_of_pop (hpop : h.pop less = some (x, h')) :
    Go.Heap.pop less h.queue = some (x, h'.queue) := by
  rw [pop] at hpop
  split at hpop
  · next hrest =>
    cases hpop
    exact hrest
  · cases hpop

theorem pop_eq_some (hpop : h.pop less = some (x, h')) :
    x ∈ h.queue ∧ (∀ y, y ∈ h'.queue ↔ y ∈ h.queue ∧ keyFunc y ≠ keyFunc x) ∧
      h'.queue.length < h.queue.length := by
  obtain ⟨after, hqueue, hperm⟩ := pop_split less (queue_of_pop less hpop)
  have hothers : h.others (keyFunc x) = [] ++ after := others_of_split hqueue
  refine ⟨by simp [hqueue], fun y => ?_, by simp [hqueue, hperm.length_eq]⟩
  rw [hperm.mem_iff, ← mem_others, hothers, nil_append]

theorem getByKey_pop (hpop : h.pop less = some (x, h')) :
    h'.getByKey = Function.update h.getByKey (keyFunc x) none :=
  getByKey_write (by simp) fun y => ((pop_eq_some less hpop).2.1 y).trans (by simp)

theorem pop_of_peek (hpeek : h.peek = some x) : ∃ h', h.pop less = some (x, h') := by
  obtain ⟨after, hqueue⟩ := head?_eq_some_iff.mp hpeek
  obtain ⟨rest, hrest, -⟩ := pop_perm less x after
  rw [← hqueue] at hrest
  rw [pop]
  split
  · next hrest' =>
    cases hrest.symm.trans hrest'
    exact ⟨_, rfl⟩
  · next hnone => cases hrest.symm.trans hnone

theorem peek_of_pop (hpop : h.pop less = some (x, h')) : h.peek = some x := by
  obtain ⟨after, hqueue, -⟩ := pop_split less (queue_of_pop less hpop)
  rw [peek, hqueue, head?_cons]

/-- One operation that changes a heap; what is added is what may come in. -/
inductive Write (comes : α → Prop) (h : Heap keyFunc) : Heap keyFunc → Prop where
  | add {x : α} (hx : comes x) : Write comes h (h.add less x)
  | delete (x : α) : Write comes h (h.deleteIfPresent less x)
  | pop {x : α} {h' : Heap keyFunc} (hpop : h.pop less = some (x, h')) : Write comes h h'

variable {less}

theorem Write.comes {comes : α → Prop} (hwrite : h.Write less comes h') (hy : y ∈ h'.queue) :
    y ∈ h.queue ∨ comes y := by
  cases hwrite with
  | add hx =>
    rcases (mem_added less).mp hy with rfl | ⟨hold, -⟩
    · exact Or.inr hx
    · exact Or.inl hold
  | delete x => exact Or.inl ((mem_deleteIfPresent less).mp hy).1
  | pop hpop => exact Or.inl (((pop_eq_some less hpop).2.1 y).mp hy).1

/-! ### The order -/

variable {β : Type} [LinearOrder β] {rank rank' : α → β}

theorem add_ordered (hagrees : Agrees less rank) (hordered : Ordered rank h.queue) (obj : α) :
    Ordered rank (h.add less obj).queue := by
  show Ordered rank (h.added less obj)
  unfold added
  split
  · next i hi =>
    obtain ⟨hlt, -⟩ := findIdx?_eq_some_iff_getElem.mp hi
    apply fix_ordered hagrees (by rwa [length_set])
    rw [length_set]
    apply (hordered.around i).congr
    intro k hk
    exact rankAt_congr (List.getElem?_set_ne hk.symm).symm
  · exact push_ordered hagrees hordered obj

/-- An object is deleted while the others have the ranks by which the heap is in order. -/
theorem deleteIfPresent_ordered (hagrees : Agrees less rank) (hordered : Ordered rank' h.queue)
    (hsame : ∀ x ∈ h.queue, keyFunc x ≠ keyFunc obj → rank' x = rank x) :
    Ordered rank (h.deleteIfPresent less obj).queue := by
  cases hi : h.index (keyFunc obj) with
  | none =>
    rw [deleteIfPresent_of_absent less hi, ← ordered_congr fun x hx => hsame x hx (index_eq_none.mp hi x hx)]
    exact hordered
  | some i =>
    obtain ⟨hlt, -⟩ := findIdx?_eq_some_iff_getElem.mp hi
    rw [deleteIfPresent_of_index less hi]
    apply remove_ordered hagrees hlt
    apply (hordered.around i).congr
    intro k hk
    cases hx : h.queue[k]? with
    | none => simp [rankAt, hx]
    | some x =>
      rw [rankAt_of_some hx, rankAt_of_some hx, hsame x (mem_of_getElem? hx)]
      intro hsame
      -- Two places with the key would be one.
      have hplace : h.index (keyFunc obj) = some k := index_eq_some.mpr (by simp [hx, hsame])
      exact hk (Option.some_inj.mp (hplace.symm.trans hi))

theorem pop_ordered (hagrees : Agrees less rank) (hordered : Ordered rank h.queue)
    (hpop : h.pop less = some (x, h')) : Ordered rank h'.queue :=
  Go.Heap.pop_ordered hagrees hordered (queue_of_pop less hpop)

theorem Write.ordered {comes : α → Prop} (hwrite : h.Write less comes h')
    (hagrees : Agrees less rank) (hordered : Ordered rank h.queue) : Ordered rank h'.queue := by
  cases hwrite with
  | add hx => exact add_ordered hagrees hordered _
  | delete x => exact deleteIfPresent_ordered hagrees hordered fun _ _ _ => rfl
  | pop hpop => exact pop_ordered hagrees hordered hpop

end Heap

end GlobalScheduler
