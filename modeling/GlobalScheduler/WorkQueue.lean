import Mathlib.Data.Finset.Basic

/-! The work queue of client-go.

An item that is added waits in the queue until a worker gets it. While it is being
processed it is not queued again: a further `Add` only marks it dirty, and `Done` puts
a dirty item back. What an item in the processing set waits for is therefore the `Done`
of that very item. -/

/-- Every item that needs processing and is not being processed is in the queue. -/
structure WorkQueue (α : Type) [DecidableEq α] where
  queue : List α := []
  dirty : Finset α := ∅
  processing : Finset α := ∅
  shuttingDown : Bool := false
  queued : ∀ x ∈ dirty, x ∉ processing → x ∈ queue := by simp

namespace WorkQueue

open Finset

variable {α : Type} [DecidableEq α]

/-- `Add`. -/
def add (q : WorkQueue α) (item : α) : WorkQueue α :=
  if q.shuttingDown then q
  else if item ∈ q.dirty then q
  else if h : item ∈ q.processing then
    { q with
      dirty := insert item q.dirty
      queued := by
        intro x hx hidle
        rcases mem_insert.mp hx with rfl | hx
        · exact absurd h hidle
        · exact q.queued x hx hidle }
  else
    { q with
      dirty := insert item q.dirty
      queue := q.queue ++ [item]
      queued := by
        intro x hx hidle
        rcases mem_insert.mp hx with rfl | hx
        · simp
        · exact List.mem_append_left _ (q.queued x hx hidle) }

/-- `Get`; on an empty queue a worker waits. -/
def get (q : WorkQueue α) : Option (α × WorkQueue α) :=
  match h : q.queue with
  | [] => none
  | item :: rest => some (item,
    { q with
      queue := rest
      dirty := q.dirty.erase item
      processing := insert item q.processing
      queued := by
        intro x hx hidle
        obtain ⟨hne, hx⟩ := mem_erase.mp hx
        have hmem := q.queued x hx fun hp => hidle (mem_insert_of_mem hp)
        rw [h] at hmem
        exact (List.mem_cons.mp hmem).resolve_left hne })

/-- `Done`. -/
def done (q : WorkQueue α) (item : α) : WorkQueue α :=
  { q with
    queue := if item ∈ q.dirty then q.queue ++ [item] else q.queue
    processing := q.processing.erase item
    queued := by
      intro x hx hidle
      by_cases hxi : x = item
      · subst hxi
        simp [hx]
      · have hmem := q.queued x hx fun hp => hidle (mem_erase.mpr ⟨hxi, hp⟩)
        split
        · exact List.mem_append_left _ hmem
        · exact hmem }

/-! ### What the operations do to the sets -/

@[simp]
theorem processing_add (q : WorkQueue α) (item : α) : (q.add item).processing = q.processing := by
  unfold add
  split_ifs <;> rfl

@[simp]
theorem shuttingDown_add (q : WorkQueue α) (item : α) : (q.add item).shuttingDown = q.shuttingDown := by
  unfold add
  split_ifs <;> rfl

variable {q : WorkQueue α}

theorem dirty_add (hopen : q.shuttingDown = false) (item : α) : (q.add item).dirty = insert item q.dirty := by
  unfold add
  rw [hopen, if_neg Bool.false_ne_true]
  split_ifs with hdirty
  · exact (insert_eq_self.mpr hdirty).symm
  · rfl
  · rfl

/-- What a worker gets is the first in the queue, and what that does. -/
structure Got (q : WorkQueue α) (item : α) (q' : WorkQueue α) : Prop where
  queue : q.queue = item :: q'.queue
  dirty : q'.dirty = q.dirty.erase item
  processing : q'.processing = insert item q.processing
  shuttingDown : q'.shuttingDown = q.shuttingDown

theorem got {q q' : WorkQueue α} {item : α} (h : q.get = some (item, q')) : Got q item q' := by
  unfold get at h
  split at h
  · cases h
  case h_2 hqueue =>
    cases h
    exact ⟨hqueue, rfl, rfl, rfl⟩

/-- **`Done` of an item that no worker was given does nothing.** -/
theorem done_of_notMem {item : α} (hdirty : item ∉ q.dirty)
    (hprocessing : item ∉ q.processing) : q.done item = q := by
  cases q
  simp only [done, mk.injEq, true_and, and_true]
  exact ⟨if_neg hdirty, erase_eq_of_notMem hprocessing⟩

/-- With no item both marked and in processing, what is marked is in the queue. -/
theorem dirty_eq_empty (hempty : q.queue = []) (hapart : ∀ x ∈ q.dirty, x ∉ q.processing) : q.dirty = ∅ := by
  apply eq_empty_of_forall_notMem
  intro x hx
  have hmem := q.queued x hx (hapart x hx)
  rw [hempty] at hmem
  cases hmem

/-! ### The way of an item

An item that is new to the queue is queued once it is added, and given once a worker gets
it. From there only its own `Done` brings it back. -/

/-- The item is where it was. -/
structure SameAt (x : α) (q q' : WorkQueue α) : Prop where
  count : q'.queue.count x = q.queue.count x
  dirty : x ∈ q'.dirty ↔ x ∈ q.dirty
  processing : x ∈ q'.processing ↔ x ∈ q.processing

structure Fresh (q : WorkQueue α) (x : α) : Prop where
  notQueued : q.queue.count x = 0
  notDirty : x ∉ q.dirty
  notGiven : x ∉ q.processing

structure Queued (q : WorkQueue α) (x : α) : Prop where
  once : q.queue.count x = 1
  dirty : x ∈ q.dirty
  notGiven : x ∉ q.processing

structure Given (q : WorkQueue α) (x : α) : Prop where
  notQueued : q.queue.count x = 0
  given : x ∈ q.processing

section
variable {q q' : WorkQueue α} {x y : α}

theorem SameAt.refl (x : α) (q : WorkQueue α) : SameAt x q q := ⟨rfl, Iff.rfl, Iff.rfl⟩

theorem Fresh.same (h : q.Fresh x) (hsame : SameAt x q q') : q'.Fresh x :=
  ⟨hsame.count.trans h.notQueued, mt hsame.dirty.mp h.notDirty, mt hsame.processing.mp h.notGiven⟩

theorem Queued.same (h : q.Queued x) (hsame : SameAt x q q') : q'.Queued x :=
  ⟨hsame.count.trans h.once, hsame.dirty.mpr h.dirty, mt hsame.processing.mp h.notGiven⟩

theorem Given.same (h : q.Given x) (hsame : SameAt x q q') : q'.Given x :=
  ⟨hsame.count.trans h.notQueued, hsame.processing.mpr h.given⟩

theorem add_sameAt (hne : y ≠ x) : SameAt x q (q.add y) := by
  unfold add
  split_ifs
  · exact SameAt.refl x q
  · exact SameAt.refl x q
  · exact ⟨rfl, by simp [Ne.symm hne], Iff.rfl⟩
  · exact ⟨by simp [hne], by simp [Ne.symm hne], Iff.rfl⟩

theorem done_sameAt (hne : y ≠ x) : SameAt x q (q.done y) := by
  refine ⟨?_, Iff.rfl, by simp [done, Ne.symm hne]⟩
  simp only [done]
  split_ifs <;> simp [hne]

theorem get_sameAt (h : q.get = some (y, q')) (hne : y ≠ x) : SameAt x q q' := by
  have hgot := got h
  exact ⟨by rw [hgot.queue, List.count_cons_of_ne hne], by simp [hgot.dirty, Ne.symm hne],
    by simp [hgot.processing, Ne.symm hne]⟩

theorem get_ne (h : q.get = some (y, q')) (hnone : q.queue.count x = 0) : y ≠ x := by
  intro heq
  rw [(got h).queue, heq, List.count_cons_self] at hnone
  cases hnone

theorem Fresh.add (h : q.Fresh x) (hopen : q.shuttingDown = false) : (q.add x).Queued x := by
  unfold WorkQueue.add
  rw [hopen, if_neg Bool.false_ne_true, if_neg h.notDirty, dif_neg h.notGiven]
  exact ⟨by simp [h.notQueued], mem_insert_self _ _, h.notGiven⟩

theorem Queued.get (h : q.Queued x) (hget : q.get = some (x, q')) : q'.Given x := by
  have hgot := got hget
  have honce := h.once
  rw [hgot.queue, List.count_cons_self] at honce
  exact ⟨Nat.succ.inj honce, by rw [hgot.processing]; exact mem_insert_self _ _⟩

/-- **An item in processing is not queued again**, however often it is added. -/
theorem Given.add (h : q.Given x) (y : α) : (q.add y).Given x := by
  by_cases hne : y = x
  · subst hne
    unfold WorkQueue.add
    split_ifs
    · exact h
    · exact h
    · exact ⟨h.notQueued, h.given⟩
    case neg hidle => exact absurd h.given hidle
  · exact h.same (add_sameAt hne)

/-! ### An item that is never done -/

/-- `gets` workers got the item. With its place in the queue that makes one at most, and none
unless the item is marked or in processing. -/
structure Once (q : WorkQueue α) (x : α) (gets : Nat) : Prop where
  atMost : gets + q.queue.count x ≤ 1
  marked : x ∉ q.dirty → x ∉ q.processing → gets + q.queue.count x = 0

variable {gets : Nat}

theorem Once.same (h : q.Once x gets) (hsame : SameAt x q q') : q'.Once x gets := by
  refine ⟨?_, fun hdirty hidle => ?_⟩
  · rw [hsame.count]
    exact h.atMost
  · rw [hsame.count]
    exact h.marked (mt hsame.dirty.mpr hdirty) (mt hsame.processing.mpr hidle)

theorem Once.add (h : q.Once x gets) (y : α) : (q.add y).Once x gets := by
  by_cases hne : y = x
  · subst hne
    unfold WorkQueue.add
    split_ifs with _ hdirty hgiven
    · exact h
    · exact h
    · exact ⟨h.atMost, fun _ hidle => absurd hgiven hidle⟩
    · have hnone := h.marked hdirty hgiven
      refine ⟨?_, fun hclean => absurd (mem_insert_self y _) hclean⟩
      rw [List.count_append, List.count_singleton_self]
      omega
  · exact h.same (add_sameAt hne)

/-- A worker that gets the item takes its place in the queue. -/
theorem Once.get (h : q.Once x gets) (hget : q.get = some (x, q')) : q'.Once x (gets + 1) := by
  have hgot := got hget
  have hone := h.atMost
  rw [hgot.queue, List.count_cons_self] at hone
  refine ⟨by omega, fun _ hidle => absurd ?_ hidle⟩
  rw [hgot.processing]
  exact mem_insert_self x _

end

end WorkQueue
