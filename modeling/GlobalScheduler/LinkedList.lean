import GlobalScheduler.Recency

/-! Doubly linked lists that are ordered by use.

A node is anything that can be told apart, such as the address of an item. The fields of
all nodes are two functions, and a statement of the program that writes a field updates
one of them. A list of nodes stands for the links that lead through it; to move a node to
the head and to take one out are the operations on lists of that name. -/
namespace LinkedList

open List Option

structure Links (ν : Type) where
  next : ν → Option ν := fun _ => none
  prev : ν → Option ν := fun _ => none
  head : Option ν := none

variable {ν : Type}

/-! ### The code -/

namespace Links
variable [DecidableEq ν]

/-- `if p != nil { p.next = value }`. -/
def setNext (p value : Option ν) (l : Links ν) : Links ν :=
  match p with
  | none => l
  | some n => { l with next := Function.update l.next n value }

/-- `if p != nil { p.prev = value }`. -/
def setPrev (p value : Option ν) (l : Links ν) : Links ν :=
  match p with
  | none => l
  | some n => { l with prev := Function.update l.prev n value }

/-- The neighbours of a node are linked with each other. -/
def unlink (n : ν) (l : Links ν) : Links ν :=
  let l := l.setNext (l.prev n) (l.next n)
  l.setPrev (l.next n) (l.prev n)

def moveToHead (n : ν) (l : Links ν) : Links ν :=
  if some n = l.head then l
  else
    let l := l.unlink n
    let l := l.setPrev l.head (some n)
    let l := l.setNext (some n) l.head
    let l := l.setPrev (some n) none
    { l with head := some n }

def remove (n : ν) (l : Links ν) : Links ν :=
  let l := l.unlink n
  if some n = l.head then { l with head := l.next n } else l

def fresh (n : ν) (l : Links ν) : Links ν := (l.setNext (some n) none).setPrev (some n) none

variable {l : Links ν} {n m : ν} {p value : Option ν}

@[simp] theorem setNext_prev : (l.setNext p value).prev = l.prev := by cases p <;> rfl
@[simp] theorem setNext_head : (l.setNext p value).head = l.head := by cases p <;> rfl
@[simp] theorem setPrev_next : (l.setPrev p value).next = l.next := by cases p <;> rfl
@[simp] theorem setPrev_head : (l.setPrev p value).head = l.head := by cases p <;> rfl

@[simp] theorem setNext_self : (l.setNext (some n) value).next n = value := by simp [setNext]
@[simp] theorem setPrev_self : (l.setPrev (some n) value).prev n = value := by simp [setPrev]

theorem setNext_ne (h : p ≠ some m) : (l.setNext p value).next m = l.next m := by
  cases p with
  | none => rfl
  | some n => exact Function.update_of_ne (fun heq => h (congrArg some heq.symm)) value l.next

theorem setPrev_ne (h : p ≠ some m) : (l.setPrev p value).prev m = l.prev m := by
  cases p with
  | none => rfl
  | some n => exact Function.update_of_ne (fun heq => h (congrArg some heq.symm)) value l.prev

@[simp] theorem unlink_head : (l.unlink n).head = l.head := by simp [unlink]

theorem unlink_of_none (hnext : l.next n = none) (hprev : l.prev n = none) : l.unlink n = l := by
  simp [unlink, hnext, hprev, setNext, setPrev]

end Links

/-! ### Segments -/

/-- The links lead through these nodes, coming from `p` and going on to `q`. -/
def Segment (l : Links ν) : Option ν → List ν → Option ν → Prop
  | _, [], _ => True
  | p, n :: rest, q => l.prev n = p ∧ l.next n = rest.head?.or q ∧ Segment l (some n) rest q

variable {l l' : Links ν} {n : ν} {p p' q q' : Option ν} {nodes before after : List ν}

theorem segment_append : Segment l p (before ++ after) q ↔
    Segment l p before (after.head?.or q) ∧ Segment l (before.getLast?.or p) after q := by
  induction before generalizing p with
  | nil => simp [Segment]
  | cons n rest ih =>
    have hlast : (n :: rest).getLast?.or p = rest.getLast?.or (some n) := by
      cases hrest : rest.getLast? <;> simp [getLast?_cons, hrest]
    simp [Segment, ih, Option.or_assoc, hlast, and_assoc]

theorem Segment.congr (hsame : ∀ m ∈ nodes, l'.next m = l.next m ∧ l'.prev m = l.prev m)
    (h : Segment l p nodes q) : Segment l' p nodes q := by
  induction nodes generalizing p with
  | nil => trivial
  | cons n rest ih =>
    obtain ⟨hprev, hnext, hrest⟩ := h
    obtain ⟨hnext', hprev'⟩ := hsame n mem_cons_self
    refine ⟨hprev'.trans hprev, hnext'.trans hnext, ih (fun m hm => ?_) hrest⟩
    exact hsame m (mem_cons_of_mem n hm)

/-! ### Lists -/

/-- The links are those of this list of nodes. -/
structure Linked (l : Links ν) (nodes : List ν) : Prop where
  nodup : nodes.Nodup
  head : l.head = nodes.head?
  segment : Segment l none nodes none

theorem linked_empty : Linked ({} : Links ν) [] := ⟨nodup_nil, rfl, trivial⟩

/-- The head of a list is another node only if there is something before the node. -/
theorem Linked.head_eq (h : Linked l (before ++ n :: after)) :
    (some n = l.head ↔ before = []) ∧ (before ≠ [] → l.head = (before ++ after).head?) := by
  have hhead := h.head
  have hnodup := h.nodup
  cases before with
  | nil =>
    refine ⟨iff_of_true ?_ rfl, fun hne => absurd rfl hne⟩
    simpa using hhead.symm
  | cons first rest =>
    refine ⟨iff_of_false (fun heq => ?_) (cons_ne_nil first rest), fun _ => by simpa using hhead⟩
    have hsame : n = first := some.inj (heq.trans hhead)
    simp [hsame] at hnodup

/-! ### Walks -/

/-- To follow `next` from `start` visits these nodes and ends at nil. -/
inductive Visits (next : ν → Option ν) : Option ν → List ν → Prop where
  | nil : Visits next none []
  | node {n : ν} {rest : List ν} (others : Visits next (next n) rest) : Visits next (some n) (n :: rest)

theorem Segment.visits (h : Segment l p nodes none) : Visits l.next nodes.head? nodes := by
  induction nodes generalizing p with
  | nil => exact .nil
  | cons n rest ih =>
    obtain ⟨-, hnext, hrest⟩ := h
    apply Visits.node
    rw [hnext, or_none]
    exact ih hrest

theorem Linked.visits (h : Linked l nodes) : Visits l.next l.head nodes := by
  rw [h.head]
  exact h.segment.visits

theorem Linked.neighbours (h : Linked l (before ++ n :: after)) :
    l.prev n = before.getLast? ∧ l.next n = after.head? := by
  obtain ⟨-, hprev, hnext, -⟩ := segment_append.mp h.segment
  rw [or_none] at hprev hnext
  exact ⟨hprev, hnext⟩

theorem Linked.prev_of_next {m : ν} (h : Linked l nodes) (hn : n ∈ nodes) (hnext : l.next n = some m) :
    m ∈ nodes ∧ l.prev m = some n := by
  obtain ⟨before, after, rfl⟩ := append_of_mem hn
  rw [h.neighbours.2, head?_eq_some_iff] at hnext
  obtain ⟨rest, rfl⟩ := hnext
  have hsplit : before ++ n :: m :: rest = (before ++ [n]) ++ m :: rest := by simp
  rw [hsplit] at h ⊢
  rw [h.neighbours.1, getLast?_concat]
  exact ⟨mem_append_right _ mem_cons_self, rfl⟩

theorem Linked.next_of_prev {m : ν} (h : Linked l nodes) (hn : n ∈ nodes) (hprev : l.prev n = some m) :
    m ∈ nodes ∧ l.next m = some n := by
  obtain ⟨before, after, rfl⟩ := append_of_mem hn
  rw [h.neighbours.1, getLast?_eq_some_iff] at hprev
  obtain ⟨front, rfl⟩ := hprev
  have hsplit : front ++ [m] ++ n :: after = front ++ m :: n :: after := by simp
  rw [hsplit] at h ⊢
  rw [h.neighbours.2, head?_cons]
  exact ⟨mem_append_right _ mem_cons_self, rfl⟩

theorem Linked.prev_head (h : Linked l nodes) (hhead : l.head = some n) : l.prev n = none := by
  rw [h.head, head?_eq_some_iff] at hhead
  obtain ⟨rest, rfl⟩ := hhead
  exact h.segment.1

/-! ### What the code does to lists -/

theorem some_ne_of_mem {m : ν} (hn : n ∉ nodes) (hm : m ∈ nodes) : some n ≠ some m :=
  fun heq => hn (some.inj heq ▸ hm)

variable [DecidableEq ν]

theorem Segment.setNext_last (h : Segment l p nodes q) (hnodup : nodes.Nodup) :
    Segment (l.setNext nodes.getLast? q') p nodes q' := by
  rcases eq_nil_or_concat' nodes with rfl | ⟨front, n, rfl⟩
  · trivial
  · rw [getLast?_concat]
    rw [segment_append] at h ⊢
    obtain ⟨hfront, hprev, -, -⟩ := h
    have hn : n ∉ front := fun hmem =>
      (nodup_append.mp hnodup).2.2 n hmem n (mem_singleton_self n) rfl
    refine ⟨hfront.congr fun m hm => ⟨Links.setNext_ne (some_ne_of_mem hn hm), by simp⟩, ?_⟩
    exact ⟨by simpa using hprev, by simp, trivial⟩

theorem Segment.setPrev_first (h : Segment l p nodes q) (hnodup : nodes.Nodup) :
    Segment (l.setPrev nodes.head? p') p' nodes q := by
  cases nodes with
  | nil => trivial
  | cons n rest =>
    obtain ⟨-, hnext, hrest⟩ := h
    refine ⟨by simp, by simpa using hnext, hrest.congr fun m hm => ⟨by simp, ?_⟩⟩
    exact Links.setPrev_ne (some_ne_of_mem (nodup_cons.mp hnodup).1 hm)

/-- **To unlink a node** takes it out of the segment. Its own fields stay. -/
theorem Segment.unlink (h : Segment l none (before ++ n :: after) none)
    (hnodup : (before ++ n :: after).Nodup) :
    Segment (l.unlink n) none (before ++ after) none ∧ (l.unlink n).next n = after.head? := by
  obtain ⟨hbefore, hprev, hnext, hafter⟩ := segment_append.mp h
  obtain ⟨hnodupBefore, hnodupRest, hapart⟩ := nodup_append.mp hnodup
  obtain ⟨hn, hnodupAfter⟩ := nodup_cons.mp hnodupRest
  have hlast : before.getLast? ≠ some n := fun hlast =>
    hapart n (mem_of_getLast? hlast) n mem_cons_self rfl
  have heq : l.unlink n = (l.setNext before.getLast? after.head?).setPrev after.head? before.getLast? := by
    simp only [or_none] at hprev hnext
    simp [Links.unlink, hprev, hnext, Links.setNext_ne hlast]
  rw [heq]
  refine ⟨segment_append.mpr ⟨?_, ?_⟩, ?_⟩
  · -- The first part: only the last node's `next` has changed.
    rw [or_none]
    apply (hbefore.setNext_last hnodupBefore).congr
    intro m hm
    refine ⟨by simp, Links.setPrev_ne fun hfirst => ?_⟩
    exact hapart m hm m (mem_cons_of_mem n (mem_of_head? hfirst)) rfl
  · -- The second part: only the first node's `prev` has changed.
    rw [or_none]
    have hrest : Segment (l.setNext before.getLast? after.head?) (some n) after none := by
      apply hafter.congr
      intro m hm
      refine ⟨Links.setNext_ne fun hlast => ?_, by simp⟩
      exact hapart m (mem_of_getLast? hlast) m (mem_cons_of_mem n hm) rfl
    exact hrest.setPrev_first hnodupAfter
  · rw [Links.setPrev_next, Links.setNext_ne hlast, hnext, or_none]

theorem Segment.toHead (h : Segment l none nodes none) (hnodup : nodes.Nodup) (hn : n ∉ nodes)
    (hhead : l.head = nodes.head?) :
    Linked { ((l.setPrev l.head (some n)).setNext (some n) l.head).setPrev (some n) none with head := some n }
      (n :: nodes) where
  nodup := nodup_cons.mpr ⟨hn, hnodup⟩
  head := rfl
  segment := by
    rw [hhead]
    refine ⟨by simp, by simp, ?_⟩
    have hfirst : Segment (l.setPrev nodes.head? (some n)) (some n) nodes none := h.setPrev_first hnodup
    apply hfirst.congr
    intro m hm
    have hne := some_ne_of_mem hn hm
    exact ⟨by simp [Links.setNext_ne hne], by simp [Links.setPrev_ne hne]⟩

theorem Linked.fresh (h : Linked l nodes) (hn : n ∉ nodes) : Linked (l.fresh n) nodes where
  nodup := h.nodup
  head := by simpa [Links.fresh] using h.head
  segment := by
    apply h.segment.congr
    intro m hm
    have hne := some_ne_of_mem hn hm
    exact ⟨by simp [Links.fresh, Links.setNext_ne hne], by simp [Links.fresh, Links.setPrev_ne hne]⟩

/-- **A new node goes to the head.** -/
theorem Linked.moveToHead_new (h : Linked l nodes) (hn : n ∉ nodes) (hnext : l.next n = none)
    (hprev : l.prev n = none) : Linked (l.moveToHead n) (n :: nodes) := by
  have hhead : some n ≠ l.head := by
    rw [h.head]
    exact fun heq => hn (mem_of_head? heq.symm)
  unfold Links.moveToHead
  rw [if_neg hhead, Links.unlink_of_none hnext hprev]
  have hmoved := h.segment.toHead h.nodup hn h.head
  simpa using hmoved

theorem erase_middle (hnodup : (before ++ n :: after).Nodup) :
    (before ++ n :: after).erase n = before ++ after := by
  have hn : n ∉ before := fun hmem => (nodup_append.mp hnodup).2.2 n hmem n mem_cons_self rfl
  rw [erase_append_right _ hn, erase_cons_head]

theorem notMem_sides (hnodup : (before ++ n :: after).Nodup) : n ∉ before ++ after := by
  have hnot := hnodup.not_mem_erase (a := n)
  rwa [erase_middle hnodup] at hnot

/-- **A node of the list goes to the head.** -/
theorem Linked.moveToHead (h : Linked l nodes) (hn : n ∈ nodes) :
    Linked (l.moveToHead n) (Recency.touch n nodes) := by
  obtain ⟨before, after, rfl⟩ := append_of_mem hn
  rw [Recency.touch, erase_middle h.nodup]
  unfold Links.moveToHead
  split
  · next hhead =>
    cases h.head_eq.1.mp hhead
    exact h
  · next hhead =>
    obtain ⟨hsegment, -⟩ := h.segment.unlink h.nodup
    have hnodup : (before ++ after).Nodup := by
      rw [← erase_middle h.nodup]
      exact h.nodup.erase n
    have hsame : (l.unlink n).head = (before ++ after).head? := by
      rw [Links.unlink_head]
      exact h.head_eq.2 (mt h.head_eq.1.mpr hhead)
    have hmoved := hsegment.toHead hnodup (notMem_sides h.nodup) hsame
    simpa using hmoved

/-- **A node of the list is taken out.** -/
theorem Linked.remove (h : Linked l nodes) (hn : n ∈ nodes) : Linked (l.remove n) (nodes.erase n) := by
  obtain ⟨before, after, rfl⟩ := append_of_mem hn
  obtain ⟨hsegment, hnext⟩ := h.segment.unlink h.nodup
  have hnodup := h.nodup.erase n
  rw [erase_middle h.nodup] at hnodup ⊢
  unfold Links.remove
  simp only [Links.unlink_head]
  split
  · next hhead =>
    cases h.head_eq.1.mp hhead
    refine ⟨hnodup, hnext, Segment.congr (fun m _ => ?_) hsegment⟩
    exact ⟨rfl, rfl⟩
  · next hhead =>
    refine ⟨hnodup, ?_, hsegment⟩
    rw [Links.unlink_head]
    exact h.head_eq.2 (mt h.head_eq.1.mpr hhead)

end LinkedList
