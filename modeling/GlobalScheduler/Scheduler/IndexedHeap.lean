import GlobalScheduler.Transition
import GlobalScheduler.Go.HeapInterface
import GlobalScheduler.Go.Map
import GlobalScheduler.Scheduler.Heap

/-! The heap of `utils/heap.go`, with its map.

The slice has keys, and the map has for each key its object and the place of the key in the
slice. `container/heap` moves the keys, and `Swap`, `Push` and `Pop` keep the places right at
every step of its loops, so that a stored object can be replaced or deleted where it is. -/
namespace GlobalScheduler.IndexedHeap
open Go Outcome Go.Heap Transition AList Option Function
open List hiding swap_perm

structure HeapItem (α : Type) where
  obj : α
  index : Nat
deriving DecidableEq

structure HeapData (α : Type) where
  items : Map String (HeapItem α) := ∅
  queue : List String := []
deriving DecidableEq

inductive HeapError where
  | keyError (err : String)
  | errorf (msg : String)
deriving DecidableEq

/-! ### The code

An object is never nil. -/

namespace HeapData
variable {α : Type}

def item (i : Nat) (h : HeapData α) : Outcome (Option (HeapItem α)) :=
  match h.queue[i]? with
  | none => throw .indexOutOfRange
  | some key => pure (h.items.lookup key)

def less (lessFunc : α → α → Bool) (i j : Nat) (h : HeapData α) : Outcome Bool :=
  if h.queue.length < i ∨ h.queue.length < j then pure false
  else do
    match ← h.item i with
    | none => pure false
    | some itemi =>
      match ← h.item j with
      | none => pure false
      | some itemj => pure (lessFunc itemi.obj itemj.obj)

/-- `h.items[key].index = index`. -/
def setIndex (key : String) (index : Nat) (h : HeapData α) : Outcome (HeapData α) :=
  match h.items.lookup key with
  | none => throw .nilPointer
  | some item => pure { h with items := h.items.insert key { item with index := index } }

def swap (i j : Nat) (h : HeapData α) : Outcome (HeapData α) :=
  match h.queue[i]?, h.queue[j]? with
  | some a, some b => do
    let h ← { h with queue := Heap.swap i j h.queue }.setIndex b i
    h.setIndex a j
  | _, _ => throw .indexOutOfRange

def push (key : String) (obj : α) (h : HeapData α) : HeapData α :=
  { items := h.items.insert key ⟨obj, h.queue.length⟩, queue := h.queue ++ [key] }

def pop (h : HeapData α) : Outcome (HeapData α × Option α) :=
  match h.queue.getLast? with
  | none => throw .indexOutOfRange
  | some key =>
    match h.items.lookup key with
    | none => pure ({ h with queue := h.queue.dropLast }, none)
    | some item => pure ({ items := h.items.erase key, queue := h.queue.dropLast }, some item.obj)

/-- The structure as `container/heap` sees it. -/
def interface (lessFunc : α → α → Bool) : Interface (HeapData α) := ⟨less lessFunc, swap⟩

def getByKey (key : String) (h : HeapData α) : Option α := (h.items.lookup key).map HeapItem.obj

end HeapData

section
variable {α : Type} (keyFunc : α → Except String String) (lessFunc : α → α → Bool)

/-- `heap.Push`. -/
def heapPush (key : String) (obj : α) (h : HeapData α) : Outcome (HeapData α) :=
  (HeapData.interface lessFunc).up h.queue.length (h.push key obj)

/-- `heap.Fix`. -/
def heapFix (i : Nat) (h : HeapData α) : Outcome (HeapData α) :=
  (HeapData.interface lessFunc).settle i h.queue.length h

/-- `heap.Remove`. -/
def heapRemove (i : Nat) (h : HeapData α) : Outcome (HeapData α × Option α) := do
  let n := h.queue.length - 1
  let h ← if n = i then pure h else do (HeapData.interface lessFunc).settle i n (← h.swap i n)
  h.pop

/-- `heap.Pop`. -/
def heapPop (h : HeapData α) : Outcome (HeapData α × Option α) := do
  let n := h.queue.length - 1
  let (h, _) ← (HeapData.interface lessFunc).down 0 n (← h.swap 0 n)
  h.pop

def addIfNotPresent (obj : α) (h : HeapData α) : Outcome (HeapData α × Option HeapError) :=
  match keyFunc obj with
  | .error err => pure (h, some (.keyError err))
  | .ok key =>
    if key ∈ h.items then pure (h, none)
    else do pure (← heapPush lessFunc key obj h, none)

def add (obj : α) (h : HeapData α) : Outcome (HeapData α × Option HeapError) :=
  match keyFunc obj with
  | .error err => pure (h, some (.keyError err))
  | .ok key =>
    match h.items.lookup key with
    | some item => do
      pure (← heapFix lessFunc item.index { h with items := h.items.insert key { item with obj := obj } }, none)
    | none => do pure (← heapPush lessFunc key obj h, none)

def update (obj : α) (h : HeapData α) : Outcome (HeapData α × Option HeapError) := add keyFunc lessFunc obj h

def delete (obj : α) (h : HeapData α) : Outcome (HeapData α × Option HeapError) :=
  match keyFunc obj with
  | .error err => pure (h, some (.keyError err))
  | .ok key =>
    match h.items.lookup key with
    | some item => do pure ((← heapRemove lessFunc item.index h).1, none)
    | none => pure (h, some (.errorf "object not found"))

def pop (h : HeapData α) : Outcome (HeapData α × Except HeapError α) := do
  match ← heapPop lessFunc h with
  | (h, some obj) => pure (h, .ok obj)
  | (h, none) => pure (h, .error (.errorf "object was removed from heap data"))

end

/-! ### The slice of objects -/

/-- The list has the objects of the keys, each at the place that the map has for it. -/
structure Stands {α : Type} (keyFunc : α → Except String String) (h : HeapData α) (l : List α) : Prop where
  length : h.queue.length = l.length
  slots : ∀ i key, h.queue[i]? = some key →
    ∃ obj, l[i]? = some obj ∧ h.items.lookup key = some ⟨obj, i⟩ ∧ keyFunc obj = .ok key
  keys : ∀ key ∈ h.items, key ∈ h.queue

section
variable {α : Type} {keyFunc : α → Except String String} {lessFunc : α → α → Bool} {h h' : HeapData α} {l : List α}
  {i j : Nat} {key : String} {obj : α}

section
variable (hs : Stands keyFunc h l)
include hs

theorem Stands.index_inj (hi : h.queue[i]? = some key) (hj : h.queue[j]? = some key) : i = j := by
  obtain ⟨_, -, hlook, -⟩ := hs.slots i key hi
  obtain ⟨_, -, hlook', -⟩ := hs.slots j key hj
  cases hlook.symm.trans hlook'
  rfl

theorem Stands.slot (hlook : h.items.lookup key = some ⟨obj, i⟩) :
    h.queue[i]? = some key ∧ l[i]? = some obj ∧ keyFunc obj = .ok key := by
  obtain ⟨k, hk⟩ := mem_iff_getElem?.mp (hs.keys key (Map.mem_of_lookup hlook))
  obtain ⟨_, hobj, hlook', hkey⟩ := hs.slots k key hk
  cases hlook.symm.trans hlook'
  exact ⟨hk, hobj, hkey⟩

/-! ### The methods -/

theorem Stands.item (hi : i < l.length) :
    ∃ key, h.queue[i]? = some key ∧ h.items.lookup key = some ⟨l[i], i⟩ ∧ keyFunc l[i] = .ok key := by
  have hlt : i < h.queue.length := hs.length ▸ hi
  obtain ⟨obj, hobj, hlook, hkey⟩ := hs.slots i _ (getElem?_eq_getElem hlt)
  rw [getElem?_eq_getElem hi] at hobj
  cases hobj
  exact ⟨_, getElem?_eq_getElem hlt, hlook, hkey⟩

theorem Stands.get_iff : h.getByKey key = some obj ↔ obj ∈ l ∧ keyFunc obj = .ok key := by
  constructor
  · intro hget
    obtain ⟨item, hlook, rfl⟩ := map_eq_some_iff.mp hget
    obtain ⟨-, hobj, hkey⟩ := hs.slot hlook
    exact ⟨mem_of_getElem? hobj, hkey⟩
  · rintro ⟨hobj, hkey⟩
    obtain ⟨i, hi, rfl⟩ := getElem_of_mem hobj
    obtain ⟨_, -, hlook, hkey'⟩ := hs.item hi
    cases hkey.symm.trans hkey'
    rw [HeapData.getByKey, hlook, map_some]

theorem Stands.less (hi : i < l.length) (hj : j < l.length) :
    h.less lessFunc i j = .ok (lessAt lessFunc l i j) := by
  obtain ⟨keyi, hkeyi, hlooki, -⟩ := hs.item hi
  obtain ⟨keyj, hkeyj, hlookj, -⟩ := hs.item hj
  have hlength := hs.length
  unfold HeapData.less HeapData.item lessAt
  rw [if_neg (by omega), hkeyi, hkeyj, getElem?_eq_getElem hi, getElem?_eq_getElem hj]
  dsimp only
  rw [hlooki, hlookj]
  rfl

theorem Stands.swap (hi : i < l.length) (hj : j < l.length) :
    ∃ h', h.swap i j = .ok h' ∧ Stands keyFunc h' (Heap.swap i j l) := by
  obtain ⟨a, ha, hlooka, hkeya⟩ := hs.item hi
  obtain ⟨b, hb, hlookb, hkeyb⟩ := hs.item hj
  have hqi : i < h.queue.length := hs.length ▸ hi
  have hqj : j < h.queue.length := hs.length ▸ hj
  -- The second write finds the item of `a`, also where both keys are the same.
  have hsecond : (h.items.insert b ⟨l[j], i⟩).lookup a = some ⟨l[i], i⟩ := by
    by_cases hab : a = b
    · subst hab
      cases hs.index_inj ha hb
      exact lookup_insert _
    · rw [lookup_insert_ne hab, hlooka]
  refine ⟨⟨(h.items.insert b ⟨l[j], i⟩).insert a ⟨l[i], j⟩, Heap.swap i j h.queue⟩, ?_, ?_, ?_, ?_⟩
  · unfold HeapData.swap HeapData.setIndex
    rw [ha, hb]
    dsimp only
    rw [hlookb]
    dsimp only [bind, Except.bind, pure, Except.pure]
    rw [hsecond]
  · rw [swap_length, swap_length, hs.length]
  · intro k key hk
    by_cases hkj : k = j
    · subst hkj
      rw [swap_getElem?_right _ hqi hqj, ha] at hk
      cases hk
      exact ⟨l[i], by rw [swap_getElem?_right _ hi hj, getElem?_eq_getElem hi], lookup_insert _, hkeya⟩
    by_cases hki : k = i
    · subst hki
      rw [swap_getElem?_left _ hqi hqj, hb] at hk
      cases hk
      have hba : b ≠ a := fun heq => hkj (hs.index_inj ha (heq ▸ hb))
      refine ⟨l[j], by rw [swap_getElem?_left _ hi hj, getElem?_eq_getElem hj], ?_, hkeyb⟩
      rw [lookup_insert_ne hba, lookup_insert]
    · rw [swap_getElem? _ hki hkj] at hk
      obtain ⟨obj, hobj, hlook, hkey⟩ := hs.slots k key hk
      have hka : key ≠ a := fun heq => hki (hs.index_inj hk (heq ▸ ha))
      have hkb : key ≠ b := fun heq => hkj (hs.index_inj hk (heq ▸ hb))
      refine ⟨obj, by rw [swap_getElem? _ hki hkj, hobj], ?_, hkey⟩
      rw [lookup_insert_ne hka, lookup_insert_ne hkb, hlook]
  · intro key hkey
    rw [(swap_perm i j h.queue).mem_iff]
    cases (mem_insert _).mp hkey with
    | inl heq => exact heq ▸ mem_of_getElem? ha
    | inr hkey =>
      cases (mem_insert _).mp hkey with
      | inl heq => exact heq ▸ mem_of_getElem? hb
      | inr hkey => exact hs.keys key hkey

theorem Stands.push (hkey : keyFunc obj = .ok key) (hnew : key ∉ h.items) :
    Stands keyFunc (h.push key obj) (l ++ [obj]) := by
  refine ⟨by simp [HeapData.push, hs.length], fun i k hk => ?_, fun k hk => ?_⟩
  · show ∃ obj', _ ∧ (h.items.insert key _).lookup k = _ ∧ _
    by_cases hi : i < h.queue.length
    · rw [HeapData.push, getElem?_append_left hi] at hk
      obtain ⟨obj', hobj, hlook, hkey'⟩ := hs.slots i k hk
      have hne : k ≠ key := fun heq => hnew (heq ▸ Map.mem_of_lookup hlook)
      refine ⟨obj', ?_, ?_, hkey'⟩
      · rw [getElem?_append_left (hs.length ▸ hi), hobj]
      · rw [lookup_insert_ne hne, hlook]
    · have hend : i = h.queue.length := by
        have hlt := (List.getElem?_eq_some_iff.mp hk).1
        simp only [HeapData.push, length_append, length_singleton] at hlt
        omega
      subst hend
      simp only [HeapData.push, getElem?_concat_length, some_inj] at hk
      subst hk
      exact ⟨obj, by rw [hs.length, getElem?_concat_length], lookup_insert _, hkey⟩
  · show k ∈ h.queue ++ [key]
    cases (mem_insert _).mp hk with
    | inl heq => simp [heq]
    | inr hold => exact mem_append_left _ (hs.keys k hold)

theorem Stands.pop (hlast : l.getLast? = some obj) :
    ∃ h', h.pop = .ok (h', some obj) ∧ Stands keyFunc h' l.dropLast := by
  rw [getLast?_eq_getElem?] at hlast
  obtain ⟨hlt, rfl⟩ := List.getElem?_eq_some_iff.mp hlast
  obtain ⟨key, hkey, hlook, -⟩ := hs.item hlt
  have hqueue : h.queue.getLast? = some key := by rw [getLast?_eq_getElem?, hs.length, hkey]
  have hsplit := dropLast_append_getLast? key hqueue
  refine ⟨⟨h.items.erase key, h.queue.dropLast⟩, ?_, ?_, fun i k hk => ?_, fun k hk => ?_⟩
  · rw [HeapData.pop, hqueue]
    dsimp only
    rw [hlook]
    rfl
  · simp [hs.length]
  · have hi := (List.getElem?_eq_some_iff.mp hk).1
    rw [length_dropLast] at hi
    rw [getElem?_dropLast, if_pos hi] at hk
    obtain ⟨obj, hobj, hlook', hkey'⟩ := hs.slots i k hk
    have hlength := hs.length
    refine ⟨obj, by rw [getElem?_dropLast, if_pos (by omega), hobj], ?_, hkey'⟩
    have hne : k ≠ key := by
      intro heq
      have hindex := hs.index_inj hk (heq ▸ hkey)
      omega
    rw [lookup_erase_ne hne, hlook']
  · obtain ⟨hne, hold⟩ := mem_erase.mp hk
    have hmem := hs.keys k hold
    rw [← hsplit, mem_append, mem_singleton] at hmem
    exact hmem.resolve_right hne

theorem Stands.replace {item : HeapItem α} (hlook : h.items.lookup key = some item)
    (hkey : keyFunc obj = .ok key) :
    Stands keyFunc { h with items := h.items.insert key { item with obj := obj } } (l.set item.index obj) := by
  obtain ⟨hqueue, hobj, -⟩ := hs.slot hlook
  have hlt := (List.getElem?_eq_some_iff.mp hobj).1
  refine ⟨by simp [hs.length], fun i k hk => ?_, fun k hk => ?_⟩
  · by_cases hi : i = item.index
    · subst hi
      cases hqueue.symm.trans hk
      exact ⟨obj, getElem?_set_self hlt, lookup_insert _, hkey⟩
    · obtain ⟨obj', hobj', hlook', hkey'⟩ := hs.slots i k hk
      have hne : k ≠ key := fun heq => hi (hs.index_inj hk (heq ▸ hqueue))
      refine ⟨obj', by rw [getElem?_set_ne (Ne.symm hi), hobj'], ?_, hkey'⟩
      rw [lookup_insert_ne hne, hlook']
  · cases (mem_insert _).mp hk with
    | inl heq =>
      rw [heq]
      exact mem_of_getElem? hqueue
    | inr hold => exact hs.keys k hold

end

/-! ### The heap of the queue -/

/-- The key of an object that has one. -/
def keyOf (keyFunc : α → Except String String) (obj : α) : String :=
  match keyFunc obj with
  | .ok key => key
  | .error _ => ""

theorem keyOf_ok (hkey : keyFunc obj = .ok key) : keyOf keyFunc obj = key := by
  rw [keyOf, hkey]

theorem Stands.queue (hs : Stands keyFunc h l) : h.queue = l.map (keyOf keyFunc) := by
  refine ext_getElem (by rw [length_map, hs.length]) fun i hi hi' => ?_
  obtain ⟨obj, hobj, -, hkey⟩ := hs.slots i _ (getElem?_eq_getElem hi)
  obtain ⟨hlt, rfl⟩ := List.getElem?_eq_some_iff.mp hobj
  rw [getElem_map, keyOf_ok hkey]

theorem Stands.nodup (hs : Stands keyFunc h l) : (l.map (keyOf keyFunc)).Nodup := by
  rw [← hs.queue, nodup_iff_injective_getElem]
  intro i j hij
  have hij : h.queue[i] = h.queue[j] := hij
  exact Fin.ext (hs.index_inj (getElem?_eq_getElem i.2) (hij ▸ getElem?_eq_getElem j.2))

theorem Stands.keyed (hs : Stands keyFunc h l) (hobj : obj ∈ l) : keyFunc obj = .ok (keyOf keyFunc obj) := by
  obtain ⟨i, hi, rfl⟩ := getElem_of_mem hobj
  obtain ⟨key, -, -, hkey⟩ := hs.item hi
  rw [keyOf_ok hkey, hkey]

variable {H H' : Heap (keyOf keyFunc)}

theorem Stands.getByKey (hs : Stands keyFunc h H.queue) (key : String) : h.getByKey key = H.getByKey key := by
  refine ext fun obj => ?_
  rw [hs.get_iff, Heap.getByKey_eq_some]
  refine and_congr_right fun hobj => ?_
  rw [hs.keyed hobj, Except.ok.injEq]

theorem stands_empty : Stands keyFunc {} [] :=
  ⟨rfl, fun i key hkey => by simp at hkey, fun key hkey => absurd hkey (notMem_empty _)⟩

/-- **The map has the place** that the heap of the queue looks for. -/
theorem Stands.index (hs : Stands keyFunc h H.queue) (key : String) :
    H.index key = (h.items.lookup key).map HeapItem.index := by
  refine ext fun i => ?_
  rw [Heap.index_eq_some, ← hs.queue, map_eq_some_iff]
  constructor
  · intro hi
    obtain ⟨obj, -, hlook, -⟩ := hs.slots i key hi
    exact ⟨_, hlook, rfl⟩
  · rintro ⟨item, hlook, rfl⟩
    exact (hs.slot hlook).1

/-! ### The functions of the package -/

theorem contract (keyFunc : α → Except String String) (lessFunc : α → α → Bool) :
    Contract (HeapData.interface lessFunc) lessFunc (Stands keyFunc) where
  less hs hi hj := hs.less hi hj
  swap hs hi hj := hs.swap hi hj

section
variable (lessFunc) (hs : Stands keyFunc h H.queue)
include hs

section
variable (hkey : keyFunc obj = .ok key)
include hkey

theorem Stands.heapPush (hnew : key ∉ h.items) :
    ∃ h', heapPush lessFunc key obj h = .ok h' ∧ Stands keyFunc h' (H.add lessFunc obj).queue := by
  obtain ⟨h', hup, hs'⟩ := (contract keyFunc lessFunc).up (j := H.queue.length) (hs.push hkey hnew) (by simp)
  refine ⟨h', ?_, ?_⟩
  · rw [IndexedHeap.heapPush, hs.length, hup]
  · show Stands keyFunc h' (H.added lessFunc obj)
    rwa [Heap.added, keyOf_ok hkey, hs.index, lookup_eq_none.mpr hnew]

variable {item : HeapItem α} (hlook : h.items.lookup key = some item)
include hlook

theorem Stands.heapFix :
    ∃ h', heapFix lessFunc item.index { h with items := h.items.insert key { item with obj := obj } } = .ok h' ∧
      Stands keyFunc h' (H.add lessFunc obj).queue := by
  have hlt := (List.getElem?_eq_some_iff.mp (hs.slot hlook).2.1).1
  have hreplaced := hs.replace hlook hkey
  obtain ⟨h', hsettle, hs'⟩ := (contract keyFunc lessFunc).settle (i := item.index) hreplaced le_rfl
    (by rwa [length_set])
  refine ⟨h', ?_, ?_⟩
  · rw [IndexedHeap.heapFix, hreplaced.length, hsettle]
  · show Stands keyFunc h' (H.added lessFunc obj)
    rwa [Heap.added, keyOf_ok hkey, hs.index, hlook]

theorem Stands.heapRemove :
    ∃ r, heapRemove lessFunc item.index h = .ok r ∧ Stands keyFunc r.1 (H.deleteIfPresent lessFunc obj).queue := by
  obtain ⟨-, hobj, -⟩ := hs.slot hlook
  have hlt := (List.getElem?_eq_some_iff.mp hobj).1
  rw [Heap.deleteIfPresent_of_index (i := item.index) lessFunc (by rw [keyOf_ok hkey, hs.index, hlook]; rfl)]
  unfold IndexedHeap.heapRemove Heap.remove
  rw [hs.length]
  dsimp only
  by_cases hn : H.queue.length - 1 = item.index
  · rw [if_pos hn, if_pos hn]
    have hlast : H.queue.getLast? = some item.obj := by rw [getLast?_eq_getElem?, hn, hobj]
    obtain ⟨h', hpop, hs'⟩ := hs.pop hlast
    exact ⟨_, hpop, hs'⟩
  · -- The object is moved to the end, and then the end is taken off.
    rw [if_neg hn, if_neg hn]
    have hend : H.queue.length - 1 < H.queue.length := by omega
    obtain ⟨h₁, hswap, hs₁⟩ := hs.swap hlt hend
    obtain ⟨h₂, hsettle, hs₂⟩ := (contract keyFunc lessFunc).settle (i := item.index)
      (n := H.queue.length - 1) hs₁ (by rw [swap_length]; omega) (by rwa [swap_length])
    have hlast : (settle lessFunc item.index (H.queue.length - 1)
        (Heap.swap item.index (H.queue.length - 1) H.queue)).getLast? = some item.obj := by
      rw [getLast?_eq_getElem?, (settle_perm ..).length_eq, swap_length,
        settle_getElem? lessFunc _ (by omega) le_rfl, swap_getElem?_right H.queue hlt hend, hobj]
    obtain ⟨h', hpop, hs'⟩ := hs₂.pop hlast
    exact ⟨_, bind_ok.mpr ⟨h₁, hswap, bind_ok.mpr ⟨h₂, hsettle, hpop⟩⟩, hs'⟩

end

theorem Stands.heapPop (hpop : H.pop lessFunc = some (obj, H')) :
    ∃ h', heapPop lessFunc h = .ok (h', some obj) ∧ Stands keyFunc h' H'.queue := by
  have hrest := Heap.queue_of_pop lessFunc hpop
  obtain ⟨after, hqueue, -⟩ := Heap.pop_split lessFunc hrest
  rw [hqueue] at hs hrest
  obtain ⟨last, hlast, heq⟩ := map_eq_some_iff.mp hrest
  obtain ⟨rfl, hleft⟩ := Prod.mk.inj heq
  obtain ⟨h₁, hswap, hs₁⟩ := hs.swap (i := 0) (j := after.length) (by simp) (by simp)
  obtain ⟨h₂, hdown, hs₂⟩ := (contract keyFunc lessFunc).down (i := 0) (n := after.length) hs₁
    (by rw [swap_length]; simp)
  obtain ⟨h', htake, hs'⟩ := hs₂.pop hlast
  refine ⟨h', ?_, hleft ▸ hs'⟩
  unfold IndexedHeap.heapPop
  rw [hs.length, length_cons, Nat.add_sub_cancel]
  exact bind_ok.mpr ⟨h₁, hswap, bind_ok.mpr ⟨_, hdown, htake⟩⟩

end

end

/-! ### Runs -/

/-- A call; a pop has the object that it returned. -/
inductive Event (α : Type) where
  | add (obj : α)
  | addIfNotPresent (obj : α)
  | update (obj : α)
  | delete (obj : α)
  | pop (obj : α)

section
variable {α : Type} (keyFunc : α → Except String String) (lessFunc : α → α → Bool)

def Step (h : HeapData α) : Event α → HeapData α → Prop
  | .add obj, h' => ∃ err, add keyFunc lessFunc obj h = .ok (h', err)
  | .addIfNotPresent obj, h' => ∃ err, addIfNotPresent keyFunc lessFunc obj h = .ok (h', err)
  | .update obj, h' => ∃ err, update keyFunc lessFunc obj h = .ok (h', err)
  | .delete obj, h' => ∃ err, delete keyFunc lessFunc obj h = .ok (h', err)
  | .pop obj, h' => h.queue ≠ [] ∧ pop lessFunc h = .ok (h', .ok obj)

/-- The object under the key of another one, if that has a key. -/
def put (obj : α) (value : Option α → Option α) (store : String → Option α) : String → Option α :=
  match keyFunc obj with
  | .ok key => Function.update store key (value (store key))
  | .error _ => store

/-- The same call of the heap of the queue, which is given no object without a key. -/
def HeapStep (H : Heap (keyOf keyFunc)) : Event α → Heap (keyOf keyFunc) → Prop
  | .add obj, H' | .update obj, H' => H' = if (keyFunc obj).isOk then H.add lessFunc obj else H
  | .addIfNotPresent obj, H' => H' = if (keyFunc obj).isOk && (H.get obj).isNone then H.add lessFunc obj else H
  | .delete obj, H' => H' = if (keyFunc obj).isOk then H.deleteIfPresent lessFunc obj else H
  | .pop obj, H' => H.pop lessFunc = some (obj, H')

theorem put_ok {obj : α} {key : String} (hkey : keyFunc obj = .ok key) (value : Option α → Option α)
    (store : String → Option α) :
    put keyFunc obj value store = Function.update store key (value (store key)) := by
  rw [put, hkey]

theorem put_error {obj : α} {err : String} (hkey : keyFunc obj = .error err) (value : Option α → Option α)
    (store : String → Option α) : put keyFunc obj value store = store := by
  rw [put, hkey]

/-- The objects that are to be stored after a call. -/
def record (store : String → Option α) : Event α → String → Option α
  | .add obj | .update obj => put keyFunc obj (fun _ => some obj) store
  | .addIfNotPresent obj => put keyFunc obj (fun old => some (old.getD obj)) store
  | .delete obj | .pop obj => put keyFunc obj (fun _ => none) store

/-- Of every key, the object that was last added and was neither deleted nor popped since. -/
def stored (es : List (Event α)) : String → Option α := es.foldl (record keyFunc) fun _ => none

end

/-! ### The calls -/

section
variable {α : Type} {keyFunc : α → Except String String} {lessFunc : α → α → Bool} {h h' : HeapData α}
  {H H' : Heap (keyOf keyFunc)} {obj : α} {e : Event α}

section
variable (hs : Stands keyFunc h H.queue)
include hs

theorem Stands.add (lessFunc : α → α → Bool) (obj : α) : ∃ r, add keyFunc lessFunc obj h = .ok r ∧
    Stands keyFunc r.1 (if (keyFunc obj).isOk then H.add lessFunc obj else H).queue := by
  unfold IndexedHeap.add
  cases hkey : keyFunc obj with
  | error err => exact ⟨_, rfl, hs⟩
  | ok key =>
    dsimp only
    cases hlook : h.items.lookup key with
    | some item =>
      obtain ⟨h', hfix, hs'⟩ := hs.heapFix lessFunc hkey hlook
      exact ⟨(h', none), bind_ok.mpr ⟨h', hfix, rfl⟩, hs'⟩
    | none =>
      obtain ⟨h', hpush, hs'⟩ := hs.heapPush lessFunc hkey (lookup_eq_none.mp hlook)
      exact ⟨(h', none), bind_ok.mpr ⟨h', hpush, rfl⟩, hs'⟩

theorem Stands.addIfNotPresent (lessFunc : α → α → Bool) (obj : α) :
    ∃ r, addIfNotPresent keyFunc lessFunc obj h = .ok r ∧ Stands keyFunc r.1
      (if (keyFunc obj).isOk && (H.get obj).isNone then H.add lessFunc obj else H).queue := by
  unfold IndexedHeap.addIfNotPresent
  cases hkey : keyFunc obj with
  | error err => exact ⟨_, rfl, hs⟩
  | ok key =>
    rw [Heap.get, keyOf_ok hkey, ← hs.getByKey, HeapData.getByKey]
    by_cases hmem : key ∈ h.items
    · obtain ⟨item, hlook⟩ := Map.exists_lookup hmem
      rw [hlook]
      exact ⟨(h, none), if_pos hmem, hs⟩
    · obtain ⟨h', hpush, hs'⟩ := hs.heapPush lessFunc hkey hmem
      rw [lookup_eq_none.mpr hmem]
      exact ⟨(h', none), (if_neg hmem).trans (bind_ok.mpr ⟨h', hpush, rfl⟩), hs'⟩

theorem Stands.delete (lessFunc : α → α → Bool) (obj : α) : ∃ r, delete keyFunc lessFunc obj h = .ok r ∧
    Stands keyFunc r.1 (if (keyFunc obj).isOk then H.deleteIfPresent lessFunc obj else H).queue := by
  unfold IndexedHeap.delete
  cases hkey : keyFunc obj with
  | error err => exact ⟨_, rfl, hs⟩
  | ok key =>
    dsimp only
    cases hlook : h.items.lookup key with
    | some item =>
      obtain ⟨r, hremove, hs'⟩ := hs.heapRemove lessFunc hkey hlook
      exact ⟨(r.1, none), bind_ok.mpr ⟨r, hremove, rfl⟩, hs'⟩
    | none =>
      refine ⟨(h, _), rfl, show Stands keyFunc h (H.deleteIfPresent lessFunc obj).queue from ?_⟩
      rwa [Heap.deleteIfPresent_of_absent lessFunc (by rw [keyOf_ok hkey, hs.index, hlook]; rfl)]

theorem Stands.popFirst (hpop : H.pop lessFunc = some (obj, H')) :
    ∃ h', IndexedHeap.pop lessFunc h = .ok (h', .ok obj) ∧ Stands keyFunc h' H'.queue := by
  obtain ⟨h', hheap, hs'⟩ := hs.heapPop lessFunc hpop
  exact ⟨h', bind_ok.mpr ⟨_, hheap, rfl⟩, hs'⟩

theorem Stands.step (hstep : Step keyFunc lessFunc h e h') :
    ∃ H', HeapStep keyFunc lessFunc H e H' ∧ Stands keyFunc h' H'.queue := by
  cases e with
  | add obj | update obj =>
    obtain ⟨r, hcall, hs'⟩ := hs.add lessFunc obj
    cases hcall.symm.trans hstep.choose_spec
    exact ⟨_, rfl, hs'⟩
  | addIfNotPresent obj =>
    obtain ⟨r, hcall, hs'⟩ := hs.addIfNotPresent lessFunc obj
    cases hcall.symm.trans hstep.choose_spec
    exact ⟨_, rfl, hs'⟩
  | delete obj =>
    obtain ⟨r, hcall, hs'⟩ := hs.delete lessFunc obj
    cases hcall.symm.trans hstep.choose_spec
    exact ⟨_, rfl, hs'⟩
  | pop obj =>
    obtain ⟨hne, hcall⟩ := hstep
    cases hqueue : H.queue with
    | nil => exact absurd (by rw [hs.queue, hqueue]; rfl) hne
    | cons x rest =>
      obtain ⟨H', hpop⟩ := Heap.pop_of_peek (x := x) lessFunc (by rw [Heap.peek, hqueue]; rfl)
      obtain ⟨h₁, hcall', hs'⟩ := hs.popFirst hpop
      cases hcall.symm.trans hcall'
      exact ⟨H', hpop, hs'⟩

end

theorem HeapStep.getByKey (hkeyed : ∀ x ∈ H.queue, keyFunc x = .ok (keyOf keyFunc x))
    (hstep : HeapStep keyFunc lessFunc H e H') : H'.getByKey = record keyFunc H.getByKey e := by
  cases e with
  | pop obj =>
    rw [record, put_ok keyFunc (hkeyed obj (Heap.pop_eq_some lessFunc hstep).1)]
    exact Heap.getByKey_pop lessFunc hstep
  | add obj | update obj | delete obj | addIfNotPresent obj =>
    cases hstep
    cases hkey : keyFunc obj with
    | error err =>
      rw [record, put_error keyFunc hkey]
      rfl
    | ok key =>
      rw [record, put_ok keyFunc hkey, ← keyOf_ok hkey]
      first
        | exact Heap.getByKey_add lessFunc
        | exact Heap.getByKey_deleteIfPresent lessFunc
        | rw [Heap.get]
          cases hget : H.getByKey (keyOf keyFunc obj) with
          | none => exact Heap.getByKey_add lessFunc
          | some x => exact (Function.update_eq_self_iff.mpr hget.symm).symm

/-- **The heap refines the heap of the queue**: in every run, its slice has the keys of the objects
that the calls leave in the other one, in that order, and its map finds those objects. -/
theorem heap_refines {es : List (Event α)} (hrun : Run (Step keyFunc lessFunc) (fun _ _ => True) {} es h) :
    ∃ H : Heap (keyOf keyFunc), Run (HeapStep keyFunc lessFunc) (fun _ _ => True) {} es H ∧
      h.queue = H.queue.map (keyOf keyFunc) ∧
      ∀ key, h.getByKey key = H.getByKey key ∧ (h.items.lookup key).map HeapItem.index = H.index key := by
  obtain ⟨H, hrun', hs⟩ := hrun.simulates (R := fun h (H : Heap (keyOf keyFunc)) => Stands keyFunc h H.queue)
    (fun _ _ _ _ hs hstep => by exact hs.step hstep) (t := {}) stands_empty
  exact ⟨H, hrun', hs.queue, fun key => ⟨hs.getByKey key, (hs.index key).symm⟩⟩

/-- Three jobs are added and the first is taken: the heap of the queue has the two others where
the map finds them. -/
theorem heap_refines_three_jobs : ∃ (h : HeapData (String × Nat)) (H : Heap (keyOf fun x : String × Nat => .ok x.1)),
    Run (Step (fun x => .ok x.1) fun x y => decide (x.2 < y.2)) (fun _ _ => True) {}
      [.add ("a", 3), .add ("b", 1), .add ("c", 2), .pop ("b", 1)] h ∧
    H.queue.map (keyOf fun x : String × Nat => .ok x.1) = ["c", "a"] ∧
    H.getByKey "c" = some ("c", 2) ∧ H.index "c" = some 0 ∧ H.getByKey "a" = some ("a", 3) ∧ H.index "a" = some 1 := by
  have hcalls : (add (fun x : String × Nat => .ok x.1) (fun x y => decide (x.2 < y.2)) ("a", 3) {} >>= fun r₁ =>
      add (fun x => .ok x.1) (fun x y => decide (x.2 < y.2)) ("b", 1) r₁.1 >>= fun r₂ =>
      add (fun x => .ok x.1) (fun x y => decide (x.2 < y.2)) ("c", 2) r₂.1 >>= fun r₃ =>
      (pop (fun x y => decide (x.2 < y.2)) r₃.1).map fun r =>
        (r₃.1.queue, r.2.toOption, r.1.queue, r.1.items.lookup "c", r.1.items.lookup "a")) =
      .ok (["b", "a", "c"], some ("b", 1), ["c", "a"], some ⟨("c", 2), 0⟩, some ⟨("a", 3), 1⟩) := by
    with_unfolding_all rfl
  obtain ⟨⟨h₁, err₁⟩, hfirst, hcalls⟩ := bind_ok.mp hcalls
  obtain ⟨⟨h₂, err₂⟩, hsecond, hcalls⟩ := bind_ok.mp hcalls
  obtain ⟨⟨h₃, err₃⟩, hthird, hcalls⟩ := bind_ok.mp hcalls
  obtain ⟨⟨h, popped⟩, hpop, hshown⟩ := map_ok.mp hcalls
  simp only [Prod.mk.injEq] at hshown
  obtain ⟨hqueue₃, hpopped, hqueue, hc, ha⟩ := hshown
  cases popped with
  | error err => cases hpopped
  | ok job =>
    cases hpopped
    have hrun : Run (Step (fun x => .ok x.1) fun x y => decide (x.2 < y.2)) (fun _ _ => True) {}
        ([] ++ [.add ("a", 3)] ++ [.add ("b", 1)] ++ [.add ("c", 2)] ++ [.pop ("b", 1)]) h :=
      ((((Run.nil _).snoc trivial ⟨err₁, hfirst⟩).snoc trivial ⟨err₂, hsecond⟩).snoc trivial
        ⟨err₃, hthird⟩).snoc trivial ⟨by rw [hqueue₃]; simp, hpop⟩
    obtain ⟨H, -, hkeys, hfound⟩ := heap_refines hrun
    refine ⟨h, H, hrun, hkeys.symm.trans hqueue, ?_⟩
    simp [← (hfound _).1, ← (hfound _).2, HeapData.getByKey, hc, ha]

section
variable {β : Type} [LinearOrder β] {rank : α → β} {store : String → Option α}

theorem HeapStep.ordered (hstep : HeapStep keyFunc lessFunc H e H') (hagrees : Agrees lessFunc rank)
    (hordered : Ordered rank H.queue) : Ordered rank H'.queue := by
  cases e with
  | pop obj => exact Heap.pop_ordered hagrees hordered hstep
  | add obj | update obj | addIfNotPresent obj | delete obj =>
    cases hstep
    split
    · first
        | exact Heap.add_ordered hagrees hordered obj
        | exact Heap.deleteIfPresent_ordered hagrees hordered fun _ _ _ => rfl
    · exact hordered

/-- The heap stands for the objects of a store. -/
def Holds (keyFunc : α → Except String String) (store : String → Option α) (h : HeapData α) (l : List α) : Prop :=
  Stands keyFunc h l ∧ ∀ key, h.getByKey key = store key

/-- The heap has the objects of the store, and is in order. -/
def Kept (keyFunc : α → Except String String) (rank : α → β) (store : String → Option α) (h : HeapData α) : Prop :=
  ∃ l, Holds keyFunc store h l ∧ Ordered rank l

section
variable (hagrees : Agrees lessFunc rank)
include hagrees

section
variable (hkept : Kept keyFunc rank store h)
include hkept

theorem Kept.step (hstep : Step keyFunc lessFunc h e h') : Kept keyFunc rank (record keyFunc store e) h' := by
  obtain ⟨l, ⟨hs, hstore⟩, hordered⟩ := hkept
  obtain ⟨H', hH', hs'⟩ := hs.step (H := ⟨l, hs.nodup⟩) hstep
  refine ⟨H'.queue, ⟨hs', fun key => ?_⟩, hH'.ordered hagrees hordered⟩
  rw [hs'.getByKey, hH'.getByKey fun _ => hs.keyed, ← funext hstore, funext (hs.getByKey (H := ⟨l, hs.nodup⟩))]

/-- **The object that goes first is taken out.** -/
theorem Kept.pop (hne : h.queue ≠ []) :
    ∃ h' obj key, pop lessFunc h = .ok (h', .ok obj) ∧ store key = some obj ∧
      Kept keyFunc rank (Function.update store key none) h' ∧ ∀ k y, store k = some y → rank obj ≤ rank y := by
  obtain ⟨l, ⟨hs, hstore⟩, hordered⟩ := id hkept
  obtain ⟨x, rest, rfl⟩ := exists_cons_of_ne_nil (ne_nil_of_length_pos (hs.length ▸ length_pos_iff.mpr hne))
  obtain ⟨H', hpop⟩ := Heap.pop_of_peek (h := ⟨_, hs.nodup⟩) (x := x) lessFunc rfl
  obtain ⟨h', hcall, -⟩ := hs.popFirst hpop
  have hkey := hs.keyed mem_cons_self
  have hstored := (hstore _).symm.trans (hs.get_iff.mpr ⟨mem_cons_self, hkey⟩)
  refine ⟨h', x, _, hcall, hstored, ?_, fun k y hy => ?_⟩
  · rw [← put_ok keyFunc hkey fun _ => none]
    exact hkept.step hagrees (e := .pop x) ⟨hne, hcall⟩
  · exact hordered.head_le rfl (hs.get_iff.mp ((hstore k).trans hy)).1

end

theorem Kept.run {es : List (Event α)}
    (hrun : Run (Step keyFunc lessFunc) (fun _ _ => True) {} es h) : Kept keyFunc rank (stored keyFunc es) h := by
  induction hrun with
  | nil =>
    exact ⟨[], ⟨stands_empty, fun _ => rfl⟩, ordered_nil⟩
  | snoc _ _ last ih =>
    unfold stored at ih ⊢
    rw [foldl_append]
    exact ih.step hagrees last

end

/-- **The heap and its map stay inverse to each other, and hold what was last added.** A pop
takes an object than which none that is stored is less. -/
theorem heap_holds_added (hless : StrictWeak lessFunc) {es : List (Event α)}
    (hrun : Run (Step keyFunc lessFunc) (fun _ _ => True) {} es h) :
    h.queue.Nodup ∧ (∀ key, key ∈ h.queue ↔ key ∈ h.items) ∧
      (∀ i key, h.queue[i]? = some key → ∃ obj, h.items.lookup key = some ⟨obj, i⟩) ∧
      (∀ key, h.getByKey key = stored keyFunc es key) ∧
      (h.queue ≠ [] → ∃ h' obj key, pop lessFunc h = .ok (h', .ok obj) ∧ h.getByKey key = some obj ∧
        h'.getByKey key = none ∧ (∀ k ≠ key, h'.getByKey k = h.getByKey k) ∧
        ∀ k y, h.getByKey k = some y → lessFunc y obj = false) ∧
      ∀ obj, (∃ r, add keyFunc lessFunc obj h = .ok r) ∧ (∃ r, addIfNotPresent keyFunc lessFunc obj h = .ok r) ∧
        (∃ r, update keyFunc lessFunc obj h = .ok r) ∧ ∃ r, delete keyFunc lessFunc obj h = .ok r := by
  obtain ⟨β, _, rank, hagrees, hle⟩ := hless.exists_rank
  have hkept : Kept keyFunc rank (stored keyFunc es) h := Kept.run hagrees hrun
  refine ⟨?_, ?_, ?_, ?_, fun hne => ?_, fun obj => ?_⟩
  all_goals obtain ⟨l, hholds, hordered⟩ := id hkept
  · rw [hholds.1.queue]
    exact hholds.1.nodup
  · intro key
    refine ⟨fun hkey => ?_, hholds.1.keys key⟩
    obtain ⟨i, hi⟩ := mem_iff_getElem?.mp hkey
    obtain ⟨obj, -, hlook, -⟩ := hholds.1.slots i key hi
    exact Map.mem_of_lookup hlook
  · intro i key hi
    obtain ⟨obj, -, hlook, -⟩ := hholds.1.slots i key hi
    exact ⟨obj, hlook⟩
  · exact hholds.2
  · obtain ⟨h', obj, key, hpop, hstored, ⟨l', hholds', -⟩, hfirst⟩ := hkept.pop hagrees hne
    refine ⟨h', obj, key, hpop, (hholds.2 key).trans hstored, ?_, fun k hk => ?_, fun k y hy => ?_⟩
    · rw [hholds'.2, update_self]
    · rw [hholds'.2, hholds.2, update_of_ne hk]
    · exact hle _ _ (hfirst k y ((hholds.2 k).symm.trans hy))
  · have hs : Stands keyFunc h (⟨l, hholds.1.nodup⟩ : Heap (keyOf keyFunc)).queue := hholds.1
    obtain ⟨r₁, hadd, -⟩ := hs.add lessFunc obj
    obtain ⟨r₂, hput, -⟩ := hs.addIfNotPresent lessFunc obj
    obtain ⟨r₃, hdelete, -⟩ := hs.delete lessFunc obj
    exact ⟨⟨r₁, hadd⟩, ⟨r₂, hput⟩, ⟨r₁, hadd⟩, ⟨r₃, hdelete⟩⟩

end

/-- Of two jobs the one with the smaller number is first, also when it is put in last. -/
theorem heap_holds_two_jobs : ∃ h : HeapData (String × Nat), h.queue = ["b", "a"] ∧
    ∃ h' job, pop (fun x y => decide (x.2 < y.2)) h = .ok (h', .ok job) ∧ ¬ 1 < job.2 := by
  have hless : StrictWeak fun x y : String × Nat => decide (x.2 < y.2) :=
    ⟨fun a => by simp, fun a b c => by simp; omega, fun a b c => by simp; omega⟩
  let jobs := ((∅ : Map String (HeapItem (String × Nat))).insert "a" ⟨("a", 2), 0⟩).insert "b" ⟨("b", 1), 1⟩
  let h : HeapData (String × Nat) := ⟨(jobs.insert "b" ⟨("b", 1), 0⟩).insert "a" ⟨("a", 2), 1⟩, ["b", "a"]⟩
  have hrun : Run (Step (fun x => .ok x.1) fun x y => decide (x.2 < y.2)) (fun _ _ => True) {}
      [.add ("a", 2), .add ("b", 1)] h := by
    refine ((Run.nil _).snoc (e := Event.add ("a", 2)) trivial
      (show Step _ _ _ _ ⟨(∅ : Map _ _).insert "a" ⟨("a", 2), 0⟩, ["a"]⟩ from ⟨none, ?_⟩)).snoc trivial ⟨none, ?_⟩
    · with_unfolding_all rfl
    · with_unfolding_all rfl
  obtain ⟨-, -, -, -, hpop, -⟩ := heap_holds_added hless hrun
  obtain ⟨h', job, -, hpop, -, -, -, hfirst⟩ := hpop (by simp [h])
  exact ⟨h, rfl, h', job, hpop, of_decide_eq_false (hfirst "b" ("b", 1) rfl)⟩

end

end GlobalScheduler.IndexedHeap
