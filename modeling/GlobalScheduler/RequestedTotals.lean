import GlobalScheduler.FlavorBounds

/-! What a booking adds to the requests of a site, as they are read back by type.

A pool's key lists the types it serves. A booking is to raise what is requested of each type
of the request by what is asked for, and nothing else. It finds the pool that lists the type
and adds to it, but it also makes the pool known under the type alone, so that the two keys
hold one pointer: what is read back for the type is then the pool twice, and the loop over
the pools, which has just been given the new key, may add once more. A type without a pool
is passed over, except that the first type of all is given one. -/
namespace GlobalScheduler.SiteCacheInfo

open Go Outcome Map AList CPUAndMemory
open List hiding mem_keys

/-- `getRequestResourceByResType`. -/
def getRequestResourceByResType (ord : List String) (resType : String) (n : SiteCacheInfo) :
    CPUAndMemory :=
  (visits ord n.requestedResources.ptr).foldl (fun ret key =>
    match n.requestedResources.get? key with
    | none => ret
    | some res => if resType ∈ split key flavorDelimiter then ret.add res else ret) .zero

/-! ### Reading back -/

def cellAmount (m : RefMap String CPUAndMemory) (i : Nat) (d : Dimension) : Int :=
  (m.cells[i]?.getD .zero).amount d

/-- The key is there and lists the type. -/
def Lists (t : String) (m : RefMap String CPUAndMemory) (key : String) : Prop :=
  key ∈ m.ptr ∧ t ∈ split key flavorDelimiter

instance (t : String) (m : RefMap String CPUAndMemory) (key : String) : Decidable (Lists t m key) :=
  inferInstanceAs (Decidable (_ ∧ _))

variable {m : RefMap String CPUAndMemory}

theorem not_lists_of_empty (h : m.ptr.keys = []) {t : String} (key : String) : ¬ Lists t m key := by
  intro hkey
  have hin := mem_keys.mp hkey.1
  rw [h] at hin
  cases hin

theorem lists_new (h : m.ptr.keys = []) {t k key : String}
    (hk : split k flavorDelimiter = [k]) (res : CPUAndMemory) :
    Lists t (m.new k res) key ↔ key = k ∧ t = k := by
  have hkey : key ∈ (m.new k res).ptr ↔ key = k := by
    rw [RefMap.mem_new, mem_keys, h]
    exact or_iff_left not_mem_nil
  rw [Lists, hkey, and_congr_right_iff]
  intro heq
  rw [heq, hk, mem_singleton]

section Read
variable {n : SiteCacheInfo} {t k k' : String} {i j : Nat}

/-- **What is read back** is the sum over the keys that list the type, in whatever order. -/
theorem getRequestResourceByResType_sum (ord : List String) (d : Dimension) (keys : Finset String)
    (hkeys : ∀ key, key ∈ keys ↔ Lists t n.requestedResources key) :
    (n.getRequestResourceByResType ord t).amount d =
      ∑ key ∈ keys, ((n.requestedResources.get? key).getD .zero).amount d := by
  let term : String → Int := fun key =>
    if Lists t n.requestedResources key then ((n.requestedResources.get? key).getD .zero).amount d else 0
  have hloop : ∀ (l : List String) (ret : CPUAndMemory), (l.foldl (fun ret key =>
      match n.requestedResources.get? key with
      | none => ret
      | some res => if t ∈ split key flavorDelimiter then ret.add res else ret) ret).amount d =
        ret.amount d + (l.map term).sum := by
    intro l
    induction l with
    | nil => simp
    | cons key rest ih =>
      intro ret
      rw [foldl_cons, ih, map_cons, sum_cons, ← add_assoc]
      congr 1
      show _ = ret.amount d + if Lists t n.requestedResources key then _ else _
      simp only [Lists, ← RefMap.get?_isSome]
      cases n.requestedResources.get? key with
      | none => simp
      | some res => by_cases ht : t ∈ split key flavorDelimiter <;> simp [ht]
  rw [getRequestResourceByResType, hloop, zero_amount, zero_add, ← sum_toFinset _ (nodup_visits ord _)]
  have hsub : keys ⊆ (visits ord n.requestedResources.ptr).toFinset := fun key hkey =>
    mem_toFinset.mpr (mem_visits.mpr (Or.inr ((hkeys key).mp hkey).1))
  rw [← Finset.sum_subset hsub fun key _ hkey => if_neg fun hlists => hkey ((hkeys key).mpr hlists)]
  exact Finset.sum_congr rfl fun key hkey => if_pos ((hkeys key).mp hkey)

theorem get?_amount (hk : m.ptr.lookup k = some i) (d : Dimension) :
    ((m.get? k).getD .zero).amount d = cellAmount m i d := by
  rw [RefMap.get?, hk]
  rfl

theorem read_none (ord : List String) (h : ∀ key, ¬ Lists t n.requestedResources key) (d : Dimension) :
    (n.getRequestResourceByResType ord t).amount d = 0 := by
  rw [getRequestResourceByResType_sum ord d ∅ (by simp [h]), Finset.sum_empty]

theorem read_one (ord : List String) (h : ∀ key, Lists t n.requestedResources key ↔ key = k)
    (hk : n.requestedResources.ptr.lookup k = some i) (d : Dimension) :
    (n.getRequestResourceByResType ord t).amount d = cellAmount n.requestedResources i d := by
  rw [getRequestResourceByResType_sum ord d {k} (by simp [h]), Finset.sum_singleton, get?_amount hk]

theorem read_two (ord : List String) (hne : k ≠ k')
    (h : ∀ key, Lists t n.requestedResources key ↔ key = k ∨ key = k')
    (hk : n.requestedResources.ptr.lookup k = some i)
    (hk' : n.requestedResources.ptr.lookup k' = some j) (d : Dimension) :
    (n.getRequestResourceByResType ord t).amount d =
      cellAmount n.requestedResources i d + cellAmount n.requestedResources j d := by
  rw [getRequestResourceByResType_sum ord d {k, k'} (by simp [h]), Finset.sum_pair hne,
    get?_amount hk, get?_amount hk']

end Read

/-! ### One type of the request -/

def visit (t : String) (res : CPUAndMemory) (m : RefMap String CPUAndMemory) (key : String) :
    RefMap String CPUAndMemory :=
  if Lists t m key then (m.modify key (·.add res)).share key t else m

/-- The type is known under the key `k`'s pointer from now on, and the cell holds `x` more. -/
structure Shifts (t k : String) (x : Dimension → Int) (m m' : RefMap String CPUAndMemory) : Prop where
  pointer : ∀ key, m'.ptr.lookup key = if key = t then m.ptr.lookup k else m.ptr.lookup key
  amount : ∀ i d, cellAmount m' i d = cellAmount m i d + if m.ptr.lookup k = some i then x d else 0

section Round
variable {t k key : String} {res : CPUAndMemory} {m m' m'' : RefMap String CPUAndMemory} {ord : List String}

theorem addRequested_visits (hm : m.ptr.keys ≠ []) :
    addRequested ord t res m = .ok ((visits ord m.ptr).foldl (visit t res) m) := by
  rw [addRequested, if_neg hm]
  refine Eq.trans ?_ foldlM_pure
  refine congrArg (fun round => (visits ord m.ptr).foldlM round m) ?_
  funext s key
  simp only [visit, Lists, ← lookup_isSome]
  cases s.ptr.lookup key with
  | none => simp
  | some i => by_cases ht : t ∈ split key flavorDelimiter <;> simp [ht]

theorem visit_shifts (h : Lists t m key) : Shifts t key res.amount m (visit t res m key) := by
  rw [visit, if_pos h]
  refine ⟨fun key' => RefMap.lookup_modify_share h.1 t _ key', fun i d => ?_⟩
  rw [cellAmount, RefMap.cells_modify_share]
  split
  case isTrue hi =>
    have hcell := m.valid key i hi
    simp [cellAmount, hcell]
  case isFalse => simp [cellAmount]

theorem foldl_visit_idle {keys : List String} (h : ∀ key ∈ keys, ¬ Lists t m key) :
    keys.foldl (visit t res) m = m := by
  induction keys with
  | nil => rfl
  | cons key rest ih =>
    rw [foldl_cons, visit, if_neg (h key mem_cons_self)]
    exact ih fun key' hkey' => h key' (mem_cons_of_mem key hkey')

theorem addRequested_absent (hm : m.ptr.keys ≠ []) (h : ∀ key, ¬ Lists t m key) :
    addRequested ord t res m = .ok m := by
  rw [addRequested_visits hm, foldl_visit_idle fun key _ => h key]

/-- After a round at `k` the keys that list the type are those from before and its own. -/
theorem Shifts.lists {x : Dimension → Int} (h : Shifts t k x m m') (hk : Lists t m k)
    (ht : t ∈ split t flavorDelimiter) : Lists t m' key ↔ Lists t m key ∨ key = t := by
  simp only [Lists, ← lookup_isSome, h.pointer key]
  by_cases hkey : key = t
  · subst hkey
    simp [ht, lookup_isSome.mpr hk.1]
  · simp [hkey]

theorem Shifts.again {x y : Dimension → Int} (h : Shifts t k x m m') (h' : Shifts t t y m' m'') :
    Shifts t k (fun d => x d + y d) m m'' := by
  have hown : m'.ptr.lookup t = m.ptr.lookup k := by rw [h.pointer, if_pos rfl]
  constructor
  · intro key
    rw [h'.pointer, hown, h.pointer]
    by_cases hkey : key = t <;> simp [hkey]
  · intro i d
    rw [h'.amount, hown, h.amount]
    by_cases hi : m.ptr.lookup k = some i <;> simp [hi, add_assoc]

/-- **One type that one key lists** is added to that key's cell, and once more if the loop
comes to the key it has inserted. -/
theorem addRequested_one (res : CPUAndMemory) (ht : t ∈ split t flavorDelimiter) (hk : ∀ key, Lists t m key ↔ key = k)
    {before after : List String} (hvisits : visits ord m.ptr = before ++ k :: after) :
    ∃ m', addRequested ord t res m = .ok m' ∧
      Shifts t k (fun d => if t ∈ after then res.amount d + res.amount d else res.amount d) m m' := by
  have hmem : Lists t m k := (hk k).mpr rfl
  have hkeys : m.ptr.keys ≠ [] := ne_nil_of_mem (mem_keys.mp hmem.1)
  have hnodup := nodup_visits ord m.ptr
  rw [hvisits, nodup_append] at hnodup
  obtain ⟨-, hafter, hbefore⟩ := hnodup
  obtain ⟨hfresh, hafter⟩ := nodup_cons.mp hafter
  have hskip : before.foldl (visit t res) m = m := foldl_visit_idle fun key hkey hlists =>
    hbefore key hkey k mem_cons_self ((hk key).mp hlists)
  have hfirst : Shifts t k res.amount m (visit t res m k) := visit_shifts hmem
  have hlists : ∀ key, Lists t (visit t res m k) key ↔ key = k ∨ key = t := fun key => by
    rw [hfirst.lists hmem ht, hk]
  refine ⟨after.foldl (visit t res) (visit t res m k), ?_, ?_⟩
  · rw [addRequested_visits hkeys, hvisits, foldl_append, hskip, foldl_cons]
  by_cases hagain : t ∈ after
  · obtain ⟨between, rest, hsplit⟩ := append_of_mem hagain
    subst hsplit
    have hsecond : Shifts t t res.amount (visit t res m k) (visit t res (visit t res m k) t) :=
      visit_shifts ((hlists t).mpr (Or.inr rfl))
    obtain ⟨-, hrest, hbetween⟩ := nodup_append.mp hafter
    have hnot : ∀ key ∈ between ++ t :: rest, key ≠ t → ¬ Lists t (visit t res m k) key := by
      intro key hkey hne hin
      cases (hlists key).mp hin with
      | inl heq => exact hfresh (heq ▸ hkey)
      | inr heq => exact hne heq
    rw [foldl_append, foldl_visit_idle fun key hkey => hnot key (mem_append_left _ hkey)
        fun heq => hbetween key hkey t mem_cons_self heq,
      foldl_cons, foldl_visit_idle fun key hkey hin => ?_]
    · simp only [hagain, if_true]
      exact hfirst.again hsecond
    · refine hnot key (by simp [hkey]) (fun heq => (nodup_cons.mp hrest).1 (heq ▸ hkey)) ?_
      exact ((hsecond.lists ((hlists t).mpr (Or.inr rfl)) ht).mp hin).resolve_right
        fun heq => (nodup_cons.mp hrest).1 (heq ▸ hkey)
  · simp only [hagain, if_false]
    rw [foldl_visit_idle fun key hkey hin => ?_]
    · exact hfirst
    · cases (hlists key).mp hin with
      | inl heq => exact hfresh (heq ▸ hkey)
      | inr heq => exact hagain (heq ▸ hkey)

/-- The order leaves the type's own key out, or it is the key that lists the type: one addition. -/
theorem addRequested_once (ht : t ∈ split t flavorDelimiter) (hk : ∀ key, Lists t m key ↔ key = k)
    (hord : t ∉ ord ∨ k = t) : ∃ m', addRequested ord t res m = .ok m' ∧ Shifts t k res.amount m m' := by
  have hmem : Lists t m k := (hk k).mpr rfl
  obtain ⟨before, after, hvisits⟩ := append_of_mem (mem_visits.mpr (Or.inr hmem.1))
  have hnodup := nodup_visits ord m.ptr
  rw [hvisits, nodup_append] at hnodup
  have hnot : t ∉ after := by
    intro hafter
    have hkt : k = t := by
      refine hord.resolve_left fun hord => hord ?_
      have hin : t ∈ visits ord m.ptr := by simp [hvisits, hafter]
      refine (mem_visits.mp hin).resolve_right fun hin => ?_
      exact (nodup_cons.mp hnodup.2.1).1 ((hk t).mp ⟨hin, ht⟩ ▸ hafter)
    exact (nodup_cons.mp hnodup.2.1).1 (hkt ▸ hafter)
  obtain ⟨m', hadd, hshift⟩ := addRequested_one res ht hk hvisits
  simp only [hnot, if_false] at hshift
  exact ⟨m', hadd, hshift⟩

/-- The order has the pool first and then the key that the loop inserts: two additions. -/
theorem addRequested_twice (ht : t ∈ split t flavorDelimiter) (hk : ∀ key, Lists t m key ↔ key = k)
    (hne : k ≠ t) :
    ∃ m', addRequested [k, t] t res m = .ok m' ∧ Shifts t k (fun d => 2 * res.amount d) m m' := by
  have hvisits : visits [k, t] m.ptr = [] ++ k :: t :: m.ptr.keys.filter (· ∉ [k, t]) := by
    simp [visits, hne]
  obtain ⟨m', hadd, hshift⟩ := addRequested_one res ht hk hvisits
  simp only [mem_cons_self, if_true, ← two_mul] at hshift
  exact ⟨m', hadd, hshift⟩

theorem addRequested_nothing (ht : t ∈ split t flavorDelimiter) (hk : ∀ key, Lists t m key ↔ key = k) :
    ∃ m', addRequested ord t .zero m = .ok m' ∧ Shifts t k zero.amount m m' := by
  have hmem : Lists t m k := (hk k).mpr rfl
  obtain ⟨before, after, hvisits⟩ := append_of_mem (mem_visits.mpr (Or.inr hmem.1))
  obtain ⟨m', hadd, hshift⟩ := addRequested_one .zero ht hk hvisits
  simp only [zero_amount, add_zero, ite_self] at hshift
  refine ⟨m', hadd, hshift.pointer, fun i d => ?_⟩
  rw [hshift.amount, zero_amount]

end Round

/-! ### All types of the request -/

def home (m : RefMap String CPUAndMemory) (t : String) : Option Nat :=
  (m.ptr.keys.find? (t ∈ split · flavorDelimiter)).bind m.ptr.lookup

/-- No type is listed by two keys. -/
def KeysApart (m : RefMap String CPUAndMemory) : Prop :=
  ∀ t key key', Lists t m key → Lists t m key' → key = key'

theorem KeysApart.lists_iff (h : KeysApart m) {t k : String} (hk : Lists t m k)
    (key : String) : Lists t m key ↔ key = k :=
  ⟨fun hkey => h t key k hkey hk, fun heq => heq ▸ hk⟩

/-- What a cell gets from the entries of a request, each counted so many times. -/
def added (m : RefMap String CPUAndMemory) (times : String → Int) (es : List (String × CPUAndMemory))
    (i : Nat) (d : Dimension) : Int :=
  (es.map fun e => if home m (defaulted e.1) = some i then times e.1 * e.2.amount d else 0).sum

/-- The map after the entries of a request: each of their types is a key of its own for the pool
that listed it, and that pool's cell holds more. -/
structure Raised (m : RefMap String CPUAndMemory) (times : String → Int)
    (es : List (String × CPUAndMemory)) (cur : RefMap String CPUAndMemory) : Prop where
  pointer : ∀ key, cur.ptr.lookup key =
    if key ∈ es.map (defaulted ·.1) then home m key else m.ptr.lookup key
  amount : ∀ i d, cellAmount cur i d = cellAmount m i d + added m times es i d

/-- The types of the entries are single ones. -/
def Singles (es : List (String × CPUAndMemory)) : Prop :=
  ∀ e ∈ es, split (defaulted e.1) flavorDelimiter = [defaulted e.1]

section Loop
variable {m cur : RefMap String CPUAndMemory} {times : String → Int} {es : List (String × CPUAndMemory)}
  {t k key : String} {i : Nat}

variable {e : String × CPUAndMemory}

theorem Singles.mem_split (hes : Singles es) (he : e ∈ es) :
    defaulted e.1 ∈ split (defaulted e.1) flavorDelimiter := by
  rw [hes e he]
  exact mem_singleton.mpr rfl

theorem lists_of_find? (h : m.ptr.keys.find? (t ∈ split · flavorDelimiter) = some k) : Lists t m k :=
  ⟨mem_keys.mpr (mem_of_find?_eq_some h), by simpa using find?_some h⟩

theorem home_eq_none : home m t = none ↔ ∀ key, ¬ Lists t m key := by
  rw [home, Option.bind_eq_none_iff]
  constructor
  · intro h key hkey
    cases hfound : m.ptr.keys.find? (t ∈ split · flavorDelimiter) with
    | none =>
      have hnot := find?_eq_none.mp hfound key (mem_keys.mp hkey.1)
      exact hnot (decide_eq_true hkey.2)
    | some k =>
      exact lookup_eq_none.mp (h k hfound) (lists_of_find? hfound).1
  · intro h k hfound
    exact absurd (lists_of_find? hfound) (h k)

theorem home_of_lists (hapart : KeysApart m) (h : Lists t m k) : home m t = m.ptr.lookup k := by
  rw [home]
  cases hfound : m.ptr.keys.find? (t ∈ split · flavorDelimiter) with
  | none =>
    exact absurd (decide_eq_true h.2) (find?_eq_none.mp hfound k (mem_keys.mp h.1))
  | some k' =>
    rw [hapart t k k' h (lists_of_find? hfound)]
    rfl

/-- The keys that list a type are those from before, and its own if it is of the request and
some pool lists it. -/
theorem Raised.lists (h : Raised m times es cur) (hes : Singles es) : Lists t cur key ↔
    Lists t m key ∨ key = t ∧ t ∈ es.map (defaulted ·.1) ∧ home m t ≠ none := by
  by_cases hkey : key ∈ es.map (defaulted ·.1)
  · obtain ⟨e, he, rfl⟩ := mem_map.mp hkey
    simp only [Lists, ← lookup_isSome, h.pointer, if_pos hkey, hes e he, mem_singleton]
    constructor
    · intro ⟨hhome, ht⟩
      subst ht
      exact Or.inr ⟨rfl, hkey, Option.isSome_iff_ne_none.mp hhome⟩
    · intro hor
      cases hor with
      | inl hold =>
        obtain ⟨hin, rfl⟩ := hold
        refine ⟨?_, rfl⟩
        rw [Option.isSome_iff_ne_none, Ne, home_eq_none]
        exact fun hnone => hnone (defaulted e.1) ⟨lookup_isSome.mp hin, hes.mem_split he⟩
      | inr hnew =>
        obtain ⟨heq, -, hhome⟩ := hnew
        subst heq
        exact ⟨Option.isSome_iff_ne_none.mpr hhome, rfl⟩
  · simp only [Lists, ← lookup_isSome, h.pointer, if_neg hkey]
    constructor
    · exact Or.inl
    · intro hor
      refine hor.resolve_right ?_
      intro ⟨heq, hin, _⟩
      exact hkey (heq ▸ hin)

theorem Raised.kept (h : Raised m times es cur) (hes : Singles es) (hapart : KeysApart m)
    (hk : k ∈ m.ptr) : cur.ptr.lookup k = m.ptr.lookup k := by
  rw [h.pointer]
  split
  case isTrue hin =>
    obtain ⟨e, he, rfl⟩ := mem_map.mp hin
    exact home_of_lists hapart ⟨hk, hes.mem_split he⟩
  case isFalse => rfl

/-- **One more entry**, if the loop over the pools adds it so many times. -/
theorem Raised.next (h : Raised m times es cur) (hm : m.ptr.keys ≠ []) (hapart : KeysApart m)
    (hes : Singles (es ++ [e])) (hfresh : defaulted e.1 ∉ es.map (defaulted ·.1)) {ord : List String}
    (hround : ∀ k, Lists (defaulted e.1) m k → (∀ key, Lists (defaulted e.1) cur key ↔ key = k) →
      ∃ next, addRequested ord (defaulted e.1) e.2 cur = .ok next ∧
        Shifts (defaulted e.1) k (fun d => times e.1 * e.2.amount d) cur next) :
    ∃ next, addRequested ord (defaulted e.1) e.2 cur = .ok next ∧ Raised m times (es ++ [e]) next := by
  have hdone : Singles es := fun e' he' => hes e' (mem_append_left _ he')
  have ht : defaulted e.1 ∈ split (defaulted e.1) flavorDelimiter := hes.mem_split (by simp)
  have hlists : ∀ key, Lists (defaulted e.1) cur key ↔ Lists (defaulted e.1) m key := fun key => by
    rw [h.lists hdone]
    exact or_iff_left fun hnew => hfresh hnew.2.1
  have hadded : ∀ i d, added m times (es ++ [e]) i d = added m times es i d +
      if home m (defaulted e.1) = some i then times e.1 * e.2.amount d else 0 := fun i d => by
    simp [added]
  have htypes : ∀ key, key ∈ (es ++ [e]).map (defaulted ·.1) ↔
      key ∈ es.map (defaulted ·.1) ∨ key = defaulted e.1 := fun key => by
    rw [map_append, mem_append, map_singleton, mem_singleton]
  by_cases hnone : ∀ key, ¬ Lists (defaulted e.1) m key
  · have hcur : cur.ptr.keys ≠ [] := by
      obtain ⟨k, hk⟩ := exists_mem_of_ne_nil _ hm
      have hkept := h.kept hdone hapart (mem_keys.mpr hk)
      refine ne_nil_of_mem (a := k) (mem_keys.mp ?_)
      rw [← lookup_isSome, hkept, lookup_isSome]
      exact mem_keys.mpr hk
    have hhome : home m (defaulted e.1) = none := home_eq_none.mpr hnone
    refine ⟨cur, addRequested_absent hcur fun key hkey => hnone key ((hlists key).mp hkey), ?_, ?_⟩
    · intro key
      rw [h.pointer]
      simp only [htypes]
      by_cases hkey : key = defaulted e.1
      · subst hkey
        have hout : m.ptr.lookup (defaulted e.1) = none :=
          lookup_eq_none.mpr fun hin => hnone _ ⟨hin, ht⟩
        simp [hhome, hout]
      · simp only [hkey, or_false]
    · intro i d
      rw [h.amount, hadded, hhome]
      simp
  · push Not at hnone
    obtain ⟨k, hk⟩ := hnone
    have hhome : home m (defaulted e.1) = cur.ptr.lookup k := by
      rw [home_of_lists hapart hk, h.kept hdone hapart hk.1]
    obtain ⟨next, hadd, hshift⟩ := hround k hk fun key => by
      rw [hlists]
      exact ⟨fun hkey => hapart _ _ _ hkey hk, fun heq => heq ▸ hk⟩
    refine ⟨next, hadd, ?_, ?_⟩
    · intro key
      rw [hshift.pointer, ← hhome]
      simp only [htypes]
      by_cases hkey : key = defaulted e.1
      · simp [hkey]
      · simp only [hkey, or_false, if_false, h.pointer]
    · intro i d
      rw [hshift.amount, h.amount, hadded, hhome, add_assoc]

/-- **The whole loop**, if each entry is added so many times. -/
theorem raiseAll_raised (hm : m.ptr.keys ≠ []) (hapart : KeysApart m) (hes : Singles es)
    (hnodup : (es.map (defaulted ·.1)).Nodup) {ord : DeductOrders}
    (hround : ∀ e ∈ es, ∀ (cur : RefMap String CPUAndMemory) (k : String), Lists (defaulted e.1) m k →
      (∀ key, Lists (defaulted e.1) cur key ↔ key = k) →
      ∃ next, addRequested (ord.requested e.1) (defaulted e.1) e.2 cur = .ok next ∧
        Shifts (defaulted e.1) k (fun d => times e.1 * e.2.amount d) cur next) :
    ∃ m', raiseAll ord es m = .ok m' ∧ Raised m times es m' := by
  induction es using reverseRecOn with
  | nil => exact ⟨m, rfl, by simp, by simp [added]⟩
  | append_singleton es e ih =>
    rw [map_append, nodup_append] at hnodup
    have hfresh : defaulted e.1 ∉ es.map (defaulted ·.1) := fun hin =>
      hnodup.2.2 _ hin _ mem_cons_self rfl
    obtain ⟨cur, hrun, hcur⟩ := ih (fun e' he' => hes e' (mem_append_left _ he')) hnodup.1
      fun e' he' => hround e' (mem_append_left _ he')
    obtain ⟨next, hadd, hnext⟩ := hcur.next hm hapart hes hfresh fun k => hround e (by simp) cur k
    refine ⟨next, ?_, hnext⟩
    rw [raiseAll, foldlM_append]
    refine bind_ok.mpr ⟨cur, hrun, ?_⟩
    exact bind_ok.mpr ⟨next, hadd, rfl⟩

end Loop

/-! ### The requests read back -/

/-- The type is none of the request's, and no key lists it together with one of them. -/
def Unrelated (cpuAndMem : Map String CPUAndMemory) (m : RefMap String CPUAndMemory) (t : String) :
    Prop :=
  ∀ key ∈ cpuAndMem, t ≠ defaulted key ∧ ∀ k, Lists t m k → ¬ Lists (defaulted key) m k

/-- Read back in whatever order, each type of the request has what is asked for on top, and an
unrelated type has what it had. -/
def ReadsBack (cpuAndMem : Map String CPUAndMemory) (n n' : SiteCacheInfo) : Prop :=
  ∀ ord ord',
    (∀ key res, cpuAndMem.lookup key = some res →
      n'.getRequestResourceByResType ord' (defaulted key) =
        (n.getRequestResourceByResType ord (defaulted key)).add res) ∧
    ∀ t, Unrelated cpuAndMem n.requestedResources t →
      n'.getRequestResourceByResType ord' t = n.getRequestResourceByResType ord t

/-- If each cell gets `extra`, the requests read back are right: a type that no key lists asks for
nothing; the cell of a type's own key gets what the type asks for; the cell of a key that lists
the type among others is read back twice; and the cell of any other key gets nothing. -/
structure Settles (cpuAndMem : Map String CPUAndMemory) (m : RefMap String CPUAndMemory)
    (extra : Nat → Dimension → Int) : Prop where
  unlisted : ∀ key res, cpuAndMem.lookup key = some res → (∀ k, ¬ Lists (defaulted key) m k) →
    res = .zero
  own : ∀ key res i, cpuAndMem.lookup key = some res → m.ptr.lookup (defaulted key) = some i →
    ∀ d, extra i d = res.amount d
  shared : ∀ key res k i, cpuAndMem.lookup key = some res → Lists (defaulted key) m k →
    k ≠ defaulted key → m.ptr.lookup k = some i → ∀ d, cellAmount m i d + 2 * extra i d = res.amount d
  other : ∀ k i, m.ptr.lookup k = some i → (∀ key ∈ cpuAndMem, ¬ Lists (defaulted key) m k) →
    ∀ d, extra i d = 0

section Reads
variable {n n' : SiteCacheInfo} {times : String → Int} {es : List (String × CPUAndMemory)} {t k : String} {i : Nat}
  (h : Raised n.requestedResources times es n'.requestedResources) (hes : Singles es)
  (hapart : KeysApart n.requestedResources)
include h hes

theorem Raised.read_unlisted (ht : ∀ k, ¬ Lists t n.requestedResources k) (ord : List String)
    (d : Dimension) : (n'.getRequestResourceByResType ord t).amount d = 0 := by
  refine read_none ord (fun key hkey => ?_) d
  cases (h.lists hes).mp hkey with
  | inl hold => exact ht key hold
  | inr hnew => exact hnew.2.2 (home_eq_none.mpr ht)

include hapart

/-- A type under its own key, or one that is not of the request, is read back once. -/
theorem Raised.read_kept (hk : Lists t n.requestedResources k)
    (hi : n.requestedResources.ptr.lookup k = some i) (hown : k = t ∨ t ∉ es.map (defaulted ·.1))
    (ord ord' : List String) (d : Dimension) :
    (n'.getRequestResourceByResType ord' t).amount d =
      (n.getRequestResourceByResType ord t).amount d +
        added n.requestedResources times es i d := by
  have hone := hapart.lists_iff hk
  have hone' : ∀ key, Lists t n'.requestedResources key ↔ key = k := fun key => by
    rw [h.lists hes, hone]
    refine or_iff_left_of_imp fun hnew => ?_
    cases hown with
    | inl heq => exact hnew.1.trans heq.symm
    | inr hnot => exact absurd hnew.2.1 hnot
  rw [read_one ord' hone' ((h.kept hes hapart hk.1).trans hi), read_one ord hone hi, h.amount]

/-- A type of the request that a key lists among others is read back twice. -/
theorem Raised.read_shared (hk : Lists t n.requestedResources k)
    (hi : n.requestedResources.ptr.lookup k = some i) (hne : k ≠ t) (ht : t ∈ es.map (defaulted ·.1))
    (ord ord' : List String) (d : Dimension) :
    (n'.getRequestResourceByResType ord' t).amount d =
      2 * ((n.getRequestResourceByResType ord t).amount d +
        added n.requestedResources times es i d) := by
  have hone := hapart.lists_iff hk
  have hhome : home n.requestedResources t = some i := (home_of_lists hapart hk).trans hi
  have htwo : ∀ key, Lists t n'.requestedResources key ↔ key = k ∨ key = t := fun key => by
    rw [h.lists hes, hone, hhome]
    simp [ht]
  have hown : n'.requestedResources.ptr.lookup t = some i := by rw [h.pointer, if_pos ht, hhome]
  rw [read_two ord' hne htwo ((h.kept hes hapart hk.1).trans hi) hown, read_one ord hone hi, h.amount,
    two_mul]

section Types
variable {cpuAndMem : Map String CPUAndMemory}
  (htypes : ∀ t, t ∈ es.map (defaulted ·.1) ↔ ∃ key ∈ cpuAndMem, defaulted key = t)
include htypes

omit h hes hapart in
theorem mem_types_of_lookup {key : String} {res : CPUAndMemory} (hres : cpuAndMem.lookup key = some res) :
    defaulted key ∈ es.map (defaulted ·.1) :=
  (htypes _).mpr ⟨key, mem_of_lookup hres, rfl⟩

omit h hes hapart in
theorem Unrelated.notMem (ht : Unrelated cpuAndMem n.requestedResources t) : t ∉ es.map (defaulted ·.1) := by
  intro hin
  obtain ⟨key, hkey, heq⟩ := (htypes t).mp hin
  exact (ht key hkey).1 heq.symm

theorem Raised.settles_of_readsBack (hback : ReadsBack cpuAndMem n n') :
    Settles cpuAndMem n.requestedResources (added n.requestedResources times es) := by
  obtain ⟨hback, hrest⟩ := hback [] []
  have hamount : ∀ key res, cpuAndMem.lookup key = some res → ∀ d,
      (n'.getRequestResourceByResType [] (defaulted key)).amount d =
        (n.getRequestResourceByResType [] (defaulted key)).amount d + res.amount d := by
    intro key res hres d
    rw [hback key res hres, add_amount]
  refine ⟨?_, ?_, ?_, ?_⟩
  · intro key res hres hnone
    refine eq_iff_amount.mpr fun d => ?_
    have hd := hamount key res hres d
    rw [h.read_unlisted hes hnone, read_none [] hnone, zero_add] at hd
    rw [← hd, zero_amount]
  · intro key res i hres hi d
    have hself : defaulted key ∈ split (defaulted key) flavorDelimiter := by
      obtain ⟨e, he, heq⟩ := mem_map.mp (mem_types_of_lookup htypes hres)
      exact heq ▸ hes.mem_split he
    have hk : Lists (defaulted key) n.requestedResources (defaulted key) :=
      ⟨mem_of_lookup hi, hself⟩
    have hd := hamount key res hres d
    rw [h.read_kept hes hapart hk hi (Or.inl rfl) []] at hd
    exact add_left_cancel hd
  · intro key res k i hres hk hne hi d
    have hd := hamount key res hres d
    rw [h.read_shared hes hapart hk hi hne (mem_types_of_lookup htypes hres) [],
      read_one [] (hapart.lists_iff hk) hi] at hd
    omega
  · intro k i hi hnot d
    obtain ⟨t, ht⟩ := exists_mem_of_ne_nil _ (split_ne_nil k flavorDelimiter)
    have hk : Lists t n.requestedResources k := ⟨mem_of_lookup hi, ht⟩
    have hunrelated : Unrelated cpuAndMem n.requestedResources t := by
      intro key hkey
      refine ⟨fun heq => hnot key hkey (heq ▸ hk), fun k' hk' => ?_⟩
      rw [hapart t k' k hk' hk]
      exact hnot key hkey
    have hd := congrArg (fun res => CPUAndMemory.amount res d) (hrest t hunrelated)
    rw [h.read_kept hes hapart hk hi (Or.inr (hunrelated.notMem htypes)) []] at hd
    exact add_eq_left.mp hd

theorem Raised.readsBack_of_settles
    (hsettles : Settles cpuAndMem n.requestedResources (added n.requestedResources times es)) :
    ReadsBack cpuAndMem n n' := by
  intro ord ord'
  refine ⟨fun key res hres => eq_iff_amount.mpr fun d => ?_,
    fun t ht => eq_iff_amount.mpr fun d => ?_⟩
  · rw [add_amount]
    by_cases hnone : ∀ k, ¬ Lists (defaulted key) n.requestedResources k
    · rw [h.read_unlisted hes hnone, read_none ord hnone, hsettles.unlisted key res hres hnone,
        zero_amount, zero_add]
    push Not at hnone
    obtain ⟨k, hk⟩ := hnone
    obtain ⟨i, hi⟩ := exists_lookup hk.1
    by_cases hown : k = defaulted key
    · subst hown
      rw [h.read_kept hes hapart hk hi (Or.inl rfl) ord, hsettles.own key res i hres hi]
    · have hd := hsettles.shared key res k i hres hk hown hi d
      rw [h.read_shared hes hapart hk hi hown (mem_types_of_lookup htypes hres) ord,
        read_one ord (hapart.lists_iff hk) hi]
      omega
  · by_cases hnone : ∀ k, ¬ Lists t n.requestedResources k
    · rw [h.read_unlisted hes hnone, read_none ord hnone]
    push Not at hnone
    obtain ⟨k, hk⟩ := hnone
    obtain ⟨i, hi⟩ := exists_lookup hk.1
    rw [h.read_kept hes hapart hk hi (Or.inr (ht.notMem htypes)) ord,
      hsettles.other k i hi fun key hkey => (ht key hkey).2 k hk, add_zero]

/-- **What is read back is right exactly if the cells get what settles the request.** -/
theorem Raised.readsBack_iff : ReadsBack cpuAndMem n n' ↔
    Settles cpuAndMem n.requestedResources (added n.requestedResources times es) :=
  ⟨h.settles_of_readsBack hes hapart htypes, h.readsBack_of_settles hes hapart htypes⟩

end Types

end Reads

/-! ### The whole booking -/

/-- No type is listed by two keys of the record, the types of the request are single ones, and
the default type is not requested under both its names. -/
structure Separate (cpuAndMem : Map String CPUAndMemory) (m : RefMap String CPUAndMemory) : Prop where
  keys : KeysApart m
  single : ∀ key ∈ cpuAndMem, split key flavorDelimiter = [key]
  default : ¬ ("" ∈ cpuAndMem ∧ defaultResourceType ∈ cpuAndMem)

/-- What the types that have a key of their own add to a cell. -/
def owed (cpuAndMem : Map String CPUAndMemory) (m : RefMap String CPUAndMemory) (i : Nat)
    (d : Dimension) : Int :=
  ((entriesBy [] cpuAndMem).map fun e =>
    if m.ptr.lookup (defaulted e.1) = some i then e.2.amount d else 0).sum

/-- The types that have a key of their own settle the request; one that a key lists among others
asks for nothing. -/
structure InOwnPools (cpuAndMem : Map String CPUAndMemory) (m : RefMap String CPUAndMemory) : Prop where
  settles : Settles cpuAndMem m (owed cpuAndMem m)
  nothing : ∀ key res k, cpuAndMem.lookup key = some res → Lists (defaulted key) m k →
    k ≠ defaulted key → res = .zero

/-- A record without a pool takes a single type, or nothing; another one needs a pool for each type. -/
def Accounted (cpuAndMem : Map String CPUAndMemory) (m : RefMap String CPUAndMemory) : Prop :=
  if m.ptr.keys = [] then
    (∀ key ∈ cpuAndMem, ∀ key' ∈ cpuAndMem, key = key') ∨
      ∀ key res, cpuAndMem.lookup key = some res → res = .zero
  else InOwnPools cpuAndMem m

/-- Every booking of the request raises the requests by exactly what is asked for. -/
def RaisesExactly (resInfo : AllResInfo) (n : SiteCacheInfo) : Prop :=
  ∀ rf ord n', n.deductSiteResInfo ord resInfo rf = .ok n' → ReadsBack resInfo.cpuAndMem n n'

section Entries
variable {cpuAndMem : Map String CPUAndMemory} {m : RefMap String CPUAndMemory} {ord : DeductOrders}

theorem mem_types (types : List String) (t : String) :
    t ∈ (entriesBy types cpuAndMem).map (defaulted ·.1) ↔ ∃ key ∈ cpuAndMem, defaulted key = t := by
  rw [mem_map]
  constructor
  · intro ⟨e, he, heq⟩
    exact ⟨e.1, mem_of_lookup (mem_entriesBy.mp he), heq⟩
  · intro ⟨key, hkey, heq⟩
    obtain ⟨res, hres⟩ := exists_lookup hkey
    exact ⟨(key, res), mem_entriesBy.mpr hres, heq⟩

theorem Separate.singles (h : Separate cpuAndMem m) (types : List String) :
    Singles (entriesBy types cpuAndMem) := by
  intro e he
  have hmem : e.1 ∈ cpuAndMem := mem_of_lookup (mem_entriesBy.mp he)
  rw [defaulted]
  split
  · decide
  · exact h.single e.1 hmem

theorem Separate.defaulted_inj (h : Separate cpuAndMem m) {key key' : String} (hkey : key ∈ cpuAndMem)
    (hkey' : key' ∈ cpuAndMem) (heq : defaulted key = defaulted key') : key = key' := by
  unfold defaulted at heq
  split at heq <;> split at heq
  case isTrue.isTrue h₁ h₂ => exact h₁.trans h₂.symm
  case isTrue.isFalse h₁ _ => exact absurd ⟨h₁ ▸ hkey, heq ▸ hkey'⟩ h.default
  case isFalse.isTrue _ h₂ => exact absurd ⟨h₂ ▸ hkey', heq ▸ hkey⟩ h.default
  case isFalse.isFalse => exact heq

theorem Separate.nodup (h : Separate cpuAndMem m) (types : List String) :
    ((entriesBy types cpuAndMem).map (defaulted ·.1)).Nodup := by
  have hmap : (entriesBy types cpuAndMem).map (defaulted ·.1) =
      ((entriesBy types cpuAndMem).map Prod.fst).map defaulted := by
    rw [map_map]
    rfl
  have hmem : ∀ key ∈ (entriesBy types cpuAndMem).map Prod.fst, key ∈ cpuAndMem := fun key hkey =>
    mem_keys.mpr ((entriesBy_perm types cpuAndMem).mem_iff.mp hkey)
  rw [hmap]
  exact (entriesBy_nodup types cpuAndMem).map_on fun key hkey key' hkey' =>
    h.defaulted_inj (hmem key hkey) (hmem key' hkey')

/-- Where the types of shared pools ask for nothing, the cells get what is owed, in every order. -/
theorem added_eq_owed (hsep : Separate cpuAndMem m)
    (hnothing : ∀ key res k, cpuAndMem.lookup key = some res → Lists (defaulted key) m k →
      k ≠ defaulted key → res = .zero) (types : List String) :
    added m (fun _ => 1) (entriesBy types cpuAndMem) = owed cpuAndMem m := by
  funext i d
  rw [owed, ← ((entriesBy_perm_entriesBy types [] cpuAndMem).map _).sum_eq, added]
  refine congrArg sum (map_congr_left fun e he => ?_)
  have hres := mem_entriesBy.mp he
  have hself : m.ptr.lookup (defaulted e.1) = some i → Lists (defaulted e.1) m (defaulted e.1) := by
    intro hi
    exact ⟨mem_of_lookup hi, (hsep.singles types).mem_split he⟩
  by_cases hi : m.ptr.lookup (defaulted e.1) = some i
  · rw [home_of_lists hsep.keys (hself hi), if_pos hi, if_pos hi, one_mul]
  split
  case isFalse => rfl
  case isTrue hhome =>
    have hlists : ¬ ∀ k, ¬ Lists (defaulted e.1) m k := by
      rw [← home_eq_none, hhome]
      exact Option.some_ne_none i
    push Not at hlists
    obtain ⟨k, hk⟩ := hlists
    rw [home_of_lists hsep.keys hk] at hhome
    rw [hnothing e.1 e.2 k hres hk fun heq => hi (heq ▸ hhome), zero_amount, mul_zero]

theorem added_twice {es : List (String × CPUAndMemory)} (hes : (es.map Prod.fst).Nodup)
    {e : String × CPUAndMemory} (he : e ∈ es) {i : Nat} (hi : home m (defaulted e.1) = some i)
    (d : Dimension) :
    added m (fun key => if key = e.1 then 2 else 1) es i d =
      added m (fun _ => 1) es i d + e.2.amount d := by
  obtain ⟨before, after, hsplit⟩ := append_of_mem he
  subst hsplit
  rw [map_append, map_cons, nodup_append, nodup_cons] at hes
  obtain ⟨-, ⟨hafter, -⟩, hbefore⟩ := hes
  have hother : ∀ l : List (String × CPUAndMemory), e.1 ∉ l.map Prod.fst →
      added m (fun key => if key = e.1 then 2 else 1) l i d = added m (fun _ => 1) l i d := by
    intro l hl
    refine congrArg sum (map_congr_left fun e' he' => ?_)
    have hne : e'.1 ≠ e.1 := fun heq => hl (heq ▸ mem_map_of_mem he')
    simp [hne]
  have hcons : ∀ times : String → Int, added m times (before ++ e :: after) i d =
      added m times before i d + (times e.1 * e.2.amount d + added m times after i d) := by
    intro times
    simp [added, hi]
  rw [hcons, hcons, hother after hafter,
    hother before fun hin => hbefore e.1 hin e.1 mem_cons_self rfl, if_pos rfl]
  omega

theorem raiseAll_once (ord : DeductOrders) (hm : m.ptr.keys ≠ []) (hsep : Separate cpuAndMem m)
    (hround : ord.requested = (fun _ => []) ∨ ∀ key res k, cpuAndMem.lookup key = some res →
      Lists (defaulted key) m k → k ≠ defaulted key → res = .zero) :
    ∃ m', raiseAll ord (entriesBy ord.types cpuAndMem) m = .ok m' ∧
      Raised m (fun _ => 1) (entriesBy ord.types cpuAndMem) m' := by
  refine raiseAll_raised hm hsep.keys (hsep.singles _) (hsep.nodup _) fun e he cur k hk hone => ?_
  have ht := (hsep.singles ord.types).mem_split he
  simp only [one_mul]
  by_cases hown : k = defaulted e.1
  · exact addRequested_once ht hone (Or.inr hown)
  · cases hround with
    | inl hord => exact addRequested_once ht hone (Or.inl (by simp [hord]))
    | inr hnothing =>
      rw [hnothing e.1 e.2 k (mem_entriesBy.mp he) hk hown]
      exact addRequested_nothing ht hone

theorem raiseAll_twice (hm : m.ptr.keys ≠ []) (hsep : Separate cpuAndMem m) {key k : String}
    (hk : Lists (defaulted key) m k) (hne : k ≠ defaulted key)
    (hord : ord.requested = fun key' => if key' = key then [k, defaulted key] else []) :
    ∃ m', raiseAll ord (entriesBy ord.types cpuAndMem) m = .ok m' ∧
      Raised m (fun key' => if key' = key then 2 else 1) (entriesBy ord.types cpuAndMem) m' := by
  refine raiseAll_raised hm hsep.keys (hsep.singles _) (hsep.nodup _) fun e he cur k' hk' hone => ?_
  have ht := (hsep.singles ord.types).mem_split he
  rw [hord]
  by_cases hkey : e.1 = key
  · simp only [hkey, if_true] at ht hk' hone ⊢
    rw [hsep.keys _ _ _ hk' hk] at hone ⊢
    exact addRequested_twice ht hone hne
  · simp only [hkey, if_false, one_mul]
    exact addRequested_once ht hone (Or.inl (by simp))

theorem raiseAll_empty (hm : m.ptr.keys = []) {e : String × CPUAndMemory}
    {rest : List (String × CPUAndMemory)} (hes : Singles (e :: rest))
    (hnodup : ((e :: rest).map (defaulted ·.1)).Nodup) :
    raiseAll ord (e :: rest) m = .ok (m.new (defaulted e.1) e.2) := by
  have hfirst : addRequested (ord.requested e.1) (defaulted e.1) e.2 m = .ok (m.new (defaulted e.1) e.2) := by
    rw [addRequested, if_pos hm]
    rfl
  have hkeys : (m.new (defaulted e.1) e.2).ptr.keys ≠ [] :=
    ne_nil_of_mem (mem_keys.mp (RefMap.mem_new.mpr (Or.inl rfl)))
  obtain ⟨hfresh, -⟩ := nodup_cons.mp hnodup
  have hrest : ∀ l : List (String × CPUAndMemory), (∀ e' ∈ l, e' ∈ rest) →
      raiseAll ord l (m.new (defaulted e.1) e.2) = .ok (m.new (defaulted e.1) e.2) := by
    intro l hl
    induction l with
    | nil => rfl
    | cons e' l ih =>
      have hnone : ∀ key, ¬ Lists (defaulted e'.1) (m.new (defaulted e.1) e.2) key := by
        intro key hlists
        have heq := ((lists_new hm (hes e mem_cons_self) e.2).mp hlists).2
        exact hfresh (mem_map.mpr ⟨e', hl e' mem_cons_self, heq⟩)
      refine bind_ok.mpr ⟨_, addRequested_absent hkeys hnone, ?_⟩
      exact ih fun e'' he'' => hl e'' (mem_cons_of_mem e' he'')
  exact bind_ok.mpr ⟨_, hfirst, hrest rest fun _ he' => he'⟩

end Entries

section Booking
variable {resInfo : AllResInfo} {rf : Map String RegionFlavor} {ord : DeductOrders} {n n' : SiteCacheInfo}
  {site : Site}

/-- What a booking leaves in the requests is what its loop over the types does. -/
theorem deductSiteResInfo_raiseAll (h : n.deductSiteResInfo ord resInfo rf = .ok n') :
    raiseAll ord (entriesBy ord.types resInfo.cpuAndMem) n.requestedResources =
      .ok n'.requestedResources := by
  obtain ⟨types, requested, storage, site, fs, hraise, -, -, -, -, hsame⟩ := deductSiteResInfo_ok h
  rw [hsame]
  exact deductCpuAndMem_raiseAll hraise

theorem deductSiteResInfo_returns (resInfo : AllResInfo) (hsite : n.site = some site) (ord : DeductOrders) :
    ∃ n', n.deductSiteResInfo ord resInfo ∅ = .ok n' := by
  obtain ⟨requested, hraise⟩ := deductCpuAndMem_returns ord resInfo.cpuAndMem n.requestedResources
  obtain ⟨-, storage, hbooking⟩ := deductSiteResInfo_eq ∅ hraise
  have hreturns : ∃ n', updateFlavors (counted resInfo) (getRegionName site.siteID) ∅
      (visited ord.flavors n) { n with requestedResources := requested, requestedStorage := storage } =
        .ok n' := by
    refine updateFlavors_returns (fun f hf => mem_visited.mp hf) fun t _ _ f _ vcpus ram hlisted => ?_
    cases hlisted
  obtain ⟨n', hn'⟩ := hreturns
  have hgot : getSite { n with requestedResources := requested, requestedStorage := storage } = .ok site :=
    getSite_ok.mpr hsite
  refine ⟨n', (hbooking ord.flavors).trans ?_⟩
  exact bind_ok.mpr ⟨site, hgot, hn'⟩

/-- **With pools in the record.** -/
theorem raisesExactly_pools (hsite : n.site = some site)
    (hsep : Separate resInfo.cpuAndMem n.requestedResources) (hpools : n.requestedResources.ptr.keys ≠ []) :
    RaisesExactly resInfo n ↔ InOwnPools resInfo.cpuAndMem n.requestedResources := by
  have hsettles : RaisesExactly resInfo n → ∀ (ord : DeductOrders) (times : String → Int),
      (∃ m', raiseAll ord (entriesBy ord.types resInfo.cpuAndMem) n.requestedResources = .ok m' ∧
        Raised n.requestedResources times (entriesBy ord.types resInfo.cpuAndMem) m') →
      Settles resInfo.cpuAndMem n.requestedResources
        (added n.requestedResources times (entriesBy ord.types resInfo.cpuAndMem)) := by
    intro hexact ord times ⟨m', hrun, hraised⟩
    obtain ⟨n', hn'⟩ := deductSiteResInfo_returns resInfo hsite ord
    cases (deductSiteResInfo_raiseAll hn').symm.trans hrun
    exact (hraised.readsBack_iff (hsep.singles _) hsep.keys (mem_types _)).mp (hexact ∅ ord n' hn')
  constructor
  · intro hexact
    have honce := hsettles hexact {} _ (raiseAll_once {} hpools hsep (Or.inl rfl))
    -- The order decides whether a shared pool gets the amount once or twice.
    have hnothing : ∀ key res k, resInfo.cpuAndMem.lookup key = some res →
        Lists (defaulted key) n.requestedResources k → k ≠ defaulted key → res = .zero := by
      intro key res k hres hk hne
      obtain ⟨i, hi⟩ := exists_lookup hk.1
      have htwice := hsettles hexact
        { requested := fun key' => if key' = key then [k, defaulted key] else [] } _
        (raiseAll_twice hpools hsep hk hne rfl)
      refine eq_iff_amount.mpr fun d => ?_
      have h₁ := honce.shared key res k i hres hk hne hi d
      have h₂ := htwice.shared key res k i hres hk hne hi d
      have hmore := added_twice (entriesBy_nodup [] resInfo.cpuAndMem)
        (mem_entriesBy.mpr hres) ((home_of_lists hsep.keys hk).trans hi) d
      rw [zero_amount]
      dsimp only at h₁ h₂ hmore
      omega
    exact ⟨added_eq_owed hsep hnothing [] ▸ honce, hnothing⟩
  · intro hpoolsOwn rf ord n' hn'
    obtain ⟨m', hrun, hraised⟩ := raiseAll_once ord hpools hsep (Or.inr hpoolsOwn.nothing)
    cases (deductSiteResInfo_raiseAll hn').symm.trans hrun
    refine (hraised.readsBack_iff (hsep.singles _) hsep.keys (mem_types _)).mpr ?_
    rw [added_eq_owed hsep hpoolsOwn.nothing]
    exact hpoolsOwn.settles

/-- Reading back from a record whose only pool is that of one type of the request. -/
theorem readsBack_first (hsep : Separate resInfo.cpuAndMem n.requestedResources)
    (hempty : n.requestedResources.ptr.keys = []) {first : String} {amount : CPUAndMemory}
    (hfirst : resInfo.cpuAndMem.lookup first = some amount)
    (hn' : n'.requestedResources = n.requestedResources.new (defaulted first) amount) :
    ReadsBack resInfo.cpuAndMem n n' ↔
      ∀ key res, resInfo.cpuAndMem.lookup key = some res → key ≠ first → res = .zero := by
  have hmem : ∀ key res, resInfo.cpuAndMem.lookup key = some res → key ∈ resInfo.cpuAndMem :=
    fun key res hres => mem_of_lookup hres
  have hsingle : split (defaulted first) flavorDelimiter = [defaulted first] :=
    hsep.singles [] (first, amount) (mem_entriesBy.mpr hfirst)
  have hlists : ∀ t key, Lists t n'.requestedResources key ↔ key = defaulted first ∧ t = defaulted first :=
    fun t key => by rw [hn', lists_new hempty hsingle]
  have hread : ∀ ord t d, (n'.getRequestResourceByResType ord t).amount d =
      if t = defaulted first then amount.amount d else 0 := by
    intro ord t d
    split
    case isTrue ht =>
      subst ht
      have hcell : n'.requestedResources.ptr.lookup (defaulted first) =
          some n.requestedResources.cells.length := by
        rw [hn', RefMap.new, lookup_insert]
      rw [read_one ord (fun key => by rw [hlists]; exact and_iff_left rfl) hcell, cellAmount, hn']
      simp [RefMap.new]
    case isFalse ht => exact read_none ord (fun key hkey => ht ((hlists t key).mp hkey).2) d
  have hzero : ∀ ord t d, (n.getRequestResourceByResType ord t).amount d = 0 := fun ord t d =>
    read_none ord (not_lists_of_empty hempty) d
  constructor
  · intro hback key res hres hne
    refine eq_iff_amount.mpr fun d => ?_
    have hd := congrArg (fun res => CPUAndMemory.amount res d) ((hback [] []).1 key res hres)
    have hother : defaulted key ≠ defaulted first := fun heq =>
      hne (hsep.defaulted_inj (hmem key res hres) (hmem first amount hfirst) heq)
    rw [hread, if_neg hother, add_amount, hzero, zero_add] at hd
    rw [← hd, zero_amount]
  · intro hrest ord ord'
    refine ⟨fun key res hres => eq_iff_amount.mpr fun d => ?_,
      fun t ht => eq_iff_amount.mpr fun d => ?_⟩
    · rw [hread, add_amount, hzero, zero_add]
      by_cases hkey : key = first
      · subst hkey
        cases hres.symm.trans hfirst
        rw [if_pos rfl]
      · rw [hrest key res hres hkey, zero_amount, ite_eq_right_iff]
        intro heq
        exact absurd (hsep.defaulted_inj (hmem key res hres) (hmem first amount hfirst) heq) hkey
    · rw [hread, hzero, if_neg (ht first (hmem first amount hfirst)).1]

/-- **Without a pool in the record.** -/
theorem raisesExactly_empty (hsite : n.site = some site)
    (hsep : Separate resInfo.cpuAndMem n.requestedResources) (hempty : n.requestedResources.ptr.keys = []) :
    RaisesExactly resInfo n ↔ (∀ key ∈ resInfo.cpuAndMem, ∀ key' ∈ resInfo.cpuAndMem, key = key') ∨
      ∀ key res, resInfo.cpuAndMem.lookup key = some res → res = .zero := by
  have hbook : ∀ {rf ord n' e rest}, n.deductSiteResInfo ord resInfo rf = .ok n' →
      entriesBy ord.types resInfo.cpuAndMem = e :: rest →
      (ReadsBack resInfo.cpuAndMem n n' ↔
        ∀ key res, resInfo.cpuAndMem.lookup key = some res → key ≠ e.1 → res = .zero) := by
    intro rf ord n' e rest hn' hes
    have hin : e ∈ entriesBy ord.types resInfo.cpuAndMem := hes ▸ mem_cons_self
    have hraise := deductSiteResInfo_raiseAll hn'
    rw [hes, raiseAll_empty hempty (hes ▸ hsep.singles _) (hes ▸ hsep.nodup _)] at hraise
    exact readsBack_first hsep hempty (mem_entriesBy.mp hin) (Except.ok.inj hraise).symm
  constructor
  · intro hexact
    -- With two types, either may come first.
    by_cases hone : ∀ key ∈ resInfo.cpuAndMem, ∀ key' ∈ resInfo.cpuAndMem, key = key'
    · exact Or.inl hone
    refine Or.inr fun key res hres => ?_
    have hother : ∃ key' ∈ resInfo.cpuAndMem, key ≠ key' := by
      by_contra hall
      push Not at hall
      exact hone fun a ha b hb => (hall a ha).symm.trans (hall b hb)
    obtain ⟨key', hkey', hne⟩ := hother
    obtain ⟨amount, hamount⟩ := exists_lookup hkey'
    obtain ⟨rest, hfirst⟩ := entriesBy_first hamount
    obtain ⟨n', hn'⟩ := deductSiteResInfo_returns resInfo hsite { types := [key'] }
    exact (hbook hn' hfirst).mp (hexact ∅ _ n' hn') key res hres hne
  · intro hor rf ord n' hn'
    cases hes : entriesBy ord.types resInfo.cpuAndMem with
    | nil =>
      -- Nothing is requested, and nothing is done.
      have hnothing : ∀ key, key ∉ resInfo.cpuAndMem := by
        intro key hkey
        obtain ⟨res, hres⟩ := exists_lookup hkey
        have hin : (key, res) ∈ entriesBy ord.types resInfo.cpuAndMem := mem_entriesBy.mpr hres
        rw [hes] at hin
        cases hin
      have hraise := deductSiteResInfo_raiseAll hn'
      rw [hes] at hraise
      have hsame : n'.requestedResources = n.requestedResources := (pure_ok.mp hraise).symm
      intro o o'
      refine ⟨fun key res hres => ?_, fun t _ => eq_iff_amount.mpr fun d => ?_⟩
      · exact absurd (mem_of_lookup hres) (hnothing key)
      · rw [read_none o (not_lists_of_empty hempty), read_none o' (hsame ▸ not_lists_of_empty hempty)]
    | cons e rest =>
      refine (hbook hn' hes).mpr fun key res hres hne => ?_
      cases hor with
      | inl hone =>
        have hin : e ∈ entriesBy ord.types resInfo.cpuAndMem := hes ▸ mem_cons_self
        have he : e.1 ∈ resInfo.cpuAndMem :=
          mem_of_lookup (mem_entriesBy.mp hin)
        exact absurd (hone key (mem_of_lookup hres) e.1 he) hne
      | inr hzero => exact hzero key res hres

end Booking

/-- **A booking raises the requests by exactly what is asked for, in every order of the runtime,
exactly if the record has a pool for each type that asks for something**, or no pool at all and
one type. -/
theorem raisesExactly_iff {resInfo : AllResInfo} {n : SiteCacheInfo} {site : Site}
    (hsite : n.site = some site) (hsep : Separate resInfo.cpuAndMem n.requestedResources) :
    RaisesExactly resInfo n ↔ Accounted resInfo.cpuAndMem n.requestedResources := by
  rw [Accounted]
  split
  case isTrue hempty => exact raisesExactly_empty hsite hsep hempty
  case isFalse hpools => exact raisesExactly_pools hsite hsep hpools

/-- A site with one pool, where four vCPUs and eight of memory are requested. -/
def onePool (key : String) : SiteCacheInfo where
  site := some { siteID := "r--a" }
  requestedResources := RefMap.empty.new key ⟨4, 8⟩

theorem onePool_keys {key k : String} : k ∈ (onePool key).requestedResources.ptr ↔ k = key := by
  rw [onePool, RefMap.mem_new, or_iff_left]
  exact notMem_empty k

theorem oneUntyped_keys {t : String} : t ∈ oneUntyped.cpuAndMem ↔ t = "" := by
  rw [oneUntyped, mem_insert, or_iff_left]
  exact notMem_empty t

theorem onePool_separate (key : String) :
    Separate oneUntyped.cpuAndMem (onePool key).requestedResources where
  keys := by
    intro t k k' hk hk'
    rw [onePool_keys.mp hk.1, onePool_keys.mp hk'.1]
  single := by
    intro t ht
    rw [oneUntyped_keys.mp ht]
    decide
  default := by decide

/-- A pool of the default type alone is raised by what an untyped request asks for. -/
theorem raisesExactly_iff_own : (onePool "vm").site = some { siteID := "r--a" } ∧
    Separate oneUntyped.cpuAndMem (onePool "vm").requestedResources ∧
    RaisesExactly oneUntyped (onePool "vm") := by
  refine ⟨rfl, onePool_separate "vm", (raisesExactly_iff rfl (onePool_separate "vm")).mpr ?_⟩
  have hkey : ∀ key res, oneUntyped.cpuAndMem.lookup key = some res → key = "" ∧ res = ⟨1, 1⟩ := by
    intro key res hres
    have heq : key = "" := oneUntyped_keys.mp (mem_of_lookup hres)
    subst heq
    cases hres
    exact ⟨rfl, rfl⟩
  have hpools : (onePool "vm").requestedResources.ptr.keys ≠ [] := by decide
  refine ⟨⟨?_, ?_, ?_, ?_⟩, ?_⟩
  · intro key res hres hnone
    obtain ⟨rfl, -⟩ := hkey key res hres
    exact absurd (by decide) (hnone "vm")
  · intro key res i hres hi d
    obtain ⟨rfl, rfl⟩ := hkey key res hres
    cases hi
    cases d <;> decide
  · intro key res k i hres hk hne
    obtain ⟨rfl, -⟩ := hkey key res hres
    exact absurd (onePool_keys.mp hk.1) hne
  · intro k i hi hnot
    have hk : k = "vm" := onePool_keys.mp (mem_of_lookup hi)
    subst hk
    exact absurd (by decide) (hnot "" (by decide))
  · intro key res k hres hk hne
    obtain ⟨rfl, -⟩ := hkey key res hres
    exact absurd (onePool_keys.mp hk.1) hne

/-- A pool for two types: the four vCPUs that are read back for the default type become ten, or
twelve, when one is asked for. A pool of another type: what is asked for is dropped. -/
theorem raisesExactly_fails :
    Separate oneUntyped.cpuAndMem (onePool "vm||lxc").requestedResources ∧
    ¬ RaisesExactly oneUntyped (onePool "vm||lxc") ∧
    (onePool "vm||lxc").getRequestResourceByResType [] "vm" = ⟨4, 8⟩ ∧
    ((onePool "vm||lxc").deductSiteResInfo { requested := fun _ => ["vm||lxc", "vm"] } oneUntyped ∅).map
      (getRequestResourceByResType [] "vm") = .ok ⟨12, 20⟩ ∧
    Separate oneUntyped.cpuAndMem (onePool "lxc").requestedResources ∧
    ¬ RaisesExactly oneUntyped (onePool "lxc") := by
  have hshared : ((onePool "vm||lxc").deductSiteResInfo {} oneUntyped ∅).map
      (getRequestResourceByResType [] "vm") = .ok ⟨10, 18⟩ := by
    decide +kernel
  have hdropped : ((onePool "lxc").deductSiteResInfo {} oneUntyped ∅).map
      (getRequestResourceByResType [] "vm") = .ok ⟨0, 0⟩ := by
    decide +kernel
  refine ⟨onePool_separate _, fun hexact => ?_, by decide +kernel, by decide +kernel,
    onePool_separate _, fun hexact => ?_⟩
  · obtain ⟨n', hn', hread⟩ := map_ok.mp hshared
    have hright := (hexact ∅ {} n' hn' [] []).1 "" ⟨1, 1⟩ rfl
    exact absurd (hread.symm.trans hright) (by decide +kernel)
  · obtain ⟨n', hn', hread⟩ := map_ok.mp hdropped
    have hright := (hexact ∅ {} n' hn' [] []).1 "" ⟨1, 1⟩ rfl
    exact absurd (hread.symm.trans hright) (by decide +kernel)

end GlobalScheduler.SiteCacheInfo
