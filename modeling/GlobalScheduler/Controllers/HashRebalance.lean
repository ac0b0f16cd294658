import GlobalScheduler.HashRing
import GlobalScheduler.Transition
import GlobalScheduler.Controllers.ConsistentHash

/-! Who owns a member.

The sorted slice has the places of the circle, though perhaps some of them more than once,
and so the search in it finds the first place after a hash. Elements that are added take
the members whose first place is now one of theirs; the others stay where they are. -/
namespace GlobalScheduler.ConsistentHashing

open Go Transition HashRing AList Map
open List hiding mem_keys

namespace ConsistentHash

/-- The slice is sorted, and has the keys of the map. -/
structure Circled (ch : ConsistentHash) : Prop where
  sorted : ch.sortedHashes.Pairwise (· ≤ ·)
  keys : ∀ point, point ∈ ch.sortedHashes ↔ point ∈ ch.hashCircle

def circle (ch : ConsistentHash) (point : Uint32) : Option String := ch.hashCircle.lookup point

/-- The element that owns a hash, or the word for none if there is no element. -/
def Owner (ch : ConsistentHash) (key : Uint32) (owner : String) : Prop :=
  ch.hashCircle.keys = [] ∧ owner = "nil" ∨ Owns ch.circle key owner

section
variable {ch ch' : ConsistentHash} {key point : Uint32} {owner : String}

theorem mem_points : point ∈ points ch.circle ↔ point ∈ ch.hashCircle := by
  show ch.hashCircle.lookup point ≠ none ↔ _
  rw [Ne, lookup_eq_none, not_not]

theorem not_owns_of_empty (hempty : ch.hashCircle.keys = []) : ¬ Owns ch.circle key owner := by
  intro h
  obtain ⟨point, hfirst, -⟩ := h
  have hmem := mem_keys.mp (mem_points.mp hfirst.mem)
  rw [hempty] at hmem
  cases hmem

theorem Owner.owns (h : ch.Owner key owner) (hne : ch.hashCircle.keys ≠ []) : Owns ch.circle key owner :=
  h.resolve_left fun hempty => hne hempty.1

theorem Owner.congr (hsame : ch'.hashCircle = ch.hashCircle) : ch'.Owner key owner ↔ ch.Owner key owner := by
  unfold Owner circle
  rw [hsame]

/-! ### The search -/

theorem isAfter_eq {hashes : List Uint32} {i : Nat} (h : i < hashes.length) :
    isAfter hashes key i = decide (key < hashes[i]) := by
  simp [isAfter, getElem?_eq_getElem h]

theorem firstTrue_isAfter {hashes : List Uint32} (hsorted : hashes.Pairwise (· ≤ ·)) (key : Uint32) :
    FirstTrue hashes.length (isAfter hashes key) (Go.search hashes.length (isAfter hashes key)) := by
  apply search_spec
  intro k l hkl hl hk
  have hklen := hkl.trans_lt hl
  rw [isAfter_eq hklen, decide_eq_true_eq] at hk
  rw [isAfter_eq hl, decide_eq_true_eq]
  exact hk.trans_le (hsorted.rel_get_of_le hkl)

theorem Circled.sortedHashes_ne_nil (h : ch.Circled) (hne : ch.hashCircle.keys ≠ []) : ch.sortedHashes ≠ [] := by
  obtain ⟨point, hpoint⟩ := exists_mem_of_ne_nil _ hne
  exact ne_nil_of_mem ((h.keys point).mpr (mem_keys.mpr hpoint))

/-- **The search finds the first place after a hash.** -/
theorem Circled.search (h : ch.Circled) (hne : ch.hashCircle.keys ≠ []) (key : Uint32) :
    ∃ point, ch.sortedHashes[ch.search key]? = some point ∧ FirstAfter (points ch.circle) key point := by
  have hfirst := firstTrue_isAfter h.sorted key
  -- A place of the circle stands in the slice, and is after the key from the index found on.
  have hplace : ∀ p ∈ points ch.circle, ∃ k, ∃ hk : k < ch.sortedHashes.length, ch.sortedHashes[k] = p ∧
      (key < p → Go.search ch.sortedHashes.length (isAfter ch.sortedHashes key) ≤ k) := by
    intro p hp
    obtain ⟨k, hk, hget⟩ := mem_iff_getElem.mp ((h.keys p).mpr (mem_points.mp hp))
    refine ⟨k, hk, hget, fun hkey => ?_⟩
    by_contra hbefore
    have hfalse := hfirst.before k (by omega)
    rw [isAfter_eq hk, decide_eq_false_iff_not, hget] at hfalse
    exact hfalse hkey
  have hmem : ∀ k (hk : k < ch.sortedHashes.length), ch.sortedHashes[k] ∈ points ch.circle :=
    fun k hk => mem_points.mpr ((h.keys _).mp (getElem_mem hk))
  unfold ConsistentHash.search
  dsimp only
  split
  case isTrue hlt =>
    have hafter := hfirst.from_on _ le_rfl hlt
    rw [isAfter_eq hlt, decide_eq_true_eq] at hafter
    refine ⟨_, getElem?_eq_getElem hlt, hmem _ hlt, fun p hp hkey => ?_, fun hnot => absurd hafter hnot⟩
    obtain ⟨k, hk, rfl, hle⟩ := hplace p hp
    exact ⟨hafter, h.sorted.rel_get_of_le (hle hkey)⟩
  case isFalse hend =>
    -- No place is after the key, and the slice starts with the least.
    have hpos : 0 < ch.sortedHashes.length := length_pos_iff.mpr (h.sortedHashes_ne_nil hne)
    refine ⟨_, getElem?_eq_getElem hpos, hmem 0 hpos, fun p hp hkey => ?_, fun _ p hp => ?_⟩
    · obtain ⟨k, hk, rfl, hle⟩ := hplace p hp
      exact absurd ((hle hkey).trans_lt hk) hend
    · obtain ⟨k, hk, rfl, -⟩ := hplace p hp
      exact h.sorted.rel_get_of_le (Nat.zero_le k)

end

/-! ### Members that are placed -/

section
variable {hash : String → Uint32} {ch ch' : ConsistentHash} {v : String} {names : List String}

/-- What `Insert` does: the names belong to their owners, and are listed by them on a circle
that is not empty. -/
structure Places (hash : String → Uint32) (names : List String) (ch ch' : ConsistentHash) : Prop where
  hashCircle : ch'.hashCircle = ch.hashCircle
  sortedHashes : ch'.sortedHashes = ch.sortedHashes
  nodes : ch'.numberOfVirtualNodes = ch.numberOfVirtualNodes
  placed : ∀ v ∈ names, ∃ owner, ch.Owner (hash v) owner ∧ ch'.members.lookup v = some owner
  others : ∀ v ∉ names, ch'.members.lookup v = ch.members.lookup v
  listed : ∀ owner v, Owns ch.circle (hash v) owner →
    (ch'.getIdList owner).count v = (ch.getIdList owner).count v + names.count v
  unlisted : ∀ owner v, ¬ Owns ch.circle (hash v) owner →
    (ch'.getIdList owner).count v = (ch.getIdList owner).count v

theorem Places.circled (h : Places hash names ch ch') (hc : ch.Circled) : ch'.Circled := by
  refine ⟨?_, fun point => ?_⟩
  · rw [h.sortedHashes]
    exact hc.sorted
  · rw [h.sortedHashes, h.hashCircle]
    exact hc.keys point

theorem Places.owner_iff (h : Places hash names ch ch') {key : Uint32} {owner : String} :
    ch'.Owner key owner ↔ ch.Owner key owner :=
  Owner.congr h.hashCircle

theorem places_nil : Places hash [] ch ch where
  hashCircle := rfl
  sortedHashes := rfl
  nodes := rfl
  placed _ hv := absurd hv not_mem_nil
  others _ _ := rfl
  listed _ _ _ := rfl
  unlisted _ _ _ := rfl

theorem Places.cons {ch'' : ConsistentHash} (h : Places hash [v] ch ch') (hrest : Places hash names ch' ch'') :
    Places hash (v :: names) ch ch'' where
  hashCircle := hrest.hashCircle.trans h.hashCircle
  sortedHashes := hrest.sortedHashes.trans h.sortedHashes
  nodes := hrest.nodes.trans h.nodes
  placed w hw := by
    by_cases hagain : w ∈ names
    · obtain ⟨owner, howner, hlook⟩ := hrest.placed w hagain
      exact ⟨owner, h.owner_iff.mp howner, hlook⟩
    · rw [hrest.others w hagain]
      have hfirst : w = v := (mem_cons.mp hw).resolve_right hagain
      exact h.placed w (mem_singleton.mpr hfirst)
  others w hw := by
    rw [hrest.others w fun hmem => hw (mem_cons_of_mem v hmem)]
    exact h.others w fun hmem => hw (mem_singleton.mp hmem ▸ mem_cons_self)
  listed owner w howns := by
    have howns' : Owns ch'.circle (hash w) owner := by
      unfold circle
      rw [h.hashCircle]
      exact howns
    rw [hrest.listed owner w howns', h.listed owner w howns]
    simp only [count_cons, count_nil]
    omega
  unlisted owner w howns := by
    have howns' : ¬ Owns ch'.circle (hash w) owner := by
      unfold circle
      rw [h.hashCircle]
      exact howns
    rw [hrest.unlisted owner w howns', h.unlisted owner w howns]

theorem Circled.place (h : ch.Circled) (hash : String → Uint32) (hne : ch.hashCircle.keys ≠ []) (v : String) :
    ∃ ch', ch.place hash v = .ok ch' ∧ Places hash [v] ch ch' := by
  obtain ⟨point, hget, hfirst⟩ := h.search hne (hash v)
  obtain ⟨owner, hlook⟩ := exists_lookup (mem_points.mp hfirst.mem)
  have howns : Owns ch.circle (hash v) owner := ⟨point, hfirst, hlook⟩
  refine ⟨{ ch with
      members := ch.members.insert v owner
      results := ch.results.insert owner (ch.getIdList owner ++ [v]) }, ?_, ?_⟩
  · unfold ConsistentHash.place getIdList
    rw [hget]
    dsimp only
    rw [hlook]
    rfl
  · refine ⟨rfl, rfl, rfl, fun w hw => ?_, fun w hw => ?_, fun owner' w howns' => ?_, fun owner' w howns' => ?_⟩
    · rw [mem_singleton.mp hw]
      exact ⟨owner, Or.inr howns, lookup_insert _⟩
    · exact lookup_insert_ne fun heq => hw (mem_singleton.mpr heq)
    · by_cases howner : owner' = owner
      · rw [howner]
        show (((AList.insert owner _ ch.results).lookup owner).getD []).count w = _
        rw [lookup_insert, Option.getD_some, count_append]
      · -- Another element owns the name, so it is not this one.
        have hw : w ≠ v := fun heq => howner (howns'.unique (heq ▸ howns))
        show (((AList.insert owner _ ch.results).lookup owner').getD []).count w = _
        rw [lookup_insert_ne howner, count_singleton]
        simp [Ne.symm hw, getIdList]
    · by_cases howner : owner' = owner
      · have hw : w ≠ v := fun heq => howns' (heq ▸ howner ▸ howns)
        rw [howner]
        show (((AList.insert owner _ ch.results).lookup owner).getD []).count w = _
        simp [Ne.symm hw]
      · show (((AList.insert owner _ ch.results).lookup owner').getD []).count w = _
        rw [lookup_insert_ne howner]
        rfl

theorem lookup_nils (names : List String) (members : Map String String) (v : String) :
    (names.foldl (fun members v => members.insert v "nil") members).lookup v =
      if v ∈ names then some "nil" else members.lookup v := by
  induction names generalizing members with
  | nil => rfl
  | cons name rest ih =>
    rw [foldl_cons, ih]
    by_cases hrest : v ∈ rest
    · rw [if_pos hrest, if_pos (mem_cons_of_mem name hrest)]
    · rw [if_neg hrest]
      by_cases hv : v = name
      · rw [hv, lookup_insert, if_pos mem_cons_self]
      · rw [lookup_insert_ne hv, if_neg fun hmem => hrest ((mem_cons.mp hmem).resolve_left hv)]

theorem Circled.place_loop (h : ch.Circled) (hash : String → Uint32) (hne : ch.hashCircle.keys ≠ [])
    (names : List String) :
    ∃ ch', names.foldlM (ConsistentHash.place hash) ch = .ok ch' ∧ Places hash names ch ch' := by
  induction names generalizing ch with
  | nil => exact ⟨ch, rfl, places_nil⟩
  | cons v rest ih =>
    obtain ⟨ch₁, hplace, hfirst⟩ := h.place hash hne v
    obtain ⟨ch', hloop, hrest⟩ := ih (hfirst.circled h) (hfirst.hashCircle ▸ hne)
    refine ⟨ch', ?_, hfirst.cons hrest⟩
    rw [foldlM_cons, hplace]
    exact hloop

/-- **`Insert` returns, and every name belongs to its owner.** -/
theorem Circled.insert (h : ch.Circled) (hash : String → Uint32) (names : List String) :
    ∃ ch', ch.insert hash names = .ok ch' ∧ Places hash names ch ch' := by
  unfold ConsistentHash.insert
  split
  case isFalse hne => exact h.place_loop hash hne names
  case isTrue hempty =>
    refine ⟨_, rfl, rfl, rfl, rfl, fun v hv => ?_, fun v hv => ?_, fun _ _ howns => ?_, fun _ _ _ => rfl⟩
    · exact ⟨"nil", Or.inl ⟨hempty, rfl⟩, (lookup_nils names ch.members v).trans (if_pos hv)⟩
    · exact (lookup_nils names ch.members v).trans (if_neg hv)
    · exact absurd howns (not_owns_of_empty hempty)

/-! ### Rebalancing -/

/-- Every member is listed once, by its owner, and nobody else is listed; on an empty circle
nobody is. -/
def Listed (ch : ConsistentHash) : Prop :=
  ∀ owner v, (ch.getIdList owner).count v =
    if ch.hashCircle.keys ≠ [] ∧ ch.members.lookup v = some owner then 1 else 0

/-- What the end of `add` and `remove` does. Without members the lists are left as they were. -/
structure Rebalances (hash : String → Uint32) (ch ch' : ConsistentHash) : Prop where
  hashCircle : ch'.hashCircle = ch.hashCircle
  sortedHashes : ch'.sortedHashes = ch.sortedHashes
  nodes : ch'.numberOfVirtualNodes = ch.numberOfVirtualNodes
  members : ∀ v, v ∈ ch'.members ↔ v ∈ ch.members
  owners : ∀ v owner, ch'.members.lookup v = some owner → ch.Owner (hash v) owner
  lists : ch'.Listed ∨ ch.members.keys = [] ∧ ch' = ch

theorem Circled.rebalanceMembers (h : ch.Circled) (hash : String → Uint32) (ord : List String) :
    ∃ ch', ch.rebalanceMembers hash ord = .ok ch' ∧ Rebalances hash ch ch' := by
  unfold ConsistentHash.rebalanceMembers
  split
  case isTrue hempty =>
    refine ⟨ch, rfl, rfl, rfl, rfl, fun _ => Iff.rfl, fun v owner hlook => ?_, Or.inr ⟨hempty, rfl⟩⟩
    have hmem := mem_keys.mp (mem_of_lookup hlook)
    rw [hempty] at hmem
    cases hmem
  case isFalse =>
    have hnames : ∀ v, v ∈ (entriesBy ord ch.members).map Prod.fst ↔ v ∈ ch.members :=
      fun v => (entriesBy_perm ord ch.members).mem_iff.trans mem_keys.symm
    have hcircled : Circled { ch with results := ∅ } := ⟨h.sorted, h.keys⟩
    obtain ⟨ch', hinsert, hplaces⟩ := hcircled.insert hash ((entriesBy ord ch.members).map Prod.fst)
    have howners : ∀ v owner, ch'.members.lookup v = some owner → v ∈ ch.members ∧ ch.Owner (hash v) owner := by
      intro v owner hlook
      by_cases hv : v ∈ ch.members
      · obtain ⟨owner', howner, hlook'⟩ := hplaces.placed v ((hnames v).mpr hv)
        cases hlook.symm.trans hlook'
        exact ⟨hv, howner⟩
      · rw [hplaces.others v (mt (hnames v).mp hv)] at hlook
        exact absurd (mem_of_lookup hlook) hv
    refine ⟨ch', hinsert, hplaces.hashCircle, hplaces.sortedHashes, hplaces.nodes, fun v => ?_,
      fun v owner hlook => (howners v owner hlook).2, Or.inl fun owner v => ?_⟩
    · constructor
      · intro hv
        obtain ⟨owner, hlook⟩ := exists_lookup hv
        exact (howners v owner hlook).1
      · intro hv
        obtain ⟨owner, -, hlook⟩ := hplaces.placed v ((hnames v).mpr hv)
        exact mem_of_lookup hlook
    · -- The lists start empty, and the names are all different.
      rw [hplaces.hashCircle]
      by_cases howns : Owns ch.circle (hash v) owner
      · have hne : ch.hashCircle.keys ≠ [] := fun hempty => not_owns_of_empty hempty howns
        rw [hplaces.listed owner v howns]
        show count v [] + _ = _
        rw [count_nil, Nat.zero_add, (entriesBy_nodup ord ch.members).count]
        refine if_congr ?_ rfl rfl
        rw [hnames v]
        constructor
        · intro hv
          obtain ⟨owner', howner, hlook⟩ := hplaces.placed v ((hnames v).mpr hv)
          rw [(howner.owns hne).unique howns] at hlook
          exact ⟨hne, hlook⟩
        · exact fun hlook => (howners v owner hlook.2).1
      · rw [hplaces.unlisted owner v howns, if_neg fun hlook => howns ((howners v owner hlook.2).2.owns hlook.1)]
        exact count_nil

/-! ### Elements that are added -/

theorem lookup_addNodes (nodes : List (Uint32 × String)) (circle : Map Uint32 String) (point : Uint32) :
    (point ∉ nodes.map Prod.fst ∧
      (nodes.foldl (fun circle node => circle.insert node.1 node.2) circle).lookup point = circle.lookup point) ∨
    ∃ v, (point, v) ∈ nodes ∧
      (nodes.foldl (fun circle node => circle.insert node.1 node.2) circle).lookup point = some v := by
  induction nodes generalizing circle with
  | nil => exact Or.inl ⟨not_mem_nil, rfl⟩
  | cons node rest ih =>
    rw [foldl_cons]
    cases ih (circle.insert node.1 node.2) with
    | inr hlater =>
      obtain ⟨v, hmem, hlook⟩ := hlater
      exact Or.inr ⟨v, mem_cons_of_mem node hmem, hlook⟩
    | inl hrest =>
      obtain ⟨hnot, hlook⟩ := hrest
      rw [hlook]
      by_cases hpoint : point = node.1
      · rw [hpoint]
        exact Or.inr ⟨node.2, mem_cons_self, lookup_insert _⟩
      · rw [lookup_insert_ne hpoint, map_cons]
        exact Or.inl ⟨not_mem_cons_of_ne_of_not_mem hpoint hnot, rfl⟩

def newPoints (hash : String → Uint32) (elt : List String) (ch : ConsistentHash) : Set Uint32 :=
  { point | point ∈ (ch.nodesOf hash elt).map Prod.fst }

theorem extends_addNodes (hash : String → Uint32) (elt : List String) (ch : ConsistentHash) :
    Extends ch.circle (ch.addNodes hash elt).circle (ch.newPoints hash elt) { v | v ∈ elt } where
  given point hpoint := by
    cases lookup_addNodes (ch.nodesOf hash elt) ch.hashCircle point with
    | inl hnot => exact absurd hpoint hnot.1
    | inr hnode =>
      obtain ⟨v, hmem, hlook⟩ := hnode
      obtain ⟨w, hw, hnode⟩ := mem_flatMap.mp hmem
      obtain ⟨key, -, heq⟩ := mem_map.mp hnode
      cases heq
      exact ⟨v, hw, hlook⟩
  others point hpoint := by
    cases lookup_addNodes (ch.nodesOf hash elt) ch.hashCircle point with
    | inl hnot => exact hnot.2
    | inr hnode =>
      obtain ⟨v, hmem, -⟩ := hnode
      exact (hpoint (mem_map.mpr ⟨(point, v), hmem, rfl⟩)).elim

theorem Circled.addNodes (h : ch.Circled) (hash : String → Uint32) (elt : List String) :
    (ch.addNodes hash elt).Circled where
  sorted := pairwise_insertionSort _ _
  keys point := by
    have hextends := extends_addNodes hash elt ch
    rw [← mem_points]
    show point ∈ insertionSort (· ≤ ·) (ch.sortedHashes ++ (ch.nodesOf hash elt).map Prod.fst) ↔ _
    rw [mem_insertionSort, mem_append, h.keys, ← mem_points]
    constructor
    · intro hpoint
      cases hpoint with
      | inl hold => exact hextends.points_subset hold
      | inr hnew =>
        obtain ⟨owner, -, howner⟩ := hextends.given point hnew
        exact fun hnone => by cases howner.symm.trans hnone
    · intro hpoint
      by_cases hnew : point ∈ ch.newPoints hash elt
      · exact Or.inr hnew
      · exact Or.inl fun hnone => hpoint ((hextends.others point hnew).trans hnone)

/-- A member goes to one of the elements, for one of their places is its first, or stays. -/
theorem Owner.addNodes {hash : String → Uint32} {elt : List String} {key : Uint32} {owner owner' : String}
    (h : ch.Owner key owner) (h' : (ch.addNodes hash elt).Owner key owner') :
    (owner' ∈ elt ∧ ∃ point ∈ ch.newPoints hash elt, FirstAfter (points (ch.addNodes hash elt).circle) key point) ∨
      owner' = owner := by
  have hextends := extends_addNodes hash elt ch
  cases h' with
  | inr howns' =>
    cases hextends.owns_cases howns' with
    | inl hmoves => exact Or.inl hmoves
    | inr hstays =>
      have hne : ch.hashCircle.keys ≠ [] := fun hempty => not_owns_of_empty hempty hstays
      exact Or.inr (hstays.unique (h.owns hne))
  | inl hempty' =>
    cases h with
    | inl hempty => exact Or.inr (hempty'.2.trans hempty.2.symm)
    | inr howns =>
      -- The circle has not lost a place.
      obtain ⟨point, hfirst, -⟩ := howns
      have hmem := mem_keys.mp (mem_points.mp (hextends.points_subset hfirst.mem))
      rw [hempty'.1] at hmem
      cases hmem

/-! ### Runs -/

/-- Every member belongs to its owner. -/
structure Assigned (hash : String → Uint32) (ch : ConsistentHash) : Prop where
  circled : ch.Circled
  owners : ∀ v owner, ch.members.lookup v = some owner → ch.Owner (hash v) owner

theorem assigned_new (hash : String → Uint32) (n : Nat) : Assigned hash (newWith n) where
  circled := ⟨List.Pairwise.nil, fun _ => Iff.rfl⟩
  owners _ _ hlook := by cases hlook

theorem Places.assigned (h : Places hash names ch ch') (hc : Assigned hash ch) : Assigned hash ch' where
  circled := h.circled hc.circled
  owners v owner hlook := by
    rw [h.owner_iff]
    by_cases hv : v ∈ names
    · obtain ⟨owner', howner, hlook'⟩ := h.placed v hv
      cases hlook.symm.trans hlook'
      exact howner
    · rw [h.others v hv] at hlook
      exact hc.owners v owner hlook

theorem Rebalances.assigned (h : Rebalances hash ch ch') (hc : ch.Circled) : Assigned hash ch' where
  circled := by
    refine ⟨?_, fun point => ?_⟩
    · rw [h.sortedHashes]
      exact hc.sorted
    · rw [h.sortedHashes, h.hashCircle]
      exact hc.keys point
  owners v owner hlook := (Owner.congr h.hashCircle).mpr (h.owners v owner hlook)

end

end ConsistentHash

open ConsistentHash

abbrev Step (hash : String → Uint32) (ch : ConsistentHash) (e : Call) (ch' : ConsistentHash) : Prop :=
  call hash ch e = .ok ch'

/-- Nothing is taken away. -/
def Call.Grows : Call → Prop
  | .add _ _ => True
  | .insert _ => True
  | _ => False

section
variable {hash : String → Uint32} {ch ch' : ConsistentHash} {n : Nat} {es : List Call}

theorem ConsistentHash.Assigned.step {e : Call} (h : Assigned hash ch) (hgrows : e.Grows)
    (hstep : Step hash ch e ch') : Assigned hash ch' := by
  cases e with
  | add ord elt =>
    have hcircled := h.circled.addNodes hash elt
    obtain ⟨ch₁, hcall, hrebalances⟩ := hcircled.rebalanceMembers hash ord
    cases hstep.symm.trans hcall
    exact hrebalances.assigned hcircled
  | insert names =>
    obtain ⟨ch₁, hcall, hplaces⟩ := h.circled.insert hash names
    cases hstep.symm.trans hcall
    exact hplaces.assigned h
  | remove ord elt | delete elt => exact hgrows.elim

/-- **Only what comes to a new element moves.** A member whose owner changes is given to one
of the elements that are added, and it keeps its owner unless one of their places is now
the first after its hash. -/
theorem add_moves_to_new (h : Run (Step hash) (fun _ e => e.Grows) (newWith n) es ch)
    (ord elt : List String) :
    ∃ ch', ch.add hash ord elt = .ok ch' ∧ (∀ v, v ∈ ch'.members ↔ v ∈ ch.members) ∧
      ∀ v owner owner', ch.members.lookup v = some owner → ch'.members.lookup v = some owner' →
        (owner' ≠ owner → owner' ∈ elt) ∧
        ((¬ ∃ point ∈ ch.newPoints hash elt, FirstAfter (points ch'.circle) (hash v) point) → owner' = owner) := by
  have hassigned := h.invariant (fun _ _ _ hs hgrows hstep => Assigned.step hs hgrows hstep) (assigned_new hash n)
  obtain ⟨ch', hcall, hrebalances⟩ := (hassigned.circled.addNodes hash elt).rebalanceMembers hash ord
  refine ⟨ch', hcall, hrebalances.members, fun v owner owner' hlook hlook' => ?_⟩
  have hsame : ch'.circle = (ch.addNodes hash elt).circle := by
    funext point
    rw [circle, hrebalances.hashCircle, circle]
  rw [hsame]
  cases (hassigned.owners v owner hlook).addNodes (hrebalances.owners v owner' hlook') with
  | inl hmoves => exact ⟨fun _ => hmoves.1, fun hnone => absurd hmoves.2 hnone⟩
  | inr hstays => exact ⟨fun hne => absurd hstays hne, fun _ => hstays⟩

end

/-- Of two members of the first element, the one before the place of the second moves to it. -/
theorem add_moves_to_second : ∃ ch ch',
    Run (Step fnv32Hash) (fun _ e => e.Grows) (newWith 1) [.insert ["m", "pod"], .add [] ["a"]] ch ∧
      ch.add fnv32Hash [] ["k"] = .ok ch' ∧
      (ch.members.lookup "m", ch.members.lookup "pod") = (some "a", some "a") ∧
      (ch'.members.lookup "m", ch'.members.lookup "pod") = (some "k", some "a") ∧
      ∀ v owner owner', ch.members.lookup v = some owner → ch'.members.lookup v = some owner' →
        owner' ≠ owner → owner' ∈ ["k"] := by
  have hcalls : ((newWith 1).insert fnv32Hash ["m", "pod"] >>= fun ch₁ =>
      ch₁.add fnv32Hash [] ["a"] >>= fun ch => (ch.add fnv32Hash [] ["k"]).map fun ch' =>
        ((ch.members.lookup "m", ch.members.lookup "pod"), ch'.members.lookup "m", ch'.members.lookup "pod")) =
      .ok ((some "a", some "a"), some "k", some "a") := by
    decide +kernel
  obtain ⟨ch₁, hinsert, hcalls⟩ := Outcome.bind_ok.mp hcalls
  obtain ⟨ch, hadd, hcalls⟩ := Outcome.bind_ok.mp hcalls
  obtain ⟨ch', hsecond, howners⟩ := Outcome.map_ok.mp hcalls
  obtain ⟨hbefore, hafter⟩ := Prod.mk.inj howners
  have hrun : Run (Step fnv32Hash) (fun _ e => e.Grows) (newWith 1)
      ([] ++ [.insert ["m", "pod"]] ++ [.add [] ["a"]]) ch :=
    ((Run.nil _).snoc trivial hinsert).snoc trivial hadd
  obtain ⟨ch₂, hcall, -, hmoves⟩ := add_moves_to_new hrun [] ["k"]
  cases hsecond.symm.trans hcall
  exact ⟨ch, ch', hrun, hsecond, hbefore, hafter,
    fun v owner owner' hlook hlook' => (hmoves v owner owner' hlook hlook').1⟩

end GlobalScheduler.ConsistentHashing
