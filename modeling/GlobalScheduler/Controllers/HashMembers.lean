import GlobalScheduler.Controllers.HashRebalance

/-! The ring through all of its calls.

An element is taken from the sorted slice hash by hash, and a hash that is not found costs
another one its place; a name is listed as often as it is inserted, and a member of an empty
circle is listed nowhere, so that it cannot be deleted. -/
namespace GlobalScheduler.ConsistentHashing

open Go Transition HashRing Outcome AList
open List hiding mem_keys

/-! ### Removal from a slice -/

section
variable {α : Type} [DecidableEq α] {array : List α} {ele : α}

theorem removeFromArray_ok (h : array ≠ []) (ele : α) :
    ∃ x rest, removeFromArray array ele = .ok rest ∧ (x :: rest).Perm array ∧ (ele ∈ array → x = ele) := by
  have hpos := length_pos_iff.mpr h
  unfold removeFromArray
  rw [if_neg h]
  generalize hidx : (if ele ∈ array then array.idxOf ele else 0) = idx
  have hlt : idx < array.length := by
    rw [← hidx]
    split
    case isTrue hmem => exact idxOf_lt_length_of_mem hmem
    case isFalse => exact hpos
  have hlast := Heap.swap_getElem?_right array hlt (Nat.sub_lt hpos Nat.one_pos)
  rw [getElem?_eq_getElem hlt] at hlast
  refine ⟨_, _, rfl, (Heap.dropLast_perm (Heap.swap_perm _ _ _) hlast).2, fun hmem => ?_⟩
  rw [if_pos hmem] at hidx
  subst hidx
  exact getElem_idxOf hlt

theorem removeAll_of_subperm {eles : List α} (h : eles.Subperm array) :
    ∃ left, eles.foldlM removeFromArray array = .ok left ∧ (eles ++ left).Perm array := by
  induction eles generalizing array with
  | nil => exact ⟨array, rfl, List.Perm.refl _⟩
  | cons ele rest ih =>
    have hmem : ele ∈ array := h.subset mem_cons_self
    obtain ⟨x, array', hremove, hperm, hx⟩ := removeFromArray_ok (ne_nil_of_mem hmem) ele
    rw [hx hmem] at hperm
    obtain ⟨left, hloop, hleft⟩ := ih ((subperm_cons ele).mp (h.trans hperm.symm.subperm))
    refine ⟨left, ?_, (hleft.cons ele).trans hperm⟩
    rw [foldlM_cons, hremove]
    exact hloop

theorem removeAll_perm {eles left : List α} (h : eles.foldlM removeFromArray array = .ok left) :
    ∃ gone, gone.length = eles.length ∧ (gone ++ left).Perm array := by
  induction eles generalizing array with
  | nil =>
    cases h
    exact ⟨[], rfl, List.Perm.refl _⟩
  | cons ele rest ih =>
    obtain ⟨array', hremove, h⟩ := bind_ok.mp h
    have hne : array ≠ [] := by
      intro hnil
      rw [hnil] at hremove
      cases hremove
    obtain ⟨x, array₁, hremove₁, hperm, -⟩ := removeFromArray_ok hne ele
    cases hremove.symm.trans hremove₁
    obtain ⟨gone, hlength, hgone⟩ := ih h
    exact ⟨x :: gone, congrArg (· + 1) hlength, (hgone.cons x).trans hperm⟩

end

namespace ConsistentHash

section
variable {hash : String → Uint32} {ch ch' : ConsistentHash} {elt : String}

/-- The slice has every hash of the element as often as the element has it. -/
def HasNodes (hash : String → Uint32) (elt : String) (ch : ConsistentHash) : Prop :=
  ∀ point ∈ ch.virtualNodes hash elt, ch.sortedHashes.count point = (ch.virtualNodes hash elt).count point

instance : Decidable (ch.HasNodes hash elt) :=
  decidableBAll (fun point => ch.sortedHashes.count point = (ch.virtualNodes hash elt).count point) _

/-- Some hash of the element is missing in the slice, which has some hash more than once. -/
def Misses (hash : String → Uint32) (elt : String) (ch : ConsistentHash) : Prop :=
  ¬ (ch.virtualNodes hash elt).Subperm ch.sortedHashes ∧ ¬ ch.sortedHashes.Nodup

/-- The removal takes the hashes of the element from the slice, and no others. -/
theorem HasNodes.removed (h : ch.HasNodes hash elt) :
    ∃ left, (ch.virtualNodes hash elt).foldlM removeKeyFromSortedHashedFromArray ch.sortedHashes = .ok left ∧
      ∀ point, point ∈ left ↔ point ∈ ch.sortedHashes ∧ point ∉ ch.virtualNodes hash elt := by
  obtain ⟨left, hloop, hperm⟩ := removeAll_of_subperm
    (subperm_ext_iff.mpr fun point hpoint => (h point hpoint).ge)
  refine ⟨left, hloop, fun point => ?_⟩
  have hcount := hperm.count_eq point
  rw [count_append] at hcount
  by_cases hpoint : point ∈ ch.virtualNodes hash elt
  · rw [h point hpoint] at hcount
    have hnone : point ∉ left := count_eq_zero.mp (by omega)
    simp [hnone, hpoint]
  · rw [← hperm.mem_iff]
    simp [hpoint]

section Removed
variable {left : List Uint32}
  (hloop : (ch.virtualNodes hash elt).foldlM removeKeyFromSortedHashedFromArray ch.sortedHashes = .ok left)
  (hleft : ∀ point, point ∈ left ↔ point ∈ ch.sortedHashes ∧ point ∉ ch.virtualNodes hash elt)
include hleft

theorem hasNodes_of_perm (hperm : (ch.virtualNodes hash elt ++ left).Perm ch.sortedHashes) :
    ch.HasNodes hash elt := by
  intro point hpoint
  have hnone : left.count point = 0 := count_eq_zero.mpr fun hin => ((hleft point).mp hin).2 hpoint
  rw [← hperm.count_eq point, count_append, hnone, Nat.add_zero]

include hloop

/-- Where nothing is missing it is the element's hashes that go; and where no hash is there
twice, what goes is as much as the element has, and nothing else. -/
theorem hasNodes_of_removed : ch.HasNodes hash elt ∨ ch.Misses hash elt := by
  by_cases hsub : (ch.virtualNodes hash elt).Subperm ch.sortedHashes
  · obtain ⟨left', hloop', hperm⟩ := removeAll_of_subperm hsub
    cases hloop.symm.trans hloop'
    exact Or.inl (hasNodes_of_perm hleft hperm)
  · refine or_iff_not_imp_right.mpr fun hmisses => ?_
    have hnodup : ch.sortedHashes.Nodup := not_not.mp fun htwice => hmisses ⟨hsub, htwice⟩
    obtain ⟨gone, hlength, hperm⟩ := removeAll_perm hloop
    have hparts := nodup_append.mp (hperm.nodup_iff.mpr hnodup)
    have hgone : gone ⊆ ch.virtualNodes hash elt := by
      intro point hpoint
      by_contra hother
      have hsorted : point ∈ ch.sortedHashes := hperm.subset (mem_append_left left hpoint)
      exact hparts.2.2 point hpoint point ((hleft point).mpr ⟨hsorted, hother⟩) rfl
    have hsame := (hparts.1.subperm hgone).perm_of_length_le hlength.ge
    exact hasNodes_of_perm hleft ((hsame.symm.append_right left).trans hperm)

end Removed

/-! ### What is to hold -/

/-- The slice has the keys of the map; and, unless the circle is empty, every member belongs
to the element at the first place after its hash, which alone lists it, once. -/
structure Right (hash : String → Uint32) (ch : ConsistentHash) : Prop where
  hashes : ∀ point, point ∈ ch.sortedHashes ↔ point ∈ ch.hashCircle
  owners : ch.hashCircle.keys ≠ [] → ∀ v owner, ch.members.lookup v = some owner → Owns ch.circle (hash v) owner
  listed : ch.hashCircle.keys ≠ [] → ∀ v owner, ch.members.lookup v = some owner →
    ∀ owner', (ch.getIdList owner').count v = if owner' = owner then 1 else 0

/-- The invariant: nobody but the members is listed, and nobody on an empty circle. -/
structure Sound (hash : String → Uint32) (ch : ConsistentHash) : Prop extends Assigned hash ch where
  listed : ch.Listed

theorem Sound.right (h : ch.Sound hash) : ch.Right hash where
  hashes := h.circled.keys
  owners hne v owner hlook := (h.owners v owner hlook).owns hne
  listed hne v owner hlook owner' := by
    rw [h.listed owner' v]
    refine if_congr ?_ rfl rfl
    rw [hlook, Option.some_inj, eq_comm (a := owner)]
    exact and_iff_right hne

theorem sound_new (hash : String → Uint32) (n : Nat) : Sound hash (newWith n) :=
  ⟨assigned_new hash n, fun _ _ => rfl⟩

theorem Rebalances.sound {ch₁ : ConsistentHash} (h : Rebalances hash ch₁ ch') (hc : ch₁.Circled) (hlisted : ch.Listed)
    (hmembers : ch₁.members = ch.members) (hresults : ch₁.results = ch.results) : ch'.Sound hash := by
  refine ⟨h.assigned hc, ?_⟩
  cases h.lists with
  | inl hlisted' => exact hlisted'
  | inr hnone =>
    -- Nobody was listed, and nobody is.
    obtain ⟨hempty, rfl⟩ := hnone
    have hlook : ∀ v, ch'.members.lookup v = none := fun v =>
      lookup_eq_none.mpr fun hin => by simp [mem_keys, hempty] at hin
    intro owner v
    have hcount := hlisted owner v
    rw [← hmembers, hlook v, getIdList, ← hresults] at hcount
    rw [getIdList, hcount, hlook v]
    simp

/-! ### The calls -/

theorem Sound.add (h : ch.Sound hash) (ord elt : List String) :
    ∃ ch', ch.add hash ord elt = .ok ch' ∧ ch'.Sound hash := by
  have hcircled := h.circled.addNodes hash elt
  obtain ⟨ch', hcall, hrebalances⟩ := hcircled.rebalanceMembers hash ord
  exact ⟨ch', hcall, hrebalances.sound hcircled h.listed rfl rfl⟩

theorem lookup_eraseNodes (keys : List Uint32) (circle : Map Uint32 String) (point : Uint32) :
    point ∈ keys.foldl (fun circle key => circle.erase key) circle ↔ point ∈ circle ∧ point ∉ keys := by
  induction keys generalizing circle with
  | nil => simp
  | cons key rest ih =>
    rw [foldl_cons, ih, mem_erase, mem_cons, not_or, and_assoc, and_left_comm]

theorem Sound.remove (h : ch.Sound hash) (ord : List String) (hnodes : ch.HasNodes hash elt) :
    ∃ ch', ch.remove hash ord elt = .ok ch' ∧ ch'.Sound hash := by
  obtain ⟨left, hloop, hleft⟩ := hnodes.removed
  obtain ⟨ch₁, hch₁⟩ : ∃ ch₁ : ConsistentHash, ch₁ = { ch with
    hashCircle := (ch.virtualNodes hash elt).foldl (fun circle key => circle.erase key) ch.hashCircle
    sortedHashes := left.insertionSort (· ≤ ·) } := ⟨_, rfl⟩
  have hcircled : ch₁.Circled := by
    rw [hch₁]
    refine ⟨pairwise_insertionSort _ _, fun point => ?_⟩
    rw [mem_insertionSort, hleft, h.circled.keys, lookup_eraseNodes]
  obtain ⟨ch', hcall, hrebalances⟩ := hcircled.rebalanceMembers hash ord
  refine ⟨ch', ?_, hrebalances.sound hcircled h.listed (hch₁ ▸ rfl) (hch₁ ▸ rfl)⟩
  rw [ConsistentHash.remove, removeNodes, deleteFromSortedHashes, hloop]
  subst hch₁
  exact hcall

theorem ring_rebalanceMembers {ord : List String} (h : ch.rebalanceMembers hash ord = .ok ch') :
    ch'.hashCircle = ch.hashCircle ∧ ch'.sortedHashes = ch.sortedHashes := by
  unfold ConsistentHash.rebalanceMembers rebalance ConsistentHash.insert at h
  split at h
  · cases h
    exact ⟨rfl, rfl⟩
  split at h
  · cases h
    exact ⟨rfl, rfl⟩
  · refine foldlM_keeps (fun s => s.hashCircle = ch.hashCircle ∧ s.sortedHashes = ch.sortedHashes)
      (fun s v s' _ hs hplace => ?_) ⟨rfl, rfl⟩ h
    unfold ConsistentHash.place at hplace
    split at hplace
    · exact (throw_ok.mp hplace).elim
    · cases hplace
      exact hs

theorem Sound.hasNodes (h : ch.Sound hash) {ord : List String} (hcall : ch.remove hash ord elt = .ok ch')
    (hright : ch'.Right hash) : ch.HasNodes hash elt ∨ ch.Misses hash elt := by
  obtain ⟨ch₁, hnodes, hrebalance⟩ := bind_ok.mp hcall
  obtain ⟨left, hloop, hpure⟩ := bind_ok.mp hnodes
  cases hpure
  obtain ⟨hcircle, hsorted⟩ := ring_rebalanceMembers hrebalance
  refine hasNodes_of_removed hloop fun point => ?_
  have hpoint := hright.hashes point
  rw [hcircle, hsorted, mem_insertionSort, lookup_eraseNodes, ← h.circled.keys] at hpoint
  exact hpoint

/-- The names are new to the ring. -/
def NewNames (names : List String) (ch : ConsistentHash) : Prop := names.Nodup ∧ ∀ v ∈ names, v ∉ ch.members

theorem Sound.insert (h : ch.Sound hash) {names : List String}
    (hnames : ch.hashCircle.keys = [] ∨ ch.NewNames names) :
    ∃ ch', ch.insert hash names = .ok ch' ∧ ch'.Sound hash := by
  obtain ⟨ch', hcall, hplaces⟩ := h.circled.insert hash names
  refine ⟨ch', hcall, hplaces.assigned h.toAssigned, fun owner v => ?_⟩
  rw [hplaces.hashCircle]
  by_cases hempty : ch.hashCircle.keys = []
  · rw [hplaces.unlisted owner v (not_owns_of_empty hempty), h.listed owner v]
    simp [hempty]
  obtain ⟨hnodup, hnew⟩ := hnames.resolve_left hempty
  by_cases hv : v ∈ names
  · -- A name that is new was not listed, and is listed by its owner now.
    obtain ⟨owner', howner, hlook⟩ := hplaces.placed v hv
    have howns := howner.owns hempty
    have hbefore : ∀ owner, (ch.getIdList owner).count v = 0 := fun owner => by
      rw [h.listed, lookup_eq_none.mpr (hnew v hv)]
      simp
    rw [hlook]
    by_cases hsame : owner' = owner
    · rw [hplaces.listed owner v (hsame ▸ howns), hbefore, count_eq_one_of_mem hnodup hv, if_pos ⟨hempty, congrArg some hsame⟩]
    · rw [hplaces.unlisted owner v fun hother => hsame (howns.unique hother), hbefore, if_neg fun hboth => hsame (Option.some.inj hboth.2)]
  · have hcount : (ch'.getIdList owner).count v = (ch.getIdList owner).count v := by
      by_cases howns : Owns ch.circle (hash v) owner
      · rw [hplaces.listed owner v howns, count_eq_zero.mpr hv, Nat.add_zero]
      · exact hplaces.unlisted owner v howns
    rw [hcount, h.listed, hplaces.others v hv]

theorem Sound.newNames (h : ch.Sound hash) {names : List String} (hcall : ch.insert hash names = .ok ch')
    (hright : ch'.Right hash) (hne : ch.hashCircle.keys ≠ []) : ch.NewNames names := by
  obtain ⟨ch₁, hcall₁, hplaces⟩ := h.circled.insert hash names
  cases hcall.symm.trans hcall₁
  -- Every name is listed once in the end, so once by this call and not before.
  have honce : ∀ v ∈ names, names.count v = 1 ∧ v ∉ ch.members := by
    intro v hv
    obtain ⟨owner, howner, hlook⟩ := hplaces.placed v hv
    have howns := howner.owns hne
    have hcount := hright.listed (hplaces.hashCircle ▸ hne) v owner hlook owner
    rw [if_pos rfl, hplaces.listed owner v howns] at hcount
    have hpos : 0 < names.count v := count_pos_iff.mpr hv
    refine ⟨by omega, fun hmem => ?_⟩
    obtain ⟨owner', hlook'⟩ := Map.exists_lookup hmem
    rw [((h.owners v owner' hlook').owns hne).unique howns] at hlook'
    have hbefore := h.listed owner v
    rw [if_pos ⟨hne, hlook'⟩] at hbefore
    omega
  exact ⟨nodup_iff_count_eq_one.mpr fun v hv => (honce v hv).1, fun v hv => (honce v hv).2⟩

theorem Sound.delete (h : ch.Sound hash) (hring : elt ∉ ch.members ∨ ch.hashCircle.keys ≠ []) :
    ∃ ch', ch.delete elt = .ok ch' ∧ ch'.Sound hash := by
  unfold ConsistentHash.delete
  cases hlook : ch.members.lookup elt with
  | none => exact ⟨ch, rfl, h⟩
  | some res =>
    have hne := hring.resolve_left fun hnot => hnot (Map.mem_of_lookup hlook)
    have hlisted := h.listed res elt
    rw [if_pos ⟨hne, hlook⟩] at hlisted
    have hmem : elt ∈ ch.getIdList res := count_pos_iff.mp (by omega)
    obtain ⟨x, ids, hremove, hperm, hx⟩ := removeFromArray_ok (ne_nil_of_mem hmem) elt
    rw [hx hmem] at hperm
    refine ⟨_, bind_ok.mpr ⟨ids, hremove, rfl⟩, ⟨⟨h.circled.sorted, h.circled.keys⟩, fun v owner hv => ?_⟩,
      fun owner v => ?_⟩
    · by_cases hsame : v = elt
      · rw [hsame, lookup_erase] at hv
        cases hv
      · rw [lookup_erase_ne hsame] at hv
        exact h.owners v owner hv
    · have hold := h.listed owner v
      show (((AList.insert res ids ch.results).lookup owner).getD []).count v =
        if _ ∧ (ch.members.erase elt).lookup v = some owner then 1 else 0
      by_cases hsame : v = elt
      · subst hsame
        rw [lookup_erase, if_neg fun hboth => Option.some_ne_none owner hboth.2.symm]
        by_cases howner : owner = res
        · have hcount := hperm.count_eq v
          rw [count_cons_self, hlisted] at hcount
          rw [howner, lookup_insert]
          exact Nat.succ.inj hcount
        · rw [lookup_insert_ne howner]
          rw [if_neg fun hboth => howner (Option.some.inj (hboth.2.symm.trans hlook))] at hold
          exact hold
      · rw [lookup_erase_ne hsame]
        refine Eq.trans ?_ hold
        by_cases howner : owner = res
        · rw [howner, lookup_insert, ← hperm.count_eq v, count_cons_of_ne (Ne.symm hsame)]
          rfl
        · rw [lookup_insert_ne howner]
          rfl

/-- A member of an empty circle is listed nowhere, and the removal from the list panics. -/
theorem Sound.deletable (h : ch.Sound hash) (hcall : ch.delete elt = .ok ch') :
    elt ∉ ch.members ∨ ch.hashCircle.keys ≠ [] := by
  by_contra hneither
  push Not at hneither
  obtain ⟨res, hlook⟩ := Map.exists_lookup hneither.1
  have hnobody : ch.getIdList res = [] := eq_nil_iff_forall_not_mem.mpr fun v hv => by
    have hcount := h.listed res v
    rw [if_neg fun hboth => hboth.1 hneither.2] at hcount
    exact count_eq_zero.mp hcount hv
  rw [ConsistentHash.delete, hlook] at hcall
  obtain ⟨ids, hremove, -⟩ := bind_ok.mp hcall
  unfold getIdList at hnobody
  rw [hnobody] at hremove
  cases hremove

end

end ConsistentHash

/-! ### Runs -/

open ConsistentHash

/-- The calls that keep the ring right. -/
def Call.Keeps (hash : String → Uint32) (ch : ConsistentHash) : Call → Prop
  | .add _ _ => True
  | .remove _ elt => ch.HasNodes hash elt
  | .insert names => ch.hashCircle.keys = [] ∨ ch.NewNames names
  | .delete elt => elt ∉ ch.members ∨ ch.hashCircle.keys ≠ []

section
variable {hash : String → Uint32} {ch ch' : ConsistentHash} {e : Call}

theorem ConsistentHash.Sound.returns (h : ch.Sound hash) (hkeeps : e.Keeps hash ch) :
    ∃ ch', call hash ch e = .ok ch' ∧ ch'.Sound hash := by
  cases e with
  | add ord elt => exact h.add ord elt
  | remove ord elt => exact h.remove ord hkeeps
  | insert names => exact h.insert hkeeps
  | delete elt => exact h.delete hkeeps

theorem ConsistentHash.Sound.keeps (h : ch.Sound hash) (hcall : call hash ch e = .ok ch') (hright : ch'.Right hash) :
    e.Keeps hash ch ∨ ∃ ord elt, e = .remove ord elt ∧ ch.Misses hash elt := by
  cases e with
  | add ord elt => exact Or.inl trivial
  | remove ord elt => exact (h.hasNodes hcall hright).imp_right fun hmisses => ⟨ord, elt, rfl, hmisses⟩
  | insert names =>
    by_cases hempty : ch.hashCircle.keys = []
    · exact Or.inl (Or.inl hempty)
    · exact Or.inl (Or.inr (h.newNames hcall hright hempty))
  | delete elt => exact Or.inl (h.deletable hcall)

/-- **The ring stays right through the calls that keep it right**, and through no others, but
for the removal of an element some hash of which is missing in a slice with duplicates: there
the hash that goes in its place may be one that is there twice. -/
theorem ring_stays_right {n : Nat} {es : List Call}
    (h : Run (Step hash) (fun ch e => e.Keeps hash ch) (newWith n) es ch) :
    ch.Right hash ∧
      (∀ e, e.Keeps hash ch → ∃ ch', call hash ch e = .ok ch' ∧ ch'.Right hash) ∧
      ∀ e ch', call hash ch e = .ok ch' → ch'.Right hash →
        e.Keeps hash ch ∨ ∃ ord elt, e = .remove ord elt ∧ ch.Misses hash elt := by
  have hsound : ch.Sound hash := by
    refine h.invariant (fun s e s' hs hkeeps hstep => ?_) (sound_new hash n)
    obtain ⟨t, hcall, ht⟩ := Sound.returns hs hkeeps
    cases hstep.symm.trans hcall
    exact ht
  refine ⟨hsound.right, fun e hkeeps => ?_, fun e ch' hcall hright => hsound.keeps hcall hright⟩
  obtain ⟨ch', hcall, hsound'⟩ := hsound.returns hkeeps
  exact ⟨ch', hcall, hsound'.right⟩

end

def lengthHash (key : String) : Uint32 := key.length.toUInt32.toFin

/-- A member that came before the elements, the first of which goes again. -/
theorem ring_stays_right_two_elements : ∃ ch,
    Run (Step lengthHash) (fun ch e => e.Keeps lengthHash ch) (newWith 2)
      [.insert ["m"], .add [] ["a", "bb"], .remove [] "a"] ch ∧
    ch.members.lookup "m" = some "bb" ∧ ch.Right lengthHash := by
  have h₁ : Run (Step lengthHash) (fun ch e => e.Keeps lengthHash ch) (newWith 2) _ _ :=
    .snoc (e := Call.insert ["m"]) (.nil _) (Or.inl rfl) rfl
  have h₂ := h₁.snoc (e := Call.add [] ["a", "bb"]) trivial rfl
  have h₃ := h₂.snoc (e := Call.remove [] "a") (by decide : HasNodes _ _ _) rfl
  exact ⟨_, h₃, rfl, (ring_stays_right h₃).1⟩

theorem remove_new (hash : String → Uint32) (ord : List String) (elt : String) (n : Nat) :
    remove hash ord elt (newWith (n + 1)) = .error .indexOutOfRange := by
  have hnodes : ∃ rest, virtualNodes hash elt (newWith (n + 1)) = hash (generateKey elt 0) :: rest := by
    rw [virtualNodes, newWith, range_succ_eq_map, map_cons]
    exact ⟨_, rfl⟩
  obtain ⟨rest, hrest⟩ := hnodes
  unfold remove removeNodes deleteFromSortedHashes
  rw [hrest]
  rfl

/-- The removal of an element that is not there panics on a new ring. -/
theorem remove_absent_panics : call fnv32Hash new (.remove [] "a") = .error .indexOutOfRange :=
  remove_new fnv32Hash [] "a" 131071

end GlobalScheduler.ConsistentHashing
