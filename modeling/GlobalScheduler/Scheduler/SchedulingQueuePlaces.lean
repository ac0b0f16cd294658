import GlobalScheduler.Placement
import GlobalScheduler.Transition
import GlobalScheduler.Scheduler.SchedulingQueue

/-! Which operations keep the scheduling queue exact.

The heaps tell two stacks apart by their tenant, namespace and name. `unschedulableQ` does
not: stacks of two tenants with one name and namespace are one entry of it, and so are
stacks whose names and namespaces read the same around the underscore. An operation on a
stack that meets another there takes that one for its own. -/
namespace GlobalScheduler.SchedulingQueue

open Go Transition Placement UnschedulableStacksMap StackInfo Relation.ReflTransGen AList Option

inductive Place where
  | activeQ
  | backoffQ
  | unschedulableQ
deriving DecidableEq

def StackInfo.identity (info : StackInfo) : NamespacedName := nsNameForStack info.stack

def PriorityQueue.infos (p : PriorityQueue) : Place → List StackInfo
  | .activeQ => p.activeQ.list
  | .backoffQ => p.stackBackoffQ.list
  | .unschedulableQ => p.unschedulableQ.list

/-! ### The keys -/

structure NamespacedName.Slashless (n : NamespacedName) : Prop where
  tenant : '/' ∉ n.tenant.toList
  nameSpace : '/' ∉ n.nameSpace.toList
  name : '/' ∉ n.name.toList

theorem stackInfoKeyFunc_toList (info : StackInfo) : (stackInfoKeyFunc info).toList =
    info.identity.tenant.toList ++ '/' :: (info.identity.nameSpace.toList ++
      '/' :: info.identity.name.toList) := by
  simp [stackInfoKeyFunc, stackKey, identity, nsNameForStack]

theorem stackInfoKeyFunc_eq_iff {a b : StackInfo} (ha : a.identity.Slashless)
    (hb : b.identity.Slashless) : stackInfoKeyFunc a = stackInfoKeyFunc b ↔ a.identity = b.identity := by
  rw [← String.toList_inj, stackInfoKeyFunc_toList, stackInfoKeyFunc_toList,
    append_cons_inj ha.tenant hb.tenant, append_cons_inj ha.nameSpace hb.nameSpace]
  simp [String.toList_inj, NamespacedName.ext_iff]

theorem stackInfoKeyFunc_congr {a b : StackInfo} (h : a.identity = b.identity) :
    stackInfoKeyFunc a = stackInfoKeyFunc b := by
  rw [← String.toList_inj, stackInfoKeyFunc_toList, stackInfoKeyFunc_toList, h]

theorem getStackFullName_of_identity {a b : PodStack} (h : nsNameForStack a = nsNameForStack b) :
    getStackFullName a = getStackFullName b := by
  simp only [nsNameForStack, NamespacedName.mk.injEq] at h
  rw [getStackFullName, getStackFullName, h.2.1, h.2.2]

/-! ### What is in `unschedulableQ` -/

namespace UnschedulableStacksMap
variable {u : UnschedulableStacksMap} {a info : StackInfo} {stack : PodStack}

theorem mem_list : a ∈ u.list ↔ u.stackInfoMap.lookup (getStackFullName a.stack) = some a := by
  have hentry : a ∈ u.list ↔ ∃ key, u.stackInfoMap.lookup key = some a := by
    simp only [list, List.mem_map, lookup, ← mem_def, List.mem_dlookup_iff u.stackInfoMap.nodupKeys]
    exact ⟨fun ⟨⟨key, _⟩, hmem, heq⟩ => ⟨key, heq ▸ hmem⟩, fun ⟨key, hmem⟩ => ⟨⟨key, a⟩, hmem, rfl⟩⟩
  rw [hentry]
  constructor
  · rintro ⟨key, hkey⟩
    rwa [u.keyed key a hkey]
  · exact fun hkey => ⟨_, hkey⟩

theorem get_eq_some : u.get stack = some a ↔
    a ∈ u.list ∧ getStackFullName a.stack = getStackFullName stack := by
  rw [mem_list, get]
  constructor
  · intro ha
    have hkey := u.keyed _ a ha
    exact ⟨hkey ▸ ha, hkey⟩
  · rintro ⟨ha, hkey⟩
    exact hkey ▸ ha

theorem get_eq_none : u.get stack = none ↔
    ∀ a ∈ u.list, getStackFullName a.stack ≠ getStackFullName stack := by
  rw [eq_none_iff_forall_ne_some]
  simp [get_eq_some]

theorem eq_of_fullName (ha : a ∈ u.list) (hinfo : info ∈ u.list)
    (h : getStackFullName a.stack = getStackFullName info.stack) : a = info := by
  rw [mem_list] at ha hinfo
  rw [h, hinfo] at ha
  exact (some.inj ha).symm

theorem mem_addOrUpdate : a ∈ (u.addOrUpdate info).list ↔
    a = info ∨ a ∈ u.list ∧ getStackFullName a.stack ≠ getStackFullName info.stack := by
  rw [mem_list, mem_list]
  show (u.stackInfoMap.insert _ info).lookup _ = some a ↔ _
  by_cases hkey : getStackFullName a.stack = getStackFullName info.stack
  · rw [hkey, lookup_insert]
    simp [eq_comm]
  · rw [lookup_insert_ne hkey]
    have hne : a ≠ info := fun heq => hkey (by rw [heq])
    simp [hkey, hne]

theorem mem_delete : a ∈ (u.delete stack).list ↔
    a ∈ u.list ∧ getStackFullName a.stack ≠ getStackFullName stack := by
  rw [mem_list, mem_list]
  show (u.stackInfoMap.erase _).lookup _ = some a ↔ _
  by_cases hkey : getStackFullName a.stack = getStackFullName stack
  · rw [hkey, lookup_erase]
    simp
  · rw [lookup_erase_ne hkey]
    simp [hkey]

theorem mem_range {ord : List String} : a ∈ u.range ord ↔ a ∈ u.list := by
  refine Map.mem_values.trans ?_
  constructor
  · rintro ⟨key, hkey⟩
    rw [mem_list, u.keyed key a hkey, hkey]
  · intro ha
    exact ⟨_, mem_list.mp ha⟩

theorem nodup_range (ord : List String) (u : UnschedulableStacksMap) : (u.range ord).Nodup := by
  refine (Map.entriesBy_nodup ord u.stackInfoMap).of_map _ |>.map_on ?_
  rintro ⟨key, info⟩ hentry ⟨key', info'⟩ hentry' hinfo
  have hkey := u.keyed key info (Map.mem_entriesBy.mp hentry)
  have hkey' := u.keyed key' info' (Map.mem_entriesBy.mp hentry')
  cases (hinfo : info = info')
  rw [← hkey, ← hkey']

end UnschedulableStacksMap

/-! ### Where the stacks are -/

namespace PriorityQueue

/-- What is at the three places, with a set in the place of `unschedulableQ`. -/
def heldWith (p : PriorityQueue) (unschedulable : Set StackInfo) : Place → Set StackInfo
  | .activeQ => {a | a ∈ p.activeQ.queue}
  | .backoffQ => {a | a ∈ p.stackBackoffQ.queue}
  | .unschedulableQ => unschedulable

def held (p : PriorityQueue) : Place → Set StackInfo := p.heldWith {a | a ∈ p.unschedulableQ.list}

theorem mem_held {p : PriorityQueue} {place : Place} {a : StackInfo} :
    a ∈ p.held place ↔ a ∈ p.infos place := by
  cases place <;> exact Iff.rfl

def cycles (p : PriorityQueue) : Int × Int := (p.schedulingCycle, p.moveRequestCycle)

structure Named (p : PriorityQueue) : Prop where
  active : ∀ a ∈ p.activeQ.queue, a.identity.Slashless
  backoff : ∀ a ∈ p.stackBackoffQ.queue, a.identity.Slashless
  unschedulable : ∀ a ∈ p.unschedulableQ.list, a.identity.Slashless

/-- The stack has the full name of another one of `unschedulableQ`. -/
def Collides (p : PriorityQueue) (stack : PodStack) : Prop :=
  ∃ info, p.unschedulableQ.get stack = some info ∧ info.identity ≠ nsNameForStack stack

/-- There is a stack of the identity at the place. -/
def Has (p : PriorityQueue) (place : Place) (i : NamespacedName) : Prop :=
  ∃ info ∈ p.infos place, info.identity = i

theorem not_collides {p : PriorityQueue} {stack : PodStack} : ¬ p.Collides stack ↔
    ∀ a ∈ p.unschedulableQ.list, getStackFullName a.stack = getStackFullName stack →
      a.identity = nsNameForStack stack := by
  simp [Collides, get_eq_some]

end PriorityQueue

theorem mem_and_ne {S : Set StackInfo} {i : NamespacedName} (h : ∀ a ∈ S, a.identity ≠ i)
    (a : StackInfo) : a ∈ S ↔ a ∈ S ∧ a.identity ≠ i :=
  ⟨fun ha => ⟨ha, h a ha⟩, And.left⟩

/-! ### The containers, by identities -/

section
variable {h : Heap stackInfoKeyFunc} {less : StackInfo → StackInfo → Bool} {a x : StackInfo}

section
variable (hnamed : ∀ a ∈ h.queue, a.identity.Slashless)
include hnamed

theorem mem_heap_add (hx : x.identity.Slashless) :
    a ∈ (h.add less x).queue ↔ a = x ∨ a ∈ h.queue ∧ a.identity ≠ x.identity := by
  show a ∈ h.added less x ↔ _
  rw [Heap.mem_added]
  refine or_congr_right (and_congr_right fun ha => ?_)
  exact not_congr (stackInfoKeyFunc_eq_iff (hnamed a ha) hx)

theorem mem_heap_delete (hx : x.identity.Slashless) :
    a ∈ (h.deleteIfPresent less x).queue ↔ a ∈ h.queue ∧ a.identity ≠ x.identity := by
  rw [Heap.mem_deleteIfPresent]
  exact and_congr_right fun ha => not_congr (stackInfoKeyFunc_eq_iff (hnamed a ha) hx)

theorem heap_get_eq_some (hx : x.identity.Slashless) :
    h.get x = some a ↔ a ∈ h.queue ∧ a.identity = x.identity := by
  rw [Heap.get, Heap.getByKey_eq_some]
  exact and_congr_right fun ha => stackInfoKeyFunc_eq_iff (hnamed a ha) hx

theorem heap_get_eq_none (hx : x.identity.Slashless) :
    h.get x = none ↔ ∀ a ∈ h.queue, a.identity ≠ x.identity := by
  rw [Heap.get, Heap.getByKey_eq_none]
  exact forall₂_congr fun a ha => not_congr (stackInfoKeyFunc_eq_iff (hnamed a ha) hx)

end

variable {u : UnschedulableStacksMap} {stack : PodStack}

theorem mem_map_delete (hsame : ∀ a ∈ u.list, getStackFullName a.stack = getStackFullName stack →
      a.identity = nsNameForStack stack) :
    a ∈ (u.delete stack).list ↔ a ∈ u.list ∧ a.identity ≠ nsNameForStack stack := by
  rw [mem_delete]
  refine and_congr_right fun ha => not_congr ⟨hsame a ha, ?_⟩
  exact getStackFullName_of_identity

theorem mem_map_addOrUpdate (hsame : ∀ a ∈ u.list, getStackFullName a.stack = getStackFullName x.stack →
      a.identity = x.identity) :
    a ∈ (u.addOrUpdate x).list ↔ a = x ∨ a ∈ u.list ∧ a.identity ≠ x.identity := by
  rw [mem_addOrUpdate]
  refine or_congr_right (and_congr_right fun ha => not_congr ⟨hsame a ha, ?_⟩)
  exact getStackFullName_of_identity

end

/-! ### What the operations do to the stacks at the three places -/

namespace PriorityQueue
variable {p : PriorityQueue} {comp : StackInfo → StackInfo → Bool} {clock : Clock} {stack old new : PodStack}
  {pending : Set NamespacedName} {rest rest' : Set StackInfo} {x : StackInfo}

theorem mem_add_unschedulableQ {a : StackInfo} :
    a ∈ (p.add comp clock stack).unschedulableQ.list ↔
      a ∈ p.unschedulableQ.list ∧ getStackFullName a.stack ≠ getStackFullName stack := by
  show a ∈ (if (p.unschedulableQ.get stack).isSome then p.unschedulableQ.delete stack
    else p.unschedulableQ).list ↔ _
  split
  · exact mem_delete
  · next hnone =>
    have hget : p.unschedulableQ.get stack = none := by simpa using hnone
    exact ⟨fun ha => ⟨ha, get_eq_none.mp hget a ha⟩, And.left⟩

theorem add_puts (hnamed : p.Named) (hstack : (nsNameForStack stack).Slashless) (hsame : ¬ p.Collides stack) :
    Puts identity p.held (p.add comp clock stack).held .activeQ (newStackInfo clock stack) := by
  refine Puts.of_place (fun a => mem_heap_add hnamed.active hstack) ?_
  rintro (_ | _ | _) hne a
  · exact absurd rfl hne
  · exact mem_heap_delete hnamed.backoff hstack
  · refine mem_add_unschedulableQ.trans ?_
    rw [← mem_delete]
    exact mem_map_delete (not_collides.mp hsame)

theorem addActive_puts (hnamed : p.Named) (hx : x.identity.Slashless)
    (hbackoff : ∀ a ∈ p.stackBackoffQ.queue, a.identity ≠ x.identity)
    (hrest : ∀ a, a ∈ rest' ↔ a ∈ rest ∧ a.identity ≠ x.identity) :
    Puts identity (p.heldWith rest) ((p.addActive comp x).heldWith rest') .activeQ x := by
  refine Puts.of_place (fun a => mem_heap_add hnamed.active hx) ?_
  rintro (_ | _ | _) hne a
  · exact absurd rfl hne
  · exact mem_and_ne hbackoff a
  · exact hrest a

theorem addBackoff_puts (hnamed : p.Named) (hx : x.identity.Slashless)
    (hactive : ∀ a ∈ p.activeQ.queue, a.identity ≠ x.identity)
    (hrest : ∀ a, a ∈ rest' ↔ a ∈ rest ∧ a.identity ≠ x.identity) :
    Puts identity (p.heldWith rest) ((p.addBackoff x).heldWith rest') .backoffQ x := by
  refine Puts.of_place (fun a => mem_heap_add hnamed.backoff hx) ?_
  rintro (_ | _ | _) hne a
  · exact mem_and_ne hactive a
  · exact absurd rfl hne
  · exact hrest a

theorem requeue_moves (comp : StackInfo → StackInfo → Bool) (clock : Clock) (hnamed : p.Named)
    (hexact : Exact identity (p.heldWith rest) pending) (hx : x ∈ rest)
    (hslash : x.identity.Slashless) (hrest : ∀ a, a ∈ rest' ↔ a ∈ rest ∧ a.identity ≠ x.identity) :
    Exact identity ((p.requeue comp clock x).heldWith rest') pending ∧
      ∀ place a, a ∈ p.heldWith rest place → ∃ place', a ∈ (p.requeue comp clock x).heldWith rest' place' := by
  have happart : ∀ place ≠ Place.unschedulableQ, ∀ a ∈ p.heldWith rest place,
      a.identity ≠ x.identity := fun place hne a ha hident =>
    hne (hexact.once place .unschedulableQ a x ha hx hident).1
  rw [requeue]
  split
  · exact hexact.moves (p := .unschedulableQ) hx
      (addBackoff_puts hnamed hslash (happart .activeQ (by decide)) hrest)
  · exact hexact.moves (p := .unschedulableQ) hx
      (addActive_puts hnamed hslash (happart .backoffQ (by decide)) hrest)

/-! ### Operations on one stack -/

theorem absent_of_get (hget : p.unschedulableQ.get stack = none) :
    ∀ a ∈ p.unschedulableQ.list, a.identity ≠ nsNameForStack stack := fun a ha hident =>
  get_eq_none.mp hget a ha (getStackFullName_of_identity hident)

theorem has_of_get {info : StackInfo} (hget : p.unschedulableQ.get stack = some info)
    (hsame : ¬ p.Collides stack) : p.Has .unschedulableQ (nsNameForStack stack) := by
  obtain ⟨hinfo, hname⟩ := get_eq_some.mp hget
  exact ⟨info, hinfo, not_collides.mp hsame info hinfo hname⟩

theorem Collides.not_has (h : p.Collides stack) : ¬ p.Has .unschedulableQ (nsNameForStack stack) := by
  rintro ⟨a, ha, hident⟩
  obtain ⟨info, hget, hne⟩ := h
  obtain ⟨hinfo, hname⟩ := get_eq_some.mp hget
  have hsame : a = info := eq_of_fullName ha hinfo
    ((getStackFullName_of_identity hident).trans hname.symm)
  exact hne (hsame ▸ hident)

variable {i : NamespacedName} {place : Place} {p' : PriorityQueue}

theorem Has.absent {place' : Place} (h : p.Has place i)
    (hexact : Exact identity p.held pending) (hne : place' ≠ place) :
    ∀ a ∈ p.held place', a.identity ≠ i := by
  obtain ⟨info, hinfo, rfl⟩ := h
  intro a ha hident
  exact hne (hexact.once place' place a info ha (mem_held.mpr hinfo) hident).1

theorem Has.present (h : p.Has place i) (hexact : Exact identity p.held pending) :
    Exact identity p.held (insert i pending) ∧
      OthersKept identity p.held p.held (some i) := by
  obtain ⟨info, hinfo, rfl⟩ := h
  have hpending : info.identity ∈ pending :=
    (hexact.listed _).mpr ⟨place, info, mem_held.mpr hinfo, rfl⟩
  refine ⟨?_, fun place a ha _ => ⟨place, ha⟩⟩
  rwa [Set.insert_eq_of_mem hpending]

theorem Has.of_exact (hexact : Exact identity p.held (insert i pending)) : ∃ place, p.Has place i := by
  obtain ⟨place, a, ha, hident⟩ := (hexact.listed i).mp (Set.mem_insert i pending)
  exact ⟨place, a, mem_held.mp ha, hident⟩

theorem Puts.kept (h : Puts identity p.held p'.held place x) (hi : x.identity = i)
    (hexact : Exact identity p.held pending) :
    Exact identity p'.held (insert i pending) ∧
      OthersKept identity p.held p'.held (some i) := by
  subst hi
  exact ⟨hexact.puts h, h.othersKept⟩

/-- One of the three places is taken for the stack's. -/
def Occupied (p : PriorityQueue) (clock : Clock) (stack : PodStack) : Prop :=
  (p.unschedulableQ.get stack).isSome ∨ (p.activeQ.get (newStackInfo clock stack)).isSome ∨
    (p.stackBackoffQ.get (newStackInfo clock stack)).isSome

theorem Collides.occupied (h : p.Collides stack) (clock : Clock) : p.Occupied clock stack := by
  obtain ⟨info, hget, -⟩ := h
  exact Or.inl (by rw [hget]; rfl)

theorem Occupied.has (h : p.Occupied clock stack) (hnamed : p.Named) (hstack : (nsNameForStack stack).Slashless)
    (hkeeps : p.Collides stack →
      p.Has .activeQ (nsNameForStack stack) ∨ p.Has .backoffQ (nsNameForStack stack)) :
    ∃ place, p.Has place (nsNameForStack stack) := by
  rcases h with hget | hget | hget
  · obtain ⟨info, hinfo⟩ := isSome_iff_exists.mp hget
    by_cases hcollides : p.Collides stack
    · rcases hkeeps hcollides with hhas | hhas
      · exact ⟨_, hhas⟩
      · exact ⟨_, hhas⟩
    · exact ⟨_, has_of_get hinfo hcollides⟩
  · obtain ⟨a, ha⟩ := isSome_iff_exists.mp hget
    exact ⟨.activeQ, a, (heap_get_eq_some (x := newStackInfo clock stack) hnamed.active hstack).mp ha⟩
  · obtain ⟨a, ha⟩ := isSome_iff_exists.mp hget
    exact ⟨.backoffQ, a, (heap_get_eq_some (x := newStackInfo clock stack) hnamed.backoff hstack).mp ha⟩

theorem absent_of_not_occupied (h : ¬ p.Occupied clock stack) (hnamed : p.Named)
    (hstack : (nsNameForStack stack).Slashless) :
    ∀ place, ∀ a ∈ p.held place, a.identity ≠ nsNameForStack stack := by
  simp only [Occupied, not_or, not_isSome_iff_eq_none] at h
  rintro (_ | _ | _)
  · exact (heap_get_eq_none (x := newStackInfo clock stack) hnamed.active hstack).mp h.2.1
  · exact (heap_get_eq_none (x := newStackInfo clock stack) hnamed.backoff hstack).mp h.2.2
  · exact absent_of_get h.1

theorem addIfNotPresent_of_occupied (h : p.Occupied clock stack) :
    p.addIfNotPresent comp clock stack = p := by
  simp only [addIfNotPresent]
  split_ifs with hu ha hb
  · rfl
  · rfl
  · rfl
  · rcases h with h | h | h
    · exact absurd h hu
    · exact absurd h ha
    · exact absurd h hb

theorem addIfNotPresent_of_not_occupied (h : ¬ p.Occupied clock stack) :
    (p.addIfNotPresent comp clock stack).held = (p.addActive comp (newStackInfo clock stack)).held := by
  simp only [Occupied, not_or] at h
  rw [addIfNotPresent, if_neg h.1, if_neg h.2.1, if_neg h.2.2]
  rfl

theorem addIfNotPresent_kept (hnamed : p.Named) (hstack : (nsNameForStack stack).Slashless)
    (hexact : Exact identity p.held pending) (hkeeps : p.Collides stack →
      p.Has .activeQ (nsNameForStack stack) ∨ p.Has .backoffQ (nsNameForStack stack)) :
    Exact identity (p.addIfNotPresent comp clock stack).held
        (insert (nsNameForStack stack) pending) ∧
      OthersKept identity p.held (p.addIfNotPresent comp clock stack).held
        (some (nsNameForStack stack)) := by
  by_cases h : p.Occupied clock stack
  · obtain ⟨place, hhas⟩ := h.has hnamed hstack hkeeps
    rw [addIfNotPresent_of_occupied h]
    exact hhas.present hexact
  · have habsent := absent_of_not_occupied h hnamed hstack
    rw [addIfNotPresent_of_not_occupied h]
    exact Puts.kept (addActive_puts hnamed hstack (habsent .backoffQ)
      (mem_and_ne (habsent .unschedulableQ))) rfl hexact

theorem addUnschedulable_of_occupied (cycle : Int) (h : p.Occupied clock stack) :
    ∃ e, p.addUnschedulableIfNotPresent clock stack cycle = .error e := by
  simp only [addUnschedulableIfNotPresent]
  split_ifs with hu ha hb
  · exact ⟨_, rfl⟩
  · exact ⟨_, rfl⟩
  · exact ⟨_, rfl⟩
  · rcases h with h | h | h
    · exact absurd h hu
    · exact absurd h ha
    · exact absurd h hb

theorem backoffStack_eq (clock : Clock) (stack : PodStack) (p : PriorityQueue) :
    ∃ stackBackoff, p.backoffStack clock stack = { p with stackBackoff := stackBackoff } := by
  rw [backoffStack]
  split
  · exact ⟨_, rfl⟩
  · split
    · exact ⟨_, rfl⟩
    · exact ⟨_, rfl⟩

theorem setAside_puts (cycle : Int) (hnamed : p.Named) (hx : x.identity.Slashless)
    (habsent : ∀ place, ∀ a ∈ p.held place, a.identity ≠ x.identity)
    (hfresh : ∀ a ∈ p.unschedulableQ.list, getStackFullName a.stack ≠ getStackFullName x.stack) :
    ∃ place, Puts identity p.held (p.setAside x cycle).held place x := by
  rw [setAside]
  split
  · exact ⟨.backoffQ, addBackoff_puts hnamed hx (habsent .activeQ)
      (mem_and_ne (habsent .unschedulableQ))⟩
  · refine ⟨.unschedulableQ, Puts.of_place (fun a => ?_) ?_⟩
    · exact mem_map_addOrUpdate fun a ha hname => absurd hname (hfresh a ha)
    · rintro (_ | _ | _) hne a
      · exact mem_and_ne (habsent .activeQ) a
      · exact mem_and_ne (habsent .backoffQ) a
      · exact absurd rfl hne

/-- A stack that is not in the queue is put into `stackBackoffQ` or `unschedulableQ`. -/
theorem addUnschedulable_puts (cycle : Int) (h : ¬ p.Occupied clock stack)
    (hnamed : p.Named) (hstack : (nsNameForStack stack).Slashless) :
    ∃ p' place, p.addUnschedulableIfNotPresent clock stack cycle = .ok p' ∧
      Puts identity p.held p'.held place (newStackInfo clock stack) := by
  have habsent := absent_of_not_occupied h hnamed hstack
  simp only [Occupied, not_or] at h
  have hfresh := get_eq_none.mp (not_isSome_iff_eq_none.mp h.1)
  obtain ⟨stackBackoff, hbackoff⟩ := backoffStack_eq clock stack p
  have hnamed' : { p with stackBackoff := stackBackoff }.Named :=
    ⟨hnamed.active, hnamed.backoff, hnamed.unschedulable⟩
  obtain ⟨place, hputs⟩ := setAside_puts (x := newStackInfo clock stack) cycle hnamed' hstack habsent hfresh
  rw [addUnschedulableIfNotPresent, if_neg h.1, if_neg h.2.1, if_neg h.2.2, hbackoff]
  exact ⟨_, place, rfl, hputs⟩

theorem update_of_heap (comp : StackInfo → StackInfo → Bool) (clock : Clock)
    (hnamed : p.Named) (hnew : (nsNameForStack new).Slashless)
    (hident : nsNameForStack old = nsNameForStack new) (hexact : Exact identity p.held pending)
    (hhas : p.Has .activeQ (nsNameForStack new) ∨ p.Has .backoffQ (nsNameForStack new)) :
    ∃ p' info, p.update comp clock (some old) new = .ok p' ∧ info.identity = nsNameForStack new ∧
      Puts identity p.held p'.held .activeQ info := by
  have hold : (newStackInfoNoTimestamp old).identity = nsNameForStack new := hident
  have hslash : (newStackInfoNoTimestamp old).identity.Slashless := by rwa [hold]
  rw [update]
  cases hactive : p.activeQ.get (newStackInfoNoTimestamp old) with
  | some info =>
    have hmem := (heap_get_eq_some hnamed.active hslash).mp hactive
    have hfound : p.Has .activeQ (nsNameForStack new) := ⟨info, hmem.1, hmem.2.trans hold⟩
    refine ⟨_, ⟨new, info.timestamp⟩, rfl, rfl, ?_⟩
    have habsent : ∀ place ≠ Place.activeQ, ∀ a ∈ p.held place, a.identity ≠ nsNameForStack new :=
      fun _ => hfound.absent hexact
    exact addActive_puts hnamed hnew (habsent .backoffQ (by decide))
      (mem_and_ne (habsent .unschedulableQ (by decide)))
  | none =>
    have hnone := (heap_get_eq_none hnamed.active hslash).mp hactive
    have hfound : p.Has .backoffQ (nsNameForStack new) := by
      refine hhas.resolve_left ?_
      rintro ⟨a, ha, hident'⟩
      exact hnone a ha (hident'.trans hold.symm)
    cases hbackoff : p.stackBackoffQ.get (newStackInfoNoTimestamp old) with
    | none =>
      obtain ⟨a, ha, hident'⟩ := hfound
      exact absurd (hident'.trans hold.symm)
        ((heap_get_eq_none hnamed.backoff hslash).mp hbackoff a ha)
    | some info =>
      refine ⟨_, ⟨new, info.timestamp⟩, rfl, rfl, Puts.of_place (fun a => ?_) ?_⟩
      · exact mem_heap_add hnamed.active hnew
      · intro place hne a
        cases place with
        | activeQ => exact absurd rfl hne
        | backoffQ =>
          show a ∈ (p.stackBackoffQ.deleteIfPresent _ (newStackInfoNoTimestamp old)).queue ↔ _
          rw [mem_heap_delete hnamed.backoff hslash, hold]
          exact Iff.rfl
        | unschedulableQ =>
          have habsent : ∀ a ∈ p.held .unschedulableQ, a.identity ≠ nsNameForStack new :=
            hfound.absent hexact (by decide)
          exact mem_and_ne habsent a

theorem update_of_not_heap (hnamed : p.Named) (hnew : (nsNameForStack new).Slashless)
    (hident : nsNameForStack old = nsNameForStack new) (hactive : ¬ p.Has .activeQ (nsNameForStack new))
    (hbackoff : ¬ p.Has .backoffQ (nsNameForStack new)) :
    p.update comp clock (some old) new = p.updateUnqueued comp clock (some old) new := by
  have hold : (newStackInfoNoTimestamp old).identity = nsNameForStack new := hident
  have hslash : (newStackInfoNoTimestamp old).identity.Slashless := by rwa [hold]
  have hactive' : p.activeQ.get (newStackInfoNoTimestamp old) = none :=
    (heap_get_eq_none hnamed.active hslash).mpr fun a ha h => hactive ⟨a, ha, h.trans hold⟩
  have hbackoff' : p.stackBackoffQ.get (newStackInfoNoTimestamp old) = none :=
    (heap_get_eq_none hnamed.backoff hslash).mpr fun a ha h => hbackoff ⟨a, ha, h.trans hold⟩
  simp [update, hactive', hbackoff']

theorem same_of_get {u : UnschedulableStacksMap} {us : StackInfo} (hget : u.get stack = some us) :
    ∀ a ∈ u.list, getStackFullName a.stack = getStackFullName stack → a = us := by
  obtain ⟨hus, hname⟩ := get_eq_some.mp hget
  exact fun a ha h => eq_of_fullName ha hus (h.trans hname.symm)

theorem updateUnqueued_puts (hnamed : p.Named) (hnew : (nsNameForStack new).Slashless)
    (hactive : ¬ p.Has .activeQ (nsNameForStack new))
    (hbackoff : ¬ p.Has .backoffQ (nsNameForStack new)) (hsame : ¬ p.Collides new) :
    ∃ p' place info, p.updateUnqueued comp clock (some old) new = .ok p' ∧
      info.identity = nsNameForStack new ∧ Puts identity p.held p'.held place info := by
  have hactive' : ∀ a ∈ p.activeQ.queue, a.identity ≠ nsNameForStack new :=
    fun a ha h => hactive ⟨a, ha, h⟩
  have hbackoff' : ∀ a ∈ p.stackBackoffQ.queue, a.identity ≠ nsNameForStack new :=
    fun a ha h => hbackoff ⟨a, ha, h⟩
  rw [updateUnqueued]
  cases hget : p.unschedulableQ.get new with
  | none =>
    refine ⟨_, .activeQ, newStackInfo clock new, rfl, rfl, ?_⟩
    exact addActive_puts hnamed hnew hbackoff' (mem_and_ne (absent_of_get hget))
  | some us =>
    have hus : us.identity = nsNameForStack new := by
      obtain ⟨hmem, hname⟩ := get_eq_some.mp hget
      exact not_collides.mp hsame us hmem hname
    by_cases hupdated : isStackUpdated old new
    · simp only [hupdated, if_true]
      refine ⟨_, .activeQ, ⟨new, us.timestamp⟩, rfl, rfl, ?_⟩
      refine addActive_puts hnamed hnew hbackoff' fun a => ?_
      show a ∈ (p.unschedulableQ.delete us.stack).list ↔ _
      rw [mem_map_delete, show nsNameForStack us.stack = nsNameForStack new from hus]
      · exact Iff.rfl
      · intro b hb hname
        rw [same_of_get hget b hb (hname.trans (getStackFullName_of_identity hus))]
        rfl
    · simp only [hupdated]
      refine ⟨_, .unschedulableQ, ⟨new, us.timestamp⟩, rfl, rfl, Puts.of_place (fun a => ?_) ?_⟩
      · refine mem_map_addOrUpdate fun b hb hname => ?_
        rw [same_of_get hget b hb hname]
        exact hus
      · rintro (_ | _ | _) hne a
        · exact mem_and_ne hactive' a
        · exact mem_and_ne hbackoff' a
        · exact absurd rfl hne

/-! ### What a call writes -/

/-- What is at a place was there, or has one of the names. -/
def Comes (names : Set NamespacedName) (p p' : PriorityQueue) : Prop :=
  ∀ place a, a ∈ p'.held place → a ∈ p.held place ∨ a.identity ∈ names

variable {names : Set NamespacedName}

theorem Named.held (h : p.Named) {a : StackInfo} (ha : a ∈ p.held place) : a.identity.Slashless := by
  cases place with
  | activeQ => exact h.active a ha
  | backoffQ => exact h.backoff a ha
  | unschedulableQ => exact h.unschedulable a ha

theorem Comes.named (h : Comes names p p') (hnames : ∀ i ∈ names, i.Slashless) (hnamed : p.Named) : p'.Named := by
  have hall : ∀ place a, a ∈ p'.held place → a.identity.Slashless := fun place a ha =>
    (h place a ha).elim hnamed.held (hnames _)
  exact ⟨hall .activeQ, hall .backoffQ, hall .unschedulableQ⟩

/-- One change to the records of the backoffs and to `stackBackoffQ`. What comes in has one of
the names. The backoff of a stack is noted with times that the clock `shows`, and noted or
cleared while the stack is not in the heap, if the call is `valid`. -/
inductive BackoffWrite (shows : Time → Prop) (names : Set NamespacedName) (valid : Prop) :
    StackBackoffMap × Heap stackInfoKeyFunc → StackBackoffMap × Heap stackInfoKeyFunc → Prop where
  | heap {pbm : StackBackoffMap} {h h' : Heap stackInfoKeyFunc}
    (write : h.Write (stacksCompareBackoffCompleted pbm) (·.identity ∈ names) h') :
    BackoffWrite shows names valid (pbm, h) (pbm, h')
  | backoffStack {p : PriorityQueue} {clock : Clock} {stack : PodStack}
    (shown : ∀ i, shows (clock .cleanedUp i))
    (absent : ∀ a ∈ p.stackBackoffQ.queue, a.identity ≠ nsNameForStack stack) :
    BackoffWrite shows names valid (p.stackBackoff, p.stackBackoffQ)
      ((p.backoffStack clock stack).stackBackoff, p.stackBackoffQ)
  | clear {pbm : StackBackoffMap} {h : Heap stackInfoKeyFunc} {i : NamespacedName}
    (absent : valid → ∀ a ∈ h.queue, a.identity ≠ i) :
    BackoffWrite shows names valid (pbm, h) (pbm.clearStackBackoff i, h)
  | drop (pbm : StackBackoffMap) (h : Heap stackInfoKeyFunc) (x : StackInfo) :
    BackoffWrite shows names valid (pbm, h) (pbm.clearStackBackoff x.identity,
      h.deleteIfPresent (stacksCompareBackoffCompleted (pbm.clearStackBackoff x.identity)) x)

/-- What a call has done to the queue, with the order `comp` of `activeQ`, and to its counters. -/
structure Written (comp : StackInfo → StackInfo → Bool) (shows : Time → Prop) (names : Set NamespacedName)
    (valid : Prop) (counters : Int × Int) (p p' : PriorityQueue) : Prop where
  activeQ : Relation.ReflTransGen (Heap.Write comp (·.identity ∈ names)) p.activeQ p'.activeQ
  backoff : Relation.ReflTransGen (BackoffWrite shows names valid)
    (p.stackBackoff, p.stackBackoffQ) (p'.stackBackoff, p'.stackBackoffQ)
  unschedulableQ : ∀ a ∈ p'.unschedulableQ.list, a ∈ p.unschedulableQ.list ∨ a.identity ∈ names
  cycles : p'.cycles = counters

section
variable {shows : Time → Prop} {valid : Prop} {counters : Int × Int}

theorem Written.refl (p : PriorityQueue) : Written comp shows names valid p.cycles p p :=
  ⟨.refl, .refl, fun _ ha => Or.inl ha, rfl⟩

theorem Written.trans {q : PriorityQueue} (h : Written comp shows names valid p.cycles p q)
    (h' : Written comp shows names valid q.cycles q p') : Written comp shows names valid p.cycles p p' :=
  ⟨h.activeQ.trans h'.activeQ, h.backoff.trans h'.backoff,
    fun a ha => (h'.unschedulableQ a ha).elim (h.unschedulableQ a) Or.inr, h'.cycles.trans h.cycles⟩

theorem Written.comes (h : Written comp shows names valid counters p p') : Comes names p p' := by
  intro place a ha
  cases place with
  | activeQ =>
    refine head_induction_on
      (motive := fun q _ => a ∈ q.queue ∨ a.identity ∈ names) h.activeQ (Or.inl ha) ?_
    exact fun hwrite _ hrest => hrest.elim hwrite.comes Or.inr
  | backoffQ =>
    refine head_induction_on
      (motive := fun q _ => a ∈ q.2.queue ∨ a.identity ∈ names) h.backoff (Or.inl ha) ?_
    intro q q' hwrite _ hrest
    cases hwrite with
    | heap write => exact hrest.elim write.comes Or.inr
    | backoffStack | clear => exact hrest
    | drop pbm h x => exact hrest.imp_left fun hold => ((Heap.mem_deleteIfPresent _).mp hold).1
  | unschedulableQ => exact h.unschedulableQ a ha

theorem absent_of_heap_get {h : Heap stackInfoKeyFunc} (hget : h.get x = none) :
    ∀ a ∈ h.queue, a.identity ≠ x.identity := fun a ha hident =>
  Heap.getByKey_eq_none.mp hget a ha (stackInfoKeyFunc_congr hident)

section
variable (hx : x.identity ∈ names)
include hx

theorem written_addActive : Written comp shows names valid p.cycles p (p.addActive comp x) :=
  ⟨.single (.add hx), .refl, fun _ ha => Or.inl ha, rfl⟩

theorem written_addBackoff : Written comp shows names valid p.cycles p (p.addBackoff x) :=
  ⟨.refl, .single (.heap (.add hx)), fun _ ha => Or.inl ha, rfl⟩

theorem written_addOrUpdate : Written comp shows names valid p.cycles p
    { p with unschedulableQ := p.unschedulableQ.addOrUpdate x } := by
  refine ⟨.refl, .refl, fun a ha => ?_, rfl⟩
  rcases mem_addOrUpdate.mp ha with rfl | ⟨ha, -⟩
  · exact Or.inr hx
  · exact Or.inl ha

end

section
variable (hstack : nsNameForStack stack ∈ names)
include hstack

theorem written_add : Written comp shows names valid p.cycles p (p.add comp clock stack) :=
  ⟨.single (.add hstack), .single (.heap (.delete _)), fun _ ha => Or.inl (mem_add_unschedulableQ.mp ha).1, rfl⟩

theorem written_addIfNotPresent :
    Written comp shows names valid p.cycles p (p.addIfNotPresent comp clock stack) := by
  simp only [addIfNotPresent]
  split_ifs
  · exact .refl p
  · exact .refl p
  · exact .refl p
  · exact ⟨.single (.add hstack), .refl, fun _ ha => Or.inl ha, rfl⟩

theorem written_addUnschedulable {cycle : Int} (hclock : ∀ i, shows (clock .cleanedUp i))
    (h : p.addUnschedulableIfNotPresent clock stack cycle = .ok p') :
    Written comp shows names valid p.cycles p p' := by
  simp only [addUnschedulableIfNotPresent] at h
  split_ifs at h with hu ha hb
  cases h
  have hnoted : Written comp shows names valid p.cycles p (p.backoffStack clock stack) := by
    have hwrite : BackoffWrite shows names valid (p.stackBackoff, p.stackBackoffQ)
        ((p.backoffStack clock stack).stackBackoff, p.stackBackoffQ) := .backoffStack hclock
      (absent_of_heap_get (x := newStackInfo clock stack) (not_isSome_iff_eq_none.mp hb))
    obtain ⟨stackBackoff, hbackoff⟩ := backoffStack_eq clock stack p
    rw [hbackoff] at hwrite ⊢
    exact ⟨.refl, .single hwrite, fun _ ha => Or.inl ha, rfl⟩
  have haside : ∀ q : PriorityQueue,
      Written comp shows names valid q.cycles q (q.setAside (newStackInfo clock stack) cycle) := by
    intro q
    rw [setAside]
    split
    · exact written_addBackoff hstack
    · exact written_addOrUpdate hstack
  have hboth := hnoted.trans (haside _)
  exact ⟨hboth.activeQ, hboth.backoff, hboth.unschedulableQ, hboth.cycles⟩

end

theorem written_delete : Written comp shows names valid p.cycles p (p.delete comp stack) := by
  rw [delete]
  split
  · next activeQ hdelete =>
    have hq : p.activeQ.deleteIfPresent comp (newStackInfoNoTimestamp stack) = activeQ := by
      rw [Heap.deleteIfPresent, show p.activeQ.delete _ _ = _ from hdelete]
    exact ⟨hq ▸ .single (.delete _), .refl, fun _ ha => Or.inl ha, rfl⟩
  · exact ⟨.refl, .single (.drop _ _ (newStackInfoNoTimestamp stack)),
      fun _ ha => Or.inl (mem_delete.mp ha).1, rfl⟩

section
variable (hnew : nsNameForStack new ∈ names) {oldStack : Option PodStack}
include hnew

theorem written_updateUnqueued
    (habsent : valid → oldStack ≠ none → ∀ a ∈ p.stackBackoffQ.queue, a.identity ≠ nsNameForStack new)
    (h : p.updateUnqueued comp clock oldStack new = .ok p') : Written comp shows names valid p.cycles p p' := by
  rw [updateUnqueued] at h
  split at h
  · next us hget =>
    split at h
    · cases h
    simp only at h
    split at h
    · cases h
      exact ⟨.single (.add hnew), .single (.clear fun hvalid => habsent hvalid (by simp)),
        fun _ ha => Or.inl (mem_delete.mp ha).1, rfl⟩
    · cases h
      have hadded : Written comp shows names valid p.cycles p _ :=
        written_addOrUpdate (x := ⟨new, us.timestamp⟩) hnew
      exact ⟨hadded.activeQ, hadded.backoff, hadded.unschedulableQ, hadded.cycles⟩
  · cases h
    exact ⟨.single (.add hnew), .refl, fun _ ha => Or.inl ha, rfl⟩

theorem written_update (hvalid : valid → ∀ old ∈ oldStack, nsNameForStack old = nsNameForStack new)
    (h : p.update comp clock oldStack new = .ok p') : Written comp shows names valid p.cycles p p' := by
  unfold update at h
  split at h
  · exact written_updateUnqueued hnew (fun _ hold => absurd rfl hold) h
  · next old =>
    split at h
    · cases h
      exact ⟨.single (.add hnew), .refl, fun _ ha => Or.inl ha, rfl⟩
    · split at h
      · cases h
        exact ⟨.single (.add hnew), .single (.heap (.delete _)), fun _ ha => Or.inl ha, rfl⟩
      · next hbackoff =>
        refine written_updateUnqueued hnew (fun hv _ => ?_) h
        rw [← hvalid hv old rfl]
        exact absent_of_heap_get hbackoff

end

end

/-! ### When another stack is lost -/

variable (hexact : Exact identity p.held pending)
include hexact

/-- The stack that was met there is gone, and its identity is still pending. -/
theorem not_exact_of_met {us : StackInfo} {pending' : Set NamespacedName}
    (hus : us ∈ p.unschedulableQ.list) (hne : us.identity ≠ i)
    (hgone : us ∉ p'.unschedulableQ.list) (hcomes : Comes {i} p p')
    (hpending : us.identity ∈ pending → us.identity ∈ pending') : ¬ Exact identity p'.held pending' := by
  refine hexact.not_of_lost (p := .unschedulableQ) (a := us) hus hgone ?_ ?_
  · intro place a ha hident
    exact (hcomes place a ha).resolve_right fun h => hne (hident.symm.trans h)
  · exact hpending ((hexact.listed _).mpr ⟨.unschedulableQ, us, hus, rfl⟩)

theorem add_lost (h : p.Collides stack) :
    ¬ Exact identity (p.add comp clock stack).held (insert (nsNameForStack stack) pending) := by
  obtain ⟨us, hget, hne⟩ := h
  obtain ⟨hus, hname⟩ := get_eq_some.mp hget
  have hwritten : Written comp (fun _ => True) {nsNameForStack stack} True _ p (p.add comp clock stack) :=
    written_add rfl
  refine not_exact_of_met hexact hus hne ?_ hwritten.comes fun h => Set.mem_insert_of_mem _ h
  intro hmem
  exact (mem_add_unschedulableQ.mp hmem).2 hname

theorem updateUnqueued_lost (comp : StackInfo → StackInfo → Bool) (clock : Clock) (old : PodStack)
    (h : p.Collides new) :
    ∃ p', p.updateUnqueued comp clock (some old) new = .ok p' ∧
      ¬ Exact identity p'.held (insert (nsNameForStack new) pending) := by
  obtain ⟨us, hget, hne⟩ := h
  obtain ⟨hus, hname⟩ := get_eq_some.mp hget
  obtain ⟨p', hp', hgone⟩ : ∃ p', p.updateUnqueued comp clock (some old) new = .ok p' ∧
      us ∉ p'.unschedulableQ.list := by
    rw [updateUnqueued]
    simp only [hget]
    split
    · refine ⟨_, rfl, fun hmem => ?_⟩
      exact (mem_delete.mp hmem).2 rfl
    · refine ⟨_, rfl, fun hmem => ?_⟩
      rcases mem_addOrUpdate.mp hmem with heq | ⟨-, hne'⟩
      · exact hne (heq ▸ rfl)
      · exact hne' hname
  have hwritten : Written comp (fun _ => True) {nsNameForStack new} False _ p p' :=
    written_updateUnqueued rfl (fun h => h.elim) hp'
  refine ⟨p', hp', ?_⟩
  exact not_exact_of_met hexact hus hne hgone hwritten.comes fun h => Set.mem_insert_of_mem _ h

/-- A stack that is in `activeQ` is taken from there, and the other places are left alone. -/
theorem Has.drops_active (h : p.Has .activeQ i)
    (hactive : ∀ a, a ∈ p'.activeQ.queue ↔ a ∈ p.activeQ.queue ∧ a.identity ≠ i)
    (hbackoff : p'.stackBackoffQ = p.stackBackoffQ) (hunschedulable : p'.unschedulableQ = p.unschedulableQ) :
    Drops identity p.held p'.held i := by
  rintro (_ | _ | _) a
  · exact hactive a
  · show a ∈ p'.stackBackoffQ.queue ↔ _
    rw [hbackoff]
    have habsent : ∀ a ∈ p.held .backoffQ, a.identity ≠ i := h.absent hexact (by decide)
    exact mem_and_ne habsent a
  · show a ∈ p'.unschedulableQ.list ↔ _
    rw [hunschedulable]
    have habsent : ∀ a ∈ p.held .unschedulableQ, a.identity ≠ i := h.absent hexact (by decide)
    exact mem_and_ne habsent a

/-- A stack that is in `activeQ` is deleted there only, any other from the two other places. -/
theorem delete_drops (comp : StackInfo → StackInfo → Bool) (hnamed : p.Named)
    (hstack : (nsNameForStack stack).Slashless)
    (hkeeps : p.Collides stack → p.Has .activeQ (nsNameForStack stack)) :
    Drops identity p.held (p.delete comp stack).held (nsNameForStack stack) := by
  have hkey : ∀ a ∈ p.activeQ.queue, stackInfoKeyFunc a = stackInfoKeyFunc (newStackInfoNoTimestamp stack) ↔
      a.identity = nsNameForStack stack := fun a ha =>
    stackInfoKeyFunc_eq_iff (hnamed.active a ha) hstack
  rw [delete]
  split
  · next activeQ hdelete =>
    obtain ⟨⟨x, hx, hkeyx⟩, hmem⟩ := Heap.delete_ok comp hdelete
    have hhas : p.Has .activeQ (nsNameForStack stack) := ⟨x, hx, (hkey x hx).mp hkeyx⟩
    refine hhas.drops_active hexact (fun a => ?_) rfl rfl
    exact (hmem a).trans (and_congr_right fun ha => not_congr (hkey a ha))
  · next e hdelete =>
    have hnone : ∀ a ∈ p.activeQ.queue, a.identity ≠ nsNameForStack stack := fun a ha hident =>
      Heap.delete_error comp hdelete a ha ((hkey a ha).mpr hident)
    have hsame : ¬ p.Collides stack := fun hcollides => by
      obtain ⟨a, ha, hident⟩ := hkeeps hcollides
      exact hnone a ha hident
    rintro (_ | _ | _) a
    · exact mem_and_ne hnone a
    · exact mem_heap_delete hnamed.backoff hstack
    · exact mem_map_delete (not_collides.mp hsame)

theorem delete_lost (hnamed : p.Named) (hstack : (nsNameForStack stack).Slashless)
    (h : p.Collides stack) (hactive : ¬ p.Has .activeQ (nsNameForStack stack)) :
    ¬ Exact identity (p.delete comp stack).held (pending \ {nsNameForStack stack}) := by
  obtain ⟨us, hget, hne⟩ := h
  obtain ⟨hus, hname⟩ := get_eq_some.mp hget
  have hwritten : Written comp (fun _ => True) {nsNameForStack stack} True _ p (p.delete comp stack) :=
    written_delete
  refine not_exact_of_met hexact hus hne ?_ hwritten.comes fun h => ⟨h, hne⟩
  rw [delete]
  split
  · next activeQ hdelete =>
    obtain ⟨⟨x, hx, hkey⟩, -⟩ := Heap.delete_ok comp hdelete
    have hident : x.identity = nsNameForStack stack :=
      (stackInfoKeyFunc_eq_iff (b := newStackInfoNoTimestamp stack) (hnamed.active x hx) hstack).mp hkey
    exact absurd ⟨x, hx, hident⟩ hactive
  · intro hmem
    exact (mem_delete.mp hmem).2 hname

theorem pop_drops (hnamed : p.Named) (hpop : p.pop comp = some (stack, p')) :
    Drops identity p.held p'.held (nsNameForStack stack) := by
  rw [pop] at hpop
  split at hpop
  · cases hpop
  · next x activeQ hheap =>
    cases hpop
    obtain ⟨hx, hmem, -⟩ := Heap.pop_eq_some comp hheap
    have hhas : p.Has .activeQ x.identity := ⟨x, hx, rfl⟩
    refine hhas.drops_active hexact (fun a => ?_) rfl rfl
    refine (hmem a).trans (and_congr_right fun ha => not_congr ?_)
    exact stackInfoKeyFunc_eq_iff (hnamed.active a ha) (hnamed.active x hx)

end PriorityQueue

end GlobalScheduler.SchedulingQueue
