import GlobalScheduler.Controllers.Distributor

/-! The schedulers that a distributor process knows.

The process keeps a list of the schedulers, which the handlers of an informer maintain: a new
scheduler is appended, an update goes to the first of the name, and a deletion to the first
that is deeply equal to the deleted object. That object is a pointer while the list has
structs, and two values of different types are never deeply equal, so no scheduler ever
leaves the list. -/
namespace GlobalScheduler.DistributorProcess

open Go Transition Schedulers Distributor AList Scheduler
open List hiding choose

/-! ### The code -/

/-- What a handler of the informer is given. -/
inductive Object where
  | pointer (scheduler : Scheduler)
  | other
deriving DecidableEq, Repr

/-- The values that the handlers compare. -/
inductive Value where
  | struct (scheduler : Scheduler)
  | pointer (scheduler : Scheduler)

/-- `reflect.DeepEqual`: values of different types are not equal, pointers are followed. -/
def deepEqual : Value → Value → Bool
  | .struct a, .struct b => a = b
  | .pointer a, .pointer b => a = b
  | _, _ => false

/-- `AddFunc`. -/
def addFunc (obj : Object) (schedulers : List Scheduler) : List Scheduler :=
  match obj with
  | .pointer scheduler => schedulers ++ [scheduler]
  | .other => schedulers

/-- The loop of `UpdateFunc`: the first of the old name is replaced. -/
def replaceNamed (name : String) (newScheduler : Scheduler) : List Scheduler → List Scheduler
  | [] => []
  | item :: rest =>
    if item.name = name then newScheduler :: rest else item :: replaceNamed name newScheduler rest

def updateFunc (oldObject newObject : Object) (schedulers : List Scheduler) : List Scheduler :=
  match oldObject, newObject with
  | .pointer oldScheduler, .pointer newScheduler =>
    replaceNamed oldScheduler.name newScheduler schedulers
  | _, _ => schedulers

/-- `DeleteFunc`: the last item takes the place of the first that is equal. -/
def deleteFunc (obj : Object) (schedulers : List Scheduler) : List Scheduler :=
  match obj with
  | .pointer scheduler =>
    swapDelete (fun item => deepEqual (.struct item) (.pointer scheduler)) schedulers
  | .other => schedulers

theorem deleteFunc_eq (obj : Object) (schedulers : List Scheduler) :
    deleteFunc obj schedulers = schedulers := by
  cases obj with
  | other => rfl
  | pointer scheduler =>
    apply swapDelete_of_none
    rw [findIdx?_eq_none_iff]
    intro item _
    rfl

/-! ### Runs -/

/-- The list of the process, and the schedulers there are, by name. -/
structure State where
  schedulers : List Scheduler := []
  live : Map String Scheduler := ∅

inductive Event where
  | add (scheduler : Scheduler)
  | update (oldScheduler newScheduler : Scheduler)
  | delete (scheduler : Scheduler)

/-- The informer tells of schedulers as they are: a new one has a new name, and of those there
are it knows the last object. -/
def Allowed (s : State) : Event → Prop
  | .add scheduler => scheduler.name ∉ s.live
  | .update oldScheduler newScheduler =>
    s.live.lookup oldScheduler.name = some oldScheduler ∧ newScheduler.name = oldScheduler.name
  | .delete scheduler => s.live.lookup scheduler.name = some scheduler

def next (s : State) : Event → State
  | .add scheduler =>
    { schedulers := addFunc (.pointer scheduler) s.schedulers
      live := s.live.insert scheduler.name scheduler }
  | .update oldScheduler newScheduler =>
    { schedulers := updateFunc (.pointer oldScheduler) (.pointer newScheduler) s.schedulers
      live := s.live.insert newScheduler.name newScheduler }
  | .delete scheduler =>
    { schedulers := deleteFunc (.pointer scheduler) s.schedulers
      live := s.live.erase scheduler.name }

def Step (s : State) (e : Event) (s' : State) : Prop := s' = next s e

def Runs (es : List Event) (s : State) : Prop := Run Step Allowed {} es s

/-- The list has the schedulers there are, each as it is. -/
def Exact (s : State) : Prop :=
  ∀ scheduler, scheduler ∈ s.schedulers ↔ s.live.lookup scheduler.name = some scheduler

/-- The events after which the list is still right. An update goes to one place in the list,
and a scheduler that was deleted and came back unchanged is there twice. -/
def Keeps (s : State) : Event → Prop
  | .add _ => True
  | .update oldScheduler newScheduler =>
    newScheduler = oldScheduler ∨ s.schedulers.count oldScheduler = 1
  | .delete _ => False

/-! ### What an event does to the list -/

section
variable {oldScheduler newScheduler scheduler : Scheduler} {schedulers : List Scheduler}

theorem replaceNamed_eq (honly : ∀ item ∈ schedulers, item.name = oldScheduler.name → item = oldScheduler) :
    replaceNamed oldScheduler.name newScheduler schedulers =
      schedulers.replace oldScheduler newScheduler := by
  induction schedulers with
  | nil => rfl
  | cons item rest ih =>
    rw [replaceNamed, replace_cons]
    by_cases heq : item = oldScheduler
    · subst heq
      simp
    · have hname : item.name ≠ oldScheduler.name := fun hname =>
        heq (honly item mem_cons_self hname)
      have hbeq : (oldScheduler == item) = false := by simpa using Ne.symm heq
      rw [if_neg hname, hbeq, ih fun item hitem => honly item (mem_cons_of_mem _ hitem)]

theorem mem_replace (hmem : oldScheduler ∈ schedulers) :
    scheduler ∈ schedulers.replace oldScheduler newScheduler ↔
      scheduler = newScheduler ∨ scheduler ∈ schedulers.erase oldScheduler := by
  induction schedulers with
  | nil => cases hmem
  | cons item rest ih =>
    by_cases heq : item = oldScheduler
    · subst heq
      simp
    · have hrest : oldScheduler ∈ rest := (mem_cons.mp hmem).resolve_left (Ne.symm heq)
      have hbeq : (oldScheduler == item) = false := by simpa using Ne.symm heq
      rw [replace_cons, hbeq, erase_cons_tail (by simpa using heq), mem_cons,
        mem_cons, ih hrest, or_left_comm]

end

section
variable {s : State} {scheduler oldScheduler newScheduler : Scheduler}

theorem exact_add (h : Exact s) (hallowed : Allowed s (.add scheduler)) :
    Exact (next s (.add scheduler)) := by
  intro item
  show item ∈ s.schedulers ++ [scheduler] ↔ (s.live.insert scheduler.name scheduler).lookup _ = _
  rw [mem_append, mem_singleton, h item]
  by_cases hname : item.name = scheduler.name
  · -- No scheduler of the name is live before.
    have hnone : s.live.lookup scheduler.name = none := lookup_eq_none.mpr hallowed
    rw [hname, lookup_insert, hnone, Option.some_inj]
    simp [eq_comm]
  · have hne : item ≠ scheduler := fun heq => hname (congrArg name heq)
    rw [lookup_insert_ne hname, or_iff_left hne]

theorem exact_update_iff (h : Exact s) (hallowed : Allowed s (.update oldScheduler newScheduler)) :
    Exact (next s (.update oldScheduler newScheduler)) ↔
      Keeps s (.update oldScheduler newScheduler) := by
  obtain ⟨hlive, hsame⟩ := hallowed
  have hmem : oldScheduler ∈ s.schedulers := (h oldScheduler).mpr hlive
  have honly : ∀ item ∈ s.schedulers, item.name = oldScheduler.name → item = oldScheduler := by
    intro item hitem hname
    have hitem := (h item).mp hitem
    rw [hname, hlive, Option.some_inj] at hitem
    exact hitem.symm
  have hlist : ∀ item, item ∈ (next s (.update oldScheduler newScheduler)).schedulers ↔
      item = newScheduler ∨ item ∈ s.schedulers.erase oldScheduler := by
    intro item
    show item ∈ replaceNamed oldScheduler.name newScheduler s.schedulers ↔ _
    rw [replaceNamed_eq honly, mem_replace hmem]
  have hnew : ∀ item, (next s (.update oldScheduler newScheduler)).live.lookup item.name = some item ↔
      item = newScheduler ∨ item ∈ s.schedulers ∧ item ≠ oldScheduler := by
    intro item
    show (s.live.insert newScheduler.name newScheduler).lookup item.name = some item ↔ _
    by_cases hname : item.name = newScheduler.name
    · have hold : item ∈ s.schedulers → item = oldScheduler := fun hitem =>
        honly item hitem (hname.trans hsame)
      rw [hname, lookup_insert, Option.some_inj, eq_comm]
      tauto
    · rw [lookup_insert_ne hname, h item]
      have hne : item ≠ newScheduler := fun heq => hname (congrArg name heq)
      have hnold : item ≠ oldScheduler := fun heq => hname ((congrArg name heq).trans hsame.symm)
      simp [hne, hnold]
  have hothers : ∀ item, item ≠ oldScheduler → (item ∈ s.schedulers.erase oldScheduler ↔
      item ∈ s.schedulers) := fun item hne => mem_erase_of_ne hne
  have hagain : oldScheduler ∈ s.schedulers.erase oldScheduler ↔ s.schedulers.count oldScheduler ≠ 1 := by
    rw [← count_pos_iff, count_erase_self]
    have hpos := count_pos_iff.mpr hmem
    omega
  simp only [Exact, hlist, hnew, Keeps]
  constructor
  · intro hall
    by_contra hneither
    obtain ⟨hne, hcount⟩ := not_or.mp hneither
    have hold := (hall oldScheduler).mp (Or.inr (hagain.mpr hcount))
    simp [Ne.symm hne] at hold
  · intro hkeeps item
    by_cases heq : item = oldScheduler
    · subst heq
      rcases hkeeps with rfl | hcount
      · simp
      · simp [hagain, hcount]
    · rw [hothers item heq]
      simp [heq]

theorem not_exact_delete (h : Exact s) (hallowed : Allowed s (.delete scheduler)) :
    ¬ Exact (next s (.delete scheduler)) := by
  intro hexact
  have hstill : scheduler ∈ (next s (.delete scheduler)).schedulers := by
    show scheduler ∈ deleteFunc (.pointer scheduler) s.schedulers
    rw [deleteFunc_eq]
    exact (h scheduler).mpr hallowed
  have hgone : (next s (.delete scheduler)).live.lookup scheduler.name = none := lookup_erase _ _
  have hlook := (hexact scheduler).mp hstill
  rw [hgone] at hlook
  cases hlook

end

/-- **Which events leave the list right.** -/
theorem exact_next_iff {s : State} {e : Event} (h : Exact s) (hallowed : Allowed s e) :
    Exact (next s e) ↔ Keeps s e := by
  cases e with
  | add scheduler => exact iff_of_true (exact_add h hallowed) trivial
  | update oldScheduler newScheduler => exact exact_update_iff h hallowed
  | delete scheduler => exact iff_of_false (not_exact_delete h hallowed) id

/-! ### The choice of a scheduler -/

theorem choose_mem {rand : Nat} {filtered : List Scheduler} {err name : String}
    (h : choose rand filtered err = .ok name) : ∃ scheduler ∈ filtered, scheduler.name = name := by
  unfold choose at h
  split at h
  case h_1 => cases h
  case h_2 scheduler hchosen =>
    exact ⟨scheduler, mem_of_getElem? hchosen, Except.ok.inj h⟩

/-- Work goes only to schedulers there are. -/
def AssignsLive (s : State) : Prop :=
  (∀ rand selector name, findFit rand s.schedulers selector = .ok name → name ∈ s.live) ∧
    ∀ rand allocation name, findScheduler rand s.schedulers allocation = .ok name → name ∈ s.live

theorem assignsLive_of_exact {s : State} (h : Exact s) : AssignsLive s := by
  have hmem : ∀ scheduler ∈ s.schedulers, scheduler.name ∈ s.live := fun scheduler hmem =>
    Map.mem_of_lookup ((h scheduler).mp hmem)
  constructor
  · intro rand selector name hfit
    obtain ⟨scheduler, hchosen, rfl⟩ := choose_mem hfit
    exact hmem scheduler (mem_filter.mp hchosen).1
  · intro rand allocation name hfound
    obtain ⟨scheduler, hchosen, rfl⟩ := choose_mem hfound
    exact hmem scheduler (mem_filter.mp hchosen).1

/-! ### Whole runs -/

theorem exact_init : Exact {} := fun scheduler => by simp [lookup_empty]

/-- **When the process knows the schedulers there are**: after any events that each keep its
list right, and then it assigns work to live schedulers only; and from any state that events
reach in which the list is right, the next event leaves it right exactly if it is such an
event, so no deletion is. -/
theorem schedulers_exact_iff {es : List Event} {s : State} (h : Runs es s) :
    (Run Step (fun s e => Allowed s e ∧ Keeps s e) {} es s → Exact s ∧ AssignsLive s) ∧
      ∀ e s', Allowed s e → Step s e s' → Exact s → (Exact s' ↔ Keeps s e) := by
  have hkept : ∀ s e s', True → Exact s → Allowed s e → Step s e s' → (Exact s' ↔ Keeps s e) := by
    intro s e s' _ hexact hallowed hstep
    cases hstep
    exact exact_next_iff hexact hallowed
  obtain ⟨hrun, hnext⟩ := h.kept_iff (fun _ _ _ _ _ _ => trivial) hkept trivial exact_init
  refine ⟨fun hkeeps => ?_, hnext⟩
  have hexact := hrun hkeeps
  exact ⟨hexact, assignsLive_of_exact hexact⟩

def someScheduler : Scheduler := { nameSpace := "ns", name := "a" }

def someUpdate : Event := .update someScheduler { someScheduler with cluster := ["c"] }

/-- A scheduler is added and updated, and another one added. -/
theorem schedulers_exact_updated : ∃ s s',
    Run Step (fun s e => Allowed s e ∧ Keeps s e) {}
      [.add { nameSpace := "ns", name := "a" },
        .update { nameSpace := "ns", name := "a" } { nameSpace := "ns", name := "a", cluster := ["c"] }] s ∧
      Exact s ∧ Step s (.add { nameSpace := "ns", name := "b" }) s' ∧ Exact s' := by
  obtain ⟨s, hrun, hkeeps, hallowed⟩ : ∃ s, Runs [.add someScheduler, someUpdate] s ∧
      Run Step (fun s e => Allowed s e ∧ Keeps s e) {} [.add someScheduler, someUpdate] s ∧
      Allowed s (.add { nameSpace := "ns", name := "b" }) := by
    have hnew : Allowed {} (.add someScheduler) := (by decide : "a" ∉ (∅ : Map String Scheduler))
    have hupdate : Allowed (next {} (.add someScheduler)) someUpdate := ⟨by decide +kernel, rfl⟩
    have honce : Keeps (next {} (.add someScheduler)) someUpdate := Or.inr (by decide +kernel)
    refine ⟨_, ((Run.nil _).snoc hnew rfl).snoc hupdate rfl,
      ((Run.nil _).snoc ⟨hnew, trivial⟩ rfl).snoc ⟨hupdate, honce⟩ rfl, ?_⟩
    exact lookup_eq_none.mp (by decide +kernel)
  have hexact := ((schedulers_exact_iff hrun).1 hkeeps).1
  exact ⟨s, _, hkeeps, hexact, rfl, ((schedulers_exact_iff hrun).2 _ _ hallowed rfl hexact).mpr trivial⟩

def somewhere : Scheduler := { someScheduler with union := { geoLocation := [{}] } }

/-- A scheduler is deleted, and a pod is still given to it. -/
theorem deleted_scheduler_chosen : ∃ s scheduler,
    Runs [.add scheduler, .delete scheduler] s ∧ scheduler.name ∉ s.live ∧ scheduler ∈ s.schedulers ∧
      findFit 0 s.schedulers {} = .ok scheduler.name ∧
      findScheduler 0 s.schedulers {} = .ok scheduler.name ∧ ¬ Exact s := by
  have hnew : Allowed {} (.add somewhere) := (by decide : "a" ∉ (∅ : Map String Scheduler))
  have hlast : (next {} (.add somewhere)).live.lookup "a" = some somewhere := by decide +kernel
  refine ⟨_, somewhere, ((Run.nil _).snoc hnew rfl).snoc hlast rfl, ?_, ?_, ?_, ?_, ?_⟩
  · exact lookup_eq_none.mp (by decide +kernel)
  · decide +kernel
  · decide +kernel
  · decide +kernel
  · intro hexact
    exact absurd ((hexact somewhere).mp (by decide +kernel)) (by decide +kernel)

end GlobalScheduler.DistributorProcess
