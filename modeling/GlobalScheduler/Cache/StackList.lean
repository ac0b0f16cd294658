import GlobalScheduler.Shelves
import GlobalScheduler.Cache.SchedulerCache

/-! The stacks that the scheduler's cache lists.

`List` goes through the records of the sites, while the states of the stacks are in a map of
their own. The sites are shelves here, and the states are the register. A record does not
give up a stack, so the two part as soon as a stack is updated, removed or forgotten whose
site is cached. -/
namespace GlobalScheduler.Cache.SchedulerCache

open Go Transition Shelves Outcome SiteCache Map Multiset

def siteOf (stack : PodStack) : String := stack.selected.siteID

/-- The stacks in the record of a site, if it is cached. -/
def stacksOn (c : SiteCache) (siteID : String) : Option (List PodStack) :=
  (c.siteCacheInfos.lookup siteID).map CachedInfo.stackList

def stacksOf (states : Map String StackState) : Multiset PodStack := (values states).map StackState.stack

/-- In every order of the loop, `List` returns the stacks of the states whose site is cached. -/
def ListsStates (c : SiteCache) : Prop :=
  ∀ ord, (list ord c : Multiset PodStack) =
    (stacksOf c.stackStates).filter fun stack => siteOf stack ∈ c.siteCacheInfos

/-- The site is cached, or no stack of the states was put on it. -/
def Placeable (c : SiteCache) (states : Map String StackState) (siteID : String) : Prop :=
  siteID ∈ c.siteCacheInfos ∨ ∀ stack ∈ stacksOf states, siteOf stack ≠ siteID

/-- When a call leaves the list right. -/
def Keeps (c : SiteCache) : Call → Prop
  | .addSite _ site => Placeable c c.stackStates site.siteID
  | .updateSite _ _ newSite => Placeable c c.stackStates newSite.siteID
  | .removeSite _ => True
  | .addStack stack => stack.uid ≠ "" → match c.stackStates.lookup stack.uid with
    | none => Placeable c c.stackStates (siteOf stack)
    | some currState => isAssumed stack.uid c →
      siteOf currState.stack ∉ c.siteCacheInfos ∨ currState.stack = stack
  | .updateStack oldStack newStack => oldStack.uid ≠ "" → ∀ currState,
    c.stackStates.lookup oldStack.uid = some currState → ¬ isAssumed oldStack.uid c →
      siteOf currState.stack ∉ c.siteCacheInfos ∧
        Placeable c (c.stackStates.erase oldStack.uid) (siteOf newStack)
  | .removeStack stack => stack.uid ≠ "" → ∀ currState,
    c.stackStates.lookup stack.uid = some currState → ¬ isAssumed stack.uid c →
      siteOf currState.stack ∉ c.siteCacheInfos
  | .assumeStack stack => stack.uid ≠ "" → stack.uid ∉ c.stackStates →
    Placeable c c.stackStates (siteOf stack)
  | .forgetStack stack => stack.uid ≠ "" → ∀ currState,
    c.stackStates.lookup stack.uid = some currState → isAssumed stack.uid c →
      siteOf currState.stack ∉ c.siteCacheInfos
  | .updateQos _ _ _ => True
  | .updateSnapshot _ => True

/-! ### The cache as shelves -/

variable {c c' : SiteCache} {s s' : Session} {stack : PodStack} {siteID : String} {keeps : Prop}

theorem stacksOn_eq_none : stacksOn c siteID = none ↔ siteID ∉ c.siteCacheInfos := by
  rw [stacksOn, Option.map_eq_none_iff, AList.lookup_eq_none]

variable {states : Map String StackState} {key : String}

theorem ready_iff : Ready siteOf (stacksOn c) (stacksOf states) siteID ↔ Placeable c states siteID := by
  rw [Ready, Placeable, Ne, stacksOn_eq_none, not_not]

variable (ord : List String)

/-- The records of the sites in the order of a loop, with their stacks. -/
def shelvesBy (c : SiteCache) : List (String × List PodStack) :=
  (entriesBy ord c.siteCacheInfos).map fun e => (e.1, e.2.stackList)

theorem list_eq (c : SiteCache) : list ord c = (shelvesBy ord c).flatMap Prod.snd := by
  simp [list, filteredList, shelvesBy, List.flatMap_map]

theorem nodup_shelvesBy (c : SiteCache) : ((shelvesBy ord c).map Prod.fst).Nodup := by
  rw [shelvesBy, List.map_map]
  exact entriesBy_nodup ord c.siteCacheInfos

theorem mem_shelvesBy {ord : List String} (e : String × List PodStack) :
    e ∈ shelvesBy ord c ↔ stacksOn c e.1 = some e.2 := by
  rw [shelvesBy, stacksOn, List.mem_map, Option.map_eq_some_iff]
  constructor
  · intro h
    obtain ⟨⟨siteID, info⟩, hmem, rfl⟩ := h
    exact ⟨info, mem_entriesBy.mp hmem, rfl⟩
  · intro h
    obtain ⟨info, hlook, hstacks⟩ := h
    exact ⟨(e.1, info), mem_entriesBy.mpr hlook, Prod.ext rfl hstacks⟩

theorem listsStates_iff (h : Homed siteOf (stacksOn c)) :
    ListsStates c ↔ Agrees siteOf (stacksOn c) (stacksOf c.stackStates) := by
  have hord : ∀ ord, Agrees siteOf (stacksOn c) (stacksOf c.stackStates) ↔
      (list ord c : Multiset PodStack) =
        (stacksOf c.stackStates).filter fun stack => siteOf stack ∈ c.siteCacheInfos := by
    intro ord
    rw [list_eq, agrees_iff h (nodup_shelvesBy ord c) mem_shelvesBy]
    simp [stacksOn_eq_none]
  constructor
  · intro hall
    exact (hord []).mpr (hall [])
  · intro hagrees ord
    exact (hord ord).mp hagrees

/-! ### What the calls do to the shelves and the register -/

theorem stacksOn_recorded {info : CachedInfo} (h : SiteCache.Recorded key info c c') :
    stacksOn c' = Function.update (stacksOn c) key (some info.stackList) := by
  funext siteID
  by_cases heq : siteID = key
  · subst heq
    simp [stacksOn, h.lookup_self]
  · simp [stacksOn, heq, h.lookup_ne heq]

theorem stackList_recordOf : (c.recordOf siteID).stackList = (stacksOn c siteID).getD [] := by
  unfold recordOf stacksOn
  cases c.siteCacheInfos.lookup siteID <;> rfl

variable {env : Env} {generation : Nat} {site : CachedSite}

theorem stacksOn_setSite
    (h : SiteCache.Recorded site.siteID ((c.recordOf site.siteID).setSite env generation site) c c') :
    stacksOn c' = setUp site.siteID (stacksOn c) := by
  rw [stacksOn_recorded h, setUp, ← stackList_recordOf]
  rfl

theorem stacksOn_addStack : stacksOn (c.addStack stack) = put siteOf stack (stacksOn c) := by
  rw [stacksOn_recorded (recorded_addStack stack c), put, siteOf, ← stackList_recordOf]
  rfl

variable {update : CachedInfo → CachedInfo}

theorem stacksOn_rewrites (h : SiteCache.Rewrites siteID update c c')
    (hstacks : ∀ info, (update info).stackList = info.stackList) : stacksOn c' = stacksOn c := by
  cases h.record with
  | inl heq => rw [heq]
  | inr hrecord =>
    obtain ⟨info, hlook, hrecorded⟩ := hrecord
    rw [stacksOn_recorded hrecorded, hstacks, Function.update_eq_self_iff]
    simp [stacksOn, hlook]

theorem stackStates_rewrites
    (h : SiteCache.Rewrites siteID update c c') : c'.stackStates = c.stackStates := by
  cases h.record with
  | inl heq => rw [heq]
  | inr hrecord =>
    obtain ⟨info, -, hrecorded⟩ := hrecord
    exact hrecorded.states

theorem stacksOn_removeStack : stacksOn (c.removeStack stack) = stacksOn c :=
  stacksOn_rewrites (rewrites_removeStack stack c) fun _ => rfl

theorem stacksOf_insert (key : String) (stack : PodStack) (states : Map String StackState) :
    stacksOf (states.insert key ⟨stack⟩) = stack ::ₘ stacksOf (states.erase key) := by
  rfl

theorem stacksOf_of_lookup {state : StackState} (h : states.lookup key = some state) :
    stacksOf states = state.stack ::ₘ stacksOf (states.erase key) := by
  rw [stacksOf, values_of_lookup h, map_cons]
  rfl

theorem stacksOf_erase (h : states.lookup key = none) : stacksOf (states.erase key) = stacksOf states := by
  rw [stacksOf, values_erase_of_lookup h, stacksOf]

/-- One call's change of the cache. -/
def Changes (c c' : SiteCache) (keeps : Prop) : Prop :=
  Change siteOf (stacksOn c) (stacksOf c.stackStates) (stacksOn c') (stacksOf c'.stackStates) keeps

theorem changes_of_eq (hstacks : stacksOn c' = stacksOn c)
    (hstates : c'.stackStates = c.stackStates) (hkeeps : keeps) : Changes c c' keeps := by
  rw [Changes, hstacks, hstates]
  exact (Change.still _).congr (iff_of_true trivial hkeeps)

theorem changes_setSite
    (h : SiteCache.Recorded site.siteID ((c.recordOf site.siteID).setSite env generation site) c c') :
    Changes c c' (Placeable c c.stackStates site.siteID) := by
  rw [Changes, stacksOn_setSite h, h.states]
  exact (Change.setUp _ site.siteID).congr ready_iff

theorem stacksOn_dropSite (site : CachedSite) (hmem : site.siteID ∈ c.siteCacheInfos) :
    stacksOn ((c.removeSiteCacheInfoFromList site.siteID).dropSite site).1 =
      takeDown site.siteID (stacksOn c) := by
  rw [dropSite_eq, removeSiteCacheInfoFromList, if_pos hmem]
  funext siteID
  by_cases heq : siteID = site.siteID
  · subst heq
    simp [stacksOn, takeDown]
  · simp [stacksOn, takeDown, heq, AList.lookup_erase_ne heq]

theorem changes_removeSite (site : CachedSite) (c : SiteCache) : Changes c (removeSite site c).1 True := by
  unfold removeSite
  split
  case isTrue hmem =>
    have hstates : ((c.removeSiteCacheInfoFromList site.siteID).dropSite site).1.stackStates =
        c.stackStates := by
      rw [dropSite_eq, removeSiteCacheInfoFromList, if_pos hmem]
    rw [Changes, stacksOn_dropSite site hmem, hstates]
    exact Change.takeDown _ site.siteID
  case isFalse => exact changes_of_eq rfl rfl trivial

theorem changes_addStack_new (hnew : c.stackStates.lookup stack.uid = none)
    (hstacks : stacksOn c' = stacksOn (c.addStack stack))
    (hstates : c'.stackStates = c.stackStates.insert stack.uid ⟨stack⟩)
    (hkeeps : Placeable c c.stackStates (siteOf stack) ↔ keeps) : Changes c c' keeps := by
  rw [Changes, hstacks, hstates, stacksOn_addStack, stacksOf_insert, stacksOf_erase hnew]
  exact (Change.put _ stack).congr (ready_iff.trans hkeeps)

theorem changes_strike {state : StackState} (hlook : c.stackStates.lookup key = some state)
    (hstacks : stacksOn c' = stacksOn c) (hstates : c'.stackStates = c.stackStates.erase key)
    (hkeeps : siteOf state.stack ∉ c.siteCacheInfos ↔ keeps) : Changes c c' keeps := by
  rw [Changes, hstacks, hstates, stacksOf_of_lookup hlook]
  exact (Change.strike _ state.stack).congr (stacksOn_eq_none.trans hkeeps)

theorem changes_forgetStack (stack : PodStack) (c : SiteCache) :
    Changes c (forgetStack stack c).1 (Keeps c (.forgetStack stack)) := by
  unfold forgetStack
  by_cases huid : stack.uid = ""
  · rw [getStackKey_empty huid]
    exact changes_of_eq rfl rfl fun hne => absurd huid hne
  · rw [getStackKey_of_ne huid]
    dsimp only
    split
    case isTrue hstate =>
      obtain ⟨state, hlook⟩ := exists_lookup hstate.1
      refine changes_strike hlook stacksOn_removeStack rfl ?_
      simp [Keeps, huid, hlook, hstate.2]
    case isFalse hstate =>
      exact changes_of_eq rfl rfl fun _ state hlook hassumed =>
        absurd ⟨mem_of_lookup hlook, hassumed⟩ hstate

theorem changes_removeStack (stack : PodStack) (c : SiteCache) :
    Changes c (removeStack stack c).1 (Keeps c (.removeStack stack)) := by
  unfold removeStack
  by_cases huid : stack.uid = ""
  · rw [getStackKey_empty huid]
    exact changes_of_eq rfl rfl fun hne => absurd huid hne
  · rw [getStackKey_of_ne huid]
    dsimp only
    split
    case h_1 state hlook =>
      split
      case isTrue hadded =>
        refine changes_strike hlook stacksOn_removeStack rfl ?_
        simp [Keeps, huid, hlook, hadded]
      case isFalse hassumed => exact changes_of_eq rfl rfl fun _ _ _ hadded => absurd hadded hassumed
    case h_2 hnone =>
      refine changes_of_eq rfl rfl fun _ state hlook => ?_
      cases hnone.symm.trans hlook

theorem changes_assumeStack (stack : PodStack) (c : SiteCache) :
    Changes c (assumeStack stack c).1 (Keeps c (.assumeStack stack)) := by
  unfold assumeStack
  by_cases huid : stack.uid = ""
  · rw [getStackKey_empty huid]
    exact changes_of_eq rfl rfl fun hne => absurd huid hne
  · rw [getStackKey_of_ne huid]
    dsimp only
    split
    case isTrue hmem => exact changes_of_eq rfl rfl fun _ hnew => absurd hmem hnew
    case isFalse hnew =>
      refine changes_addStack_new (AList.lookup_eq_none.mpr hnew) rfl rfl ?_
      simp [Keeps, huid, hnew]

theorem changes_addStack {r : SiteCache × Option String} (hcall : addStack stack c = some r) :
    Changes c r.1 (Keeps c (.addStack stack)) := by
  by_cases huid : stack.uid = ""
  · rw [addStack, getStackKey_empty huid] at hcall
    cases hcall
    exact changes_of_eq rfl rfl fun hne => absurd huid hne
  · rw [addStack, getStackKey_of_ne huid] at hcall
    dsimp only at hcall
    unfold addStackSwitch at hcall
    split at hcall
    case h_1 hnew =>
      cases hcall
      refine changes_addStack_new hnew rfl rfl ?_
      simp [Keeps, huid, hnew]
    case h_2 state hlook =>
      split at hcall
      case isTrue hassumed =>
        split at hcall
        · cases hcall
        case isFalse hsame =>
          cases hcall
          -- The record keeps the stack that was assumed.
          have hsite : siteOf stack = siteOf state.stack := by rw [siteOf, siteOf, not_not.mp hsame]
          rw [Changes, stacksOf_of_lookup hlook]
          show Change _ _ _ _ (stacksOf (c.stackStates.insert stack.uid ⟨stack⟩)) _
          refine (Change.swap _ state.stack stack hsite).congr ?_
          simp [Keeps, huid, hlook, hassumed, stacksOn_eq_none]
      case isFalse hadded =>
        cases hcall
        exact changes_of_eq rfl rfl fun _ => by simp [hlook, hadded]

theorem changes_updateStack (oldStack newStack : PodStack) (c : SiteCache) :
    Changes c (updateStack oldStack newStack c).1 (Keeps c (.updateStack oldStack newStack)) := by
  unfold updateStack
  by_cases huid : oldStack.uid = ""
  · rw [getStackKey_empty huid]
    exact changes_of_eq rfl rfl fun hne => absurd huid hne
  · rw [getStackKey_of_ne huid]
    dsimp only
    split
    case isTrue hstate =>
      obtain ⟨state, hlook⟩ := exists_lookup hstate.1
      rw [Changes, stacksOf_of_lookup hlook]
      show Change _ _ _ (stacksOn ((c.removeStack oldStack).addStack newStack))
        (stacksOf (c.stackStates.insert oldStack.uid ⟨newStack⟩)) _
      rw [stacksOn_addStack, stacksOn_removeStack, stacksOf_insert]
      refine (Change.replace _ state.stack newStack).congr ?_
      rw [stacksOn_eq_none, ready_iff]
      simp [Keeps, huid, hlook, hstate.2]
    case isFalse hstate =>
      exact changes_of_eq rfl rfl fun _ state hlook hadded =>
        absurd ⟨mem_of_lookup hlook, hadded⟩ hstate

variable {op : Call}

/-- **What one call does**, and when it leaves the list right. -/
theorem changes_step (h : Sound s) (hstep : Step s op s') : Changes s.cache s'.cache (Keeps s.cache op) := by
  cases op with
  | addSite env site =>
    obtain ⟨c', hcall, hs'⟩ := bind_ok.mp hstep
    cases hs'
    obtain ⟨c₁, hcall₁, hrecorded, -⟩ := recorded_addSite env site s.cache
    cases hcall.symm.trans hcall₁
    exact changes_setSite hrecorded
  | updateSite env oldSite newSite =>
    obtain ⟨c', hcall, hs'⟩ := bind_ok.mp hstep
    cases hs'
    exact changes_setSite (recorded_of_updateSite h.filed.spread hcall).1
  | removeSite site =>
    cases hstep
    exact changes_removeSite site s.cache
  | addStack stack =>
    obtain ⟨r, hr, hs'⟩ := Option.map_eq_some_iff.mp (pure_ok.mp hstep)
    cases hs'
    exact changes_addStack hr
  | updateStack oldStack newStack =>
    cases hstep
    exact changes_updateStack oldStack newStack s.cache
  | removeStack stack =>
    cases hstep
    exact changes_removeStack stack s.cache
  | assumeStack stack =>
    cases hstep
    exact changes_assumeStack stack s.cache
  | forgetStack stack =>
    cases hstep
    exact changes_forgetStack stack s.cache
  | updateQos env siteID metricDatas =>
    cases hstep
    have hrewrites := rewrites_updateQos env siteID metricDatas s.cache
    exact changes_of_eq (stacksOn_rewrites hrewrites fun _ => rfl) (stackStates_rewrites hrewrites) trivial
  | updateSnapshot ord =>
    obtain ⟨c', list, err, hupdate, siteTree, rfl, -⟩ := updateSnapshot_ok h.filed ord s.snapshot
    obtain ⟨snapshot, hcall⟩ : ∃ snapshot, call s (.updateSnapshot ord) =
        .ok (some ⟨{ s.cache with siteTree := siteTree }, snapshot⟩) :=
      ⟨_, by rw [call, SchedulerCache.updateSnapshot, hupdate]; rfl⟩
    cases hstep.symm.trans hcall
    exact changes_of_eq rfl rfl trivial

/-! ### Whole runs -/

/-- Every stack in a record was put on its site. -/
structure Shelved (s : Session) : Prop extends Sound s where
  homed : Homed siteOf (stacksOn s.cache)

theorem shelved_empty : Shelved {} :=
  ⟨⟨filed_empty, RefMap.apart_empty⟩, fun _ _ h => by cases h⟩

theorem shelved_step (h : Shelved s) (hstep : Step s op s') : Shelved s' :=
  ⟨sound_step s op s' h.toSound hstep, (changes_step h.toSound hstep).homed h.homed⟩

theorem listsStates_empty : ListsStates {} :=
  (listsStates_iff shelved_empty.homed).mpr fun _ _ h => by cases h

theorem listsStates_step (h : Shelved s) (hstep : Step s op s')
    (hlists : ListsStates s.cache) : ListsStates s'.cache ↔ Keeps s.cache op := by
  rw [listsStates_iff (shelved_step h hstep).homed]
  exact (changes_step h.toSound hstep).agrees_iff ((listsStates_iff h.homed).mp hlists)

/-- **When the list is right**: `List` returns the stacks of the states whose site is cached
after any calls that each keep it so, and from any state that calls reach in which it does,
the next call leaves it right exactly if it is such a call. -/
theorem list_right_iff {ops : List Call} (h : Run Step (fun _ _ => True) {} ops s) :
    (Run Step (fun s op => Keeps s.cache op) {} ops s → ListsStates s.cache) ∧
      ∀ op s', Step s op s' → ListsStates s.cache → (ListsStates s'.cache ↔ Keeps s.cache op) := by
  have hshelved : ∀ s op s', Shelved s → True → Step s op s' → Shelved s' :=
    fun s op s' hs _ hstep => shelved_step hs hstep
  have hlists : ∀ s op s', Shelved s → ListsStates s.cache → True → Step s op s' →
      (ListsStates s'.cache ↔ Keeps s.cache op) :=
    fun s op s' hs hlists _ hstep => listsStates_step hs hstep hlists
  have hrule := h.kept_iff hshelved hlists shelved_empty listsStates_empty
  constructor
  · exact fun hkept => hrule.1 (hkept.mono fun _ _ hop => ⟨trivial, hop⟩)
  · exact fun op s' hstep hlists => hrule.2 op s' trivial hstep hlists

/-- A stack is added on a cached site, and a second one after it. -/
theorem list_right_iff_added : ∃ s s',
    Run Step (fun s op => Keeps s.cache op) {}
      [.addSite {} { siteID := "a" }, .addStack { uid := "1", selected := { siteID := "a" } }] s ∧
      ListsStates s.cache ∧
      Step s (.addStack { uid := "2", selected := { siteID := "a" } }) s' ∧ ListsStates s'.cache := by
  obtain ⟨s, s', hrun, hkept, hstep, hkeeps⟩ : ∃ s s',
      Run Step (fun _ _ => True) {}
        [.addSite {} { siteID := "a" }, .addStack { uid := "1", selected := { siteID := "a" } }] s ∧
        Run Step (fun s op => Keeps s.cache op) {}
          [.addSite {} { siteID := "a" }, .addStack { uid := "1", selected := { siteID := "a" } }] s ∧
        Step s (.addStack { uid := "2", selected := { siteID := "a" } }) s' ∧
        Keeps s.cache (.addStack { uid := "2", selected := { siteID := "a" } }) := by
    refine ⟨_, _, ((Run.nil _).snoc trivial (by rfl)).snoc trivial (by rfl),
      ((Run.nil _).snoc ?_ (by rfl)).snoc ?_ (by rfl), by rfl, ?_⟩
    · exact Or.inr fun _ hmem => absurd hmem (notMem_zero _)
    · exact fun _ => Or.inl (by decide +kernel)
    · exact fun _ => Or.inl (by decide +kernel)
  have hlists := (list_right_iff hrun).1 hkept
  exact ⟨s, s', hkept, hlists, hstep, ((list_right_iff hrun).2 _ s' hstep hlists).mpr hkeeps⟩

/-- A stack that was removed is still listed. -/
theorem removed_stack_listed : ∃ s,
    Run Step (fun _ _ => True) {}
      [.addSite {} { siteID := "a" }, .addStack { uid := "1", selected := { siteID := "a" } },
        .removeStack { uid := "1", selected := { siteID := "a" } }] s ∧
      stacksOf s.cache.stackStates = 0 ∧
      (list [] s.cache).map PodStack.uid = ["1"] ∧ ¬ ListsStates s.cache := by
  refine ⟨_, (((Run.nil _).snoc trivial rfl).snoc trivial rfl).snoc trivial rfl, rfl, ?_, ?_⟩
  · decide +kernel
  · intro h
    exact absurd (congrArg card (h [])) (by decide +kernel)

end GlobalScheduler.Cache.SchedulerCache
