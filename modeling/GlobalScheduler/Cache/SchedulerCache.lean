import GlobalScheduler.Cache.SiteCacheProofs

/-! The scheduler's cache.

It also keeps the stacks, by the IDs of their pods and with the records of the sites they
were put on. A stack is assumed on a site before it is bound, and confirmed when it is
added. -/
namespace GlobalScheduler.Cache.SchedulerCache

open Go Transition Outcome SiteCache Map

/-! ### The code -/

def getStackKey (stack : PodStack) : Except String String :=
  if stack.uid = "" then .error "Cannot get cache key for stack with empty UID" else .ok stack.uid

section
variable {L : Type} [Recency.ByUse String L]

/-- `cache.assumedStacks[key]`. -/
def isAssumed (key : String) (c : SiteCache L) : Bool := (c.assumedStacks.lookup key).getD false

def forgetStack (stack : PodStack) (c : SiteCache L) : SiteCache L × Option String :=
  match getStackKey stack with
  | .error err => (c, some err)
  | .ok key =>
    if key ∈ c.stackStates ∧ isAssumed key c then
      ({ c.removeStack stack with
        assumedStacks := c.assumedStacks.erase key, stackStates := c.stackStates.erase key }, none)
    else (c, some ("stack " ++ key ++ " wasn't assumed so cannot be forgotten"))

def assumeStack (stack : PodStack) (c : SiteCache L) : SiteCache L × Option String :=
  match getStackKey stack with
  | .error err => (c, some err)
  | .ok key =>
    if key ∈ c.stackStates then (c, some ("stack " ++ key ++ " is in the cache, so can't be assumed"))
    else ({ c.addStack stack with
      stackStates := c.stackStates.insert key ⟨stack⟩
      assumedStacks := c.assumedStacks.insert key true }, none)

/-- The stack is on record as it was given, and not assumed any more. -/
def confirm (stack : PodStack) (key : String) (c : SiteCache L) : SiteCache L :=
  { c with
    assumedStacks := c.assumedStacks.erase key
    stackStates := c.stackStates.insert key ⟨stack⟩ }

/-- The switch of `AddStack`: what it returns, or the cache with which it calls itself, where the
stack is assumed to be elsewhere and was taken from there. -/
def addStackSwitch (stack : PodStack) (key : String) (c : SiteCache L) :
    SiteCache L ⊕ (SiteCache L × Option String) :=
  match c.stackStates.lookup key with
  | none => .inr ({ c.addStack stack with stackStates := c.stackStates.insert key ⟨stack⟩ }, none)
  | some currState =>
    if isAssumed key c then
      if currState.stack.selected ≠ stack.selected then .inl (c.removeStack currState.stack)
      else .inr (confirm stack key c, none)
    else .inr (c, some ("stack " ++ key ++ " was already in added state"))

/-- Nothing if the call does not return: the call of itself waits for the lock that it holds. -/
def addStack (stack : PodStack) (c : SiteCache L) : Option (SiteCache L × Option String) :=
  match getStackKey stack with
  | .error err => some (c, some err)
  | .ok key => (addStackSwitch stack key c).getRight?

def updateStack (oldStack newStack : PodStack) (c : SiteCache L) : SiteCache L × Option String :=
  match getStackKey oldStack with
  | .error err => (c, some err)
  | .ok key =>
    if key ∈ c.stackStates ∧ ¬ isAssumed key c then
      ({ c.updateStack oldStack newStack with stackStates := c.stackStates.insert key ⟨newStack⟩ }, none)
    else (c, some ("pod " ++ key ++ " is not added to scheduler cache, so cannot be updated"))

/-- The stack on record is the one that is taken from its site. -/
def removeStack (stack : PodStack) (c : SiteCache L) : SiteCache L × Option String :=
  match getStackKey stack with
  | .error err => (c, some err)
  | .ok key =>
    match c.stackStates.lookup key with
    | some currState =>
      if ¬ isAssumed key c then
        ({ c.removeStack currState.stack with stackStates := c.stackStates.erase key }, none)
      else (c, some ("stack " ++ key ++ " is not found in scheduler cache, so cannot be removed from it"))
    | none => (c, some ("stack " ++ key ++ " is not found in scheduler cache, so cannot be removed from it"))

def removeSite (site : CachedSite) (c : SiteCache L) : SiteCache L × Option String :=
  if site.siteID ∈ c.siteCacheInfos then
    (c.removeSiteCacheInfoFromList site.siteID).dropSite site
  else (c, some (siteNotFound site.siteID))

/-! ### What the calls on stacks keep -/

/-- It is kept where a stack is put on its site or taken from it, whatever the states of stacks. -/
structure KeptByStacks (P : SiteCache L → Prop) : Prop where
  add : ∀ {c} stack, P c → P (c.addStack stack)
  remove : ∀ {c} stack, P c → P (c.removeStack stack)
  states : ∀ {c : SiteCache L} assumedStacks stackStates, P c →
    P { c with assumedStacks := assumedStacks, stackStates := stackStates }

namespace KeptByStacks
variable {P : SiteCache L → Prop} {c : SiteCache L} (hP : KeptByStacks P) (h : P c)
include hP h

theorem of_forgetStack (stack : PodStack) : P (forgetStack stack c).1 := by
  unfold forgetStack
  split
  · exact h
  · split
    · exact hP.states _ _ (hP.remove stack h)
    · exact h

theorem of_assumeStack (stack : PodStack) : P (assumeStack stack c).1 := by
  unfold assumeStack
  split
  · exact h
  · split
    · exact h
    · exact hP.states _ _ (hP.add stack h)

theorem of_addStack {stack : PodStack} {r : SiteCache L × Option String}
    (hcall : addStack stack c = some r) : P r.1 := by
  unfold addStack at hcall
  split at hcall
  · cases hcall
    exact h
  · unfold addStackSwitch at hcall
    split at hcall
    · cases hcall
      exact hP.states _ _ (hP.add stack h)
    · split at hcall
      · split at hcall
        · cases hcall
        · cases hcall
          exact hP.states _ _ h
      · cases hcall
        exact h

theorem of_updateStack (oldStack newStack : PodStack) : P (updateStack oldStack newStack c).1 := by
  unfold updateStack
  split
  · exact h
  · split
    · exact hP.states _ _ (hP.add newStack (hP.remove oldStack h))
    · exact h

theorem of_removeStack (stack : PodStack) : P (removeStack stack c).1 := by
  unfold removeStack
  split
  · exact h
  · split
    · split
      · exact hP.states _ _ (hP.remove _ h)
      · exact h
    · exact h

end KeptByStacks

end

/-! ### Calls -/

variable (ord : List String)

def filteredList (stackFilter : PodStack → Bool) (c : SiteCache) : List PodStack :=
  (entriesBy ord c.siteCacheInfos).flatMap fun e => e.2.stackList.filter stackFilter

def list (c : SiteCache) : List PodStack := filteredList ord (fun _ => true) c

def updateSnapshot (s : Session) : Outcome (Option (Session × Option String)) := do
  match ← s.cache.updateSnapshot ord s.snapshot with
  | none => pure none
  | some (cache, snapshot, err) => pure (some (⟨cache, snapshot⟩, err))

/-- A call, with the orders of the loops over maps and what else it reads. -/
inductive Call where
  | addSite (env : Env) (site : CachedSite)
  | updateSite (env : Env) (oldSite : Option CachedSite) (newSite : CachedSite)
  | removeSite (site : CachedSite)
  | addStack (stack : PodStack)
  | updateStack (oldStack newStack : PodStack)
  | removeStack (stack : PodStack)
  | assumeStack (stack : PodStack)
  | forgetStack (stack : PodStack)
  | updateQos (env : Env) (siteID : String) (metricDatas : List CachedInfo.NetMetricData)
  | updateSnapshot (ord : List String)

def call (s : Session) : Call → Outcome (Option Session)
  | .addSite env site => s.onCache fun c => c.addSite env site
  | .updateSite env oldSite newSite => s.onCache fun c => c.updateSite env oldSite newSite
  | .removeSite site => pure (some { s with cache := (removeSite site s.cache).1 })
  | .addStack stack => pure ((addStack stack s.cache).map fun r => { s with cache := r.1 })
  | .updateStack oldStack newStack =>
    pure (some { s with cache := (updateStack oldStack newStack s.cache).1 })
  | .removeStack stack => pure (some { s with cache := (removeStack stack s.cache).1 })
  | .assumeStack stack => pure (some { s with cache := (assumeStack stack s.cache).1 })
  | .forgetStack stack => pure (some { s with cache := (forgetStack stack s.cache).1 })
  | .updateQos env siteID metricDatas =>
    pure (some { s with cache := s.cache.updateQos env siteID metricDatas })
  | .updateSnapshot ord => do
    match ← updateSnapshot ord s with
    | none => pure none
    | some (s, _) => pure (some s)

/-- The call returns. -/
def Step (s : Session) (op : Call) (s' : Session) : Prop := call s op = .ok (some s')

variable {c : SiteCache} {s s' : Session} {stack : PodStack}

theorem getStackKey_of_ne (h : stack.uid ≠ "") : getStackKey stack = .ok stack.uid := if_neg h

theorem getStackKey_empty (h : stack.uid = "") :
    getStackKey stack = .error "Cannot get cache key for stack with empty UID" := if_pos h

/-! ### What every call keeps -/

theorem filed_kept : KeptByStacks (SiteCache.Filed ·) where
  add stack h := h.addStack stack
  remove stack h := h.removeStack stack
  states _ _ h := h.congr rfl rfl rfl

theorem filed_removeSite (h : c.Filed) (site : CachedSite) : (removeSite site c).1.Filed := by
  unfold removeSite
  split
  · exact (h.removeSiteCacheInfoFromList site.siteID).dropSite site
  · exact h

/-- The cache is in order, and no two names of the snapshot share a record. -/
structure Sound (s : Session) : Prop where
  filed : s.cache.Filed
  apart : s.snapshot.siteCacheInfoMap.Apart

theorem Sound.updateSnapshot (h : Sound s) (ord : List String) :
    ∃ s' err, updateSnapshot ord s = .ok (some (s', err)) ∧ Sound s' ∧
      (SiteCache.Copied s'.cache s'.snapshot ↔ SiteCache.CatchesUp s.cache s.snapshot) := by
  obtain ⟨c', list, err, hupdate, hdealt⟩ := updateSnapshot_ok h.filed ord s.snapshot
  refine ⟨_, err, by rw [SchedulerCache.updateSnapshot, hupdate]; rfl, ⟨hdealt.filed h.filed, ?_⟩, ?_⟩
  · exact apart_refresh h.filed h.apart
  · obtain ⟨siteTree, rfl, -, -⟩ := hdealt
    exact copied_refresh_iff h.filed h.apart

theorem sound_step (s : Session) (op : Call) (s' : Session) (h : Sound s) (hstep : Step s op s') :
    Sound s' := by
  have hfiled := h.filed
  cases op with
  | addSite env site =>
    obtain ⟨c', hcall, hs'⟩ := bind_ok.mp hstep
    cases hs'
    exact ⟨hfiled.addSite hcall, h.apart⟩
  | updateSite env oldSite newSite =>
    obtain ⟨c', hcall, hs'⟩ := bind_ok.mp hstep
    cases hs'
    exact ⟨hfiled.updateSite hcall, h.apart⟩
  | removeSite site =>
    cases hstep
    exact ⟨filed_removeSite hfiled site, h.apart⟩
  | addStack stack =>
    obtain ⟨r, hr, hs'⟩ := Option.map_eq_some_iff.mp (pure_ok.mp hstep)
    cases hs'
    exact ⟨filed_kept.of_addStack hfiled hr, h.apart⟩
  | updateStack oldStack newStack =>
    cases hstep
    exact ⟨filed_kept.of_updateStack hfiled oldStack newStack, h.apart⟩
  | removeStack stack =>
    cases hstep
    exact ⟨filed_kept.of_removeStack hfiled stack, h.apart⟩
  | assumeStack stack =>
    cases hstep
    exact ⟨filed_kept.of_assumeStack hfiled stack, h.apart⟩
  | forgetStack stack =>
    cases hstep
    exact ⟨filed_kept.of_forgetStack hfiled stack, h.apart⟩
  | updateQos env siteID metricDatas =>
    cases hstep
    exact ⟨(rewrites_updateQos env siteID metricDatas s.cache).filed hfiled fun _ => rfl, h.apart⟩
  | updateSnapshot ord =>
    obtain ⟨s₁, err, hupdate, hsound, -⟩ := h.updateSnapshot ord
    have hcall : call s (.updateSnapshot ord) = .ok (some s₁) := by
      rw [call, hupdate]
      rfl
    cases hstep.symm.trans hcall
    exact hsound

/-- **When the snapshot is a copy of the cache**: after any calls, an update of the snapshot
returns, and the map has the clones of the records with a site and nothing else exactly if
every such record that the loop over the list does not come to is in the snapshot as it is
now, and if a record without a site is cached then only where nothing is to be deleted. -/
theorem snapshot_is_copy_iff {ops : List Call} (h : Run Step (fun _ _ => True) {} ops s)
    (ord : List String) :
    ∃ s' err, updateSnapshot ord s = .ok (some (s', err)) ∧
      (SiteCache.Copied s'.cache s'.snapshot ↔ SiteCache.CatchesUp s.cache s.snapshot) := by
  have hsound : Sound s := h.invariant (fun s op s' hs _ hstep => sound_step s op s' hs hstep)
    ⟨filed_empty, RefMap.apart_empty⟩
  obtain ⟨s', err, hupdate, -, hiff⟩ := hsound.updateSnapshot ord
  exact ⟨s', err, hupdate, hiff⟩

theorem catchesUp_first {site : CachedSite} {info : CachedInfo}
    (h : SiteCache.Recorded site.siteID info {} c) (hnew : 0 < info.generation) :
    SiteCache.CatchesUp c {} := by
  refine ⟨fun siteID clone hunreached hclone => ?_, Or.inr fun siteID hmem => ?_⟩
  · have hgeneration : c.generationOf site.siteID = info.generation := by
      simp [generationOf, h.lookup_self]
    have hne : siteID ≠ site.siteID := by
      intro heq
      refine hunreached ?_
      rw [reached, h.recent, heq]
      show site.siteID ∈ Recency.reached c.generationOf 0 (site.siteID :: [])
      rw [Recency.reached_cons_of_lt (by rwa [hgeneration])]
      exact List.mem_cons_self
    rw [clone?, h.lookup_ne hne] at hclone
    cases hclone
  · exact absurd hmem (AList.notMem_empty siteID)

theorem snapshot_is_copy_iff_added : ∃ s s' err,
    Run Step (fun _ _ => True) {} [.addSite {} { siteID := "a" }] s ∧
      updateSnapshot [] s = .ok (some (s', err)) ∧
      (SiteCache.Copied s'.cache s'.snapshot ↔ SiteCache.CatchesUp s.cache s.snapshot) ∧
      SiteCache.CatchesUp s.cache s.snapshot := by
  obtain ⟨c', hcall, hrecorded, -, -⟩ := recorded_addSite {} { siteID := "a" } {}
  have hstep : Step {} (.addSite {} { siteID := "a" }) ⟨c', {}⟩ := by
    show (addSite {} { siteID := "a" } {} >>= _) = _
    rw [hcall]
    rfl
  have hrun : Run Step (fun _ _ => True) {} [.addSite {} { siteID := "a" }] ⟨c', {}⟩ :=
    (Run.nil _).snoc trivial hstep
  obtain ⟨s', err, hupdate, hiff⟩ := snapshot_is_copy_iff hrun []
  exact ⟨_, s', err, hrun, hupdate, hiff, catchesUp_first hrecorded (Nat.succ_pos 0)⟩

/-- The quality of a site's network changes after a snapshot; the next one does not have it. -/
theorem qos_not_copied : ∃ s s',
    Run Step (fun _ _ => True) {} [.addSite {} { siteID := "a" }, .updateSnapshot [],
      .updateQos {} "a" [{ city := "x", delay := .fin 1 }]] s ∧
      updateSnapshot [] s = .ok (some (s', none)) ∧ ¬ SiteCache.Copied s'.cache s'.snapshot := by
  refine ⟨_, _, (((Run.nil _).snoc trivial rfl).snoc trivial rfl).snoc trivial rfl, rfl, ?_⟩
  intro h
  have hqos := congrArg (Option.map fun info => info.qos.keys) (h "a")
  exact absurd hqos (by decide +kernel)

end GlobalScheduler.Cache.SchedulerCache
