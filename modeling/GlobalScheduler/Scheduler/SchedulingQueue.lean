import GlobalScheduler.Scheduler.Heap
import GlobalScheduler.Types
import GlobalScheduler.Go.Int64

/-! The scheduling queue.

A stack that waits to be scheduled is in one of three places: `activeQ`, from which it is
popped, `stackBackoffQ`, until its backoff has run out, or `unschedulableQ`, until something
happens that may make it schedulable. The first two are heaps that find a stack by its
tenant, namespace and name. The third is a map that finds it by its name and namespace
alone. -/
namespace GlobalScheduler.SchedulingQueue

open Go AList

/-- Times and durations, in nanoseconds from the zero time. -/
abbrev Time := Int

def second : Time := 1000000000

@[ext]
structure NamespacedName where
  tenant : String
  nameSpace : String
  name : String
deriving DecidableEq

variable (stack : PodStack)

def nsNameForStack : NamespacedName where
  tenant := stack.tenant
  nameSpace := stack.podNamespace
  name := stack.podName

/-- What the clock is read for during a call. -/
inductive Reading where
  | added
  | checked
  | cleanedUp
  | backedOff
deriving DecidableEq

/-- What the clock shows during a call, at the reading it is asked for with a stack. -/
abbrev Clock := Reading → NamespacedName → Time

structure StackInfo where
  stack : PodStack
  timestamp : Time
deriving DecidableEq

def stackKey : String := stack.tenant ++ "/" ++ stack.podNamespace ++ "/" ++ stack.podName

def stackInfoKeyFunc (info : StackInfo) : String := stackKey info.stack

def getStackFullName : String := stack.podName ++ "_" ++ stack.podNamespace

def newStackInfo (clock : Clock) (stack : PodStack) : StackInfo where
  stack := stack
  timestamp := clock .added (nsNameForStack stack)

def newStackInfoNoTimestamp : StackInfo where
  stack := stack
  timestamp := 0

/-! ### The backoff of the stacks -/

structure StackBackoffMap where
  initialDuration : Time
  maxDuration : Time
  stackAttempts : Map NamespacedName Nat := ∅
  stackLastUpdateTime : Map NamespacedName Time := ∅

namespace StackBackoffMap

/-- The duration doubles with each further attempt, in the 64 bits of a `time.Duration`. -/
def doubled (maxDuration : Time) : Nat → Time → Time
  | 0, backoffDuration => backoffDuration
  | attempts + 1, backoffDuration =>
    if int64 (backoffDuration * 2) > maxDuration then maxDuration
    else doubled maxDuration attempts (int64 (backoffDuration * 2))

def calculateBackoffDuration (pbm : StackBackoffMap) (nsStack : NamespacedName) : Time :=
  match pbm.stackAttempts.lookup nsStack with
  | some attempts => doubled pbm.maxDuration (attempts - 1) pbm.initialDuration
  | none => pbm.initialDuration

def getBackoffTime (pbm : StackBackoffMap) (nsStack : NamespacedName) : Option Time :=
  match pbm.stackAttempts.lookup nsStack with
  | none => none
  | some _ =>
    some ((pbm.stackLastUpdateTime.lookup nsStack).getD 0 + pbm.calculateBackoffDuration nsStack)

def clearStackBackoff (nsStack : NamespacedName) (pbm : StackBackoffMap) : StackBackoffMap :=
  { pbm with
    stackAttempts := pbm.stackAttempts.erase nsStack
    stackLastUpdateTime := pbm.stackLastUpdateTime.erase nsStack }

def cleanupStacksCompletesBackingoff (clock : Clock) (pbm : StackBackoffMap) : StackBackoffMap :=
  pbm.stackLastUpdateTime.entries.foldl (fun pbm' entry =>
    if entry.2 + pbm.maxDuration < clock .cleanedUp entry.1 then pbm'.clearStackBackoff entry.1
    else pbm') pbm

def backoffStack (clock : Clock) (nsStack : NamespacedName) (pbm : StackBackoffMap) :
    StackBackoffMap :=
  { pbm with
    stackLastUpdateTime := pbm.stackLastUpdateTime.insert nsStack (clock .backedOff nsStack)
    stackAttempts :=
      pbm.stackAttempts.insert nsStack ((pbm.stackAttempts.lookup nsStack).getD 0 + 1) }

end StackBackoffMap

/-! ### The unschedulable stacks -/

theorem getStackFullName_of_empty (key : String) (info : StackInfo)
    (h : (∅ : Map String StackInfo).lookup key = some info) : getStackFullName info.stack = key := by
  simp at h

/-- The unschedulable stacks, each under its full name. -/
structure UnschedulableStacksMap where
  stackInfoMap : Map String StackInfo := ∅
  keyed : ∀ key info, stackInfoMap.lookup key = some info → getStackFullName info.stack = key := by
    exact getStackFullName_of_empty

namespace UnschedulableStacksMap

def get (stack : PodStack) (u : UnschedulableStacksMap) : Option StackInfo :=
  u.stackInfoMap.lookup (getStackFullName stack)

def addOrUpdate (pInfo : StackInfo) (u : UnschedulableStacksMap) : UnschedulableStacksMap where
  stackInfoMap := u.stackInfoMap.insert (getStackFullName pInfo.stack) pInfo
  keyed key info hinfo := by
    by_cases hkey : key = getStackFullName pInfo.stack
    · rw [hkey, lookup_insert] at hinfo
      cases hinfo
      exact hkey.symm
    · rw [lookup_insert_ne hkey] at hinfo
      exact u.keyed key info hinfo

def delete (stack : PodStack) (u : UnschedulableStacksMap) : UnschedulableStacksMap where
  stackInfoMap := u.stackInfoMap.erase (getStackFullName stack)
  keyed key info hinfo := by
    by_cases hkey : key = getStackFullName stack
    · rw [hkey, lookup_erase] at hinfo
      cases hinfo
    · rw [lookup_erase_ne hkey] at hinfo
      exact u.keyed key info hinfo

def list (u : UnschedulableStacksMap) : List StackInfo := u.stackInfoMap.entries.map Sigma.snd

/-- The stacks in the order of a loop over the map. -/
def range (ord : List String) (u : UnschedulableStacksMap) : List StackInfo :=
  (Map.entriesBy ord u.stackInfoMap).map Prod.snd

end UnschedulableStacksMap

/-! ### The nominated stacks -/

def nominatedSiteID (_stack : PodStack) : String := ""

/-- The stacks nominated to run on a site, and the site of each by its UID. -/
structure NominatedStackMap where
  nominatedStacks : Map String (List PodStack) := ∅
  nominatedStackToSite : Map String String := ∅

namespace NominatedStackMap

def delete (stack : PodStack) (npm : NominatedStackMap) : NominatedStackMap :=
  match npm.nominatedStackToSite.lookup stack.uid with
  | none => npm
  | some siteID =>
    let nominated := (npm.nominatedStacks.lookup siteID).getD []
    let remaining := nominated.eraseP (·.uid = stack.uid)
    { nominatedStacks :=
        if nominated.any (·.uid = stack.uid) then
          if remaining = [] then npm.nominatedStacks.erase siteID
          else npm.nominatedStacks.insert siteID remaining
        else npm.nominatedStacks
      nominatedStackToSite := npm.nominatedStackToSite.erase stack.uid }

section
-- The site a stack nominates itself, for any such function.
variable (nominatedSiteID : PodStack → String)

def addWith (stack : PodStack) (siteID : String) (npm : NominatedStackMap) : NominatedStackMap :=
  let npm := npm.delete stack
  let siteID := if siteID = "" then nominatedSiteID stack else siteID
  if siteID = "" then npm
  else
    let nominated := (npm.nominatedStacks.lookup siteID).getD []
    { nominatedStacks :=
        if nominated.any (·.uid = stack.uid) then npm.nominatedStacks
        else npm.nominatedStacks.insert siteID (nominated ++ [stack])
      nominatedStackToSite := npm.nominatedStackToSite.insert stack.uid siteID }

/-- A site that was nominated for the old stack stays nominated for the new one. -/
def updateWith (oldStack newStack : PodStack) (npm : NominatedStackMap) : NominatedStackMap :=
  let siteID :=
    if nominatedSiteID oldStack = "" ∧ nominatedSiteID newStack = "" then
      (npm.nominatedStackToSite.lookup oldStack.uid).getD ""
    else ""
  (npm.delete oldStack).addWith nominatedSiteID newStack siteID

end

def add : PodStack → String → NominatedStackMap → NominatedStackMap := addWith nominatedSiteID

def update : PodStack → PodStack → NominatedStackMap → NominatedStackMap := updateWith nominatedSiteID

end NominatedStackMap

/-! ### The queue -/

def getStackPriority (_stack : PodStack) : Int := 0

def activeQComp (stackInfo1 stackInfo2 : StackInfo) : Bool :=
  let prio1 := getStackPriority stackInfo1.stack
  let prio2 := getStackPriority stackInfo2.stack
  prio1 > prio2 ∨ prio1 = prio2 ∧ stackInfo1.timestamp < stackInfo2.timestamp

def unschedulableQTimeInterval : Time := 60 * second

structure PriorityQueue where
  stackBackoff : StackBackoffMap :=
    { initialDuration := 1 * second, maxDuration := 10 * second }
  activeQ : Heap stackInfoKeyFunc := {}
  stackBackoffQ : Heap stackInfoKeyFunc := {}
  unschedulableQ : UnschedulableStacksMap := {}
  nominatedStacks : NominatedStackMap := {}
  schedulingCycle : Int := 0
  moveRequestCycle : Int := -1
  closed : Bool := false

/-- The order of `stackBackoffQ`: the earlier end of the backoff goes first. -/
def stacksCompareBackoffCompleted (pbm : StackBackoffMap) (stackInfo1 stackInfo2 : StackInfo) :
    Bool :=
  (pbm.getBackoffTime (nsNameForStack stackInfo1.stack)).getD 0 <
    (pbm.getBackoffTime (nsNameForStack stackInfo2.stack)).getD 0

def isStackUpdated (oldStack newStack : PodStack) : Bool := oldStack ≠ newStack

namespace PriorityQueue

def isStackBackingOff (clock : Clock) (stack : PodStack) (p : PriorityQueue) : Bool :=
  match p.stackBackoff.getBackoffTime (nsNameForStack stack) with
  | none => false
  | some boTime => clock .checked (nsNameForStack stack) < boTime

def backoffStack (clock : Clock) (stack : PodStack) (p : PriorityQueue) : PriorityQueue :=
  let stackBackoff := p.stackBackoff.cleanupStacksCompletesBackingoff clock
  let stackID := nsNameForStack stack
  match stackBackoff.getBackoffTime stackID with
  | none => { p with stackBackoff := stackBackoff.backoffStack clock stackID }
  | some boTime =>
    if boTime < clock .checked stackID then
      { p with stackBackoff := stackBackoff.backoffStack clock stackID }
    else { p with stackBackoff := stackBackoff }

section
-- The order of `activeQ`: `activeQComp`, or what the framework sorts by.
variable (comp : StackInfo → StackInfo → Bool)

variable (pInfo : StackInfo)

variable (p : PriorityQueue)

def addActive : PriorityQueue :=
  { p with activeQ := p.activeQ.add comp pInfo }

def addBackoff : PriorityQueue :=
  { p with
    stackBackoffQ := p.stackBackoffQ.add (stacksCompareBackoffCompleted p.stackBackoff) pInfo }

def add (clock : Clock) (stack : PodStack) (p : PriorityQueue) : PriorityQueue :=
  let pInfo := newStackInfo clock stack
  { p with
    activeQ := p.activeQ.add comp pInfo
    unschedulableQ :=
      if (p.unschedulableQ.get stack).isSome then p.unschedulableQ.delete stack
      else p.unschedulableQ
    stackBackoffQ :=
      p.stackBackoffQ.deleteIfPresent (stacksCompareBackoffCompleted p.stackBackoff) pInfo
    nominatedStacks := p.nominatedStacks.add stack "" }

def addIfNotPresent (clock : Clock) (stack : PodStack) (p : PriorityQueue) : PriorityQueue :=
  let pInfo := newStackInfo clock stack
  if (p.unschedulableQ.get stack).isSome then p
  else if (p.activeQ.get pInfo).isSome then p
  else if (p.stackBackoffQ.get pInfo).isSome then p
  else { p.addActive comp pInfo with nominatedStacks := p.nominatedStacks.add stack "" }

/-- Where a stack goes that could not be scheduled: into `stackBackoffQ` if there has been a
move request since. -/
def setAside (stackSchedulingCycle : Int) (p : PriorityQueue) : PriorityQueue :=
  if p.moveRequestCycle ≥ stackSchedulingCycle then p.addBackoff pInfo
  else { p with unschedulableQ := p.unschedulableQ.addOrUpdate pInfo }

def addUnschedulableIfNotPresent (clock : Clock) (stack : PodStack) (stackSchedulingCycle : Int)
    (p : PriorityQueue) : Except String PriorityQueue :=
  let pInfo := newStackInfo clock stack
  if (p.unschedulableQ.get stack).isSome then
    .error "stack is already present in unschedulableQ"
  else if (p.activeQ.get pInfo).isSome then
    .error "stack is already present in the activeQ"
  else if (p.stackBackoffQ.get pInfo).isSome then
    .error "stack is already present in the backoffQ"
  else
    let p := (p.backoffStack clock stack).setAside pInfo stackSchedulingCycle
    .ok { p with nominatedStacks := p.nominatedStacks.add stack "" }

/-- The loop of `flushBackoffQCompleted`, with the clock values it reads, in order. What is
popped from `stackBackoffQ` is what was peeked at. -/
def flushBackoffQ (clock : Clock) (p : PriorityQueue) : PriorityQueue × List Time :=
  match p.stackBackoffQ.peek with
  | none => (p, [])
  | some stackInfo =>
    let nsStack := nsNameForStack stackInfo.stack
    -- A stack without a backoff time is taken over too, without a look at the clock.
    let read := match p.stackBackoff.getBackoffTime nsStack with
      | none => []
      | some _ => [clock .checked nsStack]
    let waits := match p.stackBackoff.getBackoffTime nsStack with
      | none => false
      | some boTime => clock .checked nsStack < boTime
    if waits then (p, read)
    else
      match _hpop : p.stackBackoffQ.pop (stacksCompareBackoffCompleted p.stackBackoff) with
      | none => (p, read)
      | some (_, stackBackoffQ) =>
        let flushed := flushBackoffQ clock
          { p with stackBackoffQ := stackBackoffQ, activeQ := p.activeQ.add comp stackInfo }
        (flushed.1, read ++ flushed.2)
termination_by p.stackBackoffQ.queue.length
decreasing_by exact (Heap.pop_eq_some _ _hpop).2.2

def flushBackoffQCompleted (clock : Clock) (p : PriorityQueue) : PriorityQueue := (p.flushBackoffQ comp clock).1

def flushReadings (clock : Clock) (p : PriorityQueue) : List Time := (p.flushBackoffQ comp clock).2

/-- A stack of `unschedulableQ` is put where it may be scheduled from. -/
def requeue (clock : Clock) (pInfo : StackInfo) (p : PriorityQueue) : PriorityQueue :=
  if p.isStackBackingOff clock pInfo.stack then p.addBackoff pInfo else p.addActive comp pInfo

def moveAllToActiveQueue (ord : List String) (clock : Clock) (p : PriorityQueue) : PriorityQueue :=
  let p := (p.unschedulableQ.range ord).foldl (fun p pInfo => p.requeue comp clock pInfo) p
  { p with unschedulableQ := {}, moveRequestCycle := p.schedulingCycle }

/-- A round of `moveStacksToActiveQueue`. -/
def moved (clock : Clock) (p : PriorityQueue) (pInfo : StackInfo) : PriorityQueue :=
  let p := p.requeue comp clock pInfo
  { p with unschedulableQ := p.unschedulableQ.delete pInfo.stack }

def moveStacksToActiveQueue (clock : Clock) (stackInfoList : List StackInfo) (p : PriorityQueue) :
    PriorityQueue :=
  let p := stackInfoList.foldl (fun p pInfo => p.moved comp clock pInfo) p
  { p with moveRequestCycle := p.schedulingCycle }

def flushUnschedulableQLeftover (ord : List String) (currentTime : Time) (clock : Clock)
    (p : PriorityQueue) : PriorityQueue :=
  let stacksToMove := (p.unschedulableQ.range ord).filter fun pInfo =>
    currentTime - pInfo.timestamp > unschedulableQTimeInterval
  if stacksToMove = [] then p else p.moveStacksToActiveQueue comp clock stacksToMove

/-- There is nothing to pop from an empty `activeQ`: the call waits, and returns an error
once the queue is closed. -/
def pop : Option (PodStack × PriorityQueue) :=
  match p.activeQ.pop comp with
  | none => none
  | some (pInfo, activeQ) =>
    some (pInfo.stack, { p with activeQ := activeQ, schedulingCycle := p.schedulingCycle + 1 })

/-- The last part of `Update`: the stack is in neither heap. -/
def updateUnqueued (clock : Clock) (oldStack : Option PodStack) (newStack : PodStack)
    (p : PriorityQueue) : Outcome PriorityQueue :=
  match p.unschedulableQ.get newStack with
  | some usStackInfo =>
    match oldStack with
    | none => throw .nilPointer
    | some oldStack =>
      let p := { p with nominatedStacks := p.nominatedStacks.update oldStack newStack }
      let newStackInfo := { stack := newStack, timestamp := usStackInfo.timestamp }
      if isStackUpdated oldStack newStack then
        let p := { p with
          stackBackoff := p.stackBackoff.clearStackBackoff (nsNameForStack newStack)
          unschedulableQ := p.unschedulableQ.delete usStackInfo.stack }
        pure (p.addActive comp newStackInfo)
      else pure { p with unschedulableQ := p.unschedulableQ.addOrUpdate newStackInfo }
  | none =>
    let p := p.addActive comp (newStackInfo clock newStack)
    pure { p with nominatedStacks := p.nominatedStacks.add newStack "" }

def update (clock : Clock) (oldStack : Option PodStack) (newStack : PodStack) (p : PriorityQueue) :
    Outcome PriorityQueue :=
  match oldStack with
  | none => p.updateUnqueued comp clock none newStack
  | some old =>
    match p.activeQ.get (newStackInfoNoTimestamp old) with
    | some oldStackInfo =>
      pure { p with
        nominatedStacks := p.nominatedStacks.update old newStack
        activeQ := p.activeQ.update comp
          { stack := newStack, timestamp := oldStackInfo.timestamp } }
    | none =>
      match p.stackBackoffQ.get (newStackInfoNoTimestamp old) with
      | some oldStackInfo =>
        pure { p with
          nominatedStacks := p.nominatedStacks.update old newStack
          stackBackoffQ := p.stackBackoffQ.deleteIfPresent
            (stacksCompareBackoffCompleted p.stackBackoff) (newStackInfoNoTimestamp old)
          activeQ := p.activeQ.add comp
            { stack := newStack, timestamp := oldStackInfo.timestamp } }
      | none => p.updateUnqueued comp clock (some old) newStack

def delete (stack : PodStack) (p : PriorityQueue) : PriorityQueue :=
  let p := { p with nominatedStacks := p.nominatedStacks.delete stack }
  match p.activeQ.delete comp (newStackInfoNoTimestamp stack) with
  | .ok activeQ => { p with activeQ := activeQ }
  | .error _ =>
    let p := { p with stackBackoff := p.stackBackoff.clearStackBackoff (nsNameForStack stack) }
    { p with
      stackBackoffQ := p.stackBackoffQ.deleteIfPresent
        (stacksCompareBackoffCompleted p.stackBackoff) (newStackInfoNoTimestamp stack)
      unschedulableQ := p.unschedulableQ.delete stack }

end

def pendingStacks (p : PriorityQueue) : List PodStack :=
  p.activeQ.list.map StackInfo.stack ++ p.stackBackoffQ.list.map StackInfo.stack ++
    p.unschedulableQ.list.map StackInfo.stack

end PriorityQueue

end GlobalScheduler.SchedulingQueue
