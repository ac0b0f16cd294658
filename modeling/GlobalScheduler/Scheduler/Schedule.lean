import Mathlib.Data.List.Sort
import GlobalScheduler.Framework.Framework
import GlobalScheduler.Snapshot

/-! One scheduling cycle.

`schedule` runs the phases of `Scheduler.Schedule` over a framework of plugins:
filter the sites, rank them, let the strategies choose how many copies each gets,
and bind the copies one by one. The workers of the parallel phases are taken in
one order, the runtime's: what they share is the cycle state, which each of them
updates in one locked step. -/
namespace GlobalScheduler

open Go Framework

namespace Schedule

/-! ### Filtering -/

/-- The records to look at: that of the selected site, or all. -/
def candidates (ord : List String) (snap : Snapshot) (stack : Stack) : List SiteCacheInfo :=
  let all := (Map.entriesBy ord snap.siteCacheInfoMap).map Prod.snd
  if stack.selector.siteID = "" then all
  else match snap.siteCacheInfoMap.lookup stack.selector.siteID with
    | some info => [info]
    | none => all

/-- The sites that pass, and the statuses of those that do not. -/
def checkSites (fw : Framework) (stack : Stack) : List SiteCacheInfo → CycleState →
    Outcome (CycleState × Except String (List Site × List (String × Status)))
  | [], state => pure (state, .ok ([], []))
  | info :: rest, state => do
    let (state, statuses) ← fw.runFilterPlugins state stack info
    let status := Status.merge statuses
    if !status.isSuccess && !status.isUnschedulable then pure (state, .error status.message)
    else do
      let site ← info.getSite
      let (state, others) ← checkSites fw stack rest state
      pure (state, others.map fun (passed, refused) =>
        if status.isSuccess then (site :: passed, refused)
        else (passed, (site.siteID, status) :: refused))

def findSitesThatPassFilters (fw : Framework) (ord : List String) (snap : Snapshot) (stack : Stack)
    (state : CycleState) :
    Outcome (CycleState × Except String (List Site × List (String × Status))) :=
  let infos := candidates ord snap stack
  if infos = [] then
    pure (state, .error ("SiteCacheInfoMap of " ++ stack.selector.siteID ++ " is null"))
  else if fw.filterPlugins.isEmpty then do
    let sites ← infos.mapM SiteCacheInfo.getSite
    pure (state, .ok (sites, []))
  else checkSites fw stack infos state

/-- `SiteToStatusMap.ToString`. -/
def statusesText (statuses : List (String × Status)) : String :=
  String.join (statuses.map fun e => e.1 ++ ":[" ++ e.2.message ++ "]")

/-! ### Ranking -/

/-- The raw scores of every site; the record is that filed under the site's ID. -/
def scoreSites (fw : Framework) (snap : Snapshot) (stack : Stack) : List Site → CycleState →
    Outcome (CycleState × Except String (List (Site × List Int)))
  | [], state => pure (state, .ok [])
  | site :: rest, state =>
    match snap.siteCacheInfoMap.lookup site.siteID with
    | none => throw .nilPointer
    | some info => do
      let (state, scores) ← scoreSite stack info fw.scorePlugins state
      match scores with
      | .error e => pure (state, .error e)
      | .ok scores => do
        let (state, others) ← scoreSites fw snap stack rest state
        pure (state, others.map ((site, scores) :: ·))

def totalScore (fw : Framework) (scores : List Int) : Except String Int := do
  let weighted ← (fw.scorePlugins.zip scores).mapM fun e => applyWeight e.1 e.2
  pure weighted.sum

/-- Best first; sites of equal score keep the order they came in. -/
def sortByScore (sites : List SiteScore) : List SiteScore :=
  sites.insertionSort fun a b => b.score ≤ a.score

def rankSites (fw : Framework) (scored : List (Site × List Int)) : Except String (List SiteScore) := do
  let ranked ← scored.mapM fun e => do
    let score ← totalScore fw e.2
    pure { siteID := e.1.siteID, region := e.1.regionAzMap.region,
           az := e.1.regionAzMap.availabilityZone, score := score : SiteScore }
  pure (sortByScore ranked)

def whileScoring (doing : String) (stack : Stack) (err : String) : String :=
  "error while " ++ doing ++ " for pod " ++ quoted stack.podName ++ ": " ++ err

def prioritizeSites (fw : Framework) (snap : Snapshot) (stack : Stack) (sites : List Site)
    (state : CycleState) : Outcome (CycleState × Except String (List SiteScore)) :=
  if fw.scorePlugins.isEmpty then
    pure (state, .ok (sites.map fun site => { siteID := site.siteID, score := 1 }))
  else do
    let (state, scored) ← scoreSites fw snap stack sites state
    pure (state, do
      let scored ← scored.mapError (whileScoring "running score plugin" stack)
      (rankSites fw scored).mapError (whileScoring "applying score defaultWeights" stack))

/-! ### Up to the strategies -/

/-- What the phases before the strategies leave: the cycle state, the sites that
passed the filters and the priority list. -/
structure Prioritized where
  state : CycleState
  passed : List Site
  priorityList : List SiteScore

/-- The allocation with the selector copied into its stack. -/
def withSelector (alloc : Allocation) : Allocation :=
  { alloc with stack := { alloc.stack with selector := alloc.selector } }

def rank (fw : Framework) (snap : Snapshot) (stack : Stack) (passed : List Site)
    (state : CycleState) : Outcome (Except String Prioritized) := do
  let (state, status) ← runPreScorePlugins stack passed fw.preScorePlugins state
  if status.isSuccess then do
    let (state, list) ← prioritizeSites fw snap stack passed state
    pure (list.map fun list => ⟨state, passed, list⟩)
  else pure (.error status.message)

/-- Phases 2 to 5; the error is the one `Schedule` returns. -/
def prioritize (fw : Framework) (ord : List String) (snap : Snapshot) (alloc : Allocation) :
    Outcome (Except String Prioritized) := do
  let (state, status) ← runPreFilterPlugins alloc.stack fw.preFilterPlugins {}
  if status.isSuccess then do
    let stack := (withSelector alloc).stack
    let (state, found) ← findSitesThatPassFilters fw ord snap stack state
    match found with
    | .error e => pure (.error e)
    | .ok (passed, refused) =>
      if passed = [] then
        pure (.error ("filter none site. resultStatus: " ++ statusesText refused))
      else rank fw snap stack passed state
  else pure (.error status.message)

/-! ### Binding -/

/-- What the bind loop has done: the records, the resources as the binder left them,
the replicas bound so far and their number. The copies of the stack share their
resources, so a later replica changes what an earlier one shows; `bound` keeps each
replica as it was when it was bound. -/
structure Progress where
  snapshot : Snapshot
  resources : List Resource
  bound : List Stack := []

namespace Progress

/-- `count` of the loop. -/
def count (p : Progress) : Int := p.bound.length

end Progress

/-- The error `Scheduler.bind` makes of a binder's status. -/
def bindError (status : Status) : Option String :=
  if status.isSuccess then none
  else if status.code = .error then some status.message
  else some ("bind status: " ++ status.code.toString ++ ", " ++ status.message)

/-- `Scheduler.bind` on the record filed under `siteID`; what the binder wrote stays
written when it fails. -/
def bindOne (fw : Framework) (state : CycleState) (stack : Stack) (siteID : String)
    (p : Progress) : Outcome (Option String × Progress) :=
  match hinfo : p.snapshot.siteCacheInfoMap.lookup siteID with
  | none => throw .nilPointer
  | some info =>
    match hbind : fw.runBindPlugins p.bound.length state
        { stack with resources := p.resources } info with
    | .error panic => .error panic
    | .ok (status, stack', info') =>
      pure (bindError status, {
        snapshot := p.snapshot.put siteID info' (by
          intro site hsite
          rw [runBindPlugins_keepsSite hbind] at hsite
          exact p.snapshot.keyed siteID info site hinfo hsite)
        resources := stack'.resources
        bound := if status.isSuccess then p.bound ++ [stack'] else p.bound })

def bindCopies (fw : Framework) (state : CycleState) (alloc : Allocation) (siteID : String) :
    Nat → Progress → Outcome (Option String × Progress)
  | 0, p => pure (none, p)
  | n + 1, p => do
    let (err, p) ← bindOne fw state alloc.stack siteID p
    match err with
    | some e => pure (some e, p)
    | none =>
      if p.count ≥ alloc.replicas then pure (none, p)
      else bindCopies fw state alloc siteID n p

def bindSites (fw : Framework) (state : CycleState) (alloc : Allocation) :
    List SiteScore → Progress → Outcome (Option String × Progress)
  | [], p => pure (none, p)
  | value :: rest, p => do
    let (err, p) ← bindCopies fw state alloc value.siteID value.stackCount.toNat p
    match err with
    | some e => pure (some e, p)
    | none =>
      if p.count ≥ alloc.replicas then pure (none, p)
      else bindSites fw state alloc rest p

/-! ### The whole cycle -/

/-- What a call of `Schedule` gives back and leaves behind. `stackList` is
`result.Stacks`; `bound` lists the same replicas as they were when bound. -/
structure Result where
  stackList : List Stack := []
  err : Option String := none
  snapshot : Snapshot
  bound : List Stack := []

/-- The replicas as the caller sees them: all show the shared resources. -/
def shown (p : Progress) : List Stack := p.bound.map fun s => { s with resources := p.resources }

/-- Phases 6 and 7. A refusal by a strategy is returned with the error variable of
the phases before, which is nil here. -/
def place (fw : Framework) (snap : Snapshot) (alloc : Allocation) (prio : Prioritized) :
    Outcome Result := do
  let (siteCount, status) ←
    runStrategyPlugins prio.state alloc fw.strategyPlugins prio.priorityList
  if status.isSuccess then do
    let (err, p) ← bindSites fw prio.state alloc siteCount ⟨snap, alloc.stack.resources, []⟩
    let err := match err with
      | some e => some e
      | none => if p.count < alloc.replicas then some "not find suit host" else none
    pure { stackList := shown p, err := err, snapshot := p.snapshot, bound := p.bound }
  else pure { err := none, snapshot := snap }

end Schedule

/-- `Scheduler.Schedule`, from the prefilter plugins on. -/
def schedule (fw : Framework) (ord : List String) (snap : Snapshot) (alloc : Allocation) :
    Outcome Schedule.Result := do
  match ← Schedule.prioritize fw ord snap alloc with
  | .error e => pure { err := some e, snapshot := snap }
  | .ok prio => Schedule.place fw snap (Schedule.withSelector alloc) prio

end GlobalScheduler
