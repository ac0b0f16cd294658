import GlobalScheduler.Framework.CycleState

/-! The plugin framework.

A plugin of each extension point is a record of its name and what it computes;
a `Framework` lists the plugins of a configuration, and the `run` functions call
them one after the other. Any function may stand in for a plugin. Two kinds carry
what the scheduler relies on: a strategy hands out only sites it was given, each
at most as often, and a binder that succeeds names the site of the record it was
given and never exchanges that site. -/
namespace GlobalScheduler

open Go Outcome Status

/-- A site of the priority list; `stackCount` is set by the strategies. -/
structure SiteScore where
  siteID : String
  region : String := ""
  az : String := ""
  score : Int := 0
  stackCount : Int := 0
deriving DecidableEq, Repr

def minSiteScore : Int := 0

def maxSiteScore : Int := 100

structure PreFilterPlugin where
  name : String
  preFilter : CycleState → Stack → Outcome (CycleState × Status)

structure FilterPlugin where
  name : String
  filter : CycleState → Stack → SiteCacheInfo → Outcome (CycleState × Status)

structure PreScorePlugin where
  name : String
  preScore : CycleState → Stack → List Site → Outcome (CycleState × Status)

structure ScorePlugin where
  name : String
  weight : Int := 1
  score : CycleState → Stack → SiteCacheInfo → Outcome (CycleState × Int × Status)

/-- A strategy turns the priority list into the list of sites to fill. -/
structure StrategyPlugin where
  name : String
  strategy : CycleState → Allocation → List SiteScore → Outcome (List SiteScore × Status)
  sublist : ∀ state alloc sites sites' status, strategy state alloc sites = .ok (sites', status) →
    (sites'.map SiteScore.siteID).Sublist (sites.map SiteScore.siteID)

/-- A binder books a stack on a site's record. The number says which replica of the
cycle it is: the runtime may choose other map orders for each. -/
structure BindPlugin where
  name : String
  bind : Nat → CycleState → Stack → SiteCacheInfo → Outcome (Status × Stack × SiteCacheInfo)
  keepsSite : ∀ i state stack info status stack' info',
    bind i state stack info = .ok (status, stack', info') → info'.site = info.site
  selects : ∀ i state stack info status stack' info',
    bind i state stack info = .ok (status, stack', info') → status.isSuccess = true →
    ∃ site, info.site = some site ∧ stack'.selected.siteID = site.siteID

structure Framework where
  preFilterPlugins : List PreFilterPlugin := []
  filterPlugins : List FilterPlugin := []
  preScorePlugins : List PreScorePlugin := []
  scorePlugins : List ScorePlugin := []
  strategyPlugins : List StrategyPlugin := []
  bindPlugins : List BindPlugin := []
  runAllFilters : Bool := false

/-- A name as `%q` prints it. -/
def quoted (s : String) : String := "\"" ++ s ++ "\""

namespace Framework

/-! ### Before filtering -/

def runPreFilterPlugins (stack : Stack) :
    List PreFilterPlugin → CycleState → Outcome (CycleState × Status)
  | [], state => pure (state, .nil)
  | pl :: rest, state => do
    let (state, status) ← pl.preFilter state stack
    if status.isSuccess then runPreFilterPlugins stack rest state
    else if status.isUnschedulable then
      pure (state, ⟨status.code,
        ["rejected by " ++ quoted pl.name ++ " at prefilter: " ++ status.message]⟩)
    else
      pure (state, ⟨.error, ["error while running " ++ quoted pl.name ++
        " prefilter plugin for pod " ++ quoted stack.podName ++ ": " ++ status.message]⟩)

/-! ### Filtering -/

/-- `RunFilterPlugins` on one site: the statuses of the plugins that refused, where
an error replaces all others. -/
def runFilters (runAll : Bool) (stack : Stack) (info : SiteCacheInfo) :
    List FilterPlugin → List Status → CycleState → Outcome (CycleState × List Status)
  | [], statuses, state => pure (state, statuses)
  | pl :: rest, statuses, state => do
    let (state, status) ← pl.filter state stack info
    if status.isSuccess then runFilters runAll stack info rest statuses state
    else if status.isUnschedulable then
      if runAll then runFilters runAll stack info rest (statuses ++ [status]) state
      else pure (state, statuses ++ [status])
    else
      pure (state, [⟨.error, ["running " ++ quoted pl.name ++ " filter plugin for pod " ++
        quoted stack.podName ++ ": " ++ status.message]⟩])

def runFilterPlugins (fw : Framework) (state : CycleState) (stack : Stack) (info : SiteCacheInfo) :
    Outcome (CycleState × List Status) :=
  runFilters fw.runAllFilters stack info fw.filterPlugins [] state

/-! ### Scoring -/

def runPreScorePlugins (stack : Stack) (sites : List Site) :
    List PreScorePlugin → CycleState → Outcome (CycleState × Status)
  | [], state => pure (state, .nil)
  | pl :: rest, state => do
    let (state, status) ← pl.preScore state stack sites
    if status.isSuccess then runPreScorePlugins stack sites rest state
    else
      pure (state, ⟨.error, ["error while running " ++ quoted pl.name ++
        " prescore plugin for pod " ++ quoted stack.podName ++ ": " ++ status.message]⟩)

/-- The raw scores of one site, a plugin each; the message of a plugin that failed. -/
def scoreSite (stack : Stack) (info : SiteCacheInfo) :
    List ScorePlugin → CycleState → Outcome (CycleState × Except String (List Int))
  | [], state => pure (state, .ok [])
  | pl :: rest, state => do
    let (state, score, status) ← pl.score state stack info
    if status.isSuccess then do
      let (state, scores) ← scoreSite stack info rest state
      pure (state, scores.map (score :: ·))
    else pure (state, .error status.message)

/-- A raw score out of range is an error, else it counts with the plugin's weight. -/
def applyWeight (pl : ScorePlugin) (score : Int) : Except String Int :=
  if score > maxSiteScore ∨ score < minSiteScore then
    .error ("score plugin " ++ quoted pl.name ++ " returns an invalid score " ++ toString score ++
      ", it should in the range of [" ++ toString minSiteScore ++ ", " ++ toString maxSiteScore ++
      "] after normalizing")
  else .ok (score * pl.weight)

/-! ### Binding and strategies -/

/-- The first plugin that does not skip decides; `status` is that of the plugin
before. -/
def runBinders (i : Nat) (state : CycleState) :
    List BindPlugin → Status → Stack → SiteCacheInfo → Outcome (Status × Stack × SiteCacheInfo)
  | [], status, stack, info => pure (status, stack, info)
  | bp :: rest, _, stack, info => do
    let (status, stack, info) ← bp.bind i state stack info
    if status.code = .skip then runBinders i state rest status stack info
    else if status.isSuccess then pure (status, stack, info)
    else
      pure (⟨.error, ["plugin " ++ quoted bp.name ++ " failed to bind pod \"" ++ stack.podName ++
        "\": " ++ status.message]⟩, stack, info)

def runBindPlugins (fw : Framework) (i : Nat) (state : CycleState) (stack : Stack)
    (info : SiteCacheInfo) : Outcome (Status × Stack × SiteCacheInfo) :=
  runBinders i state fw.bindPlugins ⟨.skip, [""]⟩ stack info

def runStrategyPlugins (state : CycleState) (alloc : Allocation) :
    List StrategyPlugin → List SiteScore → Outcome (List SiteScore × Status)
  | [], countList => pure (countList, .nil)
  | pl :: rest, countList => do
    let (countList, status) ← pl.strategy state alloc countList
    if status.isSuccess then runStrategyPlugins state alloc rest countList
    else
      pure ([], ⟨.error, ["plugin " ++ quoted pl.name ++ " failed to Strategy \"" ++
        alloc.stack.podName ++ "\": " ++ status.message]⟩)

/-! ### What the runners keep -/

/-- The plugins accept the site one after the other, each in the cycle state that the
one before it left. -/
def AcceptedBy (stack : Stack) (info : SiteCacheInfo) :
    List FilterPlugin → CycleState → CycleState → Prop
  | [], state, state' => state = state'
  | pl :: rest, state, state' => ∃ state₁ status, pl.filter state stack info = .ok (state₁, status) ∧
      status.isSuccess = true ∧ AcceptedBy stack info rest state₁ state'

variable {info info' : SiteCacheInfo} {stack stack' : Stack} {state : CycleState} {fw : Framework} {status : Status}

variable {pls : List FilterPlugin} {state' : CycleState}

theorem AcceptedBy.each {pl : FilterPlugin} (h : AcceptedBy stack info pls state state')
    (hpl : pl ∈ pls) :
    ∃ state₁ state₂ status, pl.filter state₁ stack info = .ok (state₂, status) ∧
      status.isSuccess = true := by
  induction pls generalizing state with
  | nil => cases hpl
  | cons first rest ih =>
    obtain ⟨state₁, status, hfilter, hsuccess, haccepted⟩ := h
    rcases List.mem_cons.mp hpl with rfl | hrest
    · exact ⟨state, state₁, status, hfilter, hsuccess⟩
    · exact ih haccepted hrest

/-- No filter means no refusal: what is recorded are refusals, and without any every
plugin accepted. -/
theorem runFilters_spec {runAll : Bool} {before after : List Status}
    (hbefore : ∀ s ∈ before, s.isSuccess = false)
    (h : runFilters runAll stack info pls before state = .ok (state', after)) :
    (∀ s ∈ after, s.isSuccess = false) ∧
      (after = [] → before = [] ∧ AcceptedBy stack info pls state state') := by
  induction pls generalizing before state with
  | nil =>
    cases h
    exact ⟨hbefore, fun hnil => ⟨hnil, rfl⟩⟩
  | cons pl rest ih =>
    obtain ⟨⟨state₁, status⟩, hpl, h⟩ := bind_ok.mp h
    have hadd : status.isSuccess = false → ∀ s ∈ before ++ [status], s.isSuccess = false := by
      intro hs s hmem
      rcases List.mem_append.mp hmem with hb | hl
      · exact hbefore s hb
      · rw [List.mem_singleton.mp hl]
        exact hs
    dsimp only at h
    split at h
    case isTrue hsucc =>
      obtain ⟨hafter, hall⟩ := ih hbefore h
      exact ⟨hafter, fun hnil => ⟨(hall hnil).1, state₁, status, hpl, hsucc, (hall hnil).2⟩⟩
    case isFalse hfail =>
      have hfail : status.isSuccess = false := by simpa using hfail
      split at h
      · split at h
        · obtain ⟨hafter, hall⟩ := ih (hadd hfail) h
          exact ⟨hafter, fun hnil => absurd (hall hnil).1 (by simp)⟩
        · cases h
          exact ⟨hadd hfail, fun hnil => absurd hnil (by simp)⟩
      · cases h
        exact ⟨by simp [isSuccess], fun hnil => absurd hnil (by simp)⟩

/-- **A site whose statuses merge to a success passed every filter.** -/
theorem runFilterPlugins_accepts {statuses : List Status}
    (h : fw.runFilterPlugins state stack info = .ok (state', statuses))
    (hsucc : (merge statuses).isSuccess = true) : AcceptedBy stack info fw.filterPlugins state state' := by
  obtain ⟨hrefused, hall⟩ := runFilters_spec (by simp) h
  exact (hall (merge_isSuccess hrefused hsucc)).2

variable {i : Nat} {bps : List BindPlugin}

theorem runBinders_keepsSite {status' : Status}
    (h : runBinders i state bps status stack info = .ok (status', stack', info')) :
    info'.site = info.site := by
  induction bps generalizing status stack info with
  | nil =>
    cases h
    rfl
  | cons bp rest ih =>
    obtain ⟨⟨st, stack₁, info₁⟩, hbind, h⟩ := bind_ok.mp h
    have hkeep := bp.keepsSite _ _ _ _ _ _ _ hbind
    dsimp only at h
    split at h
    · exact (ih h).trans hkeep
    · split at h
      · cases h
        exact hkeep
      · cases h
        exact hkeep

theorem runBinders_selects {status' : Status} (hstatus : status.isSuccess = false)
    (h : runBinders i state bps status stack info = .ok (status', stack', info'))
    (hok : status'.isSuccess = true) :
    ∃ site, info.site = some site ∧ stack'.selected.siteID = site.siteID := by
  induction bps generalizing status stack info with
  | nil =>
    cases h
    rw [hstatus] at hok
    cases hok
  | cons bp rest ih =>
    obtain ⟨⟨st, stack₁, info₁⟩, hbind, h⟩ := bind_ok.mp h
    dsimp only at h
    split at h
    case isTrue hskip =>
      -- The plugin skipped, and a later one bound the stack to the same site.
      obtain ⟨site, hsite, hsel⟩ := ih (by simp [isSuccess, hskip]) h
      exact ⟨site, bp.keepsSite _ _ _ _ _ _ _ hbind ▸ hsite, hsel⟩
    case isFalse =>
      split at h
      case isTrue hsucc =>
        cases h
        exact bp.selects _ _ _ _ _ _ _ hbind hsucc
      case isFalse =>
        cases h
        cases hok

theorem runBindPlugins_keepsSite
    (h : fw.runBindPlugins i state stack info = .ok (status, stack', info')) : info'.site = info.site :=
  runBinders_keepsSite h

theorem runBindPlugins_selects (h : fw.runBindPlugins i state stack info = .ok (status, stack', info'))
    (hok : status.isSuccess = true) : ∃ site, info.site = some site ∧ stack'.selected.siteID = site.siteID :=
  runBinders_selects rfl h hok

theorem runStrategyPlugins_sublist {alloc : Allocation} {pls : List StrategyPlugin} {sites sites' : List SiteScore}
    (h : runStrategyPlugins state alloc pls sites = .ok (sites', status)) :
    (sites'.map SiteScore.siteID).Sublist (sites.map SiteScore.siteID) := by
  induction pls generalizing sites with
  | nil =>
    cases h
    exact List.Sublist.refl _
  | cons pl rest ih =>
    obtain ⟨⟨sites₁, st⟩, hpl, h⟩ := bind_ok.mp h
    dsimp only at h
    split at h
    · exact (ih h).trans (pl.sublist _ _ _ _ _ hpl)
    · cases h
      exact List.nil_sublist _

end Framework

end GlobalScheduler
