import GlobalScheduler.Framework.Framework
import GlobalScheduler.Go.Int64
import GlobalScheduler.LastWrite

/-! From a plugin configuration to a framework.

A configuration names, for each extension point, the plugins to run there, with a weight each.
`NewFramework` makes every plugin that is named anywhere and keeps one weight for it: points
further down the list overwrite what points before them have configured. A plugin that is
named at a point it does not implement, or twice at one point, is refused. In the registry of
the scheduler no plugin that scores implements a point that comes after scoring, so the
weight that is kept for a score plugin is that of the score section
(`newFramework_score`). -/
namespace GlobalScheduler

open Go Outcome LastWrite AList Map

/-- Where plugins are called. -/
inductive ExtensionPoint where
  | preFilter
  | filter
  | reserve
  | preScore
  | score
  | preBind
  | bind
  | postBind
  | unreserve
  | permit
  | queueSort
  | strategy
deriving DecidableEq, Repr

namespace ExtensionPoint

/-- The interface that a plugin implements to be called there. -/
def pluginType : ExtensionPoint → String
  | preFilter => "PreFilterPlugin"
  | filter => "FilterPlugin"
  | reserve => "ReservePlugin"
  | preScore => "PreScorePlugin"
  | score => "ScorePlugin"
  | preBind => "PreBindPlugin"
  | bind => "BindPlugin"
  | postBind => "PostBindPlugin"
  | unreserve => "UnreservePlugin"
  | permit => "PermitPlugin"
  | queueSort => "QueueSortPlugin"
  | strategy => "StrategyPlugin"

/-- The points before scoring, in the order of `getExtensionPoints`. -/
def beforeScore : List ExtensionPoint := [preFilter, filter, reserve, preScore]

def afterScore : List ExtensionPoint :=
  [preBind, bind, postBind, unreserve, permit, queueSort, strategy]

end ExtensionPoint

/-- `getExtensionPoints`. -/
def getExtensionPoints : List ExtensionPoint :=
  ExtensionPoint.beforeScore ++ ExtensionPoint.score :: ExtensionPoint.afterScore

/-- A plugin of a configuration; its weight is an `int32`. -/
structure PluginConf where
  name : String
  weight : Int
  int32 : -0x80000000 ≤ weight ∧ weight ≤ 0x7fffffff
deriving DecidableEq

abbrev Plugins := ExtensionPoint → List PluginConf

/-- The points that the plugin of a name implements. -/
abbrev Registry := Map String (List ExtensionPoint)

/-- `NewRegistry`, with the points each of the plugins implements. -/
def newRegistry : Registry :=
  [("DefaultBinder", [.bind]), ("Flavor", [.preFilter, .filter, .score]),
    ("LocationAndOperator", [.filter, .strategy]), ("EipAvailability", [.filter]),
    ("SiteAvailability", [.filter]), ("SiteResourcesFit", [.preFilter, .filter]),
    ("PrioritySort", [.queueSort]), ("regionandaz", [.filter, .strategy]),
    ("Volume", [.filter, .score]), ("SiteResourcesLeastAllocated", [.score]),
    ("StackAffinity", [.score]), ("ExclusiveSite", [ExtensionPoint.filter])].foldl
    (fun r e => r.insert e.1 e.2) ∅

def maxTotalScore : Int := 0x7fffffffffffffff

/-- What is made from a configuration: the weights, and the plugins of each point. -/
structure Configured where
  pluginNameToWeightMap : Map String Int
  plugins : ExtensionPoint → List String

namespace NewFramework

/-- The plugins that are named, each as it is named last. -/
def pluginsNeeded (plugins : Plugins) : Map String PluginConf :=
  (getExtensionPoints.flatMap plugins).foldl (fun pgMap pg => pgMap.insert pg.name pg) ∅

/-- The plugins made so far. -/
structure Made where
  pluginsMap : Map String (List ExtensionPoint) := ∅
  weights : Map String Int := ∅
  totalPriority : Int := 0

def weightOf (pg : PluginConf) : Int := if pg.weight = 0 then 1 else pg.weight

def make (pgMap : Map String PluginConf) (s : Made) (e : String × List ExtensionPoint) :
    Except String Made :=
  match pgMap.lookup e.1 with
  | none => pure s
  | some pg =>
    if weightOf pg * maxSiteScore > int64 (maxTotalScore - s.totalPriority) then
      throw "total score of Score plugins could overflow"
    else
      pure {
        pluginsMap := s.pluginsMap.insert e.1 e.2
        weights := s.weights.insert e.1 (weightOf pg)
        totalPriority := int64 (s.totalPriority + weightOf pg * maxSiteScore) }

/-- The plugins of one point, in the order they are named. -/
def updatePluginList (pluginsMap : Map String (List ExtensionPoint)) (point : ExtensionPoint) :
    List PluginConf → List String → Except String (List String)
  | [], list => pure list
  | ep :: rest, list =>
    match pluginsMap.lookup ep.name with
    | none => throw (point.pluginType ++ " " ++ quoted ep.name ++ " does not exist")
    | some points =>
      if point ∉ points then
        throw ("plugin " ++ quoted ep.name ++ " does not extend " ++ point.pluginType ++ " plugin")
      else if ep.name ∈ list then
        throw ("plugin " ++ quoted ep.name ++ " already registered as " ++ quoted point.pluginType)
      else updatePluginList pluginsMap point rest (list ++ [ep.name])

def updatePluginLists (pluginsMap : Map String (List ExtensionPoint)) (plugins : Plugins) :
    Except String (ExtensionPoint → List String) :=
  getExtensionPoints.foldlM (fun lists point => do
    let list ← updatePluginList pluginsMap point (plugins point) []
    pure (Function.update lists point list)) fun _ => []

end NewFramework

open NewFramework in
/-- `NewFramework`, for a configuration or none; `ord` is the order of the loop over the registry. -/
def newFramework (ord : List String) (r : Registry) : Option Plugins → Except String Configured
  | none => pure ⟨∅, fun _ => []⟩
  | some plugins => do
    let made ← (entriesBy ord r).foldlM (make (pluginsNeeded plugins)) {}
    let lists ← updatePluginLists made.pluginsMap plugins
    match (lists .score).find? fun name => (made.weights.lookup name).getD 0 = 0 with
    | some name => throw ("score plugin " ++ quoted name ++ " is not configured with weight")
    | none =>
      if (lists .queueSort).length = 0 then throw "no queue sort plugin is enabled"
      else if (lists .queueSort).length > 1 then throw "only one queue sort plugin can be enabled"
      else if (lists .bind).length = 0 then throw "at least one bind plugin is needed"
      else pure ⟨made.weights, lists⟩

namespace NewFramework

/-! ### What is kept -/

section Lists
variable {pluginsMap : Map String (List ExtensionPoint)} {point : ExtensionPoint} {confs : List PluginConf}
  {list list' : List String} {plugins : Plugins}

/-- **A list of plugins that is accepted** has those named, in order and each once, and all of
them implement the point. -/
theorem updatePluginList_ok (h : updatePluginList pluginsMap point confs list = .ok list') :
    list' = list ++ confs.map PluginConf.name ∧ (list.Nodup → list'.Nodup) ∧
      ∀ conf ∈ confs, ∃ points, pluginsMap.lookup conf.name = some points ∧ point ∈ points := by
  induction confs generalizing list with
  | nil =>
    cases h
    simp
  | cons ep rest ih =>
    rw [updatePluginList] at h
    split at h
    case h_1 => cases h
    case h_2 points hpoints =>
      split at h
      case isTrue => cases h
      case isFalse hpoint =>
        split at h
        case isTrue => cases h
        case isFalse hfresh =>
          obtain ⟨heq, hnodup, himplement⟩ := ih h
          refine ⟨by simp [heq], fun hlist => hnodup ?_, ?_⟩
          · refine List.nodup_append.mpr ⟨hlist, List.nodup_singleton _, ?_⟩
            intro a ha b hb hab
            rw [List.mem_singleton.mp hb] at hab
            exact hfresh (hab ▸ ha)
          · intro conf hconf
            cases List.mem_cons.mp hconf with
            | inl heq => exact ⟨points, heq ▸ hpoints, not_not.mp hpoint⟩
            | inr hrest => exact himplement conf hrest

theorem foldlM_update {f : ExtensionPoint → Except String (List String)} {points : List ExtensionPoint}
    {before after : ExtensionPoint → List String} (h : points.foldlM (fun lists point => do
      let list ← f point
      pure (Function.update lists point list)) before = .ok after) :
    (point ∉ points → after point = before point) ∧ (point ∈ points → f point = .ok (after point)) := by
  induction points generalizing before with
  | nil =>
    cases h
    simp
  | cons first rest ih =>
    obtain ⟨lists, hround, h⟩ := bind_ok.mp h
    obtain ⟨list, hlist, hround⟩ := bind_ok.mp hround
    cases hround
    obtain ⟨hout, hin⟩ := ih h
    by_cases hrest : point ∈ rest
    · exact ⟨fun hnot => absurd (List.mem_cons_of_mem first hrest) hnot, fun _ => hin hrest⟩
    · by_cases hfirst : point = first
      · subst hfirst
        refine ⟨fun hnot => absurd List.mem_cons_self hnot, fun _ => ?_⟩
        rw [hout hrest, Function.update_self, hlist]
      · refine ⟨fun _ => ?_, fun hmem => absurd hmem (by simp [hfirst, hrest])⟩
        rw [hout hrest, Function.update_of_ne hfirst]

/-- **Every point has its plugins.** -/
theorem updatePluginLists_ok {lists : ExtensionPoint → List String}
    (h : updatePluginLists pluginsMap plugins = .ok lists) (point : ExtensionPoint) :
    lists point = (plugins point).map PluginConf.name ∧ (lists point).Nodup ∧
      ∀ conf ∈ plugins point, ∃ points, pluginsMap.lookup conf.name = some points ∧ point ∈ points := by
  have hmem : point ∈ getExtensionPoints := by
    cases point <;> decide
  obtain ⟨heq, hnodup, himplement⟩ := updatePluginList_ok ((foldlM_update h).2 hmem)
  exact ⟨heq, hnodup List.nodup_nil, himplement⟩

end Lists

/-- A plugin that was made is in the registry, and has the weight that was named last. -/
def Made.FromRegistry (r : Registry) (pgMap : Map String PluginConf) (s : Made) : Prop :=
  ∀ name points, s.pluginsMap.lookup name = some points → r.lookup name = some points ∧
    ∃ pg, pgMap.lookup name = some pg ∧ s.weights.lookup name = some (weightOf pg)

variable {r : Registry} {pgMap : Map String PluginConf}

theorem make_fromRegistry {s s' : Made}
    {e : String × List ExtensionPoint} (he : r.lookup e.1 = some e.2) (hs : s.FromRegistry r pgMap)
    (h : make pgMap s e = .ok s') : s'.FromRegistry r pgMap := by
  rw [make] at h
  split at h
  case h_1 =>
    cases h
    exact hs
  case h_2 pg hpg =>
    split at h
    case isTrue => cases h
    case isFalse =>
      cases h
      intro name points hname
      by_cases hk : name = e.1
      · subst hk
        rw [lookup_insert] at hname
        cases hname
        exact ⟨he, pg, hpg, lookup_insert _⟩
      · rw [lookup_insert_ne hk] at hname ⊢
        exact hs name points hname

theorem foldlM_make_fromRegistry {ord : List String}
    {made : Made} (h : (entriesBy ord r).foldlM (make pgMap) {} = .ok made) : made.FromRegistry r pgMap := by
  refine foldlM_keeps (Made.FromRegistry r pgMap) ?_ ?_ h
  · intro s e s' he hs hround
    exact make_fromRegistry (mem_entriesBy.mp he) hs hround
  · intro name points hname
    cases hname

/-- **The conf of the score section is the one that is needed**: what is named after it are other
plugins. -/
theorem lookup_pluginsNeeded {plugins : Plugins} {conf : PluginConf} (hconf : conf ∈ plugins .score)
    (hnodup : ((plugins .score).map PluginConf.name).Nodup)
    (hafter : ∀ point ∈ ExtensionPoint.afterScore, ∀ other ∈ plugins point, other.name ≠ conf.name) :
    (pluginsNeeded plugins).lookup conf.name = some conf := by
  let write (pg : PluginConf) : Option PluginConf := if pg.name = conf.name then some pg else none
  have hround : ∀ (pgMap : Map String PluginConf) (pg : PluginConf),
      (pgMap.insert pg.name pg).lookup conf.name = (write pg).or (pgMap.lookup conf.name) := by
    intro pgMap pg
    by_cases hname : pg.name = conf.name
    · rw [← hname, lookup_insert, hname]
      simp [write, hname]
    · rw [lookup_insert_ne (Ne.symm hname)]
      simp [write, hname]
  have hlast : latest write (ExtensionPoint.afterScore.flatMap plugins) = none := by
    rw [latest_eq_none_iff]
    intro other hother
    obtain ⟨point, hpoint, hother⟩ := List.mem_flatMap.mp hother
    exact if_neg (hafter point hpoint other hother)
  have hscore : latest write (plugins .score) = some conf := by
    cases hlatest : latest write (plugins .score) with
    | none =>
      have hnone := latest_eq_none_iff.mp hlatest conf hconf
      simp [write] at hnone
    | some other =>
      obtain ⟨pg, hpg, hwrite⟩ := exists_of_latest hlatest
      obtain ⟨hname, heq⟩ := Option.ite_none_right_eq_some.mp hwrite
      rw [← Option.some.inj heq, List.inj_on_of_nodup_map hnodup hpg hconf hname]
  have hread := read_foldl (f := fun pgMap pg => pgMap.insert pg.name pg)
    (fun pgMap : Map String PluginConf => pgMap.lookup conf.name) hround
    (getExtensionPoints.flatMap plugins) ∅
  have hall : latest write (getExtensionPoints.flatMap plugins) = some conf := by
    rw [getExtensionPoints, List.flatMap_append, List.flatMap_cons, latest_append,
      latest_append, hlast, hscore]
    rfl
  rw [hall, Option.some_or] at hread
  exact hread

theorem newFramework_ok {ord : List String} {plugins : Plugins} {fw : Configured}
    (h : newFramework ord r (some plugins) = .ok fw) :
    ∃ made, (entriesBy ord r).foldlM (make (pluginsNeeded plugins)) {} = .ok made ∧
      updatePluginLists made.pluginsMap plugins = .ok fw.plugins ∧
      fw.pluginNameToWeightMap = made.weights := by
  obtain ⟨made, hmade, h⟩ := bind_ok.mp h
  obtain ⟨lists, hlists, h⟩ := bind_ok.mp h
  refine ⟨made, hmade, ?_⟩
  split at h
  case h_1 => cases h
  case h_2 =>
    split_ifs at h
    cases h
    exact ⟨hlists, rfl⟩

theorem newRegistry_score {name : String} {points : List ExtensionPoint}
    (h : newRegistry.lookup name = some points) (hscore : .score ∈ points) :
    ∀ point ∈ ExtensionPoint.afterScore, point ∉ points := by
  have hall : ∀ e ∈ newRegistry.entries, .score ∈ e.2 →
      ∀ point ∈ ExtensionPoint.afterScore, point ∉ e.2 := by
    decide
  exact hall ⟨name, points⟩ (mem_lookup_iff.mp h) hscore

end NewFramework

open NewFramework in
/-- **The score plugins of an accepted configuration** are those of the score section, in order,
each once and with the weight of that section; there are no more of them than plugins. -/
theorem newFramework_score {ord : List String} {plugins : Plugins} {fw : Configured}
    (h : newFramework ord newRegistry (some plugins) = .ok fw) :
    fw.plugins .score = (plugins .score).map PluginConf.name ∧ (fw.plugins .score).Nodup ∧
      (fw.plugins .score).length ≤ 12 ∧
      ∀ conf ∈ plugins .score, fw.pluginNameToWeightMap.lookup conf.name = some (weightOf conf) := by
  obtain ⟨made, hmade, hlists, hweights⟩ := newFramework_ok h
  have hregistry := foldlM_make_fromRegistry hmade
  obtain ⟨hnames, hnodup, himplement⟩ := updatePluginLists_ok hlists .score
  refine ⟨hnames, hnodup, ?_, ?_⟩
  · have hsub : fw.plugins .score ⊆ newRegistry.keys := by
      intro name hname
      rw [hnames] at hname
      obtain ⟨conf, hconf, rfl⟩ := List.mem_map.mp hname
      obtain ⟨points, hpoints, -⟩ := himplement conf hconf
      have hlookup := (hregistry conf.name points hpoints).1
      exact mem_of_lookup hlookup
    exact (List.subperm_of_subset hnodup hsub).length_le
  · intro conf hconf
    obtain ⟨points, hpoints, hscores⟩ := himplement conf hconf
    obtain ⟨hlookup, pg, hpg, hweight⟩ := hregistry conf.name points hpoints
    have hneeded := lookup_pluginsNeeded hconf (hnames ▸ hnodup) ?_
    · rw [hweights, hweight, Option.some.inj (hpg.symm.trans hneeded)]
    · -- A plugin that is named further down implements that point, so it is not this one.
      intro point hpoint other hother hsame
      obtain ⟨points', hpoints', hin⟩ := (updatePluginLists_ok hlists point).2.2 other hother
      rw [hsame, hpoints] at hpoints'
      cases hpoints'
      exact newRegistry_score hlookup hscores point hpoint hin

end GlobalScheduler
