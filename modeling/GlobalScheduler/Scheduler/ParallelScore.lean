import GlobalScheduler.ErrorPool
import GlobalScheduler.Framework.NewFramework
import GlobalScheduler.SiteCacheInfo

/-! Scoring the sites with parallel workers.

The score plugins of a configured framework run site by site on up to sixteen workers, into a
table with a list of scores for each plugin. A second pool takes the plugins one by one,
refuses a score out of range and multiplies the others by the weight of the plugin; it
shares the error channel and the context of the first. What is in the table is then summed up
for each site, in the order in which the runtime ranges over the plugins, and the sites are sorted.
Scores are 64-bit integers. -/
namespace GlobalScheduler.ParallelScore

open Go WorkerPool Outcome

/-- A score plugin as a function of the stack and the site's record, if there is one. -/
abbrev Scorer := Stack → Option SiteCacheInfo → Int × Status

abbrev PluginToSiteScores := Map String (List SiteScore)

/-- What a call of `prioritizeSites` works with. -/
structure Call where
  fw : Configured
  scorer : String → Scorer
  stack : Stack
  siteCacheInfoMap : Map String SiteCacheInfo
  sites : List Site

namespace Call
variable (c : Call)

def scorePlugins : List String := c.fw.plugins .score

/-- The weight that the framework keeps for a plugin. -/
def weight (pl : String) : Int := (c.fw.pluginNameToWeightMap.lookup pl).getD 0

/-- The record is that filed under the ID of the site. -/
def runScorePlugin (pl : String) (site : Site) : Int × Status :=
  c.scorer pl c.stack (c.siteCacheInfoMap.lookup site.siteID)

/-- `scores[pl][i] = v`. The lists are shared with the map, so writing a place replaces the list. -/
def write (scores : PluginToSiteScores) (pl : String) (i : Nat) (v : SiteScore) : Outcome PluginToSiteScores :=
  let list := (scores.lookup pl).getD []
  if i < list.length then pure (scores.insert pl (list.set i v)) else throw .indexOutOfRange

/-! ### The raw scores -/

/-- A worker at a site, with the plugins it has still to run. -/
structure ScoreSite where
  i : Nat
  todo : List String

def scoreAct : ScoreSite → PluginToSiteScores → Outcome (Reply String PluginToSiteScores ScoreSite)
  | ⟨_, []⟩, scores => pure (.done scores)
  | ⟨i, pl :: rest⟩, scores => do
    let site ← index c.sites i
    let (score, status) := c.runScorePlugin pl site
    if !status.isSuccess then pure (.fails status.message)
    else
      let scores ← write scores pl i { siteID := site.siteID, score := score }
      pure (.goes scores ⟨i, rest⟩)

theorem scoreAct_shrinks (l : ScoreSite) (s s' : PluginToSiteScores) (l' : ScoreSite)
    (h : c.scoreAct l s = .ok (.goes s' l')) : l'.todo.length < l.todo.length := by
  rcases l with ⟨i, _ | ⟨pl, rest⟩⟩
  · cases h
  · obtain ⟨site, _, h⟩ := bind_ok.mp h
    dsimp only at h
    split at h
    · cases h
    · obtain ⟨scores, _, h⟩ := bind_ok.mp h
      cases h
      exact Nat.lt_succ_self _

def scoreSite : Job String PluginToSiteScores ScoreSite where
  start := fun i => ⟨i, c.scorePlugins⟩
  act := c.scoreAct
  size := fun l => l.todo.length
  shrinks := c.scoreAct_shrinks

/-! ### The weights -/

/-- A worker at a plugin; its list has a place for each site. -/
inductive ApplyWeight where
  | begin (k : Nat)
  | read (pl : String) (weight : Int) (todo : List Nat)
  | store (pl : String) (weight : Int) (i : Nat) (siteScore : SiteScore) (rest : List Nat)

def weightAct : ApplyWeight → PluginToSiteScores → Outcome (Reply String PluginToSiteScores ApplyWeight)
  | .begin k, scores => do
    let pl ← index c.scorePlugins k
    pure (.goes scores (.read pl (c.weight pl) (List.range c.sites.length)))
  | .read _ _ [], scores => pure (.done scores)
  | .read pl weight (i :: rest), scores => do
    let siteScore ← index ((scores.lookup pl).getD []) i
    if siteScore.score > maxSiteScore ∨ siteScore.score < minSiteScore then
      pure (.fails ("score plugin " ++ quoted pl ++ " returns an invalid score " ++ toString siteScore.score ++
        ", it should in the range of [" ++ toString minSiteScore ++ ", " ++ toString maxSiteScore ++
        "] after normalizing"))
    else pure (.goes scores (.store pl weight i siteScore rest))
  | .store pl weight i siteScore rest, scores => do
    let scores ← write scores pl i { siteScore with score := int64 (siteScore.score * weight) }
    pure (.goes scores (.read pl weight rest))

def weightSize : ApplyWeight → Nat
  | .begin _ => 2 * c.sites.length + 1
  | .read _ _ todo => 2 * todo.length
  | .store _ _ _ _ rest => 2 * rest.length + 1

theorem weightAct_shrinks (l : ApplyWeight) (s s' : PluginToSiteScores) (l' : ApplyWeight)
    (h : c.weightAct l s = .ok (.goes s' l')) : c.weightSize l' < c.weightSize l := by
  cases l with
  | begin k =>
    obtain ⟨pl, _, h⟩ := bind_ok.mp h
    cases h
    simp [weightSize]
  | read pl weight todo =>
    cases todo with
    | nil => cases h
    | cons i rest =>
      obtain ⟨siteScore, _, h⟩ := bind_ok.mp h
      split at h
      · cases h
      · cases h
        simp only [weightSize, List.length_cons]
        omega
  | store pl weight i siteScore rest =>
    obtain ⟨scores, _, h⟩ := bind_ok.mp h
    cases h
    exact Nat.lt_succ_self _

def applyWeight : Job String PluginToSiteScores ApplyWeight where
  start := .begin
  act := c.weightAct
  size := c.weightSize
  shrinks := c.weightAct_shrinks

/-! ### The priority list -/

def noScores : PluginToSiteScores :=
  c.scorePlugins.foldl (fun scores pl =>
    scores.insert pl (List.replicate c.sites.length { siteID := "" })) ∅

/-- `RunScorePlugins`: it returns, whatever the interleaving, and what it returns satisfies `Q`. -/
def runScorePlugins (Q : Except String PluginToSiteScores → Prop) : Prop :=
  Inevitably (Step c.scoreSite.program)
    (fun t => t.Finished ∧ match t.shared.errCh.err with
      | some err => Q (.error ("error while running score plugin for pod " ++ quoted c.stack.podName ++ ": " ++ err))
      | none =>
        Inevitably (Step c.applyWeight.program)
          (fun t => t.Finished ∧ match t.shared.errCh.err with
            | some err => Q (.error ("error while applying score defaultWeights for pod " ++
                quoted c.stack.podName ++ ": " ++ err))
            | none => Q (.ok t.shared.state))
          (initial 16 c.scorePlugins.length t.shared))
    (initial 16 c.sites.length { state := c.noScores })

/-- The sum for the site at `i`, over the plugins in the order of the runtime. -/
def summarize (sums : Nat → List String) (scores : PluginToSiteScores) (site : Site) (i : Nat) : Outcome SiteScore := do
  let score ← (Map.entriesBy (sums i) scores).foldlM (fun score e => do
    let siteScore ← index e.2 i
    pure (int64 (score + siteScore.score))) 0
  pure { siteID := site.siteID, az := site.regionAzMap.availabilityZone,
         region := site.regionAzMap.region, score := score }

/-- `prioritizeSites`: it returns, whatever the interleaving, and what it returns satisfies `Q`. The
sort is not stable: sites of equal score may come in any order. -/
def prioritizeSites (sums : Nat → List String) (Q : Except String (List SiteScore) → Prop) : Prop :=
  if c.scorePlugins.length = 0 then
    Q (.ok (c.sites.map fun site => { siteID := site.siteID, score := 1 }))
  else
    c.runScorePlugins fun
      | .error err => Q (.error err)
      | .ok scores =>
        ∃ result, c.sites.zipIdx.mapM (fun e => summarize sums scores e.1 e.2) = .ok result ∧
          ∀ sorted : List SiteScore, sorted.Perm result →
            sorted.Pairwise (fun a b => b.score ≤ a.score) → Q (.ok sorted)

end Call

end GlobalScheduler.ParallelScore
