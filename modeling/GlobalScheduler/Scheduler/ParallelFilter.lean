import GlobalScheduler.ErrorPool
import GlobalScheduler.Scheduler.Schedule

/-! Filtering the sites with parallel workers.

`schedule` takes the workers of the filter phase in one order. Here they run as they do:
each of up to sixteen checks a site at a time, claims the next place of the result with an
atomic counter and then writes it, or records why the site was refused, or reports an error
and stops the others. The filters are functions of the stack and the site. Whatever the
interleaving, the result has the sites that pass, each once. -/
namespace GlobalScheduler.ParallelFilter

open Go WorkerPool Outcome AList Map

/-! ### One site -/

/-- A filter that looks at the stack and the site only. -/
structure SiteFilter where
  name : String
  filter : Stack → SiteCacheInfo → Status

/-- `RunFilterPlugins`, from the statuses recorded so far. -/
def runFilters (runAllFilters : Bool) (stack : Stack) (info : SiteCacheInfo) :
    List SiteFilter → Map String Status → Map String Status
  | [], statuses => statuses
  | pl :: rest, statuses =>
    let status := pl.filter stack info
    if status.isSuccess then runFilters runAllFilters stack info rest statuses
    else if status.isUnschedulable then
      if runAllFilters then runFilters runAllFilters stack info rest (statuses.insert pl.name status)
      else statuses.insert pl.name status
    else
      -- An error replaces what was recorded.
      (∅ : Map String Status).insert pl.name ⟨.error, ["running " ++ quoted pl.name ++
        " filter plugin for pod " ++ quoted stack.podName ++ ": " ++ status.message]⟩

/-- What a call of `findSitesThatPassFilters` works with: the plugins and their setting, the stack,
the records to look at, and the order in which the statuses of a site are merged. -/
structure Call where
  filters : List SiteFilter
  runAllFilters : Bool
  stack : Stack
  infos : List SiteCacheInfo
  merges : Nat → List String

namespace Call
variable (c : Call)

def runFilterPlugins (info : SiteCacheInfo) : Map String Status :=
  runFilters c.runAllFilters c.stack info c.filters ∅

/-- `Merge`, over the statuses in the order of the runtime. -/
def merge (ord : List String) (statuses : Map String Status) : Status :=
  Status.merge ((entriesBy ord statuses).map Prod.snd)

/-- Whether the site fits, its status, and the error. -/
def stackPassesFiltersOnSite (i : Nat) (info : SiteCacheInfo) : Bool × Status × Option String :=
  let status := merge (c.merges i) (c.runFilterPlugins info)
  if !status.isSuccess && !status.isUnschedulable then (false, status, some status.message)
  else (status.isSuccess, status, none)

end Call

/-! ### The workers -/

/-- What the workers share, besides the error channel. -/
structure Shared where
  filteredLen : Nat := 0
  filtered : List (Option Site)
  statuses : Map String Status := ∅

/-- Where a worker is in `checkSite`. -/
inductive CheckSite where
  | check (i : Nat)
  | claim (info : SiteCacheInfo)
  | store (info : SiteCacheInfo) (length : Nat)
  | refuse (info : SiteCacheInfo) (status : Status)

/-- One action of `checkSite`. Running the filters touches nothing that is shared. -/
def act (c : Call) : CheckSite → Shared → Outcome (Reply String Shared CheckSite)
  | .check i, s => do
    let info ← index c.infos i
    let (fits, status, err) := c.stackPassesFiltersOnSite i info
    match err with
    | some err => pure (.fails err)
    | none => pure (.goes s (if fits then .claim info else .refuse info status))
  | .claim info, s =>
    pure (.goes { s with filteredLen := s.filteredLen + 1 } (.store info (s.filteredLen + 1)))
  | .store info length, s =>
    if length - 1 < s.filtered.length then
      pure (.done { s with filtered := s.filtered.set (length - 1) info.site })
    else throw .indexOutOfRange
  | .refuse info status, s =>
    -- Under the lock of the statuses.
    if status.isSuccess then pure (.done s)
    else do
      let site ← info.getSite
      pure (.done { s with statuses := s.statuses.insert site.siteID status })

def CheckSite.size : CheckSite → Nat
  | .check _ => 3
  | .claim _ => 2
  | .store _ _ => 1
  | .refuse _ _ => 1

theorem act_shrinks (c : Call) (l : CheckSite) (s s' : Shared) (l' : CheckSite)
    (h : act c l s = .ok (.goes s' l')) : l'.size < l.size := by
  cases l with
  | check i =>
    obtain ⟨info, -, h⟩ := bind_ok.mp h
    dsimp only at h
    split at h
    · cases h
    · cases h
      split
      · exact Nat.lt_succ_self 2
      · exact Nat.lt_succ_of_lt (Nat.lt_succ_self 1)
  | claim info =>
    cases h
    exact Nat.lt_succ_self 1
  | store info length =>
    rw [act] at h
    split at h
    · cases h
    · cases h
  | refuse info status =>
    rw [act] at h
    split at h
    · cases h
    · obtain ⟨site, -, h⟩ := bind_ok.mp h
      cases h

/-- `checkSite`, for the workers of `ParallelizeUntil`. -/
def checkSite (c : Call) : Job String Shared CheckSite where
  start := .check
  act := act c
  size := CheckSite.size
  shrinks := act_shrinks c

def found (s : Reporting String Shared) : Except String (List (Option Site)) :=
  match s.errCh.err with
  | some err => .error err
  | none => .ok (s.state.filtered.take s.state.filteredLen)

variable (ord : List String)

/-- The records to look at: that of the selected site, or all. -/
def allSiteCacheInfos (siteCacheInfoMap : Map String SiteCacheInfo) (stack : Stack) :
    List SiteCacheInfo :=
  let all := (entriesBy ord siteCacheInfoMap).map Prod.snd
  if stack.selector.siteID = "" then all
  else match siteCacheInfoMap.lookup stack.selector.siteID with
    | some info => [info]
    | none => all

variable (filters : List SiteFilter)

/-- `findSitesThatPassFilters`: it returns, whatever the interleaving, and what it returns
satisfies `Q`. -/
def findSitesThatPassFilters (runAllFilters : Bool) (ord : List String)
    (merges : Nat → List String) (siteCacheInfoMap : Map String SiteCacheInfo) (stack : Stack)
    (Q : Except String (List (Option Site)) → Prop) : Prop :=
  let infos := allSiteCacheInfos ord siteCacheInfoMap stack
  if infos = [] then Q (.error ("SiteCacheInfoMap of " ++ stack.selector.siteID ++ " is null"))
  else if filters = [] then Q (.ok (infos.map SiteCacheInfo.site))
  else
    Inevitably (Step (checkSite ⟨filters, runAllFilters, stack, infos, merges⟩).program)
      (fun t => t.Finished ∧ Q (found t.shared))
      (initial 16 infos.length { state := { filtered := List.replicate infos.length none } })

theorem findSitesThatPassFilters_mono {filters : List SiteFilter} {runAllFilters : Bool} {ord : List String}
    {merges : Nat → List String} {siteCacheInfoMap : Map String SiteCacheInfo} {stack : Stack}
    {Q Q' : Except String (List (Option Site)) → Prop} (weaker : ∀ result, Q result → Q' result)
    (h : findSitesThatPassFilters filters runAllFilters ord merges siteCacheInfoMap stack Q) :
    findSitesThatPassFilters filters runAllFilters ord merges siteCacheInfoMap stack Q' := by
  unfold findSitesThatPassFilters at h ⊢
  dsimp only at h ⊢
  split
  case isTrue hnone =>
    rw [if_pos hnone] at h
    exact weaker _ h
  case isFalse hsome =>
    rw [if_neg hsome] at h
    split
    case isTrue hfilters =>
      rw [if_pos hfilters] at h
      exact weaker _ h
    case isFalse hfilters =>
      rw [if_neg hfilters] at h
      exact h.mono fun t ht => ⟨ht.1, weaker _ ht.2⟩

/-! ### The verdict on a site -/

/-- `RunFilterPlugins` yields an error for the site. -/
def YieldsError (runAllFilters : Bool) (stack : Stack)
    (info : SiteCacheInfo) : Prop :=
  ∃ name status, (runFilters runAllFilters stack info filters ∅).lookup name = some status ∧
    status.code = .error

def accepts (stack : Stack) (info : SiteCacheInfo) : Bool :=
  filters.all fun pl => (pl.filter stack info).isSuccess

def Call.Fails (c : Call) (info : SiteCacheInfo) : Prop :=
  YieldsError c.filters c.runAllFilters c.stack info

def Call.passes (c : Call) (info : SiteCacheInfo) : Bool := accepts c.filters c.stack info

/-- Only refusals are recorded. -/
def Refusals (statuses : Map String Status) : Prop :=
  ∀ name status, statuses.lookup name = some status → status.isUnschedulable = true

theorem refusals_empty : Refusals ∅ := fun _ _ h => by cases h

variable {statuses : Map String Status}

theorem Refusals.insert (h : Refusals statuses) (name : String) {status : Status}
    (hstatus : status.isUnschedulable = true) : Refusals (statuses.insert name status) := by
  intro name' status' hlookup
  by_cases hname : name' = name
  · rw [hname, lookup_insert] at hlookup
    exact Option.some.inj hlookup ▸ hstatus
  · rw [lookup_insert_ne hname] at hlookup
    exact h name' status' hlookup

theorem Refusals.no_error (h : Refusals statuses) :
    ¬ ∃ name status, statuses.lookup name = some status ∧ status.code = .error := by
  intro herror
  obtain ⟨name, status, hlookup, hcode⟩ := herror
  have hstatus := h name status hlookup
  rw [Status.isUnschedulable, hcode] at hstatus
  cases hstatus

/-- What is recorded: one error, or refusals, and nothing exactly if there was nothing before and
every filter accepts. -/
theorem runFilters_cases (runAllFilters : Bool) (stack : Stack) (info : SiteCacheInfo) (pls : List SiteFilter)
    (h : Refusals statuses) :
    (∃ name status, runFilters runAllFilters stack info pls statuses =
        (∅ : Map String Status).insert name status ∧ status.code = .error ∧ accepts pls stack info = false) ∨
    Refusals (runFilters runAllFilters stack info pls statuses) ∧
      ((runFilters runAllFilters stack info pls statuses).keys = [] ↔
        statuses.keys = [] ∧ accepts pls stack info = true) := by
  induction pls generalizing statuses with
  | nil => exact Or.inr ⟨h, by simp [runFilters, accepts]⟩
  | cons pl rest ih =>
    rw [runFilters]
    split
    case isTrue hok =>
      have hall : accepts (pl :: rest) stack info = accepts rest stack info := by simp [accepts, hok]
      rw [hall]
      exact ih h
    case isFalse hrefuses =>
      have hall : accepts (pl :: rest) stack info = false := by simp [accepts, hrefuses]
      rw [hall]
      split
      case isTrue hunschedulable =>
        have hadd := h.insert pl.name hunschedulable
        split
        · refine (ih hadd).imp (fun ⟨name, status, heq, hcode, _⟩ => ⟨name, status, heq, hcode, rfl⟩) ?_
          intro ⟨hothers, hnone⟩
          refine ⟨hothers, ?_⟩
          rw [hnone]
          simp
        · exact Or.inr ⟨hadd, by simp⟩
      case isFalse => exact Or.inl ⟨pl.name, _, rfl, rfl, rfl⟩

theorem merge_error (name : String) {status : Status} (h : status.code = .error) :
    (Call.merge ord ((∅ : Map String Status).insert name status)).code = .error := by
  have honly : ∀ k ∈ (∅ : Map String Status).insert name status, k = name := fun k hk =>
    ((mem_insert _).mp hk).resolve_right (notMem_empty k)
  rw [Call.merge, entriesBy_only ord honly, lookup_insert]
  simp [Status.merge, h]

theorem merge_unschedulable (h : Refusals statuses) (hsome : statuses.keys ≠ []) : (Call.merge ord statuses).isUnschedulable = true := by
  refine Status.merge_isUnschedulable ?_ fun status hstatus => ?_
  · rwa [Ne, List.map_eq_nil_iff, entriesBy_eq_nil]
  · obtain ⟨name, hlookup⟩ := mem_values.mp hstatus
    exact h name status hlookup

/-- **The verdict on a site** does not depend on the order of the merge: an error, or whether
every filter accepts. -/
theorem Call.stackPassesFiltersOnSite_cases (c : Call) (i : Nat) (info : SiteCacheInfo) :
    (c.Fails info ∧ c.passes info = false ∧
      ∃ status err, c.stackPassesFiltersOnSite i info = (false, status, some err)) ∨
    (¬ c.Fails info ∧ ∃ status, c.stackPassesFiltersOnSite i info = (c.passes info, status, none) ∧
      status.isSuccess = c.passes info) := by
  cases runFilters_cases c.runAllFilters c.stack info c.filters refusals_empty with
  | inl herror =>
    obtain ⟨name, status, heq, hcode, hall⟩ := herror
    have hrun : c.runFilterPlugins info = (∅ : Map String Status).insert name status := heq
    have hmerge : (merge (c.merges i) (c.runFilterPlugins info)).code = .error := by
      rw [hrun]
      exact merge_error (c.merges i) name hcode
    refine Or.inl ⟨⟨name, status, by rw [heq, lookup_insert], hcode⟩, hall, _, _, if_pos ?_⟩
    simp [Status.isSuccess, Status.isUnschedulable, hmerge]
  | inr hrefusals =>
    obtain ⟨hunschedulable, hnone⟩ := hrefusals
    refine Or.inr ⟨hunschedulable.no_error, ?_⟩
    by_cases hempty : (c.runFilterPlugins info).keys = []
    · have hpasses : c.passes info = true := (hnone.mp hempty).2
      have hmerge : merge (c.merges i) (c.runFilterPlugins info) = Status.nil := by
        rw [merge, (entriesBy_eq_nil _).mpr hempty]
        rfl
      refine ⟨Status.nil, ?_, hpasses.symm⟩
      rw [stackPassesFiltersOnSite, hmerge, hpasses]
      rfl
    · have hpasses : c.passes info = false := by
        by_contra hpasses
        exact hempty (hnone.mpr ⟨rfl, Bool.eq_true_of_not_eq_false hpasses⟩)
      have hmerge : (merge (c.merges i) (c.runFilterPlugins info)).isUnschedulable = true :=
        merge_unschedulable (c.merges i) hunschedulable hempty
      have hsuccess : (merge (c.merges i) (c.runFilterPlugins info)).isSuccess = false := by
        by_contra hsuccess
        rw [Status.isUnschedulable, Status.isSuccess_iff.mp (by simpa using hsuccess)] at hmerge
        cases hmerge
      refine ⟨merge (c.merges i) (c.runFilterPlugins info), ?_, hsuccess.trans hpasses.symm⟩
      rw [stackPassesFiltersOnSite, hpasses]
      simp [hsuccess, hmerge]

end GlobalScheduler.ParallelFilter
