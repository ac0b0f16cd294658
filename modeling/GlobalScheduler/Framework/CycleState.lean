import GlobalScheduler.Types

/-! Statuses and the state of a scheduling cycle.

A plugin answers with a `Status`; nil is a success. `CycleState` is what the
plugins of one cycle leave for each other: the flavor combinations computed
before filtering, and per site the flavors chosen for it together with the number
of copies it can take. The code keeps both in a map from keys to values of any
type; the two keys it uses are fields here. -/
namespace GlobalScheduler

open Go AList

/-! ### Statuses -/

inductive Code where
  | success
  | error
  | unschedulable
  | unschedulableAndUnresolvable
  | wait
  | skip
deriving DecidableEq, Repr

/-- The names `Code.String` prints. -/
def Code.toString : Code → String
  | .success => "Success"
  | .error => "Error"
  | .unschedulable => "Unschedulable"
  | .unschedulableAndUnresolvable => "UnschedulableAndUnresolvable"
  | .wait => "Wait"
  | .skip => "Skip"

structure Status where
  code : Code
  reasons : List String := []
deriving DecidableEq, Repr

namespace Status

def nil : Status := ⟨.success, []⟩

def isSuccess (s : Status) : Bool := s.code = .success

def isUnschedulable (s : Status) : Bool :=
  s.code = .unschedulable || s.code = .unschedulableAndUnresolvable

def message (s : Status) : String := ", ".intercalate s.reasons

theorem isSuccess_iff {s : Status} : s.isSuccess = true ↔ s.code = .success := by
  simp [isSuccess]

/-- `PluginToStatus.Merge`, for the statuses in the order they were recorded. -/
def merge : List Status → Status
  | [] => nil
  | ss => {
      code :=
        if ss.any (·.code = .error) then .error
        else if ss.any (·.code = .unschedulableAndUnresolvable) then .unschedulableAndUnresolvable
        else if ss.any (·.code = .unschedulable) then .unschedulable
        else (ss.getLastD nil).code
      reasons := ss.flatMap reasons }

theorem merge_isSuccess {ss : List Status} (h : ∀ s ∈ ss, s.isSuccess = false)
    (hm : (merge ss).isSuccess = true) : ss = [] := by
  cases ss with
  | nil => rfl
  | cons s rest =>
    have hlast : ((s :: rest).getLastD nil).isSuccess = false := by
      exact h _ (List.getLast_mem _)
    rw [isSuccess_iff, merge] at hm
    · dsimp only at hm
      split_ifs at hm
      rw [← isSuccess_iff, hlast] at hm
      cases hm
    · simp

theorem merge_isUnschedulable {ss : List Status} (hne : ss ≠ [])
    (h : ∀ s ∈ ss, s.isUnschedulable = true) : (merge ss).isUnschedulable = true := by
  obtain ⟨s, hs⟩ := List.exists_mem_of_ne_nil ss hne
  have herror : ss.any (·.code = .error) = false := by
    rw [List.any_eq_false]
    intro s hs herror
    have hcode := h s hs
    rw [isUnschedulable, of_decide_eq_true herror] at hcode
    cases hcode
  rw [isUnschedulable, merge]
  · simp only [herror, Bool.false_eq_true, if_false]
    split_ifs with hunresolvable hunschedulable
    · rfl
    · rfl
    · -- The status that was picked has one of the two codes.
      have hcode := h s hs
      simp only [List.any_eq_true, decide_eq_true_eq, not_exists, not_and] at hunresolvable hunschedulable
      simp [isUnschedulable, hunresolvable s hs, hunschedulable s hs] at hcode
  · exact hne

end Status

/-! ### Cycle state -/

/-- A flavor of a combination, with the number of machines asked for. -/
structure FlavorInfo where
  flavor : Flavor
  count : Int
deriving DecidableEq, Repr

/-- One flavor for each resource of a stack. -/
structure FlavorAggregate where
  flavors : List FlavorInfo := []
  weight : Int := 0
deriving DecidableEq, Repr

structure FlavorAggregates where
  aggregates : List FlavorAggregate := []
deriving DecidableEq, Repr

/-- What was settled for a site so far. -/
structure SiteSelectorInfo where
  flavors : List FlavorInfo := []
  stackMaxCount : Int := 0
deriving DecidableEq, Repr

structure CycleState where
  preFilterFlavor : Option FlavorAggregates := none
  siteTempSelected : Option (Map String SiteSelectorInfo) := none
deriving DecidableEq

/-- A value of the untyped update map of `UpdateSiteSelectorState`. -/
inductive UpdateValue where
  | flavors (flvs : List FlavorInfo)
  | int (n : Int)
  | float64 (x : Fp)
deriving DecidableEq

/-- One entry of the update map; `none` is a value of the wrong type. -/
def applyUpdate (info : SiteSelectorInfo) : String × UpdateValue → Option SiteSelectorInfo
  | ("Flavors", .flavors flvs) => some { info with flavors := flvs }
  | ("Flavors", _) => none
  | ("StackMaxCount", .int count) =>
    some (if info.stackMaxCount = 0 ∨ info.stackMaxCount > count
      then { info with stackMaxCount := count } else info)
  | ("StackMaxCount", _) => none
  | _ => some info

/-- `UpdateSiteSelectorState`; the flag is set when it returns an error. The first
call of a cycle creates the map with an empty entry and then fails on the nil it
had read before. -/
def updateSiteSelectorState (state : CycleState) (siteID : String)
    (updateInfo : List (String × UpdateValue)) : CycleState × Bool :=
  match state.siteTempSelected with
  | none => ({ state with siteTempSelected := some (singleton siteID {}) }, true)
  | some infos =>
    match updateInfo.foldlM applyUpdate ((infos.lookup siteID).getD {}) with
    | none => (state, true)
    | some info => ({ state with siteTempSelected := some (infos.insert siteID info) }, false)

/-- `GetSiteSelectorState`; `none` is its error. -/
def getSiteSelectorState (state : CycleState) (siteID : String) : Option SiteSelectorInfo :=
  state.siteTempSelected.bind (·.lookup siteID)

@[simp] theorem updateSiteSelectorState_preFilterFlavor (state : CycleState) (siteID : String)
    (updateInfo : List (String × UpdateValue)) :
    (updateSiteSelectorState state siteID updateInfo).1.preFilterFlavor = state.preFilterFlavor := by
  unfold updateSiteSelectorState
  split
  · rfl
  · split <;> rfl

variable {sel : SiteSelectorInfo} {siteID : String} {state : CycleState}

/-- What a site has after the state was created: an empty entry, or what it had. -/
theorem getSiteSelectorState_singleton {id : String} (h : getSiteSelectorState
      { state with siteTempSelected := some (singleton id {}) } siteID = some sel) :
    sel = {} := by
  replace h : (insert id {} (∅ : Map String SiteSelectorInfo)).lookup siteID = some sel := h
  by_cases hid : siteID = id
  · subst hid
    rw [lookup_insert] at h
    cases h
    rfl
  · rw [lookup_insert_ne hid, lookup_empty] at h
    cases h

theorem updateSiteSelectorState_float {id : String} {x : Fp} (h : getSiteSelectorState
      (updateSiteSelectorState state id [("StackMaxCount", .float64 x)]).1 siteID = some sel) :
    sel = {} ∨ getSiteSelectorState state siteID = some sel := by
  unfold updateSiteSelectorState at h
  split at h
  · exact Or.inl (getSiteSelectorState_singleton h)
  · exact Or.inr h

/-- A choice of flavors with its number of copies replaces the flavors, and the number
if that is smaller or the first. -/
theorem updateSiteSelectorState_choice {id : String} {flvs : List FlavorInfo} {n : Int}
    (h : getSiteSelectorState (updateSiteSelectorState state id
      [("Flavors", .flavors flvs), ("StackMaxCount", .int n)]).1 siteID = some sel) :
    sel = {} ∨ getSiteSelectorState state siteID = some sel ∨
      (siteID = id ∧ ∃ old, (old = {} ∨ getSiteSelectorState state id = some old) ∧
        sel = ⟨flvs, if old.stackMaxCount = 0 ∨ old.stackMaxCount > n then n
          else old.stackMaxCount⟩) := by
  unfold updateSiteSelectorState at h
  split at h
  · exact Or.inl (getSiteSelectorState_singleton h)
  case h_2 infos hinfos =>
    right
    have hold : ∀ siteID, getSiteSelectorState state siteID = infos.lookup siteID := by
      intro siteID
      simp [getSiteSelectorState, hinfos]
    simp only [List.foldlM_cons, List.foldlM_nil, applyUpdate, Option.bind_eq_bind,
      Option.bind_some, Option.pure_def, getSiteSelectorState] at h
    by_cases hid : siteID = id
    · subst hid
      rw [lookup_insert] at h
      refine Or.inr ⟨rfl, (infos.lookup siteID).getD {}, ?_, ?_⟩
      · rw [hold]
        cases infos.lookup siteID with
        | none => exact Or.inl rfl
        | some old => exact Or.inr rfl
      · rw [← Option.some.inj h]
        split <;> rfl
    · rw [lookup_insert_ne hid] at h
      exact Or.inl (by rw [hold]; exact h)

end GlobalScheduler
