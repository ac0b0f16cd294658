import GlobalScheduler.Controllers.DispatcherProcessProofs

/-! Deleting the machines of an allocation.

For each instance that has an ID, `deleteAllocationResources` looks up the host and the
token and asks for the machine to be deleted. The loops end at the first lookup that fails.
What the lookups of the later instances would have come to makes no difference then: their
machines stay. -/
namespace GlobalScheduler.DispatcherProcess

open Go Allocv1 Multiset

/-! ### The lookups of each instance -/

/-- What the lookups of an instance come to: the request that can be made then, an error, or
a panic. -/
inductive Lookup where
  | found (deletion : Deletion)
  | fails
  | panics
deriving DecidableEq

def Lookup.deletion? : Lookup → Option Deletion
  | .found deletion => some deletion
  | .fails => none
  | .panics => none

section
variable (answers : Answers)

/-- The state after lookups that panic: the host was found, and a token was asked for. -/
def afterPanic (clusterName : String) (s : State) : State :=
  let s := (getHostIP answers clusterName s).1
  { s with requests := s.requests + 1 }

/-- The lookups of the instances that have an ID, each made when its turn comes, whatever
those before it came to. -/
def lookups : List ClusterInstance → State → List Lookup
  | [], _ => []
  | clusterInstance :: rest, s =>
    if clusterInstance.instanceId ≠ "" then
      match lookUp answers clusterInstance.clusterName s with
      | .error _ => .panics :: lookups rest (afterPanic answers clusterInstance.clusterName s)
      | .ok (s, none) => .fails :: lookups rest s
      | .ok (s, some (host, token)) =>
        let deletion : Deletion := ⟨host, token, clusterInstance.instanceId⟩
        .found deletion :: lookups rest { s with deleted := s.deleted ++ [deletion] }
    else lookups rest s

end

/-- The requests for the instances whose own lookups succeed. -/
def wanted (l : List Lookup) : List Deletion := l.filterMap Lookup.deletion?

/-- The call returns, and has asked for every instance whose own lookups succeed. -/
def Isolated (answers : Answers) (alloc : Allocv1.Allocation) (s : State) : Prop :=
  ∃ t issued, deleteAllocationResources answers alloc s = .ok t ∧ t.deleted = s.deleted ++ issued ∧
    (wanted (lookups answers (instances alloc.spec.resources) s) : Multiset Deletion) ≤ issued

/-- After lookups that fail none succeed, and before them none panic and each request can be
made. -/
def Unbroken (answers : Answers) : List Lookup → Prop
  | [] => True
  | .found deletion :: rest =>
    answers.parses (instanceDetailsURL deletion.host deletion.id) = true ∧ Unbroken answers rest
  | .fails :: rest => ∀ deletion, .found deletion ∉ rest
  | .panics :: _ => False

/-! ### What is asked for -/

/-- The requests that are made: those before the first lookups that fail. -/
def issued (answers : Answers) : List Lookup → Option (List Deletion)
  | [] => some []
  | .found deletion :: rest =>
    if answers.parses (instanceDetailsURL deletion.host deletion.id) then
      (issued answers rest).map (deletion :: ·)
    else none
  | .fails :: _ => some []
  | .panics :: _ => none

section
variable {answers : Answers} {s : State}

/-- **The loops** make the requests up to the first lookups that fail. -/
theorem deleteInstances_issued (cis : List ClusterInstance) (s : State) :
    (deleteInstances answers cis s).toOption.map State.deleted =
      (issued answers (lookups answers cis s)).map (s.deleted ++ ·) := by
  induction cis generalizing s with
  | nil => simp [deleteInstances, lookups, issued, pure, Except.pure, Except.toOption]
  | cons ci cis ih =>
    rw [deleteInstances, lookups]
    split
    · cases hlook : lookUp answers ci.clusterName s with
      | error panic => rfl
      | ok r =>
        obtain ⟨s₁, found⟩ := r
        have hsame : s₁.deleted = s.deleted := (lookUp_made hlook).1.deleted
        cases found with
        | none =>
          show some s₁.deleted = some (s.deleted ++ [])
          rw [hsame, List.append_nil]
        | some found =>
          show (deleteInstance answers _ s₁ >>= deleteInstances answers cis).toOption.map State.deleted =
            (issued answers (.found _ :: lookups answers cis _)).map (s.deleted ++ ·)
          rw [deleteInstance, issued]
          split
          · show (deleteInstances answers cis _).toOption.map State.deleted = _
            rw [ih, Option.map_map, hsame]
            congr 1
            funext rest
            exact List.append_assoc _ _ _
          · rfl
    · exact ih s

/-- **The call on the lookups.** -/
theorem isolated_iff_issued (alloc : Allocv1.Allocation) (s : State) :
    Isolated answers alloc s ↔
      ∃ made, issued answers (lookups answers (instances alloc.spec.resources) s) = some made ∧
        (wanted (lookups answers (instances alloc.spec.resources) s) : Multiset Deletion) ≤ made := by
  have hloops := @deleteInstances_issued answers (instances alloc.spec.resources) s
  rw [Isolated, deleteAllocationResources]
  constructor
  · intro h
    obtain ⟨t, made, hreturns, hdeleted, hall⟩ := h
    rw [hreturns] at hloops
    obtain ⟨made', hmade', heq⟩ := Option.map_eq_some_iff.mp hloops.symm
    rw [hdeleted, List.append_cancel_left_eq] at heq
    exact ⟨made, heq ▸ hmade', hall⟩
  · intro h
    obtain ⟨made, hmade, hall⟩ := h
    rw [hmade] at hloops
    obtain ⟨t, hreturns, hdeleted⟩ := Option.map_eq_some_iff.mp hloops
    cases hcall : deleteInstances answers (instances alloc.spec.resources) s with
    | error panic =>
      rw [hcall] at hreturns
      cases hreturns
    | ok t' =>
      rw [hcall] at hreturns
      cases hreturns
      exact ⟨t, made, rfl, hdeleted, hall⟩

end

/-! ### When none is missed -/

theorem wanted_eq_nil {l : List Lookup} : wanted l = [] ↔ ∀ deletion, .found deletion ∉ l := by
  rw [wanted, List.filterMap_eq_nil_iff]
  constructor
  · intro hnone deletion hmem
    cases hnone _ hmem
  · intro hnone lookup hmem
    cases lookup with
    | found deletion => exact absurd hmem (hnone deletion)
    | fails => rfl
    | panics => rfl

theorem issued_all_iff (answers : Answers) (l : List Lookup) :
    (∃ made, issued answers l = some made ∧ (wanted l : Multiset Deletion) ≤ made) ↔ Unbroken answers l := by
  induction l with
  | nil => exact iff_of_true ⟨[], rfl, le_refl _⟩ trivial
  | cons lookup rest ih =>
    cases lookup with
    | found deletion =>
      rw [Unbroken, ← ih, issued]
      split
      · next hparses =>
        rw [and_iff_right hparses]
        constructor
        · rintro ⟨made, hmade, hall⟩
          obtain ⟨made', hmade', rfl⟩ := Option.map_eq_some_iff.mp hmade
          exact ⟨made', hmade', (cons_le_cons_iff deletion).mp hall⟩
        · rintro ⟨made, hmade, hall⟩
          exact ⟨deletion :: made, by rw [hmade]; rfl, (cons_le_cons_iff deletion).mpr hall⟩
      · next hparses => exact iff_of_false nofun fun h => hparses h.1
    | fails =>
      -- Nothing is asked for any more.
      show (∃ made : List Deletion, some [] = some made ∧ (wanted rest : Multiset Deletion) ≤ made) ↔ _
      rw [Unbroken, ← wanted_eq_nil]
      simp
    | panics => simp [issued, Unbroken]

/-- **No failing lookup costs another instance its request** exactly if none of those that come
after lookups that fail could be found, and before them no lookup panics and each request can
be made. -/
theorem isolated_iff (answers : Answers) (alloc : Allocv1.Allocation) (s : State) :
    Isolated answers alloc s ↔ Unbroken answers (lookups answers (instances alloc.spec.resources) s) :=
  (isolated_iff_issued alloc s).trans (issued_all_iff answers _)

/-- The cluster `a` is not known, a token for `b` is promised but not given, and all others are
known. -/
def unknownA : Answers where
  parses := fun _ => true
  cluster := fun _ name => if name = "a" then none else some name
  token := fun _ host => some ⟨201, if host = "b" then [] else ["t"]⟩
  create := fun _ _ _ _ => .unreadable

/-- An allocation with a machine on each of the clusters. -/
def onClusters (names : List String) : Allocv1.Allocation where
  spec := { resources := [
    { virtualMachine := { clusterInstances := names.map fun name => ⟨name, "i"⟩ } }] }

/-- Instances that cannot be found come last; and a cluster that would be found after one that
fails and one that panics. -/
theorem isolated_iff_last :
    lookups unknownA (instances (onClusters ["c", "d", "a", "b"]).spec.resources) { name := "p" } =
        [.found ⟨"c", "t", "i"⟩, .found ⟨"d", "t", "i"⟩, .fails, .panics] ∧
      Isolated unknownA (onClusters ["c", "d", "a", "b"]) { name := "p" } ∧
      (deleteAllocationResources unknownA (onClusters ["c", "d", "a", "b"]) { name := "p" }).map State.deleted =
        .ok [⟨"c", "t", "i"⟩, ⟨"d", "t", "i"⟩] ∧
      lookups unknownA (instances (onClusters ["a", "b", "c"]).spec.resources) { name := "p" } =
        [.fails, .panics, .found ⟨"c", "t", "i"⟩] ∧
      ¬ Isolated unknownA (onClusters ["a", "b", "c"]) { name := "p" } := by
  have hlast : lookups unknownA (instances (onClusters ["c", "d", "a", "b"]).spec.resources) { name := "p" } =
      [.found ⟨"c", "t", "i"⟩, .found ⟨"d", "t", "i"⟩, .fails, .panics] := by rfl
  have hbefore : lookups unknownA (instances (onClusters ["a", "b", "c"]).spec.resources) { name := "p" } =
      [.fails, .panics, .found ⟨"c", "t", "i"⟩] := by rfl
  refine ⟨hlast, ?_, by rfl, hbefore, ?_⟩
  · rw [isolated_iff, hlast]
    exact ⟨rfl, rfl, fun deletion hmem => by simp at hmem⟩
  · rw [isolated_iff, hbefore]
    exact fun hnone => hnone ⟨"c", "t", "i"⟩ (by simp)

/-- **A machine stays**: the lookup of the first one's host fails, and the second one, which
would be found, is not asked for. -/
theorem isolated_fails :
    lookups unknownA (instances (onClusters ["a", "c"]).spec.resources) { name := "p" } =
        [.fails, .found ⟨"c", "t", "i"⟩] ∧
      (deleteAllocationResources unknownA (onClusters ["a", "c"]) { name := "p" }).map State.deleted = .ok [] ∧
      ¬ Isolated unknownA (onClusters ["a", "c"]) { name := "p" } := by
  have hlookups : lookups unknownA (instances (onClusters ["a", "c"]).spec.resources) { name := "p" } =
      [.fails, .found ⟨"c", "t", "i"⟩] := by rfl
  refine ⟨hlookups, by rfl, fun h => ?_⟩
  obtain ⟨made, hmade, hall⟩ := (isolated_iff_issued (onClusters ["a", "c"]) { name := "p" }).mp h
  cases hmade
  exact absurd (card_le_card hall) (by decide)

end GlobalScheduler.DispatcherProcess
