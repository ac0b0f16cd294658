import GlobalScheduler.Controllers.Util
import GlobalScheduler.Go.Panic
import GlobalScheduler.Go.SwapDelete
import GlobalScheduler.Go.Text
import GlobalScheduler.Transition
import Mathlib.Data.Finset.Basic
import Mathlib.Data.List.GetD
import Mathlib.Data.List.Lex

/-! The dispatcher controller.

It keeps the names of the clusters in a sorted array and hands each dispatcher a range
of them, anew whenever a dispatcher or a cluster comes or goes. A range is written as
its first and its last name, so that what a dispatcher serves is decided by comparing
names. -/
namespace GlobalScheduler.Dispatchers

open Go Util Transition Outcome List

/-- `DispatcherRange`: the first and the last name. -/
structure DispatcherRange where
  start : GoString := []
  stop : GoString := []
deriving DecidableEq, Repr

structure Dispatcher where
  nameSpace : String
  name : String
  clusterRange : DispatcherRange := {}
deriving DecidableEq, Repr

/-- The namespace and the name, by which a dispatcher is known. -/
def Dispatcher.key (d : Dispatcher) : String × String := (d.nameSpace, d.name)

structure DispatcherController where
  clusters : List GoString := []
  dispatchers : List Dispatcher := []
  sorted : clusters.Pairwise (· ≤ ·) := by simp

/-! ### The code -/

def rangeAt (clusters : List GoString) (ranges : List (Int × Int)) (idx : Nat) :
    Outcome DispatcherRange :=
  match ranges[idx]? with
  | some (first, last) => do
    let start ← index clusters first
    let stop ← index clusters last
    pure ⟨start, stop⟩
  | none => pure {}

/-- A round of the loop of `balance`. -/
def assignRange (clusters : List GoString) (ranges : List (Int × Int)) (entry : Dispatcher × Nat) :
    Outcome Dispatcher := do
  let clusterRange ← rangeAt clusters ranges entry.2
  pure { entry.1 with clusterRange := clusterRange }

/-- `balance`, with updates that the API server accepts and returns as they were sent. -/
def balance (dc : DispatcherController) : Outcome DispatcherController :=
  if dc.dispatchers.length = 0 then pure dc
  else if dc.clusters.length > 0 then do
    let ranges := evenlyDivide id dc.dispatchers.length (dc.clusters.length - 1)
    let dispatchers ← dc.dispatchers.zipIdx.mapM (assignRange dc.clusters ranges)
    pure { dc with dispatchers := dispatchers }
  else pure dc

def addDispatcher (dispatcher : Dispatcher) (dc : DispatcherController) :
    Outcome DispatcherController :=
  balance { dc with dispatchers := dc.dispatchers ++ [dispatcher] }

/-- The loop of `deleteDispatcher`: the last dispatcher takes the place of the first one
with the name. -/
def removeDispatcher (key : String × String) (dispatchers : List Dispatcher) : List Dispatcher :=
  swapDelete (·.key = key) dispatchers

def deleteDispatcher (key : String × String) (dc : DispatcherController) :
    Outcome DispatcherController :=
  balance { dc with dispatchers := removeDispatcher key dc.dispatchers }

def addCluster (name : GoString) (dc : DispatcherController) : Outcome DispatcherController :=
  balance { dc with
    clusters := insertIntoSortedArray dc.clusters name
    sorted := insertIntoSortedArray_sorted dc.sorted }

def deleteCluster (name : GoString) (dc : DispatcherController) : Outcome DispatcherController :=
  balance { dc with
    clusters := removeFromSortedArray dc.clusters name
    sorted := dc.sorted.sublist (removeFromSortedArray_sublist dc.sorted) }

/-! ### The system -/

/-- The controller, the keys of the dispatchers there are, and the names of the clusters. -/
structure State where
  controller : DispatcherController := {}
  dispatchers : Multiset (String × String) := 0
  live : Finset GoString := ∅

inductive Event where
  | addDispatcher (dispatcher : Dispatcher)
  | deleteDispatcher (key : String × String)
  | addCluster (name : GoString)
  | deleteCluster (name : GoString)

def step (s : State) : Event → Outcome State
  | .addDispatcher dispatcher => do
    let dc ← addDispatcher dispatcher s.controller
    pure { s with controller := dc, dispatchers := dispatcher.key ::ₘ s.dispatchers }
  | .deleteDispatcher key => do
    let dc ← deleteDispatcher key s.controller
    pure { s with controller := dc, dispatchers := s.dispatchers.erase key }
  | .addCluster name => do
    let dc ← addCluster name s.controller
    pure { s with controller := dc, live := insert name s.live }
  | .deleteCluster name => do
    let dc ← deleteCluster name s.controller
    pure { s with controller := dc, live := s.live.erase name }

def init : State := {}

/-- New clusters have names, which no other cluster has. -/
def Named (s : State) : Event → Prop
  | .addCluster name => name ≠ [] ∧ name ∉ s.live
  | _ => True

abbrev Runs :=
  Run (fun s e s' => step s e = .ok s') Named init

/-- The name lies between the ends of the range, in the order of bytes. -/
def DispatcherRange.Covers (r : DispatcherRange) (name : GoString) : Prop :=
  r.start ≤ name ∧ name ≤ r.stop

/-- The dispatchers with ranges are those there are, and if there are any, every cluster is in
the range of exactly one of them. -/
structure EachCovered (s : State) : Prop where
  dispatchers : (s.controller.dispatchers.map Dispatcher.key : Multiset (String × String)) = s.dispatchers
  covered : s.dispatchers ≠ 0 → ∀ name ∈ s.live,
    ∃! i : Nat, ∃ d : Dispatcher, s.controller.dispatchers[i]? = some d ∧ d.clusterRange.Covers name

/-! ### What `balance` hands out -/

/-- The range of the dispatcher at an index, of `size` dispatchers. -/
def assigned (clusters : List GoString) (size i : Nat) : DispatcherRange :=
  let upper := clusters.length - 1
  if i < rangeCount size upper then
    ⟨clusters.getD (bound size upper i) [], clusters.getD (bound size upper (i + 1) - 1) []⟩
  else {}

section
variable {clusters : List GoString} {size i : Nat}

theorem rangeAt_ok (hsize : 0 < size) (hclusters : 0 < clusters.length) :
    rangeAt clusters (evenlyDivide id size (clusters.length - 1)) i =
      .ok (assigned clusters size i) := by
  have hupper : (clusters.length : Int) - 1 = (clusters.length - 1 : Nat) := by omega
  rw [hupper, @evenlyDivide_eq size _ id hsize (fun _ _ _ => rfl) (fun _ => rfl), rangeAt,
    getElem?_map, assigned]
  split_ifs with hi
  · have hlt := bound_lt hi
    have hle : bound size (clusters.length - 1) (i + 1) ≤ _ := bound_le hsize hi
    rw [getElem?_range hi, Option.map_some]
    have hlast : (bound size (clusters.length - 1) (i + 1) : Int) - 1 =
        (bound size (clusters.length - 1) (i + 1) - 1 : Nat) := by omega
    simp only [keyRange, hlast]
    rw [index_natCast (by omega), index_natCast (by omega),
      getD_eq_getElem _ _ (by omega), getD_eq_getElem _ _ (by omega)]
    rfl
  · rw [getElem?_eq_none (by simpa using hi)]
    rfl

theorem assignRange_ok (hsize : 0 < size) (hclusters : 0 < clusters.length) (entry : Dispatcher × Nat) :
    assignRange clusters (evenlyDivide id size (clusters.length - 1)) entry =
      .ok { entry.1 with clusterRange := assigned clusters size entry.2 } := by
  rw [assignRange, rangeAt_ok hsize hclusters]
  rfl

theorem assigned_covers (hstrict : clusters.SortedLT) (hsize : 0 < size)
    (hi : i < rangeCount size (clusters.length - 1)) {k : Nat} (hk : k < clusters.length) :
    (assigned clusters size i).Covers clusters[k] ↔
      bound size (clusters.length - 1) i ≤ k ∧ k < bound size (clusters.length - 1) (i + 1) := by
  have hlt := bound_lt hi
  have hle : bound size (clusters.length - 1) (i + 1) ≤ _ := bound_le hsize hi
  simp only [assigned, if_pos hi, DispatcherRange.Covers]
  rw [getD_eq_getElem _ _ (by omega), getD_eq_getElem _ _ (by omega),
    hstrict.getElem_le_getElem_iff, hstrict.getElem_le_getElem_iff]
  omega

theorem assigned_covers_none (hi : ¬ i < rangeCount size (clusters.length - 1)) {name : GoString}
    (hname : name ≠ []) : ¬ (assigned clusters size i).Covers name := by
  simp only [assigned, if_neg hi, DispatcherRange.Covers, not_and]
  intro _
  cases name with
  | nil => exact absurd rfl hname
  | cons c rest => exact not_le.mpr (nil_lt_cons c rest)

/-- **Every name is in one of the ranges handed out.** -/
theorem existsUnique_assigned (hstrict : clusters.SortedLT) (hsize : 0 < size) {name : GoString}
    (hmem : name ∈ clusters) (hname : name ≠ []) :
    ∃! i, i < size ∧ (assigned clusters size i).Covers name := by
  obtain ⟨k, hk, rfl⟩ := getElem_of_mem hmem
  obtain ⟨i, ⟨hi, hin⟩, hunique⟩ :=
    existsUnique_range hsize (Nat.le_sub_one_of_lt hk)
  refine ⟨i, ⟨hi.trans_le (Nat.min_le_left _ _), (assigned_covers hstrict hsize hi hk).mpr hin⟩, ?_⟩
  rintro j ⟨-, hj⟩
  by_cases hcount : j < rangeCount size (clusters.length - 1)
  · exact hunique j ⟨hcount, (assigned_covers hstrict hsize hcount hk).mp hj⟩
  · exact absurd hj (assigned_covers_none hcount hname)

end

/-- `balance` returns, and with dispatchers and clusters there it hands out the ranges. -/
theorem balance_ok (dc : DispatcherController) :
    ∃ dispatchers, balance dc = .ok { dc with dispatchers := dispatchers } ∧
      dispatchers.map Dispatcher.key = dc.dispatchers.map Dispatcher.key ∧
      (dc.clusters ≠ [] → ∀ i d, dispatchers[i]? = some d →
        d.clusterRange = assigned dc.clusters dc.dispatchers.length i) := by
  unfold balance
  split_ifs with hnone hclusters
  · refine ⟨dc.dispatchers, rfl, rfl, fun _ i d hd => ?_⟩
    rw [length_eq_zero_iff.mp hnone] at hd
    cases hd
  · dsimp only
    rw [mapM_eq_map fun entry _ => assignRange_ok (Nat.pos_of_ne_zero hnone) hclusters entry]
    refine ⟨_, rfl, ?_, fun _ i d hd => ?_⟩
    · rw [map_map]
      conv_rhs => rw [← zipIdx_map_fst 0 dc.dispatchers, map_map]
      rfl
    rw [getElem?_map, getElem?_zipIdx, Option.map_map] at hd
    obtain ⟨d', -, rfl⟩ := Option.map_eq_some_iff.mp hd
    simp
  · refine ⟨dc.dispatchers, rfl, rfl, fun hsome => ?_⟩
    exact absurd (length_pos_iff.mpr hsome) hclusters

/-! ### Runs -/

/-- The controller has the keys of the dispatchers and the names of the clusters, each once. -/
structure Tracks (dc : DispatcherController) (dispatchers : Multiset (String × String))
    (live : Finset GoString) : Prop where
  keys : (dc.dispatchers.map Dispatcher.key : Multiset (String × String)) = dispatchers
  nodup : dc.clusters.Nodup
  mem : ∀ name, name ∈ dc.clusters ↔ name ∈ live
  named : [] ∉ live

variable {dc : DispatcherController} {dispatchers : Multiset (String × String)} {live : Finset GoString}

section
variable (h : Tracks dc dispatchers live)
include h

/-- After `balance` all is as it should be, whatever ranges the dispatchers had before. -/
theorem Tracks.balanced :
    ∃ dc', balance dc = .ok dc' ∧ Tracks dc' dispatchers live ∧ EachCovered ⟨dc', dispatchers, live⟩ := by
  obtain ⟨list, hok, hsame, hranges⟩ := balance_ok dc
  have hkeys : (list.map Dispatcher.key : Multiset (String × String)) = dispatchers := hsame ▸ h.keys
  have hlength : list.length = dc.dispatchers.length := by
    simpa only [length_map] using congrArg length hsame
  refine ⟨_, hok, ⟨hkeys, h.nodup, h.mem, h.named⟩, hkeys, fun hsome name hlive => ?_⟩
  have hmem := (h.mem name).mpr hlive
  have hname : name ≠ [] := fun hnil => h.named (hnil ▸ hlive)
  have hstrict : dc.clusters.SortedLT :=
    ((dc.sorted.and h.nodup).imp fun hab => lt_of_le_of_ne hab.1 hab.2).sortedLT
  have hsize : 0 < dc.dispatchers.length := by
    refine length_pos_iff.mpr fun hnil => hsome ?_
    rw [← h.keys, hnil]
    rfl
  obtain ⟨i, ⟨hi, hcovers⟩, hunique⟩ := existsUnique_assigned hstrict hsize hmem hname
  have hrange := hranges (ne_nil_of_mem hmem)
  rw [← hlength] at hi
  refine ⟨i, ⟨list[i], getElem?_eq_getElem hi, ?_⟩, ?_⟩
  · rw [hrange i _ (getElem?_eq_getElem hi)]
    exact hcovers
  · rintro j ⟨d, hd, hj⟩
    obtain ⟨hjlen, -⟩ := List.getElem?_eq_some_iff.mp hd
    rw [hrange j d hd] at hj
    exact hunique j ⟨hlength ▸ hjlen, hj⟩

theorem Tracks.addDispatcher (d : Dispatcher) :
    Tracks { dc with dispatchers := dc.dispatchers ++ [d] } (d.key ::ₘ dispatchers) live where
  keys := by
    rw [map_append, ← Multiset.coe_add, h.keys, Multiset.add_comm]
    rfl
  nodup := h.nodup
  mem := h.mem
  named := h.named

theorem Tracks.deleteDispatcher (key : String × String) :
    Tracks { dc with dispatchers := removeDispatcher key dc.dispatchers } (dispatchers.erase key) live where
  keys := by rw [removeDispatcher, swapDelete_keys, h.keys]
  nodup := h.nodup
  mem := h.mem
  named := h.named

theorem Tracks.addCluster {name : GoString} (hname : name ≠ []) (hnew : name ∉ live) :
    Tracks { dc with
      clusters := insertIntoSortedArray dc.clusters name
      sorted := insertIntoSortedArray_sorted dc.sorted } dispatchers (insert name live) where
  keys := h.keys
  nodup := insertIntoSortedArray_nodup h.nodup fun hmem => hnew ((h.mem name).mp hmem)
  mem := fun x => by
    rw [mem_insertIntoSortedArray, Finset.mem_insert, h.mem]
  named := by
    rw [Finset.mem_insert, not_or]
    exact ⟨hname.symm, h.named⟩

theorem Tracks.deleteCluster (name : GoString) :
    Tracks { dc with
      clusters := removeFromSortedArray dc.clusters name
      sorted := dc.sorted.sublist (removeFromSortedArray_sublist dc.sorted) } dispatchers
      (live.erase name) where
  keys := h.keys
  nodup := h.nodup.sublist (removeFromSortedArray_sublist dc.sorted)
  mem := fun x => by
    rw [mem_removeFromSortedArray dc.sorted h.nodup, Finset.mem_erase, h.mem]
  named := fun hmem => h.named (Finset.mem_of_mem_erase hmem)

end

/-- **One event**: it is handled, and leaves every cluster in one range. -/
theorem Tracks.step {s : State} {e : Event} (h : Tracks s.controller s.dispatchers s.live)
    (hnamed : Named s e) :
    ∃ s', step s e = .ok s' ∧ Tracks s'.controller s'.dispatchers s'.live ∧ EachCovered s' := by
  cases e with
  | addDispatcher dispatcher =>
    obtain ⟨dc, hok, hdone⟩ := (h.addDispatcher dispatcher).balanced
    exact ⟨⟨dc, _, s.live⟩, bind_ok.mpr ⟨dc, hok, rfl⟩, hdone⟩
  | deleteDispatcher key =>
    obtain ⟨dc, hok, hdone⟩ := (h.deleteDispatcher key).balanced
    exact ⟨⟨dc, _, s.live⟩, bind_ok.mpr ⟨dc, hok, rfl⟩, hdone⟩
  | addCluster name =>
    obtain ⟨dc, hok, hdone⟩ := (h.addCluster hnamed.1 hnamed.2).balanced
    exact ⟨⟨dc, _, insert name s.live⟩, bind_ok.mpr ⟨dc, hok, rfl⟩, hdone⟩
  | deleteCluster name =>
    obtain ⟨dc, hok, hdone⟩ := (h.deleteCluster name).balanced
    exact ⟨⟨dc, _, s.live.erase name⟩, bind_ok.mpr ⟨dc, hok, rfl⟩, hdone⟩

theorem Runs.tracks {es : List Event} {s : State} (h : Runs es s) :
    Tracks s.controller s.dispatchers s.live ∧ EachCovered s := by
  refine h.invariant (I := fun s => Tracks s.controller s.dispatchers s.live ∧ EachCovered s) ?_ ⟨?_, ?_⟩
  · intro s e s' hs hnamed hstep
    obtain ⟨s'', hok, hdone⟩ := hs.1.step hnamed
    cases hok.symm.trans hstep
    exact hdone
  · exact ⟨rfl, nodup_nil, by simp [init], by simp [init]⟩
  · exact ⟨rfl, fun hsome => absurd rfl hsome⟩

/-- **Every cluster is in the range of exactly one dispatcher** of those there are, after every
event, and every event is handled. -/
theorem runs_eachCovered (es : List Event) (s : State) (h : Runs es s) :
    EachCovered s ∧ ∀ e, Named s e → ∃ s', step s e = .ok s' := by
  obtain ⟨htracks, hcovered⟩ := h.tracks
  refine ⟨hcovered, fun e hnamed => ?_⟩
  obtain ⟨s', hok, -⟩ := htracks.step hnamed
  exact ⟨s', hok⟩

/-- The first of three dispatchers is deleted: the other two serve the clusters. -/
theorem runs_eachCovered_one_deleted :
    ∃ es s, Runs es s ∧ s.dispatchers = {("default", "d2"), ("default", "d3")} ∧
      s.controller.dispatchers.map (·.clusterRange) = [⟨[97], [97]⟩, ⟨[98], [98]⟩] ∧
      s.live = {[97], [98]} ∧ EachCovered s := by
  have hrun : Runs [.addDispatcher ⟨"default", "d1", {}⟩, .addCluster [98], .addCluster [97],
      .addDispatcher ⟨"default", "d2", {}⟩, .addDispatcher ⟨"default", "d3", {}⟩,
      .deleteDispatcher ("default", "d1")] _ :=
    .cons trivial rfl <| .cons ⟨by decide, by decide⟩ rfl <| .cons ⟨by decide, by decide⟩ rfl <|
      .cons trivial rfl <| .cons trivial rfl <| .cons trivial rfl (.nil _)
  exact ⟨_, _, hrun, by decide, rfl, rfl, (runs_eachCovered _ _ hrun).1⟩

end GlobalScheduler.Dispatchers
