import GlobalScheduler.Controllers.ClusterUnionProofs
import GlobalScheduler.Controllers.SchedulerController
import Mathlib.Data.List.GetD

/-! What the schedulers are handed.

The nodes of every level of the geo tree divide the clusters among them, and the ranges
divide the nodes, so the schedulers that `balance` writes divide the clusters. The level
it ends at has a node for every cluster if it has fewer nodes than there are schedulers. A
scheduler beyond the last node is not written, and keeps what it had. -/
namespace GlobalScheduler.Schedulers

open Go Clusterv1 ClusterUnion RefCount Util Transition Outcome Map Finset Prod
open List hiding Disjoint disjoint_left

/-! ### Shares of a list -/

section Share
variable {α β : Type} {size i : Nat} {l : List α}

/-- The elements in the `i`-th of the ranges that divide a list among `size`. -/
def share (size : Nat) (l : List α) (i : Nat) : List α :=
  (l.take (bound size (l.length - 1) (i + 1))).drop (bound size (l.length - 1) i)

theorem share_map (f : α → β) : share size (l.map f) i = (share size l i).map f := by
  rw [share, share, length_map, map_drop, map_take]

theorem mem_share {x : α} : x ∈ share size l i ↔ ∃ k, bound size (l.length - 1) i ≤ k ∧
    k < bound size (l.length - 1) (i + 1) ∧ l[k]? = some x := by
  rw [share, mem_iff_getElem?]
  constructor
  · rintro ⟨k, hk⟩
    rw [getElem?_drop, getElem?_take] at hk
    split_ifs at hk with hlt
    exact ⟨_, Nat.le_add_right _ k, hlt, hk⟩
  · rintro ⟨k, hle, hlt, hk⟩
    refine ⟨k - bound size (l.length - 1) i, ?_⟩
    rw [getElem?_drop, getElem?_take, Nat.add_sub_cancel' hle, if_pos hlt, hk]

theorem existsUnique_share (hsize : 0 < size) {P : α → Prop} (h : ∃! k : Nat, ∃ x, l[k]? = some x ∧ P x) :
    ∃! i, i < rangeCount size (l.length - 1) ∧ ∃ x ∈ share size l i, P x := by
  obtain ⟨k, ⟨x, hx, hP⟩, hunique⟩ := h
  obtain ⟨hk, -⟩ := List.getElem?_eq_some_iff.mp hx
  obtain ⟨i, ⟨hi, hle, hlt⟩, honly⟩ := existsUnique_range hsize (Nat.le_sub_one_of_lt hk)
  refine ⟨i, ⟨hi, x, mem_share.mpr ⟨k, hle, hlt, hx⟩, hP⟩, ?_⟩
  rintro j ⟨hj, y, hy, hPy⟩
  obtain ⟨k', hle', hlt', hk'⟩ := mem_share.mp hy
  cases hunique k' ⟨y, hk', hPy⟩
  exact honly j ⟨hj, hle', hlt'⟩

end Share

theorem nodesIn_share {nodes : List NodeData} {size i : Nat} (hsize : 0 < size)
    (hnodes : 0 < nodes.length) (hi : i < rangeCount size (nodes.length - 1)) :
    nodesIn nodes (keyRange size (nodes.length - 1) i) = .ok (share size nodes i) := by
  have hlt := bound_lt hi
  have hle : bound size (nodes.length - 1) (i + 1) ≤ _ := bound_le hsize hi
  unfold nodesIn keyRange
  rw [mapM_eq_map (g := fun k => nodes.getD (bound size (nodes.length - 1) i + k) {})]
  · congr 1
    apply ext_getElem
    · simp only [share, length_map, length_range, length_drop, length_take]
      omega
    · intro k hk _
      simp only [length_map, length_range] at hk
      simp only [share, getElem_map, getElem_range, getElem_drop, getElem_take]
      rw [getD_eq_getElem _ _ (by omega)]
  · intro k hk
    rw [List.mem_range] at hk
    have hlt : bound size (nodes.length - 1) i + k < nodes.length := by omega
    rw [getD_eq_getElem _ _ hlt, ← index_natCast hlt]
    rfl

/-! ### What is written -/

section Combined
variable {α : Type} [DecidableEq α]

theorem mem_addKeys {set : Map α Bool} {m : Map α Int} {a : α} : a ∈ addKeys set m ↔ a ∈ set ∨ a ∈ m := by
  have hkeys : ∀ keys : List α, a ∈ keys.foldl (fun set key => set.insert key true) set ↔
      a ∈ set ∨ a ∈ keys := by
    intro keys
    induction keys generalizing set with
    | nil => simp
    | cons key rest ih =>
      rw [foldl_cons, ih, AList.mem_insert, List.mem_cons]
      tauto
  rw [addKeys, hkeys, ← AList.mem_keys]

theorem mem_combined {ord : List α} {maps : List (Map α Int)} {a : α} :
    a ∈ combined ord maps ↔ ∃ m ∈ maps, a ∈ m := by
  have hset : ∀ set : Map α Bool, a ∈ maps.foldl addKeys set ↔ a ∈ set ∨ ∃ m ∈ maps, a ∈ m := by
    induction maps with
    | nil => simp
    | cons m rest ih =>
      intro set
      rw [foldl_cons, ih, mem_addKeys, exists_mem_cons_iff, or_assoc]
  rw [combined, entriesBy_keys, mem_filter, mem_visits, decide_eq_true_iff, hset]
  simp only [AList.notMem_empty, false_or]
  exact ⟨And.right, fun h => ⟨Or.inr h, h⟩⟩

end Combined

/-- The scheduler is sent these clusters, and what their specs have. -/
structure Serves (handed : Cluster → Prop) (scheduler : Scheduler) : Prop where
  cluster : ∀ name, name ∈ scheduler.cluster ↔ ∃ c, handed c ∧ c.name = name
  geoLocation : ∀ x, x ∈ scheduler.union.geoLocation ↔ ∃ c, handed c ∧ c.spec.geoLocation = x
  region : ∀ x, x ∈ scheduler.union.region ↔ ∃ c, handed c ∧ c.spec.region = x
  operator : ∀ x, x ∈ scheduler.union.operator ↔ ∃ c, handed c ∧ c.spec.operator = x
  flavors : ∀ x, x ∈ scheduler.union.flavors ↔ ∃ c, handed c ∧ x ∈ c.spec.flavors
  storage : ∀ x, x ∈ scheduler.union.storage ↔ ∃ c, handed c ∧ x ∈ c.spec.storage
  eipCapacity : ∀ x, x ∈ scheduler.union.eipCapacity ↔ ∃ c, handed c ∧ c.spec.eipCapacity = x
  cpuCapacity : ∀ x, x ∈ scheduler.union.cpuCapacity ↔ ∃ c, handed c ∧ c.spec.cpuCapacity = x
  memCapacity : ∀ x, x ∈ scheduler.union.memCapacity ↔ ∃ c, handed c ∧ c.spec.memCapacity = x
  serverPrice : ∀ x, x ∈ scheduler.union.serverPrice ↔ ∃ c, handed c ∧ c.spec.serverPrice = x

abbrev FiledNodes := List (Finset Cluster × NodeData)

/-- The clusters of some nodes. -/
def Handed (filed : FiledNodes) (c : Cluster) : Prop := ∃ e ∈ filed, c ∈ e.1

section
variable {α : Type} [DecidableEq α] {filed : FiledNodes} {ord : List α}

theorem mem_combined_of_counts (get : NodeData → Map α Int) (values : Cluster → List α)
    (h : ∀ e ∈ filed, Counts (get e.2) (occurrences values e.1)) (x : α) :
    x ∈ combined ord (filed.map fun e => get e.2) ↔ ∃ c, Handed filed c ∧ x ∈ values c := by
  have hmem : ∀ e ∈ filed, x ∈ get e.2 ↔ ∃ c ∈ e.1, x ∈ values c := by
    intro e he
    rw [← AList.lookup_isSome, h e he x, ← mem_occurrences]
    split_ifs with hin <;> simp [hin]
  rw [mem_combined]
  constructor
  · rintro ⟨m, hm, hx⟩
    obtain ⟨e, he, rfl⟩ := List.mem_map.mp hm
    obtain ⟨c, hc, hvalue⟩ := (hmem e he).mp hx
    exact ⟨c, ⟨e, he, hc⟩, hvalue⟩
  · rintro ⟨c, ⟨e, he, hc⟩, hvalue⟩
    exact ⟨get e.2, mem_map_of_mem he, (hmem e he).mpr ⟨c, hc, hvalue⟩⟩

theorem mem_combined_of_value (get : NodeData → Map α Int) (value : Cluster → α)
    (h : ∀ e ∈ filed, Counts (get e.2) (occurrences (fun c => [value c]) e.1)) (x : α) :
    x ∈ combined ord (filed.map fun e => get e.2) ↔ ∃ c, Handed filed c ∧ value c = x := by
  rw [mem_combined_of_counts get _ h]
  simp [eq_comm]

end

/-- **A scheduler is sent what its nodes stand for.** -/
theorem assigned_serves {filed : FiledNodes} (h : ∀ e ∈ filed, Holds e.1 e.2) (ord : MapOrders)
    (idx : Nat) (latest : Scheduler) : Serves (Handed filed) (assigned ord idx (filed.map snd) latest) := by
  simp only [assigned, List.map_map, Function.comp_def]
  exact {
    cluster := mem_combined_of_value (·.clusterMap) (·.name) fun e he => (h e he).clusterMap
    geoLocation := mem_combined_of_value (·.clusterUnionMap.geoLocationMap) (·.spec.geoLocation)
      fun e he => (h e he).geoLocationMap
    region := mem_combined_of_value (·.clusterUnionMap.regionMap) (·.spec.region)
      fun e he => (h e he).regionMap
    operator := mem_combined_of_value (·.clusterUnionMap.operatorMap) (·.spec.operator)
      fun e he => (h e he).operatorMap
    flavors := mem_combined_of_counts (·.clusterUnionMap.flavorMap) (·.spec.flavors)
      fun e he => (h e he).flavorMap
    storage := mem_combined_of_counts (·.clusterUnionMap.storageMap) (·.spec.storage)
      fun e he => (h e he).storageMap
    eipCapacity := mem_combined_of_value (·.clusterUnionMap.eipCapacityMap) (·.spec.eipCapacity)
      fun e he => (h e he).eipCapacityMap
    cpuCapacity := mem_combined_of_value (·.clusterUnionMap.cpuCapacityMap) (·.spec.cpuCapacity)
      fun e he => (h e he).cpuCapacityMap
    memCapacity := mem_combined_of_value (·.clusterUnionMap.memCapacityMap) (·.spec.memCapacity)
      fun e he => (h e he).memCapacityMap
    serverPrice := mem_combined_of_value (·.clusterUnionMap.serverPriceMap) (·.spec.serverPrice)
      fun e he => (h e he).serverPriceMap }

/-! ### The levels of the tree -/

section Levels
variable {height : Nat} {live : Finset Cluster}

/-- The nodes of a level of the tree, with the clusters below them. -/
structure Level (height : Nat) (live : Finset Cluster)
    (filed : List (Finset Cluster × ClusterInfoNode height)) : Prop where
  represents : ∀ e ∈ filed, Represents height e.1 e.2
  disjoint : filed.Pairwise fun e e' => Disjoint e.1 e'.1
  mem : ∀ c, c ∈ live ↔ ∃ e ∈ filed, c ∈ e.1
  few : filed.length ≤ max 1 live.card
  leaf : height = 0 → ∀ e ∈ filed, e.1.card ≤ 1

theorem level_root {tree : ClusterInfoNode (height + 1)} (h : Represents (height + 1) live tree) :
    Level (height + 1) live [(live, tree)] where
  represents := by simpa using h
  disjoint := pairwise_singleton _ _
  mem := by simp
  few := le_max_left _ _
  leaf := fun hzero => absurd hzero (Nat.succ_ne_zero height)

/-- The nodes of the next level, with the clusters below them. -/
def nextFiled (ord : Nat → List String)
    (filed : List (Finset Cluster × ClusterInfoNode (height + 1))) :
    List (Finset Cluster × ClusterInfoNode height) :=
  filed.zipIdx.flatMap fun e =>
    (entriesBy (ord e.2) e.1.2.infoMap).map fun child => (below height e.1.1 child.1, child.2)

theorem nextLevelNodes_filed (ord : Nat → List String)
    (filed : List (Finset Cluster × ClusterInfoNode (height + 1))) :
    nextLevelNodes ord (filed.map snd) = (nextFiled ord filed).map snd := by
  simp only [nextLevelNodes, nextFiled, zipIdx_map, flatMap_map, map_flatMap, List.map_map]
  rfl

section
variable {filed : List (Finset Cluster × ClusterInfoNode (height + 1))} {ord : Nat → List String}

variable {x : Finset Cluster × ClusterInfoNode height}

theorem mem_nextFiled :
    x ∈ nextFiled ord filed ↔
      ∃ e ∈ filed, ∃ key, e.2.infoMap.lookup key = some x.2 ∧ x.1 = below height e.1 key := by
  simp only [nextFiled, mem_flatMap, List.mem_map]
  constructor
  · rintro ⟨⟨e, i⟩, he, ⟨key, child⟩, hchild, rfl⟩
    exact ⟨e, (mem_zipIdx' he).2 ▸ getElem_mem _, key, mem_entriesBy.mp hchild, rfl⟩
  · rintro ⟨e, he, key, hlook, hx⟩
    obtain ⟨i, hi⟩ := mem_iff_getElem?.mp he
    refine ⟨(e, i), mk_mem_zipIdx_iff_getElem?.mpr hi, (key, x.2), mem_entriesBy.mpr hlook, ?_⟩
    rw [← hx]

theorem Level.mem_next (h : Level (height + 1) live filed) (c : Cluster) :
    c ∈ live ↔ ∃ x ∈ nextFiled ord filed, c ∈ x.1 := by
  rw [h.mem]
  constructor
  · rintro ⟨e, he, hc⟩
    obtain ⟨-, hkeys, -⟩ := h.represents e he
    obtain ⟨child, hchild⟩ := exists_lookup ((hkeys (keyAt height c)).mpr ⟨c, hc, rfl⟩)
    exact ⟨(below height e.1 (keyAt height c), child), mem_nextFiled.mpr ⟨e, he, _, hchild, rfl⟩,
      mem_below.mpr ⟨hc, rfl⟩⟩
  · rintro ⟨x, hx, hc⟩
    obtain ⟨e, he, key, -, hx⟩ := mem_nextFiled.mp hx
    rw [hx] at hc
    exact ⟨e, he, (mem_below.mp hc).1⟩

theorem Level.nonempty_next (h : Level (height + 1) live filed)
    (hx : x ∈ nextFiled ord filed) : x.1.Nonempty := by
  obtain ⟨e, he, key, hlook, hx⟩ := mem_nextFiled.mp hx
  obtain ⟨-, hkeys, -⟩ := h.represents e he
  rw [hx, nonempty_iff_ne_empty, ← exists_keyAt, ← hkeys]
  exact mem_of_lookup hlook

theorem disjoint_below {clusters : Finset Cluster} {key key' : String} (hne : key ≠ key') :
    Disjoint (below height clusters key) (below height clusters key') := by
  rw [disjoint_left]
  intro c hc hc'
  exact hne ((mem_below.mp hc).2.symm.trans (mem_below.mp hc').2)

theorem Level.disjoint_next (h : Level (height + 1) live filed) :
    (nextFiled ord filed).Pairwise fun x x' => Disjoint x.1 x'.1 := by
  unfold nextFiled
  rw [pairwise_flatMap]
  constructor
  · rintro ⟨e, i⟩ -
    have hkeys := entriesBy_nodup (ord i) e.2.infoMap
    rw [List.Nodup, pairwise_map] at hkeys
    rw [pairwise_map]
    exact hkeys.imp disjoint_below
  · have hzip : (filed.zipIdx.map fst).Pairwise fun e e' => Disjoint e.1 e'.1 := by
      rw [zipIdx_map_fst]
      exact h.disjoint
    rw [pairwise_map] at hzip
    refine hzip.imp fun {e e'} hapart x hx x' hx' => ?_
    obtain ⟨child, -, rfl⟩ := List.mem_map.mp hx
    obtain ⟨child', -, rfl⟩ := List.mem_map.mp hx'
    exact hapart.mono (filter_subset _ _) (filter_subset _ _)

end

variable {filed : List (Finset Cluster × ClusterInfoNode height)}

theorem eq_biUnion (hmem : ∀ c, c ∈ live ↔ ∃ e ∈ filed, c ∈ e.1) :
    live = (univ : Finset (Fin filed.length)).biUnion fun i => (filed.get i).1 := by
  ext c
  rw [hmem, mem_biUnion]
  constructor
  · rintro ⟨e, he, hc⟩
    obtain ⟨i, rfl⟩ := mem_iff_get.mp he
    exact ⟨i, mem_univ i, hc⟩
  · rintro ⟨i, -, hc⟩
    exact ⟨_, get_mem filed i, hc⟩

theorem length_le_card
    (hmem : ∀ c, c ∈ live ↔ ∃ e ∈ filed, c ∈ e.1) (hdisjoint : filed.Pairwise fun e e' => Disjoint e.1 e'.1)
    (hsome : ∀ e ∈ filed, e.1.Nonempty) : filed.length ≤ live.card := by
  have hapart : ((univ : Finset (Fin filed.length)) : Set _).PairwiseDisjoint
      fun i => (filed.get i).1 := by
    intro i _ j _ hne
    rcases lt_or_gt_of_ne hne with hlt | hgt
    · exact pairwise_iff_get.mp hdisjoint i j hlt
    · exact (pairwise_iff_get.mp hdisjoint j i hgt).symm
  have hle := card_le_card_biUnion hapart fun i _ => hsome _ (get_mem filed i)
  rwa [card_univ, Fintype.card_fin, ← eq_biUnion hmem] at hle

variable {filed : List (Finset Cluster × ClusterInfoNode (height + 1))}

/-- **The next level** divides the clusters too. -/
theorem Level.next (h : Level (height + 1) live filed) (hfiled : Filed live) (ord : Nat → List String) :
    Level height live (nextFiled ord filed) where
  represents := by
    intro x hx
    obtain ⟨e, he, key, hlook, hx⟩ := mem_nextFiled.mp hx
    rw [hx]
    exact (h.represents e he).2.2 key x.2 hlook
  disjoint := h.disjoint_next
  mem := h.mem_next
  few := (length_le_card h.mem_next h.disjoint_next fun _ => h.nonempty_next).trans (le_max_right _ _)
  leaf := by
    -- The key of the last level is the name.
    rintro rfl x hx
    obtain ⟨e, he, key, -, hx⟩ := mem_nextFiled.mp hx
    rw [hx, card_le_one]
    intro c hc c' hc'
    obtain ⟨hc, hkey⟩ := mem_below.mp hc
    obtain ⟨hc', hkey'⟩ := mem_below.mp hc'
    exact hfiled.names c ((h.mem c).mpr ⟨e, he, hc⟩) c' ((h.mem c').mpr ⟨e, he, hc'⟩)
      (hkey.trans hkey'.symm)

theorem Level.card_le_leaves {filed : List (Finset Cluster × ClusterInfoNode 0)}
    (h : Level 0 live filed) : live.card ≤ filed.length := by
  rw [eq_biUnion h.mem]
  have hle := card_biUnion_le_card_mul univ (fun i => (filed.get i).1) 1
    fun i _ => h.leaf rfl _ (get_mem filed i)
  rwa [card_univ, Fintype.card_fin, Nat.mul_one] at hle

theorem Level.eq_empty
    (h : Level (height + 1) live filed) {ord : Nat → List String} (hnone : nextFiled ord filed = []) :
    live = ∅ := by
  rw [eq_empty_iff_forall_notMem]
  intro c hc
  obtain ⟨x, hx, -⟩ : ∃ x ∈ nextFiled ord filed, c ∈ x.1 := (h.mem_next c).mp hc
  rw [hnone] at hx
  cases hx

end Levels

/-! ### The list of the controller and the API server -/

/-- The list has the schedulers that the API server has, under names of their own. -/
structure Synced (api : ApiServer) (schedulers : List Scheduler) : Prop where
  names : (schedulers.map (·.name)).Nodup
  stored : ∀ key scheduler, api.stored.lookup key = some scheduler ↔
    scheduler ∈ schedulers ∧ scheduler.key = key

section
variable {api : ApiServer} {schedulers : List Scheduler}

theorem Synced.index_unique (h : Synced api schedulers) {i j : Nat} {a b : Scheduler}
    (hi : schedulers[i]? = some a) (hj : schedulers[j]? = some b) (hname : a.name = b.name) : i = j := by
  have hlen : i < (schedulers.map (·.name)).length := by
    rw [length_map]
    exact (List.getElem?_eq_some_iff.mp hi).1
  apply (getElem?_inj hlen h.names).mp
  rw [getElem?_map, getElem?_map, hi, hj]
  exact congrArg some hname

variable {scheduler : Scheduler}

section
variable (h : Synced api schedulers)
include h

/-- The scheduler that is found under a name of the list is the one of the list. -/
theorem Synced.latest_eq {i : Nat} {latest : Scheduler}
    {nameSpace : String} (hi : schedulers[i]? = some scheduler)
    (hlatest : api.stored.lookup (nameSpace, scheduler.name) = some latest) : latest = scheduler := by
  obtain ⟨hmem, hkey⟩ := (h.stored _ _).mp hlatest
  obtain ⟨j, hj⟩ := mem_iff_getElem?.mp hmem
  have hname : latest.name = scheduler.name := congrArg snd hkey
  rw [h.index_unique hj hi hname, hi] at hj
  exact (Option.some.inj hj).symm

theorem Synced.mem_others {i : Nat} {other : Scheduler} (hi : schedulers[i]? = some scheduler) :
    (∃ j, j ≠ i ∧ schedulers[j]? = some other) ↔ other ∈ schedulers ∧ other.key ≠ scheduler.key := by
  constructor
  · intro hother
    obtain ⟨j, hne, hj⟩ := hother
    refine ⟨mem_of_getElem? hj, fun hkey => hne ?_⟩
    exact h.index_unique hj hi (congrArg snd hkey)
  · intro hother
    obtain ⟨j, hj⟩ := mem_iff_getElem?.mp hother.1
    refine ⟨j, fun heq => hother.2 ?_, hj⟩
    subst heq
    cases hj.symm.trans hi
    rfl

theorem Synced.update {schedulers' : List Scheduler} {updated : Scheduler}
    (hnames : (schedulers'.map (·.name)).Nodup) (hmem : ∀ other, other ∈ schedulers' ↔
      other = updated ∨ other ∈ schedulers ∧ other.key ≠ updated.key) :
    Synced (api.update updated) schedulers' where
  names := hnames
  stored := by
    intro key other
    rw [hmem, ApiServer.update]
    by_cases hsame : key = updated.key
    · rw [hsame, AList.lookup_insert]
      constructor
      · intro heq
        cases heq
        exact ⟨Or.inl rfl, rfl⟩
      · intro hother
        cases hother.1 with
        | inl heq => rw [heq]
        | inr hold => exact absurd hother.2 hold.2
    · rw [AList.lookup_insert_ne hsame, h.stored]
      refine and_congr_left fun hkey => ?_
      constructor
      · exact fun hold => Or.inr ⟨hold, hkey ▸ hsame⟩
      · intro hother
        cases hother with
        | inl heq => exact absurd (heq ▸ hkey.symm) hsame
        | inr hold => exact hold.1

theorem Synced.set {i : Nat} {updated : Scheduler}
    (hi : schedulers[i]? = some scheduler) (hkey : updated.key = scheduler.key) :
    Synced (api.update updated) (schedulers.set i updated) := by
  have hlen : i < schedulers.length := (List.getElem?_eq_some_iff.mp hi).1
  refine h.update ?_ fun other => ?_
  · have hsame : (schedulers.set i updated).map (·.name) = schedulers.map (·.name) := by
      apply ext_getElem?
      intro j
      rw [getElem?_map, getElem?_map]
      by_cases hj : i = j
      · subst hj
        rw [getElem?_set_self hlen, hi]
        exact congrArg (fun key => some key.2) hkey
      · rw [getElem?_set_ne hj]
    rw [hsame]
    exact h.names
  · rw [hkey, ← h.mem_others hi, mem_iff_getElem?]
    constructor
    · intro hother
      obtain ⟨j, hj⟩ := hother
      rw [getElem?_set] at hj
      split_ifs at hj with heq
      · exact Or.inl (Option.some.inj hj).symm
      · exact Or.inr ⟨j, Ne.symm heq, hj⟩
    · intro hother
      cases hother with
      | inl heq => exact ⟨i, heq ▸ getElem?_set_self hlen⟩
      | inr hold =>
        obtain ⟨j, hne, hj⟩ := hold
        exact ⟨j, by rw [getElem?_set_ne (Ne.symm hne), hj]⟩

theorem Synced.add (hnew : scheduler.key ∉ api.stored)
    (hname : ∀ key other, api.stored.lookup key = some other → other.name ≠ scheduler.name) :
    Synced (api.update scheduler) (schedulers ++ [scheduler]) := by
  have hlook : ∀ other ∈ schedulers, api.stored.lookup other.key = some other :=
    fun other hother => (h.stored _ _).mpr ⟨hother, rfl⟩
  refine h.update ?_ fun other => ?_
  · rw [map_append, List.map_singleton]
    refine h.names.append (nodup_singleton _) ?_
    rw [List.disjoint_singleton]
    intro hmem
    obtain ⟨other, hother, heq⟩ := List.mem_map.mp hmem
    exact hname other.key other (hlook other hother) heq
  · rw [mem_append, List.mem_singleton, or_comm]
    refine or_congr_right (iff_self_and.mpr fun hother hkey => hnew ?_)
    rw [← hkey]
    exact mem_of_lookup (hlook other hother)

end

theorem Synced.remove (h : Synced api schedulers) {key : String × String} (hkey : key ∈ api.stored) :
    Synced (api.delete key) (removeScheduler key schedulers) := by
  obtain ⟨scheduler, hlook⟩ := exists_lookup hkey
  obtain ⟨hmem, hfound⟩ := (h.stored _ _).mp hlook
  have hsome : (schedulers.findIdx? (·.key = key)).isSome := by
    rw [findIdx?_isSome, any_eq_true]
    exact ⟨scheduler, hmem, decide_eq_true hfound⟩
  obtain ⟨idx, hidx⟩ := Option.isSome_iff_exists.mp hsome
  obtain ⟨hlt, hthere, -⟩ := findIdx?_eq_some_iff_getElem.mp hidx
  have hthere := of_decide_eq_true hthere
  have hperm : (removeScheduler key schedulers).Perm (schedulers.eraseIdx idx) := swapDelete_perm hidx
  have hothers : ∀ other, other ∈ removeScheduler key schedulers ↔
      other ∈ schedulers ∧ other.key ≠ key := by
    intro other
    rw [hperm.mem_iff, mem_eraseIdx_iff_getElem?, h.mem_others (getElem?_eq_getElem hlt), hthere]
  refine ⟨?_, fun key' other => ?_⟩
  · rw [(hperm.map _).nodup_iff]
    exact h.names.sublist ((eraseIdx_sublist schedulers idx).map _)
  · rw [hothers, ApiServer.delete]
    by_cases hsame : key' = key
    · subst hsame
      rw [AList.lookup_erase]
      exact iff_of_false (fun heq => by cases heq) fun hother => hother.1.2 hother.2
    · rw [AList.lookup_erase_ne hsame, h.stored]
      exact and_congr_left fun hkey => (and_iff_left (hkey ▸ hsame)).symm

end

/-! ### The loop of `balance` -/

/-- The parts, as many as there are, divide the clusters. -/
structure Divides (live : Finset Cluster) (handed : Nat → Cluster → Prop) (count : Nat) : Prop where
  sub : ∀ i < count, ∀ c, handed i c → c ∈ live
  unique : ∀ c ∈ live, ∃! i, i < count ∧ handed i c

/-- What the first rounds of the loop have done. -/
structure Dealt (handed : Nat → Cluster → Prop) (p : Progress) (count : Nat) (p' : Progress) :
    Prop where
  length : p'.schedulers.length = p.schedulers.length
  dealt : ∀ i < count, ∀ scheduler, p'.schedulers[i]? = some scheduler → Serves (handed i) scheduler
  kept : ∀ i, count ≤ i → p'.schedulers[i]? = p.schedulers[i]?
  written : ∀ scheduler ∈ p'.written, ∃ i < count, Serves (handed i) scheduler
  synced : Synced p.api p.schedulers → Synced p'.api p'.schedulers

section Rounds
variable {handed : Nat → Cluster → Prop} {p q : Progress} {i : Nat}

theorem dealt_zero (hwritten : p.written = []) : Dealt handed p 0 p where
  length := rfl
  dealt := fun i hi => absurd hi (Nat.not_lt_zero i)
  kept := fun _ _ => rfl
  written := by
    rw [hwritten]
    intro scheduler hmem
    cases hmem
  synced := id

/-- **One round** writes the next scheduler and leaves the others alone. -/
theorem Dealt.put (h : Dealt handed p i q) {scheduler latest updated : Scheduler} {nameSpace : String}
    (hi : q.schedulers[i]? = some scheduler)
    (hlatest : q.api.stored.lookup (nameSpace, scheduler.name) = some latest)
    (hkey : updated.key = latest.key) (hserves : Serves (handed i) updated) :
    Dealt handed p (i + 1) (q.put i updated) where
  length := by
    rw [Progress.put, length_set, h.length]
  dealt := by
    intro j hj other hother
    rw [Progress.put, getElem?_set] at hother
    split_ifs at hother with heq
    · subst heq
      cases hother
      exact hserves
    · exact h.dealt j (by omega) other hother
  kept := by
    intro j hj
    rw [Progress.put, getElem?_set_ne (by omega)]
    exact h.kept j (by omega)
  written := by
    intro other hother
    rcases mem_append.mp hother with hold | hnew
    · obtain ⟨j, hj, hother⟩ := h.written other hold
      exact ⟨j, by omega, hother⟩
    · rw [List.mem_singleton.mp hnew]
      exact ⟨i, Nat.lt_succ_self i, hserves⟩
  synced := by
    intro hp
    have hq := h.synced hp
    rw [hq.latest_eq hi hlatest] at hkey
    exact hq.set hi hkey

variable {live : Finset Cluster}

theorem Dealt.covers {count : Nat} (h : Dealt handed p count q)
    (hdivides : Divides live handed count) (hcount : count ≤ p.schedulers.length) {c : Cluster}
    (hc : c ∈ live) : ∃ i < count, ∃ scheduler, q.schedulers[i]? = some scheduler ∧
      c.name ∈ scheduler.cluster := by
  obtain ⟨i, ⟨hi, hin⟩, -⟩ := hdivides.unique c hc
  have hlt : i < q.schedulers.length := by
    rw [h.length]
    exact hi.trans_le hcount
  have hget := getElem?_eq_getElem hlt
  exact ⟨i, hi, _, hget, ((h.dealt i hi _ hget).cluster _).mpr ⟨c, hin, rfl⟩⟩

theorem Dealt.apart {count : Nat} (h : Dealt handed p count q)
    (hdivides : Divides live handed count) (hfiled : Filed live) {i j : Nat} (hi : i < count)
    (hj : j < count) {a b : Scheduler} (ha : q.schedulers[i]? = some a)
    (hb : q.schedulers[j]? = some b) {name : String} (hina : name ∈ a.cluster)
    (hinb : name ∈ b.cluster) : i = j := by
  obtain ⟨c, hc, rfl⟩ := ((h.dealt i hi a ha).cluster name).mp hina
  obtain ⟨c', hc', hname⟩ := ((h.dealt j hj b hb).cluster _).mp hinb
  have hlive := hdivides.sub i hi c hc
  rw [hfiled.names c' (hdivides.sub j hj c' hc') c hlive hname] at hc'
  exact (hdivides.unique c hlive).unique ⟨hi, hc⟩ ⟨hj, hc'⟩

/-- The loop was ended by an error, or has dealt with all. -/
def Deals (handed : Nat → Cluster → Prop) (p : Progress) (count : Nat)
    (r : Outcome (Progress × Option String)) : Prop :=
  (∃ p' err, r = .ok (p', some err)) ∨ ∃ p', r = .ok (p', none) ∧ Dealt handed p count p'

variable {ord : MapOrders} {nameSpace : String} {nodes : List NodeData} {range : Nat → Int × Int}
  {part : Nat → List NodeData} {count : Nat}

theorem assignRange_deals (hpart : nodesIn nodes (range i) = .ok (part i))
    (hserves : ∀ latest, Serves (handed i) (assigned ord i (part i) latest))
    (hi : i < p.schedulers.length) (h : Dealt handed p i q) :
    Deals handed p (i + 1) (assignRange ord nameSpace nodes (range i, i) q) := by
  rw [← h.length] at hi
  simp only [assignRange, hpart, index_natCast hi, Except.bind, bind]
  cases hlatest : q.api.stored.lookup (nameSpace, q.schedulers[i].name) with
  | none => exact Or.inl ⟨_, _, rfl⟩
  | some latest =>
    have hnext : Dealt handed p (i + 1) (q.put i (assigned ord i (part i) latest)) :=
      h.put (getElem?_eq_getElem hi) hlatest rfl (hserves latest)
    exact Or.inr ⟨_, rfl, hnext⟩

/-- **All rounds.** -/
theorem assignRanges_deals (hpart : ∀ i < count, nodesIn nodes (range i) = .ok (part i))
    (hserves : ∀ i < count, ∀ latest, Serves (handed i) (assigned ord i (part i) latest))
    (hcount : count ≤ p.schedulers.length) {left : Nat} (hleft : i + left = count) (h : Dealt handed p i q) :
    Deals handed p count
      (assignRanges ord nameSpace nodes ((range' i left).map fun i => (range i, i)) q) := by
  induction left generalizing i q with
  | zero =>
    rw [← hleft]
    exact Or.inr ⟨q, rfl, h⟩
  | succ left ih =>
    rw [range'_succ, List.map_cons, assignRanges]
    have hfirst : Deals handed p (i + 1) (assignRange ord nameSpace nodes (range i, i) q) :=
      assignRange_deals (hpart i (by omega)) (hserves i (by omega)) (by omega) h
    rcases hfirst with ⟨q', err, hround⟩ | ⟨q', hround, hdealt⟩
    · rw [hround]
      exact Or.inl ⟨q', err, rfl⟩
    · rw [hround]
      exact ih (by omega) hdealt

end Rounds

/-! ### Balancing -/

section Balance
variable {height : Nat} {live : Finset Cluster} {ord : MapOrders} {nameSpace : String} {p : Progress}

def nodeData (filed : List (Finset Cluster × ClusterInfoNode height)) : FiledNodes :=
  filed.map fun e => (e.1, e.2.toNodeData)

variable {filed : List (Finset Cluster × ClusterInfoNode height)}

theorem Level.divides (h : Level height live filed) {size : Nat} (hsize : 0 < size) :
    Divides live (fun i => Handed (share size (nodeData filed) i))
      (rangeCount size (filed.length - 1)) where
  sub := by
    rintro i - c ⟨e, he, hc⟩
    rw [nodeData, share_map] at he
    obtain ⟨e, hshare, rfl⟩ := List.mem_map.mp he
    obtain ⟨k, -, -, hk⟩ := mem_share.mp hshare
    exact (h.mem c).mpr ⟨e, mem_of_getElem? hk, hc⟩
  unique := by
    intro c hc
    obtain ⟨e, he, hin⟩ := (h.mem c).mp hc
    obtain ⟨k, hk⟩ := mem_iff_getElem?.mp he
    have hlength : (nodeData filed).length = filed.length := length_map _
    rw [← hlength]
    apply existsUnique_share hsize
    refine ⟨k, ⟨(e.1, e.2.toNodeData), by rw [nodeData, getElem?_map, hk]; rfl, hin⟩, ?_⟩
    rintro k' ⟨x, hx, hin'⟩
    rw [nodeData, getElem?_map] at hx
    obtain ⟨e', hk', rfl⟩ := Option.map_eq_some_iff.mp hx
    by_contra hne
    obtain ⟨hlt, rfl⟩ := List.getElem?_eq_some_iff.mp hk
    obtain ⟨hlt', rfl⟩ := List.getElem?_eq_some_iff.mp hk'
    have hapart := pairwise_iff_getElem.mp h.disjoint
    rcases lt_or_gt_of_ne hne with hlt'' | hgt
    · exact disjoint_left.mp (hapart k' k hlt' hlt hlt'') hin' hin
    · exact disjoint_left.mp (hapart k k' hlt hlt' hgt) hin hin'

theorem Level.divide_deals (h : Level height live filed) (hfiled : filed ≠ []) (hschedulers : p.schedulers ≠ [])
    (hwritten : p.written = []) :
    Deals (fun i => Handed (share p.schedulers.length (nodeData filed) i)) p
      (rangeCount p.schedulers.length (filed.length - 1))
      (divide ord nameSpace ((filed.map snd).map (·.toNodeData)) p) := by
  have hsize : 0 < p.schedulers.length := length_pos_iff.mpr hschedulers
  have hpos : 0 < filed.length := length_pos_iff.mpr hfiled
  have hnodes : (filed.map snd).map (·.toNodeData) = (nodeData filed).map snd := by
    rw [nodeData, List.map_map, List.map_map]
    rfl
  have hlength : ((nodeData filed).map snd).length = filed.length := by
    rw [nodeData, length_map, length_map]
  have hupper : (filed.length : Int) - 1 = (filed.length - 1 : Nat) := by omega
  rw [divide, hnodes, hlength, hupper, @evenlyDivide_eq _ _ id hsize (fun _ _ _ => rfl) (fun _ => rfl)]
  have hzip : ((List.range (rangeCount p.schedulers.length (filed.length - 1))).map
      (keyRange p.schedulers.length (filed.length - 1))).zipIdx =
      (range' 0 (rangeCount p.schedulers.length (filed.length - 1))).map
        fun i => (keyRange p.schedulers.length (filed.length - 1) i, i) := by
    apply ext_getElem <;> simp
  rw [hzip]
  have hpart : ∀ i < rangeCount p.schedulers.length (filed.length - 1),
      nodesIn ((nodeData filed).map snd) (keyRange p.schedulers.length (filed.length - 1) i) =
        .ok ((share p.schedulers.length (nodeData filed) i).map snd) := by
    intro i hi
    rw [← share_map, ← hlength]
    exact nodesIn_share hsize (by omega) (by rwa [hlength])
  refine assignRanges_deals hpart ?_ (Nat.min_le_left _ _) (Nat.zero_add _) (dealt_zero hwritten)
  intro i _ latest
  apply assigned_serves
  intro e he
  rw [nodeData, share_map] at he
  obtain ⟨e, hshare, rfl⟩ := List.mem_map.mp he
  obtain ⟨k, -, -, hk⟩ := mem_share.mp hshare
  exact (h.represents e (mem_of_getElem? hk)).holds

/-- The clusters are divided among the first schedulers, one for every cluster at most. -/
def Balances (live : Finset Cluster) (p : Progress) (r : Outcome (Progress × Option String)) : Prop :=
  ∃ handed, Divides live handed (min p.schedulers.length (max 1 live.card)) ∧
    Deals handed p (min p.schedulers.length (max 1 live.card)) r

theorem Level.divide_balances (h : Level height live filed) (hfiled : filed ≠ []) (hschedulers : p.schedulers ≠ [])
    (hwritten : p.written = [])
    (hlast : p.schedulers.length ≤ filed.length ∨ filed.length = max 1 live.card) :
    Balances live p (divide ord nameSpace ((filed.map snd).map (·.toNodeData)) p) := by
  have hpos : 0 < filed.length := length_pos_iff.mpr hfiled
  have hcount : rangeCount p.schedulers.length (filed.length - 1) =
      min p.schedulers.length (max 1 live.card) := by
    have hfew := h.few
    unfold rangeCount
    omega
  rw [Balances, ← hcount]
  exact ⟨_, h.divides (length_pos_iff.mpr hschedulers),
    h.divide_deals hfiled hschedulers hwritten⟩

/-- **`balance` divides the clusters**, from any level of the tree on. -/
theorem Level.balance_balances (h : Level height live filed) (hlive : Filed live) (hfiled : filed ≠ [])
    (hschedulers : p.schedulers ≠ []) (hwritten : p.written = []) :
    Balances live p (balance ord nameSpace height (filed.map snd) p) := by
  have hpos : 0 < filed.length := length_pos_iff.mpr hfiled
  have hsome : ¬ (filed.map snd = [] ∨ p.schedulers = []) := by
    rw [map_eq_nil_iff]
    exact not_or.mpr ⟨hfiled, hschedulers⟩
  induction height with
  | zero =>
    rw [balance, if_neg hsome]
    apply h.divide_balances hfiled hschedulers hwritten
    have hleaves := h.card_le_leaves
    have hfew := h.few
    omega
  | succ height ih =>
    rw [balance, if_neg hsome]
    dsimp only
    rw [nextLevelNodes_filed, length_map, length_map]
    split_ifs with hdown
    · have hnext : nextFiled (ord.infoMap height) filed ≠ [] := length_pos_iff.mp hdown.2
      apply ih (h.next hlive _) hnext hdown.2
      rw [map_eq_nil_iff]
      exact not_or.mpr ⟨hnext, hschedulers⟩
    · apply h.divide_balances hfiled hschedulers hwritten
      by_cases hmany : p.schedulers.length > filed.length
      · -- No level follows, so there are no clusters, and the one node is the root.
        have hnone : nextFiled (ord.infoMap height) filed = [] := by
          rw [← length_eq_zero_iff]
          omega
        have hfew := h.few
        rw [h.eq_empty hnone, card_empty] at hfew ⊢
        omega
      · exact Or.inl (by omega)

end Balance

/-! ### Runs -/

/-- The tree is that of the clusters. -/
def Tracks (s : State) : Prop :=
  Filed s.clusters.live ∧ Files s.clusters.live s.clusters.tree

variable {e : Event} {s : State}

theorem Tracks.apply (h : Tracks s) (hallowed : Allowed s e) : Tracks (e.change.apply s) := by
  obtain ⟨change, ord⟩ := e
  cases change with
  | addCluster cluster | deleteCluster cluster => exact files_step h.1 h.2 hallowed
  | addScheduler scheduler | deleteScheduler key => exact h

def State.count (s : State) : Nat := min s.schedulers.length (max 1 s.clusters.live.card)

/-- What `balance` makes of a state. -/
structure Rebalanced (s s' : State) : Prop where
  clusters : s'.clusters = s.clusters
  dealt : ∃ handed, (s.schedulers ≠ [] → Divides s.clusters.live handed s.count) ∧
    Dealt handed ⟨s.api, s.schedulers, []⟩ s.count ⟨s'.api, s'.schedulers, s'.written⟩

/-- **Every event is handled**: the API server refuses a scheduler, or the clusters are
divided. -/
theorem Tracks.handle (h : Tracks s) (hallowed : Allowed s e) : (∃ s' err, handle s e = .ok (s', some err)) ∨
      ∃ s', handle s e = .ok (s', none) ∧ Rebalanced (e.change.apply s) s' := by
  obtain ⟨hfiled, hfiles⟩ := h.apply hallowed
  unfold Schedulers.handle
  generalize e.change.apply s = t at hfiled hfiles
  by_cases hnone : t.schedulers = []
  · have hkeep : balance e.ord e.change.nameSpace levels [t.clusters.tree] ⟨t.api, t.schedulers, []⟩ =
        .ok (⟨t.api, t.schedulers, []⟩, none) := by
      simp only [levels, balance, hnone, or_true, if_true]
      rfl
    dsimp only
    rw [hkeep]
    refine Or.inr ⟨_, rfl, rfl, fun _ _ => False, fun hsome => absurd hnone hsome, ?_⟩
    rw [State.count, hnone, length_nil, Nat.zero_min]
    exact dealt_zero rfl
  · have hbalances : Balances t.clusters.live ⟨t.api, t.schedulers, []⟩
        (balance e.ord e.change.nameSpace levels [t.clusters.tree] ⟨t.api, t.schedulers, []⟩) :=
      (level_root (hfiles.represents hfiled)).balance_balances hfiled (cons_ne_nil _ _) hnone rfl
    obtain ⟨handed, hdivides, hdeals⟩ := hbalances
    rcases hdeals with ⟨p', err, hbalance⟩ | ⟨p', hbalance, hdealt⟩
    · exact Or.inl ⟨{ t with api := p'.api, schedulers := p'.schedulers, written := p'.written }, err,
        bind_ok.mpr ⟨_, hbalance, rfl⟩⟩
    · exact Or.inr ⟨_, bind_ok.mpr ⟨_, hbalance, rfl⟩, rfl, handed, fun _ => hdivides, hdealt⟩

variable {s' : State}

theorem Tracks.step (h : Tracks s) (hallowed : Allowed s e)
    (hstep : step s e s') : Rebalanced (e.change.apply s) s' := by
  rcases h.handle hallowed with ⟨t, err, hfailed⟩ | ⟨t, hok, hdone⟩
  · cases hfailed.symm.trans hstep
  · cases hok.symm.trans hstep
    exact hdone

theorem Tracks.next (h : Tracks s) (hallowed : Allowed s e) (hstep : Schedulers.step s e s') : Tracks s' := by
  rw [Tracks, (h.step hallowed hstep).clusters]
  exact h.apply hallowed

theorem tracks_init : Tracks init :=
  ⟨⟨fun c hc => absurd hc (notMem_empty c), fun c hc => absurd hc (notMem_empty c)⟩,
    files_empty⟩

theorem Runs.tracks {es : List Event} (h : Runs es s) : Tracks s :=
  h.invariant (fun _ _ _ ht hallowed hstep => ht.next hallowed hstep) tracks_init

/-! ### Schedulers with names of their own -/

theorem synced_apply (h : Synced s.api s.schedulers)
    (hallowed : NamedApart s e) : Synced (e.change.apply s).api (e.change.apply s).schedulers := by
  obtain ⟨change, ord⟩ := e
  obtain ⟨hallowed, hname⟩ := hallowed
  cases change with
  | addCluster cluster => exact h
  | deleteCluster cluster => exact h
  | addScheduler scheduler => exact h.add hallowed (hname scheduler rfl)
  | deleteScheduler key => exact h.remove hallowed

theorem NamedRuns.synced {es : List Event} (h : NamedRuns es s) : Tracks s ∧ Synced s.api s.schedulers := by
  refine h.invariant (I := fun s => Tracks s ∧ Synced s.api s.schedulers) ?_ ⟨tracks_init, ?_, ?_⟩
  · rintro s e s' ⟨htracks, hsynced⟩ hallowed hstep
    obtain ⟨handed, -, hdealt⟩ := (htracks.step hallowed.1 hstep).dealt
    exact ⟨htracks.next hallowed.1 hstep, hdealt.synced (synced_apply hsynced hallowed)⟩
  · exact nodup_nil
  · intro key scheduler
    refine iff_of_false (fun heq => by cases heq) ?_
    rintro ⟨hmem, -⟩
    cases hmem

/-- **The clusters are divided exactly if nobody is left with an old list.** -/
theorem Rebalanced.partitioned_iff (h : Rebalanced s s')
    (hfiled : Filed s.clusters.live) (hsynced : Synced s.api s.schedulers) :
    Partitioned s' ↔ NoneLeftOver s := by
  obtain ⟨handed, hdivides, hdealt⟩ := h.dealt
  have hsynced' : Synced s'.api s'.schedulers := hdealt.synced hsynced
  have hcount : s.count ≤ s.schedulers.length := Nat.min_le_left _ _
  have hlook : ∀ scheduler ∈ s'.schedulers, s'.api.stored.lookup scheduler.key = some scheduler :=
    fun _ hmem => (hsynced'.stored _ _).mpr ⟨hmem, rfl⟩
  have hfind : ∀ {key scheduler}, s'.api.stored.lookup key = some scheduler →
      ∃ i : Nat, s'.schedulers[i]? = some scheduler ∧ scheduler.key = key := by
    intro key scheduler hfound
    obtain ⟨hmem, hkey⟩ := (hsynced'.stored _ _).mp hfound
    obtain ⟨i, hi⟩ := mem_iff_getElem?.mp hmem
    exact ⟨i, hi, hkey⟩
  have hsome : (∃ key, key ∈ s'.api.stored) ↔ s.schedulers ≠ [] := by
    rw [← length_pos_iff, ← hdealt.length, length_pos_iff]
    constructor
    · rintro ⟨key, hkey⟩
      obtain ⟨scheduler, hfound⟩ := exists_lookup hkey
      exact ne_nil_of_mem ((hsynced'.stored _ _).mp hfound).1
    · intro hne
      obtain ⟨scheduler, hmem⟩ := exists_mem_of_ne_nil _ hne
      exact ⟨scheduler.key, mem_of_lookup (hlook scheduler hmem)⟩
  have hbeyond : ∀ (i : Nat) scheduler, s.schedulers[i]? = some scheduler →
      (max 1 s.clusters.live.card ≤ i ↔ s.count ≤ i) := by
    intro i scheduler hget
    have hlt := (List.getElem?_eq_some_iff.mp hget).1
    unfold State.count
    omega
  rw [Partitioned, hsome, h.clusters]
  constructor
  · intro hpart i scheduler hget hleft
    have hne := ne_nil_of_mem (mem_of_getElem? hget)
    obtain ⟨hapart, hcovered⟩ := hpart hne
    rw [hbeyond i scheduler hget] at hleft
    have hget' : s'.schedulers[i]? = some scheduler := (hdealt.kept i hleft).trans hget
    have hfound := hlook scheduler (mem_of_getElem? hget')
    rw [eq_nil_iff_forall_not_mem]
    intro name hname
    obtain ⟨c, hc, rfl⟩ := (hcovered name).mp ⟨_, scheduler, hfound, hname⟩
    obtain ⟨j, hj, other, hother, hin⟩ := hdealt.covers (hdivides hne) hcount hc
    refine hapart _ _ scheduler other hfound (hlook other (mem_of_getElem? hother)) (fun hkey => ?_) _ hname hin
    have hsame := hsynced'.index_unique hget' hother (congrArg snd hkey)
    omega
  · intro hnone hne
    -- Whoever has a list was written.
    have hwritten : ∀ (i : Nat) scheduler, s'.schedulers[i]? = some scheduler →
        ∀ name ∈ scheduler.cluster, i < s.count := by
      intro i scheduler hget name hname
      by_contra hleft
      rw [not_lt] at hleft
      have hget' : s.schedulers[i]? = some scheduler := (hdealt.kept i hleft).symm.trans hget
      rw [hnone i scheduler hget' ((hbeyond i scheduler hget').mpr hleft)] at hname
      cases hname
    refine ⟨fun key key' a b ha hb hkeys name hina hinb => hkeys ?_, fun name => ⟨?_, ?_⟩⟩
    · obtain ⟨i, hi, rfl⟩ := hfind ha
      obtain ⟨j, hj, rfl⟩ := hfind hb
      cases hdealt.apart (hdivides hne) hfiled (hwritten i a hi name hina) (hwritten j b hj name hinb) hi hj
        hina hinb
      cases hi.symm.trans hj
      rfl
    · rintro ⟨key, scheduler, hfound, hname⟩
      obtain ⟨i, hi, -⟩ := hfind hfound
      have hlt := hwritten i scheduler hi name hname
      obtain ⟨c, hc, heq⟩ := ((hdealt.dealt i hlt scheduler hi).cluster name).mp hname
      exact ⟨c, (hdivides hne).sub i hlt c hc, heq⟩
    · rintro ⟨c, hc, rfl⟩
      obtain ⟨i, -, scheduler, hget, hin⟩ := hdealt.covers (hdivides hne) hcount hc
      exact ⟨_, scheduler, hlook scheduler (mem_of_getElem? hget), hin⟩

/-- **After every event the schedulers have the clusters there are, each in one list, exactly
if the event leaves nobody beyond the clusters with a list**, and no event stops the
controller. -/
theorem runs_partitioned_iff (es : List Event) (s : State) (h : NamedRuns es s) (e : Event)
    (hallowed : NamedApart s e) :
    (∃ r, handle s e = .ok r) ∧
      ∀ s', step s e s' → (Partitioned s' ↔ NoneLeftOver (e.change.apply s)) := by
  obtain ⟨htracks, hsynced⟩ := h.synced
  constructor
  · rcases htracks.handle hallowed.1 with ⟨s', err, hfailed⟩ | ⟨s', hok, -⟩
    · exact ⟨_, hfailed⟩
    · exact ⟨_, hok⟩
  · intro s' hstep
    exact (htracks.step hallowed.1 hstep).partitioned_iff (htracks.apply hallowed.1).1
      (synced_apply hsynced hallowed)

/-! ### Two schedulers and two cities -/

/-- The event of a change, for one choice of the runtime. -/
def Change.event (change : Change) : Event := ⟨change, {}⟩

theorem namedApart_addScheduler {scheduler : Scheduler} (hnew : scheduler.key ∉ s.api.stored)
    (hnames : ∀ entry ∈ s.api.stored.entries, entry.2.name ≠ scheduler.name) :
    NamedApart s (Change.addScheduler scheduler).event := by
  refine ⟨hnew, ?_⟩
  intro scheduler' heq key other hlook
  cases heq
  exact hnames ⟨key, other⟩ (AList.mem_lookup_iff.mp hlook)

/-- Two schedulers, and a cluster in the first city. -/
def firstCity : State :=
  let events := [Change.addScheduler ⟨"", "a", [], {}⟩, .addScheduler ⟨"", "b", [], {}⟩,
    .addCluster (cityCluster "x" "k1" "f")]
  events.foldl (fun s change => match handle s change.event with
    | .ok (s', _) => s'
    | .error _ => s) init

theorem exists_run_firstCity : ∃ es, NamedRuns es firstCity := by
  have hrun : NamedRuns [(Change.addScheduler ⟨"", "a", [], {}⟩).event,
      (Change.addScheduler ⟨"", "b", [], {}⟩).event, (Change.addCluster (cityCluster "x" "k1" "f")).event] firstCity :=
    .cons (namedApart_addScheduler (by decide) (by decide)) rfl <|
      .cons (namedApart_addScheduler (by decide) (by decide)) rfl <|
      .cons ⟨⟨by decide, fun c hc => absurd hc (notMem_empty c)⟩, fun _ heq => by cases heq⟩ rfl (.nil _)
  exact ⟨_, hrun⟩

def bothCities : State :=
  match handle firstCity (Change.addCluster (cityCluster "y" "k2" "f")).event with
  | .ok (s', _) => s'
  | .error _ => firstCity

theorem firstCity_allowed : NamedApart firstCity (Change.addCluster (cityCluster "y" "k2" "f")).event :=
  ⟨⟨by decide, by decide⟩, fun _ heq => by cases heq⟩

theorem firstCity_step :
    step firstCity (Change.addCluster (cityCluster "y" "k2" "f")).event bothCities := rfl

theorem runs_partitioned_both_cities :
    ∃ es s e s', NamedRuns es s ∧ NamedApart s e ∧ step s e s' ∧ Partitioned s' ∧
      s'.schedulers.map (·.cluster) = [["k2"], ["k1"]] := by
  obtain ⟨es, hrun⟩ := exists_run_firstCity
  refine ⟨es, firstCity, _, bothCities, hrun, firstCity_allowed, firstCity_step, ?_, rfl⟩
  refine ((runs_partitioned_iff es firstCity hrun _ firstCity_allowed).2 _ firstCity_step).mpr ?_
  intro i scheduler hget hleft
  obtain ⟨hlt, -⟩ := List.getElem?_eq_some_iff.mp hget
  exact absurd (hlt.trans_le (show _ ≤ 2 by decide)) (not_lt.mpr hleft)

/-- **A scheduler keeps a cluster that is gone**: with the first city's cluster deleted there
is one node left, the second scheduler is not written, and its list still names the
cluster. -/
theorem deleted_cluster_stays :
    ∃ es s, NamedRuns es s ∧ ¬ Partitioned s ∧
      s.schedulers.map (·.cluster) = [["k2"], ["k1"]] ∧ s.clusters.live = {cityCluster "y" "k2" "f"} := by
  obtain ⟨es, hrun⟩ := exists_run_firstCity
  have hboth : NamedRuns _ bothCities := .snoc hrun firstCity_allowed firstCity_step
  have hdeleted : NamedRuns _ _ :=
    .snoc (e := (Change.deleteCluster (cityCluster "x" "k1" "f")).event) hboth
      ⟨⟨cityCluster "x" "k1" "f", by decide, rfl, rfl⟩, fun _ heq => by cases heq⟩ (by exact rfl)
  refine ⟨_, _, hdeleted, ?_, rfl, by decide⟩
  intro hpart
  obtain ⟨-, hcovered⟩ := hpart ⟨("", "b"), by decide⟩
  obtain ⟨c, hc, hname⟩ := (hcovered "k1").mp ⟨("", "b"), _, rfl, by decide⟩
  revert c
  decide

end GlobalScheduler.Schedulers
