import GlobalScheduler.Controllers.ClusterUnion
import Mathlib.Data.List.TakeWhile

/-! The geo tree as a set of clusters.

A tree represents the clusters that are filed in it: a node counts the clusters whose
keys lead to it, and has a child for exactly the next keys of theirs. Adding and deleting
a cluster are insertion into and removal from that set. -/
namespace GlobalScheduler.ClusterUnion

open Go Clusterv1 RefCount Transition AList List Option

/-! ### The clusters a node stands for -/

/-- The node counts these clusters and what their specs have. -/
structure Holds (clusters : Finset Cluster) (node : NodeData) : Prop where
  geoLocationMap : Counts node.clusterUnionMap.geoLocationMap
    (occurrences (fun c => [c.spec.geoLocation]) clusters)
  regionMap : Counts node.clusterUnionMap.regionMap
    (occurrences (fun c => [c.spec.region]) clusters)
  operatorMap : Counts node.clusterUnionMap.operatorMap
    (occurrences (fun c => [c.spec.operator]) clusters)
  flavorMap : Counts node.clusterUnionMap.flavorMap
    (occurrences (fun c => c.spec.flavors) clusters)
  storageMap : Counts node.clusterUnionMap.storageMap
    (occurrences (fun c => c.spec.storage) clusters)
  eipCapacityMap : Counts node.clusterUnionMap.eipCapacityMap
    (occurrences (fun c => [c.spec.eipCapacity]) clusters)
  cpuCapacityMap : Counts node.clusterUnionMap.cpuCapacityMap
    (occurrences (fun c => [c.spec.cpuCapacity]) clusters)
  memCapacityMap : Counts node.clusterUnionMap.memCapacityMap
    (occurrences (fun c => [c.spec.memCapacity]) clusters)
  serverPriceMap : Counts node.clusterUnionMap.serverPriceMap
    (occurrences (fun c => [c.spec.serverPrice]) clusters)
  clusterMap : Counts node.clusterMap (occurrences (fun c => [c.name]) clusters)

section
variable {clusters : Finset Cluster} {node : NodeData} {cluster : Cluster}

theorem Holds.empty : Holds ∅ {} := by
  constructor <;> exact counts_empty

theorem Holds.add (h : Holds clusters node) (hnew : cluster ∉ clusters) :
    Holds (insert cluster clusters) (node.add cluster) where
  geoLocationMap := h.geoLocationMap.insert hnew
  regionMap := h.regionMap.insert hnew
  operatorMap := h.operatorMap.insert hnew
  flavorMap := h.flavorMap.insert hnew
  storageMap := h.storageMap.insert hnew
  eipCapacityMap := h.eipCapacityMap.insert hnew
  cpuCapacityMap := h.cpuCapacityMap.insert hnew
  memCapacityMap := h.memCapacityMap.insert hnew
  serverPriceMap := h.serverPriceMap.insert hnew
  clusterMap := h.clusterMap.insert hnew

theorem Holds.del (h : Holds clusters node) (hmem : cluster ∈ clusters) :
    Holds (clusters.erase cluster) (node.del cluster) where
  geoLocationMap := h.geoLocationMap.erase hmem
  regionMap := h.regionMap.erase hmem
  operatorMap := h.operatorMap.erase hmem
  flavorMap := h.flavorMap.erase hmem
  storageMap := h.storageMap.erase hmem
  eipCapacityMap := h.eipCapacityMap.erase hmem
  cpuCapacityMap := h.cpuCapacityMap.erase hmem
  memCapacityMap := h.memCapacityMap.erase hmem
  serverPriceMap := h.serverPriceMap.erase hmem
  clusterMap := h.clusterMap.erase hmem

end

/-! ### Trees -/

def below (height : Nat) (clusters : Finset Cluster) (key : String) : Finset Cluster :=
  clusters.filter (keyAt height · = key)

/-- The tree is that of these clusters. -/
def Represents : (height : Nat) → Finset Cluster → ClusterInfoNode height → Prop
  | 0, clusters, cin => Holds clusters cin.toNodeData
  | height + 1, clusters, cin => Holds clusters cin.toNodeData ∧
      (∀ key, key ∈ cin.infoMap ↔ ∃ c ∈ clusters, keyAt height c = key) ∧
      ∀ key (child : ClusterInfoNode height), cin.infoMap.lookup key = some child →
        Represents height (below height clusters key) child

section
variable {height : Nat} {clusters : Finset Cluster} {cluster : Cluster} {key : String}

theorem Represents.holds {cin : ClusterInfoNode height} (h : Represents height clusters cin) :
    Holds clusters cin.toNodeData := by
  cases height with
  | zero => exact h
  | succ height => exact h.1

theorem mem_below {c : Cluster} : c ∈ below height clusters key ↔ c ∈ clusters ∧ keyAt height c = key :=
  Finset.mem_filter

theorem exists_keyAt : (∃ c ∈ clusters, keyAt height c = key) ↔ below height clusters key ≠ ∅ := by
  rw [← Finset.nonempty_iff_ne_empty]
  constructor
  · rintro ⟨c, hc⟩
    exact ⟨c, mem_below.mpr hc⟩
  · rintro ⟨c, hc⟩
    exact ⟨c, mem_below.mp hc⟩

theorem keys_eq_nil_of_leaf (cin : ClusterInfoNode 0) : cin.infoMap.keys = [] := by
  apply eq_nil_iff_forall_not_mem.mpr
  intro key hkey
  obtain ⟨child, -⟩ := Map.exists_lookup (mem_keys.mpr hkey)
  exact child.elim

theorem delCluster_succ {cin : ClusterInfoNode (height + 1)} {child : ClusterInfoNode height}
    (hkey : keyAt height cluster ≠ "") (hlook : cin.infoMap.lookup (keyAt height cluster) = some child) :
    delCluster cluster (height + 1) cin =
      { toNodeData := cin.toNodeData.del cluster
        infoMap := if (delCluster cluster height child).infoMap.keys = []
          then cin.infoMap.erase (keyAt height cluster)
          else cin.infoMap.insert (keyAt height cluster) (delCluster cluster height child) } := by
  simp [delCluster, if_neg hkey, hlook]

end

/-! ### Nodes by their paths -/

section
variable {height : Nat} {clusters : Finset Cluster} {path : List String}

def pathFrom : Nat → Cluster → List String
  | 0, _ => []
  | height + 1, cluster => keyAt height cluster :: pathFrom height cluster

def along (height : Nat) (clusters : Finset Cluster) (path : List String) : Finset Cluster :=
  clusters.filter (path <+: pathFrom height ·)

theorem along_nil : along height clusters [] = clusters := by
  simp [along]

theorem along_cons {key : String} : along (height + 1) clusters (key :: path) =
    along height (below height clusters key) path := by
  ext c
  simp only [along, below, Finset.mem_filter, pathFrom, cons_prefix_cons, and_assoc]
  rw [eq_comm]

theorem nodeAt_nil (cin : ClusterInfoNode height) : nodeAt height cin [] = some cin.toNodeData := by
  cases height <;> rfl

theorem nodeAt_cons (cin : ClusterInfoNode (height + 1)) (key : String) (rest : List String) :
    nodeAt (height + 1) cin (key :: rest) = (cin.infoMap.lookup key).bind (nodeAt height · rest) := rfl

/-- The tree is known by its paths: it is that of the clusters if it has the nodes on their paths, and
each counts those whose paths lead through it. -/
theorem represents_of_nodes {cin : ClusterInfoNode height} (hnodes : ∀ path, (nodeAt height cin path).isSome ↔
      path = [] ∨ ∃ c ∈ clusters, path <+: pathFrom height c)
    (hcounts : ∀ path node, nodeAt height cin path = some node → Holds (along height clusters path) node) :
    Represents height clusters cin := by
  have hroot := hcounts [] _ (nodeAt_nil cin)
  rw [along_nil] at hroot
  induction height generalizing clusters with
  | zero => exact hroot
  | succ height ih =>
    have hchild : ∀ key (child : ClusterInfoNode height), cin.infoMap.lookup key = some child →
        ∀ path, nodeAt height child path = nodeAt (height + 1) cin (key :: path) := by
      intro key child hchild path
      rw [nodeAt_cons, hchild]
      rfl
    refine ⟨hroot, fun key => ?_, fun key child hlook => ?_⟩
    · have hkey : key ∈ cin.infoMap ↔ (nodeAt (height + 1) cin [key]).isSome := by
        rw [nodeAt_cons, ← lookup_isSome]
        cases cin.infoMap.lookup key <;> simp [nodeAt_nil]
      rw [hkey, hnodes]
      simp [pathFrom, eq_comm]
    · have hcounts' : ∀ path node, nodeAt height child path = some node →
          Holds (along height (below height clusters key) path) node := by
        intro path node hnode
        rw [← along_cons]
        exact hcounts (key :: path) node (hchild key child hlook path ▸ hnode)
      have hroot' := hcounts' [] _ (nodeAt_nil child)
      rw [along_nil] at hroot'
      refine ih (fun path => ?_) hcounts' hroot'
      by_cases hpath : path = []
      · subst hpath
        exact iff_of_true (by rw [nodeAt_nil]; rfl) (Or.inl rfl)
      · rw [hchild key child hlook, hnodes]
        simp [pathFrom, hpath, mem_below, eq_comm, and_assoc]

end

/-! ### Places -/

/-- The keys of a cluster from a node on, up to the first that is missing. -/
def placeFrom (height : Nat) (cluster : Cluster) : List String :=
  (pathFrom height cluster).takeWhile (· ≠ "")

/-- The place of a cluster: the nodes of its path are the beginnings of this list. -/
def place (cluster : Cluster) : List String := (geoPath cluster).takeWhile (· ≠ "")

section
variable {height : Nat} {cluster : Cluster} {path rest : List String} {key : String}

theorem ne_nil_of_off {place : List String} (hoff : ¬ path <+: place) : path ≠ [] := by
  rintro rfl
  exact hoff nil_prefix

theorem placeFrom_zero : placeFrom 0 cluster = [] := rfl

theorem placeFrom_of_empty (hkey : keyAt height cluster = "") : placeFrom (height + 1) cluster = [] := by
  simp [placeFrom, pathFrom, hkey]

theorem placeFrom_succ (hkey : keyAt height cluster ≠ "") :
    placeFrom (height + 1) cluster = keyAt height cluster :: placeFrom height cluster := by
  simp [placeFrom, pathFrom, hkey]

/-! ### Nodes -/

theorem nodeAt_zero_cons (cin : ClusterInfoNode 0) : nodeAt 0 cin (key :: rest) = none := rfl

theorem nodeAt_new (hpath : path ≠ []) : nodeAt height (newClusterInfoNode height) path = none := by
  cases path with
  | nil => exact absurd rfl hpath
  | cons key rest => cases height <;> rfl

theorem nodeAt_new_getD : (nodeAt height (newClusterInfoNode height) path).getD {} = {} := by
  cases path with
  | nil =>
    rw [nodeAt_nil]
    rfl
  | cons key rest =>
    rw [nodeAt_new (cons_ne_nil key rest)]
    rfl

theorem keys_eq_nil_iff (cin : ClusterInfoNode height) :
    cin.infoMap.keys = [] ↔ ∀ path, path ≠ [] → nodeAt height cin path = none := by
  cases height with
  | zero =>
    refine iff_of_true (keys_eq_nil_of_leaf cin) fun path hpath => ?_
    obtain ⟨key, rest, rfl⟩ := exists_cons_of_ne_nil hpath
    exact nodeAt_zero_cons cin
  | succ height =>
    rw [eq_nil_iff_forall_not_mem]
    constructor
    · intro hnone path hpath
      obtain ⟨key, rest, rfl⟩ := exists_cons_of_ne_nil hpath
      rw [nodeAt_cons, lookup_eq_none.mpr (hnone key)]
      rfl
    · intro hnone key hkey
      obtain ⟨child, hchild⟩ := Map.exists_lookup (mem_keys.mpr hkey)
      have := hnone [key] (cons_ne_nil key [])
      rw [nodeAt_cons, hchild, bind_some, nodeAt_nil] at this
      cases this

/-- **Adding a cluster** counts it at every node of its path, and changes no other. -/
theorem nodeAt_addCluster (cluster : Cluster) (cin : ClusterInfoNode height) (path : List String) :
    nodeAt height (addCluster cluster height cin) path =
      if path <+: placeFrom height cluster then some (((nodeAt height cin path).getD {}).add cluster)
      else nodeAt height cin path := by
  induction path generalizing height with
  | nil =>
    cases height <;> rfl
  | cons key rest ih =>
    cases height with
    | zero =>
      rw [nodeAt_zero_cons, nodeAt_zero_cons, placeFrom_zero, if_neg (by simp)]
    | succ height =>
      rw [nodeAt_cons, nodeAt_cons]
      by_cases hkey : keyAt height cluster = ""
      · rw [placeFrom_of_empty hkey, if_neg (by simp)]
        simp [addCluster, hkey]
      · simp only [placeFrom_succ hkey, cons_prefix_cons, addCluster, ne_eq, hkey, not_false_eq_true, if_true]
        by_cases hsame : key = keyAt height cluster
        · subst hsame
          rw [lookup_insert, bind_some, ih]
          cases hchild : cin.infoMap.lookup (keyAt height cluster) with
          | some child => simp
          | none =>
            -- The child is new: it has counted nothing yet, and has nothing below it.
            simp only [getD_none, bind_none, nodeAt_new_getD, true_and]
            split
            · rfl
            · next hoff => exact nodeAt_new (ne_nil_of_off hoff)
        · rw [lookup_insert_ne hsame, if_neg fun h => hsame h.1]

end

/-! ### What a deletion prunes -/

section
variable {height : Nat} {cluster : Cluster} {cin : ClusterInfoNode height} {path : List String}

/-- There is a node beyond `path` that is not on the way to `place`. -/
def Branches (cin : ClusterInfoNode height) (place path : List String) : Prop :=
  ∃ beyond, path <+: beyond ∧ ¬ beyond <+: place ∧ (nodeAt height cin beyond).isSome

theorem Branches.nil {place : List String} (h : Branches cin place path) : Branches cin place [] := by
  obtain ⟨beyond, -, hoff, hnode⟩ := h
  exact ⟨beyond, nil_prefix, hoff, hnode⟩

theorem branches_cons {cin : ClusterInfoNode (height + 1)} {child : ClusterInfoNode height} {key : String}
    {place rest : List String} (hchild : cin.infoMap.lookup key = some child) :
    Branches cin (key :: place) (key :: rest) ↔ Branches child place rest := by
  constructor
  · rintro ⟨beyond, ⟨more, rfl⟩, hoff, hnode⟩
    rw [cons_append, cons_prefix_cons] at hoff
    rw [cons_append, nodeAt_cons, hchild] at hnode
    exact ⟨rest ++ more, prefix_append rest more, fun h => hoff ⟨rfl, h⟩, hnode⟩
  · rintro ⟨beyond, hrest, hoff, hnode⟩
    refine ⟨key :: beyond, cons_prefix_cons.mpr ⟨rfl, hrest⟩, ?_, ?_⟩
    · rw [cons_prefix_cons]
      exact fun h => hoff h.2
    · rw [nodeAt_cons, hchild]
      exact hnode

theorem delCluster_of_placeFrom_nil (h : placeFrom height cluster = []) (cin : ClusterInfoNode height) :
    delCluster cluster height cin = cin := by
  cases height with
  | zero => rfl
  | succ height =>
    by_cases hkey : keyAt height cluster = ""
    · unfold delCluster
      exact if_pos hkey
    · rw [placeFrom_succ hkey] at h
      cases h

theorem nodeAt_delCluster_child {cin : ClusterInfoNode (height + 1)} {child : ClusterInfoNode height}
    (hkey : keyAt height cluster ≠ "") (hchild : cin.infoMap.lookup (keyAt height cluster) = some child)
    (rest : List String) :
    nodeAt (height + 1) (delCluster cluster (height + 1) cin) (keyAt height cluster :: rest) =
      if (delCluster cluster height child).infoMap.keys = [] then none
      else nodeAt height (delCluster cluster height child) rest := by
  rw [delCluster_succ hkey hchild, nodeAt_cons]
  split_ifs with hgone
  · rw [lookup_erase]
    rfl
  · rw [lookup_insert]
    rfl

theorem nodeAt_delCluster_off (hoff : ¬ path <+: placeFrom height cluster) :
    nodeAt height (delCluster cluster height cin) path = nodeAt height cin path := by
  induction height generalizing path with
  | zero => rfl
  | succ height ih =>
    by_cases hkey : keyAt height cluster = ""
    · rw [delCluster_of_placeFrom_nil (placeFrom_of_empty hkey)]
    cases hchild : cin.infoMap.lookup (keyAt height cluster) with
    | none => simp [delCluster, hchild]
    | some child =>
      rw [placeFrom_succ hkey] at hoff
      obtain ⟨key, rest, rfl⟩ := exists_cons_of_ne_nil (ne_nil_of_off hoff)
      by_cases hsame : key = keyAt height cluster
      · subst hsame
        have hrest : ¬ rest <+: placeFrom height cluster :=
          fun h => hoff (cons_prefix_cons.mpr ⟨rfl, h⟩)
        rw [nodeAt_delCluster_child hkey hchild, ih hrest, nodeAt_cons, hchild, bind_some]
        split_ifs with hgone
        · -- The child goes only if there was nothing here.
          rw [keys_eq_nil_iff] at hgone
          rw [← ih hrest]
          exact (hgone rest (ne_nil_of_off hrest)).symm
        · rfl
      · rw [delCluster_succ hkey hchild, nodeAt_cons, nodeAt_cons]
        split_ifs
        · rw [lookup_erase_ne hsame]
        · rw [lookup_insert_ne hsame]

/-- **What a deletion prunes**: of the nodes on the path of the cluster there stay the root and
those from which a branch leaves the path, there or further down. -/
theorem nodeAt_delCluster_isSome (hthere : (nodeAt height cin (placeFrom height cluster)).isSome)
    (hon : path <+: placeFrom height cluster) :
    (nodeAt height (delCluster cluster height cin) path).isSome ↔
      path = [] ∨ Branches cin (placeFrom height cluster) path := by
  cases path with
  | nil => simp [nodeAt_nil]
  | cons key rest =>
    rw [or_iff_right (cons_ne_nil key rest)]
    induction height generalizing key rest with
    | zero => simp [placeFrom_zero] at hon
    | succ height ih =>
      have hkey : keyAt height cluster ≠ "" := by
        intro hkey
        simp [placeFrom_of_empty hkey] at hon
      rw [placeFrom_succ hkey] at hthere hon ⊢
      obtain ⟨rfl, hrest⟩ := cons_prefix_cons.mp hon
      rw [nodeAt_cons] at hthere
      cases hchild : cin.infoMap.lookup (keyAt height cluster) with
      | none =>
        rw [hchild] at hthere
        cases hthere
      | some child =>
        rw [hchild, bind_some] at hthere
        have hgone : (delCluster cluster height child).infoMap.keys = [] ↔
            ¬ Branches child (placeFrom height cluster) [] := by
          rw [keys_eq_nil_iff]
          constructor
          · rintro hnone ⟨beyond, -, hoff, hnode⟩
            rw [← nodeAt_delCluster_off hoff, hnone beyond (ne_nil_of_off hoff)] at hnode
            cases hnode
          · intro hnone path hpath
            obtain ⟨key, rest, rfl⟩ := exists_cons_of_ne_nil hpath
            rw [← not_isSome_iff_eq_none]
            intro hnode
            by_cases hon' : key :: rest <+: placeFrom height cluster
            · exact hnone ((ih hthere key rest hon').mp hnode).nil
            · rw [nodeAt_delCluster_off hon'] at hnode
              exact hnone ⟨_, nil_prefix, hon', hnode⟩
        rw [nodeAt_delCluster_child hkey hchild, branches_cons hchild]
        split_ifs with hempty
        · exact iff_of_false Bool.false_ne_true fun h => hgone.mp hempty h.nil
        · cases rest with
          | nil =>
            rw [nodeAt_nil]
            exact iff_of_true rfl (not_not.mp (mt hgone.mpr hempty))
          | cons key rest => exact ih hthere key rest hrest

/-- A node that stays on the path of the cluster has taken it out, but for the last. -/
theorem nodeAt_delCluster_data (hthere : (nodeAt height cin (placeFrom height cluster)).isSome)
    (hon : path <+: placeFrom height cluster) {after : NodeData}
    (hafter : nodeAt height (delCluster cluster height cin) path = some after) :
    ∃ node, nodeAt height cin path = some node ∧
      after = if path = placeFrom height cluster then node else node.del cluster := by
  induction height generalizing path with
  | zero =>
    rw [placeFrom_zero, prefix_nil] at hon
    exact ⟨after, hafter, (if_pos hon).symm⟩
  | succ height ih =>
    by_cases hkey : keyAt height cluster = ""
    · have hplace := placeFrom_of_empty hkey
      rw [hplace, prefix_nil] at hon
      rw [delCluster_of_placeFrom_nil hplace] at hafter
      exact ⟨after, hafter, (if_pos (hon.trans hplace.symm)).symm⟩
    rw [placeFrom_succ hkey] at hthere hon ⊢
    rw [nodeAt_cons] at hthere
    cases hchild : cin.infoMap.lookup (keyAt height cluster) with
    | none =>
      rw [hchild] at hthere
      cases hthere
    | some child =>
      rw [hchild, bind_some] at hthere
      cases path with
      | nil =>
        rw [nodeAt_nil, delCluster_succ hkey hchild] at hafter
        refine ⟨cin.toNodeData, nodeAt_nil cin, ?_⟩
        exact (some.inj hafter).symm
      | cons key rest =>
        obtain ⟨rfl, hrest⟩ := cons_prefix_cons.mp hon
        rw [nodeAt_delCluster_child hkey hchild] at hafter
        split_ifs at hafter
        obtain ⟨node, hnode, heq⟩ := ih hthere hrest hafter
        refine ⟨node, ?_, ?_⟩
        · rw [nodeAt_cons, hchild]
          exact hnode
        · simpa only [cons.injEq, true_and] using heq

end

/-! ### The tree of some clusters -/

/-- The tree has the nodes on the paths of these clusters, and each counts those whose paths
lead through it. -/
structure Files (live : Finset Cluster) (cin : ClusterInfoNode levels) : Prop where
  nodes : ∀ path, (nodeAt levels cin path).isSome ↔ path = [] ∨ ∃ c ∈ live, path <+: place c
  counts : ∀ path node, nodeAt levels cin path = some node →
    Holds (live.filter (path <+: place ·)) node

section
variable {live : Finset Cluster} {cin : ClusterInfoNode levels} {cluster c : Cluster} {path : List String}

theorem placeFrom_levels (cluster : Cluster) : placeFrom levels cluster = place cluster := rfl

theorem files_empty : Files ∅ (newClusterInfoNode levels) where
  nodes := by
    intro path
    by_cases hpath : path = []
    · subst hpath
      exact iff_of_true rfl (Or.inl rfl)
    · rw [nodeAt_new hpath]
      simp [hpath]
  counts := by
    intro path node hnode
    by_cases hpath : path = []
    · subst hpath
      cases hnode
      exact Holds.empty
    · rw [nodeAt_new hpath] at hnode
      cases hnode

theorem Files.add (h : Files live cin) (hnew : cluster ∉ live) :
    Files (insert cluster live) (addCluster cluster levels cin) where
  nodes := by
    intro path
    rw [nodeAt_addCluster, placeFrom_levels, Finset.exists_mem_insert]
    split
    · next hon => exact iff_of_true rfl (Or.inr (Or.inl hon))
    · next hoff => rw [h.nodes, or_iff_right hoff]
  counts := by
    intro path node hnode
    rw [nodeAt_addCluster, placeFrom_levels] at hnode
    rw [Finset.filter_insert]
    split at hnode
    · next hon =>
      cases hnode
      rw [if_pos hon]
      refine Holds.add ?_ fun hmem => hnew (Finset.mem_filter.mp hmem).1
      cases hbefore : nodeAt levels cin path with
      | some before => exact h.counts path before hbefore
      | none =>
        -- The node is new: it is on the path of no other cluster.
        have hnone : live.filter (path <+: place ·) = ∅ := by
          apply Finset.filter_false_of_mem
          intro c hc hpath
          have := (h.nodes path).mpr (Or.inr ⟨c, hc, hpath⟩)
          rw [hbefore] at this
          cases this
        rw [hnone]
        exact Holds.empty
    · next hoff =>
      rw [if_neg hoff]
      exact h.counts path node hnode

theorem Files.there (h : Files live cin) (hc : c ∈ live) : (nodeAt levels cin (place c)).isSome :=
  (h.nodes (place c)).mpr (Or.inr ⟨c, hc, prefix_rfl⟩)

theorem Files.branches_iff (h : Files live cin) : Branches cin (place c) path ↔
    ∃ e ∈ live, path <+: place e ∧ ¬ place e <+: place c := by
  constructor
  · rintro ⟨beyond, hpath, hoff, hnode⟩
    rcases (h.nodes beyond).mp hnode with rfl | ⟨e, he, hbeyond⟩
    · exact absurd nil_prefix hoff
    · exact ⟨e, he, hpath.trans hbeyond, fun hon => hoff (hbeyond.trans hon)⟩
  · rintro ⟨e, he, hpath, hoff⟩
    exact ⟨place e, hpath, hoff, h.there he⟩

/-- The clusters a node counts after the deletion of `c`. -/
def countedAfter (live : Finset Cluster) (c : Cluster) (path : List String) : Finset Cluster :=
  if path <+: place c ∧ path ≠ place c then (live.filter (path <+: place ·)).erase c
  else live.filter (path <+: place ·)

theorem Files.del_counts (h : Files live cin) (hc : c ∈ live) {node : NodeData}
    (hnode : nodeAt levels (delCluster c levels cin) path = some node) :
    Holds (countedAfter live c path) node := by
  unfold countedAfter
  by_cases hon : path <+: place c
  · obtain ⟨before, hbefore, rfl⟩ := nodeAt_delCluster_data (h.there hc) hon hnode
    rw [placeFrom_levels]
    by_cases hlast : path = place c
    · rw [if_pos hlast, if_neg fun h => h.2 hlast]
      exact h.counts path before hbefore
    · rw [if_neg hlast, if_pos ⟨hon, hlast⟩]
      exact (h.counts path before hbefore).del (Finset.mem_filter.mpr ⟨hc, hon⟩)
  · rw [nodeAt_delCluster_off hon] at hnode
    rw [if_neg fun h => hon h.1]
    exact h.counts path node hnode

/-- The nodes that stay are the root and those on the path of a cluster that leaves the path of
the deleted one. -/
theorem Files.del_nodes (h : Files live cin) (hc : c ∈ live) :
    (nodeAt levels (delCluster c levels cin) path).isSome ↔
      path = [] ∨ ∃ e ∈ live, path <+: place e ∧ ¬ place e <+: place c := by
  by_cases hon : path <+: place c
  · rw [nodeAt_delCluster_isSome (h.there hc) hon, placeFrom_levels, h.branches_iff]
  · rw [nodeAt_delCluster_off hon, h.nodes]
    apply or_congr Iff.rfl
    constructor
    · rintro ⟨e, he, hpath⟩
      exact ⟨e, he, hpath, fun hplace => hon (hpath.trans hplace)⟩
    · rintro ⟨e, he, hpath, -⟩
      exact ⟨e, he, hpath⟩

end

/-! ### Runs -/

/-- The clusters have places, and names of their own. -/
structure Filed (live : Finset Cluster) : Prop where
  located : ∀ c ∈ live, Located c
  names : ∀ c ∈ live, ∀ c' ∈ live, c.name = c'.name → c = c'

theorem Located.place_eq {cluster : Cluster} (h : Located cluster) : place cluster = geoPath cluster := by
  refine takeWhile_eq_self_iff.mpr fun key hkey => ?_
  simpa using ne_of_mem_of_not_mem hkey h

variable {c c' : Cluster}

theorem delCluster_congr (hname : c.name = c'.name) (hspec : c.spec = c'.spec) (height : Nat)
    (cin : ClusterInfoNode height) : delCluster c height cin = delCluster c' height cin := by
  have hkey : ∀ i, keyAt i c = keyAt i c' := by
    intro i
    unfold keyAt getGeoLocationKey
    rw [hname, hspec]
  have hdata : ∀ node : NodeData, node.del c = node.del c' := by
    intro node
    unfold NodeData.del
    rw [hname, hspec]
  induction height with
  | zero => rfl
  | succ height ih =>
    unfold delCluster
    rw [hkey]
    simp [hdata, ih]

variable {live : Finset Cluster}

/-- With names of their own, the clusters of another name are all but one. -/
theorem Filed.filter_name (h : Filed live) (hc : c ∈ live) :
    live.filter (·.name ≠ c.name) = live.erase c := by
  ext c'
  rw [Finset.mem_filter, Finset.mem_erase, and_comm]
  apply and_congr_left
  intro hc'
  exact not_congr ⟨h.names c' hc' c hc, fun heq => heq ▸ rfl⟩

theorem Filed.add (h : Filed live) {cluster : Cluster}
    (hlocated : Located cluster) (hname : ∀ c ∈ live, c.name ≠ cluster.name) :
    Filed (insert cluster live) where
  located := by
    intro c hc
    rcases Finset.mem_insert.mp hc with rfl | hc
    · exact hlocated
    · exact h.located c hc
  names := by
    intro c hc c' hc' heq
    rcases Finset.mem_insert.mp hc with rfl | hold
    · rcases Finset.mem_insert.mp hc' with rfl | hold'
      · rfl
      · exact absurd heq.symm (hname c' hold')
    · rcases Finset.mem_insert.mp hc' with rfl | hold'
      · exact absurd heq (hname c hold)
      · exact h.names c hold c' hold' heq

theorem Filed.subset {live' : Finset Cluster} (h : Filed live) (hsub : live' ⊆ live) :
    Filed live' where
  located := fun c hc => h.located c (hsub hc)
  names := fun c hc c' hc' => h.names c (hsub hc) c' (hsub hc')

variable {cin : ClusterInfoNode levels}

theorem Filed.eq_of_prefix (h : Filed live) (hc : c ∈ live) (hc' : c' ∈ live)
    (hbegins : place c <+: place c') : c = c' := by
  rw [(h.located c hc).place_eq, (h.located c' hc').place_eq] at hbegins
  have heq := hbegins.eq_of_length rfl
  simp only [geoPath, cons.injEq] at heq
  exact h.names c hc c' hc' heq.2.2.2.2.1

/-- **Deleting a cluster** with a place and a name of its own is removal. -/
theorem Files.del (h : Files live cin) (hfiled : Filed live) (hc : c ∈ live) :
    Files (live.erase c) (delCluster c levels cin) where
  nodes := by
    intro path
    rw [h.del_nodes hc]
    apply or_congr Iff.rfl
    constructor
    · rintro ⟨e, he, hpath, hoff⟩
      refine ⟨e, Finset.mem_erase.mpr ⟨?_, he⟩, hpath⟩
      rintro rfl
      exact hoff prefix_rfl
    · rintro ⟨e, he, hpath⟩
      obtain ⟨hne, he⟩ := Finset.mem_erase.mp he
      exact ⟨e, he, hpath, fun hon => hne (hfiled.eq_of_prefix he hc hon)⟩
  counts := by
    intro path node hnode
    have hholds := h.del_counts hc hnode
    unfold countedAfter at hholds
    rw [Finset.filter_erase]
    split at hholds
    · exact hholds
    · next hlast =>
      -- The last node of the cluster was its own, and is gone.
      rwa [Finset.erase_eq_of_notMem]
      intro hmem
      obtain ⟨-, hon⟩ := Finset.mem_filter.mp hmem
      obtain rfl : path = place c := not_not.mp fun hne => hlast ⟨hon, hne⟩
      rcases (h.del_nodes hc).mp (isSome_of_mem hnode) with hnil | ⟨e, he, hbegins, hoff⟩
      · rw [(hfiled.located c hc).place_eq] at hnil
        cases hnil
      · rw [hfiled.eq_of_prefix hc he hbegins] at hoff
        exact hoff prefix_rfl

theorem Files.counts_geoPath (h : Files live cin) (hfiled : Filed live) {path : List String} {node : NodeData}
    (hnode : nodeAt levels cin path = some node) : Holds (live.filter (path <+: geoPath ·)) node := by
  have hsame : live.filter (path <+: place ·) = live.filter (path <+: geoPath ·) :=
    Finset.filter_congr fun c hc => by rw [(hfiled.located c hc).place_eq]
  rw [← hsame]
  exact h.counts path node hnode

theorem Files.nodes_geoPath (h : Files live cin) (hfiled : Filed live) (path : List String) :
    (nodeAt levels cin path).isSome ↔ path = [] ∨ ∃ c ∈ live, path <+: geoPath c := by
  rw [h.nodes]
  refine or_congr_right (exists_congr fun c => and_congr_right fun hc => ?_)
  rw [(hfiled.located c hc).place_eq]

theorem Files.represents (h : Files live cin) (hfiled : Filed live) : Represents levels live cin :=
  represents_of_nodes (h.nodes_geoPath hfiled) fun _ _ => h.counts_geoPath hfiled

/-- **One event**: the tree goes on being that of the clusters. -/
theorem files_step {s : State} {e : Event} (hfiled : Filed s.live)
    (h : Files s.live s.tree) (hallowed : Allowed s e) :
    Filed (step s e).live ∧ Files (step s e).live (step s e).tree := by
  cases e with
  | add cluster =>
    obtain ⟨hlocated, hname⟩ := hallowed
    exact ⟨hfiled.add hlocated hname, h.add fun hmem => hname cluster hmem rfl⟩
  | del cluster =>
    obtain ⟨c, hc, hname, hspec⟩ := hallowed
    refine ⟨hfiled.subset (Finset.filter_subset _ _), ?_⟩
    simp only [step, ← hname, hfiled.filter_name hc, ← delCluster_congr hname hspec]
    exact h.del hfiled hc

theorem Runs.files {es : List Event} {s : State} (h : Runs es s) : Filed s.live ∧ Files s.live s.tree := by
  refine h.invariant (I := fun s => Filed s.live ∧ Files s.live s.tree) ?_ ⟨?_, files_empty⟩
  · rintro s e s' ⟨hfiled, hfiles⟩ hallowed rfl
    exact files_step hfiled hfiles hallowed
  · exact ⟨fun c hc => absurd hc (Finset.notMem_empty c), fun c hc => absurd hc (Finset.notMem_empty c)⟩

/-- The tree is that of the clusters there are. -/
structure TreeMatches (s : State) : Prop where
  /-- A node below the root stands on the path of a cluster. -/
  places : ∀ path node, nodeAt levels s.tree path = some node → path ≠ [] →
    ∃ c ∈ s.live, path <+: geoPath c
  /-- Every place on the path of a cluster has a node. -/
  nodes : ∀ c ∈ s.live, ∀ path, path <+: geoPath c → (nodeAt levels s.tree path).isSome
  /-- A node lists the clusters whose paths lead through it, each once. -/
  clusterMap : ∀ path node, nodeAt levels s.tree path = some node → ∀ name,
    node.clusterMap.lookup name =
      if ∃ c ∈ s.live, path <+: geoPath c ∧ c.name = name then some 1 else none
  /-- It counts what their specs have. -/
  counts : ∀ path node, nodeAt levels s.tree path = some node →
    Holds (s.live.filter (path <+: geoPath ·)) node

theorem Holds.clusterMap_lookup {clusters : Finset Cluster} {node : NodeData}
    (h : Holds clusters node) (hnames : ∀ c ∈ clusters, ∀ c' ∈ clusters, c.name = c'.name → c = c')
    (name : String) :
    node.clusterMap.lookup name = if ∃ c ∈ clusters, c.name = name then some 1 else none := by
  rw [h.clusterMap name]
  by_cases hname : ∃ c ∈ clusters, c.name = name
  · obtain ⟨c, hc, rfl⟩ := hname
    have honce : (occurrences (fun c => [c.name]) clusters).count c.name = 1 := by
      refine count_occurrences hc rfl fun c' hc' hne hmem => hne ?_
      exact hnames c' hc' c hc (mem_singleton.mp hmem).symm
    rw [if_pos (mem_occurrences.mpr ⟨c, hc, mem_singleton.mpr rfl⟩), honce, if_pos ⟨c, hc, rfl⟩]
    rfl
  · rw [if_neg hname, if_neg]
    intro hmem
    obtain ⟨c, hc, heq⟩ := mem_occurrences.mp hmem
    exact hname ⟨c, hc, (mem_singleton.mp heq).symm⟩

/-- **The tree is that of the clusters there are**, after any additions and deletions. -/
theorem runs_treeMatches (es : List Event) (s : State) (h : Runs es s) : TreeMatches s := by
  obtain ⟨hfiled, hfiles⟩ := h.files
  refine ⟨fun path node hnode hne => ?_, fun c hc path hpath => ?_, fun path node hnode name => ?_,
    fun _ _ => hfiles.counts_geoPath hfiled⟩
  · exact ((hfiles.nodes_geoPath hfiled path).mp (isSome_of_mem hnode)).resolve_left hne
  · exact (hfiles.nodes_geoPath hfiled path).mpr (Or.inr ⟨c, hc, hpath⟩)
  · have hfiled' := hfiled.subset (Finset.filter_subset (path <+: geoPath ·) s.live)
    rw [(hfiles.counts_geoPath hfiled hnode).clusterMap_lookup hfiled'.names]
    refine if_congr ?_ rfl rfl
    simp [and_assoc]

def cityCluster (city name flavor : String) : Cluster where
  name := name
  spec := { geoLocation := ⟨city, "p", "a", "c"⟩, flavors := [⟨flavor, 1⟩] }

theorem runs_treeMatches_two_cities :
    ∃ es s, Runs es s ∧ es.length = 3 ∧ s.live = {cityCluster "y" "k2" "f"} ∧ TreeMatches s := by
  have hrun : Runs
      [.add (cityCluster "x" "k1" "f"), .add (cityCluster "y" "k2" "f"), .del (cityCluster "x" "k1" "f")] _ :=
    .cons ⟨by decide, fun c hc => absurd hc (Finset.notMem_empty c)⟩ rfl <|
      .cons ⟨by decide, by decide⟩ rfl <| .cons ⟨cityCluster "x" "k1" "f", by decide, rfl, rfl⟩ rfl (.nil _)
  exact ⟨_, _, hrun, rfl, by decide, runs_treeMatches _ _ hrun⟩

end GlobalScheduler.ClusterUnion
