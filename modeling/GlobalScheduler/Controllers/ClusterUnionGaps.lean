import GlobalScheduler.Controllers.ClusterUnionProofs

/-! The geo tree with missing fields.

A cluster whose area, province or city is empty is filed at the node where its keys end.
`DelCluster` ends there too: it takes the cluster out of the nodes above, and leaves the
last one to its parent, which drops a child that has no children of its own. That child
may be the last node of other clusters as well, or still be on the way to some. -/
namespace GlobalScheduler.ClusterUnion

open Go Clusterv1 RefCount List

/-! ### The tree of some clusters -/

/-- The clusters are added to a fresh tree, one after the other. -/
def addClusters (live : List Cluster) : ClusterInfoNode levels :=
  live.foldl (fun cin cluster => addCluster cluster levels cin) (newClusterInfoNode levels)

section
variable {live : Finset Cluster} {cin : ClusterInfoNode levels} {c : Cluster} {path : List String}

theorem Files.addAll {clusters : List Cluster} (h : Files live cin) (hnodup : clusters.Nodup)
    (hnew : ∀ c ∈ clusters, c ∉ live) :
    Files (live ∪ clusters.toFinset) (clusters.foldl (fun cin c => addCluster c levels cin) cin) := by
  induction clusters generalizing live cin with
  | nil => simpa using h
  | cons c rest ih =>
    obtain ⟨hc, hnodup⟩ := nodup_cons.mp hnodup
    rw [toFinset_cons, Finset.union_insert, ← Finset.insert_union]
    apply ih (h.add (hnew c mem_cons_self)) hnodup
    intro d hd hmem
    rcases Finset.mem_insert.mp hmem with rfl | hmem
    · exact hc hd
    · exact hnew d (mem_cons_of_mem c hd) hmem

theorem files_addClusters {clusters : List Cluster} (hnodup : clusters.Nodup) :
    Files clusters.toFinset (addClusters clusters) := by
  have h := files_empty.addAll hnodup fun c _ => Finset.notMem_empty c
  rwa [Finset.empty_union] at h

theorem Holds.mem_clusterMap {node : NodeData} (h : Holds live node) (name : String) :
    name ∈ node.clusterMap ↔ ∃ c ∈ live, c.name = name := by
  rw [← AList.lookup_isSome, h.clusterMap name]
  split
  · next hmem =>
    obtain ⟨c, hc, hname⟩ := mem_occurrences.mp hmem
    exact iff_of_true rfl ⟨c, hc, (mem_singleton.mp hname).symm⟩
  · next hmem =>
    refine iff_of_false Bool.false_ne_true ?_
    rintro ⟨c, hc, rfl⟩
    exact hmem (mem_occurrences.mpr ⟨c, hc, mem_singleton_self c.name⟩)

/-! ### The tree without one of them -/

/-- A cluster of this name is counted at the node. -/
def Counted (cin : ClusterInfoNode levels) (path : List String) (name : String) : Prop :=
  ∃ node, nodeAt levels cin path = some node ∧ name ∈ node.clusterMap

theorem Files.del_counted (h : Files live cin) (hc : c ∈ live) {name : String} :
    Counted (delCluster c levels cin) path name ↔
      (path = [] ∨ ∃ e ∈ live, path <+: place e ∧ ¬ place e <+: place c) ∧
      ∃ d ∈ countedAfter live c path, d.name = name := by
  rw [← h.del_nodes hc]
  constructor
  · rintro ⟨node, hnode, hmem⟩
    exact ⟨by rw [hnode]; rfl, ((h.del_counts hc hnode).mem_clusterMap name).mp hmem⟩
  · rintro ⟨hsome, hmem⟩
    obtain ⟨node, hnode⟩ := Option.isSome_iff_exists.mp hsome
    exact ⟨node, hnode, ((h.del_counts hc hnode).mem_clusterMap name).mpr hmem⟩

theorem mem_countedAfter_of_ne {d : Cluster} (hd : d ∈ live) (hne : d ≠ c) :
    d ∈ countedAfter live c path ↔ path <+: place d := by
  unfold countedAfter
  split <;> simp [hd, hne]

theorem mem_countedAfter_self (hc : c ∈ live) : c ∈ countedAfter live c path ↔ path = place c := by
  unfold countedAfter
  split
  · next hon => exact iff_of_false (Finset.notMem_erase c _) hon.2
  · next hoff =>
    rw [Finset.mem_filter, and_iff_right hc]
    constructor
    · intro hon
      by_contra hne
      exact hoff ⟨hon, hne⟩
    · rintro rfl
      exact prefix_rfl

theorem countedAfter_subset : countedAfter live c path ⊆ live := by
  unfold countedAfter
  split
  · exact (Finset.erase_subset _ _).trans (Finset.filter_subset _ _)
  · exact Finset.filter_subset _ _

end

/-! ### When a deletion is one -/

/-- After the deletion of `c` the other clusters are counted at every node of their paths,
and `c` at none. -/
structure DeletesOnly (live : List Cluster) (c : Cluster) (after : ClusterInfoNode levels) : Prop where
  others : ∀ d ∈ live, d ≠ c → ∀ path, path <+: place d → Counted after path d.name
  deleted : ∀ path, ¬ Counted after path c.name

/-- What a deletion relies on. -/
structure Separable (live : List Cluster) (c : Cluster) : Prop where
  country : place c ≠ []
  /-- The last node of the cluster is on no other path. -/
  last : ∀ d ∈ live, d ≠ c → ¬ place c <+: place d
  /-- At or below the last node of a cluster that was passed, another branches off. -/
  above : ∀ d ∈ live, d ≠ c → place d ≠ [] → place d <+: place c →
    ∃ e ∈ live, place d <+: place e ∧ ¬ place e <+: place c

section
variable {live : List Cluster} {c : Cluster} {path : List String}

theorem counted_delCluster_iff (hnames : (live.map (·.name)).Nodup) (hc : c ∈ live) {d : Cluster}
    (hd : d ∈ live) :
    Counted (delCluster c levels (addClusters live)) path d.name ↔
      (path = [] ∨ ∃ e ∈ live, path <+: place e ∧ ¬ place e <+: place c) ∧
      d ∈ countedAfter live.toFinset c path := by
  rw [(files_addClusters hnames.of_map).del_counted (mem_toFinset.mpr hc)]
  simp only [mem_toFinset]
  apply and_congr_right
  intro _
  constructor
  · rintro ⟨d', hd', hname⟩
    have hlive := mem_toFinset.mp (countedAfter_subset hd')
    rwa [← inj_on_of_nodup_map hnames hlive hd hname]
  · intro hmem
    exact ⟨d, hmem, rfl⟩

/-- **When a deletion is one.** For clusters with names of their own in a fresh tree,
`DelCluster` takes out this cluster and no other exactly if none shares its last node, and
none that ends above it depends on its branch. -/
theorem delCluster_deletesOnly_iff (hnames : (live.map (·.name)).Nodup) (hc : c ∈ live) :
    DeletesOnly live c (delCluster c levels (addClusters live)) ↔ Separable live c := by
  have hcounted : ∀ d ∈ live, d ≠ c → ∀ path,
      (Counted (delCluster c levels (addClusters live)) path d.name ↔
        (path = [] ∨ ∃ e ∈ live, path <+: place e ∧ ¬ place e <+: place c) ∧ path <+: place d) := by
    intro d hd hne path
    rw [counted_delCluster_iff hnames hc hd, mem_countedAfter_of_ne (mem_toFinset.mpr hd) hne]
  have hself : ∀ path, (Counted (delCluster c levels (addClusters live)) path c.name ↔
      (path = [] ∨ ∃ e ∈ live, path <+: place e ∧ ¬ place e <+: place c) ∧ path = place c) := by
    intro path
    rw [counted_delCluster_iff hnames hc hc, mem_countedAfter_self (mem_toFinset.mpr hc)]
  constructor
  · intro h
    refine ⟨fun hnil => ?_, fun d hd hne hlast => ?_, fun d hd hne hsome habove => ?_⟩
    · exact h.deleted [] ((hself []).mpr ⟨Or.inl rfl, hnil.symm⟩)
    · -- The last node stays for `d`, and with it the count of `c`.
      have hstays := ((hcounted d hd hne _).mp (h.others d hd hne _ hlast)).1
      exact h.deleted (place c) ((hself _).mpr ⟨hstays, rfl⟩)
    · have hstays := ((hcounted d hd hne _).mp (h.others d hd hne _ prefix_rfl)).1
      exact hstays.resolve_left hsome
  · intro h
    refine ⟨fun d hd hne path hpath => (hcounted d hd hne path).mpr ⟨?_, hpath⟩, fun path hc' => ?_⟩
    · by_cases habove : place d <+: place c
      · by_cases hnil : place d = []
        · rw [hnil, prefix_nil] at hpath
          exact Or.inl hpath
        · obtain ⟨e, he, hplace, hoff⟩ := h.above d hd hne hnil habove
          exact Or.inr ⟨e, he, hpath.trans hplace, hoff⟩
      · exact Or.inr ⟨d, hd, hpath, habove⟩
    · obtain ⟨hstays, rfl⟩ := (hself path).mp hc'
      rcases hstays with hnil | ⟨e, he, hplace, hoff⟩
      · exact h.country hnil
      · refine h.last e he ?_ hplace
        rintro rfl
        exact hoff prefix_rfl

end

def arealess (name : String) : Cluster where
  name := name
  spec := { geoLocation := ⟨"", "", "", "c"⟩ }

/-- Next to a cluster in another city, the deletion of a cluster is one, and the cluster without
an area stays counted in the country. -/
theorem deletesOnly_two_cities :
    DeletesOnly [arealess "k0", cityCluster "x" "k1" "f", cityCluster "y" "k2" "f"] (cityCluster "x" "k1" "f")
      (delCluster (cityCluster "x" "k1" "f") levels
        (addClusters [arealess "k0", cityCluster "x" "k1" "f", cityCluster "y" "k2" "f"])) := by
  refine (delCluster_deletesOnly_iff (by decide) (by decide)).mpr ⟨by decide, by decide, ?_⟩
  decide

/-- Without it the country goes with the deleted cluster, and the one without an area is no
longer counted there. -/
theorem country_goes :
    nodeAt levels (addClusters [arealess "k0", cityCluster "x" "k1" "f"]) ["c"] ≠ none ∧
    nodeAt levels (delCluster (cityCluster "x" "k1" "f") levels
      (addClusters [arealess "k0", cityCluster "x" "k1" "f"])) ["c"] = none ∧
    ¬ DeletesOnly [arealess "k0", cityCluster "x" "k1" "f"] (cityCluster "x" "k1" "f")
      (delCluster (cityCluster "x" "k1" "f") levels
        (addClusters [arealess "k0", cityCluster "x" "k1" "f"])) := by
  have hgone : nodeAt levels (delCluster (cityCluster "x" "k1" "f") levels
      (addClusters [arealess "k0", cityCluster "x" "k1" "f"])) ["c"] = none := rfl
  refine ⟨Option.some_ne_none _, hgone, fun h => ?_⟩
  obtain ⟨node, hnode, -⟩ := h.others (arealess "k0") (by decide) (by decide) ["c"] (by decide)
  cases hnode

end GlobalScheduler.ClusterUnion
