import GlobalScheduler.Scheduler.ClusterEvents
import GlobalScheduler.Scheduler.ScheduleProofs
import GlobalScheduler.Transition

/-! Which sites have a record, over any history.

One would expect the sites of the live clusters. Deleting a cluster leaves the record of
its site where it is, and so does moving it; so that holds in the histories in which the
site of a cluster that goes or moves is still that of another. -/
namespace GlobalScheduler.ClusterEvents

open Go Clusterv1 Schedule Transition Outcome AList Map

/-! ### What the steps do -/

theorem updateRegionFlavor_records (region : String) (snap : Snapshot) (flavorIds : List String) :
    (flavorIds.foldl (updateRegionFlavor region) snap).siteCacheInfoMap = snap.siteCacheInfoMap := by
  induction flavorIds generalizing snap with
  | nil => rfl
  | cons id rest ih => exact ih _

/-- Filing a cluster puts a new record under its site and touches no other. -/
theorem fileCluster_lookup (status : String) (cluster : Cluster) (snap : Snapshot) (key : String) :
    (fileCluster status cluster snap).siteCacheInfoMap.lookup key =
      if key = cluster.siteID then some (newRecord { cluster with status := status })
      else snap.siteCacheInfoMap.lookup key := by
  rw [fileCluster, updateRegionFlavor_records]
  split
  case isTrue hkey =>
    subst hkey
    exact Snapshot.put_lookup_self _ _ _ _
  case isFalse hkey => exact Snapshot.put_lookup_ne _ _ _ hkey

section Steps
variable {settings : Settings} {s s' : SchedulerState} {cluster : Cluster}

theorem step_create (h : step settings s (.create cluster) = .ok s') :
    s' = { s with
      lister := s.lister.insert cluster.key cluster
      snapshot := fileCluster "Created" cluster s.snapshot } := by
  simp only [step, process, addCluster, clusterSyncHandler, updateStaticSiteResourceInfo, lookup_insert] at h
  exact (pure_ok.mp h).symm

/-- An update is dropped when nothing changed, and otherwise files the cluster. -/
theorem step_update_eq {old : Cluster} (hold : s.lister.lookup cluster.key = some old) :
    step settings s (.update cluster) = .ok { s with
      lister := s.lister.insert cluster.key cluster
      snapshot := if determineEventType old cluster = some true
        then fileCluster "Updated" cluster s.snapshot else s.snapshot } := by
  simp only [step, hold, updateCluster]
  by_cases hchanged : determineEventType old cluster = some true
  · simp only [hchanged, if_true, process, clusterSyncHandler, updateStaticSiteResourceInfo, lookup_insert]
    rfl
  · simp only [hchanged, if_false, process]
    rfl

/-- **A delete leaves the records alone**: the lister no longer has the cluster when the
worker asks it. -/
theorem step_delete {key : String × String}
    (hlook : s.lister.lookup key = some cluster) (h : step settings s (.delete key) = .ok s') :
    s'.snapshot = s.snapshot ∧ s'.lister = s.lister.erase key := by
  simp only [step, hlook, deleteCluster] at h
  split at h
  · simp only [process, clusterSyncHandler, updateStaticSiteResourceInfo, lookup_erase] at h
    cases h
    exact ⟨rfl, rfl⟩
  · cases h
    exact ⟨rfl, rfl⟩

theorem step_schedule {ord : MapOrders} {alloc : Allocation} (h : step settings s (.schedule ord alloc) = .ok s') :
    SameSites s.snapshot s'.snapshot ∧ s'.lister = s.lister := by
  obtain ⟨r, hr, h⟩ := bind_ok.mp h
  cases h
  have hsame : SameSites (s.snapshot.updateFlavor settings) r.snapshot := schedule_sameSites hr
  exact ⟨hsame, rfl⟩

end Steps

/-- What can happen in a state: a new cluster is one that is not there, and only
clusters that are there change or go. -/
def Happens (s : SchedulerState) : Event → Prop
  | .create cluster => cluster.key ∉ s.lister
  | .update cluster => cluster.key ∈ s.lister
  | .delete key => key ∈ s.lister
  | .push _ => True
  | .schedule _ _ => True

/-- Clusters are listed under their keys. -/
def Listed (s : SchedulerState) : Prop :=
  ∀ key cluster, s.lister.lookup key = some cluster → cluster.key = key

variable {s : SchedulerState} {cluster : Cluster}

theorem Listed.insert (h : Listed s) (cluster : Cluster) {key : String × String} {c : Cluster}
    (hc : (s.lister.insert cluster.key cluster).lookup key = some c) : c.key = key := by
  by_cases hkey : key = cluster.key
  · subst hkey
    rw [lookup_insert] at hc
    cases hc
    rfl
  · rw [lookup_insert_ne hkey] at hc
    exact h key c hc

variable {settings : Settings} {s' : SchedulerState} {e : Event}

theorem Listed.step (hlisted : Listed s) (hhappens : Happens s e) (h : step settings s e = .ok s') :
    Listed s' := by
  cases e with
  | create cluster =>
    rw [step_create h]
    exact fun key c hc => hlisted.insert cluster hc
  | update cluster =>
    obtain ⟨old, hold⟩ := exists_lookup hhappens
    cases (step_update_eq hold).symm.trans h
    exact fun key c hc => hlisted.insert cluster hc
  | delete key =>
    obtain ⟨cluster, hcluster⟩ := exists_lookup hhappens
    intro key' c hc
    rw [(step_delete hcluster h).2] at hc
    by_cases hkey : key' = key
    · subst hkey
      rw [lookup_erase] at hc
      cases hc
    · rw [lookup_erase_ne hkey] at hc
      exact hlisted key' c hc
  | push resources =>
    cases h
    exact hlisted
  | schedule ord alloc =>
    intro key c hc
    rw [(step_schedule h).2] at hc
    exact hlisted key c hc

/-- An update of a cluster with a name is a change exactly when its status or its spec is
another. -/
theorem determineEventType_iff {old new : Cluster} (hkey : old.key = new.key) (hne : new.name ≠ "") :
    determineEventType old new = some true ↔ ¬ (old.status = new.status ∧ old.spec = new.spec) := by
  have hname : old.name = new.name := congrArg Prod.snd hkey
  unfold determineEventType
  rw [hname, if_neg (by simp [hne])]
  simp only [Option.some.injEq, Bool.not_eq_eq_eq_not, Bool.not_true, Bool.and_eq_false_iff,
    decide_eq_false_iff_not, not_true, false_or, not_and]
  exact imp_iff_not_or.symm

/-- Histories whose events meet a condition. -/
abbrev History (settings : Settings) (cond : SchedulerState → Event → Prop) :=
  Run (fun s e s' => step settings s e = .ok s') (fun s e => Happens s e ∧ cond s e) (init settings)

/-! ### Which sites have a record -/

/-- The sites on record are those of the live clusters. -/
def LiveSites (s : SchedulerState) : Prop :=
  ∀ siteID, siteID ∈ s.snapshot.siteCacheInfoMap ↔
    ∃ key cluster, s.lister.lookup key = some cluster ∧ cluster.siteID = siteID

/-- The site is also that of another live cluster. -/
def SharedSite (s : SchedulerState) (key : String × String) (siteID : String) : Prop :=
  ∃ key' cluster, key' ≠ key ∧ s.lister.lookup key' = some cluster ∧ cluster.siteID = siteID

/-- A cluster event that takes no site away: a cluster that is deleted or moved shared
its site with another. An update of a cluster without a name would be dropped. -/
def KeepsSites (s : SchedulerState) : Event → Prop
  | .create _ => True
  | .update cluster => cluster.name ≠ "" ∧ ∀ old, s.lister.lookup cluster.key = some old →
      old.siteID = cluster.siteID ∨ SharedSite s cluster.key old.siteID
  | .delete key => ∀ cluster, s.lister.lookup key = some cluster → SharedSite s key cluster.siteID
  | .push _ => False
  | .schedule _ _ => False

theorem mem_fileCluster {status : String} {snap : Snapshot} {siteID : String} :
    siteID ∈ (fileCluster status cluster snap).siteCacheInfoMap ↔
      siteID = cluster.siteID ∨ siteID ∈ snap.siteCacheInfoMap := by
  rw [← lookup_isSome, ← lookup_isSome, fileCluster_lookup]
  by_cases h : siteID = cluster.siteID <;> simp [h]

/-- Filing a live cluster keeps the sites on record those of the live clusters, when the
cluster was not there before or its old site is still needed. -/
theorem LiveSites.insert {map : Map String SiteCacheInfo} (hlive : LiveSites s)
    (hmap : ∀ siteID, siteID ∈ map ↔ siteID = cluster.siteID ∨ siteID ∈ s.snapshot.siteCacheInfoMap)
    (hold : ∀ old, s.lister.lookup cluster.key = some old →
      old.siteID = cluster.siteID ∨ SharedSite s cluster.key old.siteID) (siteID : String) :
    siteID ∈ map ↔ ∃ key c, (s.lister.insert cluster.key cluster).lookup key = some c ∧
      c.siteID = siteID := by
  rw [hmap, hlive siteID]
  constructor
  · rintro (rfl | ⟨key, c, hc, rfl⟩)
    · exact ⟨cluster.key, cluster, lookup_insert _, rfl⟩
    · by_cases hkey : key = cluster.key
      · -- The live cluster was replaced: its site is the new one's or another's.
        subst hkey
        rcases hold c hc with hsame | ⟨key', c', hne, hc', hid⟩
        · exact ⟨cluster.key, cluster, lookup_insert _, hsame.symm⟩
        · exact ⟨key', c', by rw [lookup_insert_ne hne]; exact hc', hid⟩
      · exact ⟨key, c, by rw [lookup_insert_ne hkey]; exact hc, rfl⟩
  · rintro ⟨key, c, hc, rfl⟩
    by_cases hkey : key = cluster.key
    · subst hkey
      rw [lookup_insert] at hc
      cases hc
      exact Or.inl rfl
    · rw [lookup_insert_ne hkey] at hc
      exact Or.inr ⟨key, c, hc, rfl⟩

theorem LiveSites.step (hlive : LiveSites s) (hlisted : Listed s) (hhappens : Happens s e)
    (hkeeps : KeepsSites s e) (h : step settings s e = .ok s') : LiveSites s' := by
  cases e with
  | create cluster =>
    rw [step_create h]
    apply hlive.insert (fun _ => mem_fileCluster)
    intro old hold
    exact absurd (mem_of_lookup hold) hhappens
  | update cluster =>
    obtain ⟨old, hold⟩ := exists_lookup hhappens
    cases (step_update_eq hold).symm.trans h
    refine hlive.insert (fun siteID => ?_) hkeeps.2
    split
    · exact mem_fileCluster
    case isFalse hdropped =>
      -- Dropped: nothing changed, so the site is on record already.
      have hkey := hlisted cluster.key old hold
      have hsame : cluster.siteID = old.siteID := by
        rw [determineEventType_iff hkey hkeeps.1, not_not] at hdropped
        rw [Cluster.siteID, ← hdropped.2, Cluster.siteID]
      constructor
      · exact Or.inr
      · rintro (rfl | hmem)
        · exact (hlive _).mpr ⟨_, old, hold, hsame.symm⟩
        · exact hmem
  | delete key =>
    obtain ⟨cluster, hcluster⟩ := exists_lookup hhappens
    obtain ⟨hsnap, hlister⟩ := step_delete hcluster h
    intro siteID
    rw [hsnap, hlister, hlive siteID]
    constructor
    · rintro ⟨key', c, hc, rfl⟩
      by_cases hkey : key' = key
      · subst hkey
        obtain ⟨key'', c', hne, hc', hid⟩ := hkeeps c hc
        exact ⟨key'', c', by rw [lookup_erase_ne hne]; exact hc', hid⟩
      · exact ⟨key', c, by rw [lookup_erase_ne hkey]; exact hc, rfl⟩
    · rintro ⟨key', c, hc, rfl⟩
      by_cases hkey : key' = key
      · subst hkey
        rw [lookup_erase] at hc
        cases hc
      · rw [lookup_erase_ne hkey] at hc
        exact ⟨key', c, hc, rfl⟩
  | push | schedule => exact hkeeps.elim

/-- **The sites on record are those of the live clusters**, in every history of cluster
events that take no site away. -/
theorem history_liveSites (settings : Settings) (es : List Event) (s : SchedulerState)
    (h : History settings KeepsSites es s) : LiveSites s := by
  refine (h.invariant (I := fun s => LiveSites s ∧ Listed s) ?_ ⟨?_, ?_⟩).1
  · rintro s e s' ⟨hlive, hlisted⟩ ⟨hhappens, hkeeps⟩ hstep
    exact ⟨hlive.step hlisted hhappens hkeeps hstep, hlisted.step hhappens hstep⟩
  · intro siteID
    constructor
    · intro hmem
      cases hmem
    · rintro ⟨key, cluster, hcluster, _⟩
      cases hcluster
  · intro key cluster hcluster
    cases hcluster

/-- A valid cluster of region `r` with one machine of flavor `f`. -/
def smallCluster : Cluster where
  nameSpace := "n"
  name := "c"
  spec := { ipAddress := "i", region := ⟨"r", "a"⟩, flavors := [⟨"f", 1⟩] }

theorem history_liveSites_shared :
    ∃ es s, History {} KeepsSites es s ∧ es.length = 3 ∧ LiveSites s := by
  -- Two clusters of one site, of which the first goes.
  have hrun : History {} KeepsSites
      [.create smallCluster, .create { smallCluster with name := "d" }, .delete ("n", "c")] _ :=
    .cons ⟨AList.lookup_eq_none.mp rfl, trivial⟩ rfl <| .cons ⟨AList.lookup_eq_none.mp rfl, trivial⟩ rfl <|
      .cons ⟨lookup_isSome.mp rfl, fun cluster hcluster => by
        cases hcluster
        exact ⟨("n", "d"), { smallCluster with name := "d" }, by decide, rfl, rfl⟩⟩ rfl (.nil _)
  exact ⟨_, _, hrun, rfl, history_liveSites _ _ _ hrun⟩

/-- The events of valid clusters. -/
def IsClusterEvent : Event → Prop
  | .create cluster => verifyClusterInfo cluster = true
  | .update cluster => verifyClusterInfo cluster = true
  | .delete _ => True
  | .push _ => False
  | .schedule _ _ => False

/-- A cluster that is created and deleted leaves its site on record. -/
theorem history_keeps_deleted_site :
    ∃ es s, History {} (fun _ e => IsClusterEvent e) es s ∧ ¬ LiveSites s := by
  have hrun : History {} (fun _ e => IsClusterEvent e) [.create smallCluster, .delete ("n", "c")] _ :=
    .cons ⟨AList.lookup_eq_none.mp rfl, rfl⟩ rfl <| .cons ⟨lookup_isSome.mp rfl, trivial⟩ rfl (.nil _)
  refine ⟨_, _, hrun, fun hlive => ?_⟩
  obtain ⟨key, cluster, hcluster, _⟩ := (hlive "r--a").mp (lookup_isSome.mp rfl)
  cases hcluster

end GlobalScheduler.ClusterEvents
