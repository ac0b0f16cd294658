import GlobalScheduler.Scheduler.SiteRecords

/-! What is in a record, over any history.

A record should be that of a site and keep what was pushed and booked. A push for a site
that has no record makes one without a site, and an update of a cluster starts the record
of its site anew. -/
namespace GlobalScheduler.ClusterEvents

open Go Clusterv1 Schedule Transition SameSites

/-! ### Whether a record has a site -/

/-- Every record is that of the site it is filed under. -/
def RecordsHaveSites (s : SchedulerState) : Prop :=
  ∀ key info, s.snapshot.siteCacheInfoMap.lookup key = some info →
    ∃ site, info.site = some site ∧ site.siteID = key

/-- A push names only sites that have a record. -/
def PushesKnownSites (s : SchedulerState) : Event → Prop
  | .push resources => ∀ resource ∈ resources, ∀ az ∈ resource.cpuMemResources,
      resource.regionName ++ siteDelimiter ++ az.availabilityZone ∈ s.snapshot.siteCacheInfoMap
  | _ => True

variable {snap : Snapshot} {s s' : SchedulerState}

theorem pushAz_sameSites {region : String} {volumes : List Volume} {az : AzCpuMem}
    (h : region ++ siteDelimiter ++ az.availabilityZone ∈ snap.siteCacheInfoMap) :
    SameSites snap (pushAz region volumes snap az) := by
  obtain ⟨info, hinfo⟩ := Map.exists_lookup h
  intro key
  by_cases hkey : key = region ++ siteDelimiter ++ az.availabilityZone
  · subst hkey
    rw [pushAz, Snapshot.put_lookup_self, hinfo]
    rfl
  · rw [pushAz, Snapshot.put_lookup_ne _ _ _ hkey]

theorem sameSites_foldl {α : Type} {f : Snapshot → α → Snapshot} {l : List α}
    (h : ∀ snap', SameSites snap snap' → ∀ a ∈ l, SameSites snap' (f snap' a)) :
    SameSites snap (l.foldl f snap) := by
  induction l generalizing snap with
  | nil => exact refl snap
  | cons a rest ih =>
    have hfirst : SameSites snap (f snap a) := h snap (refl snap) a List.mem_cons_self
    refine hfirst.trans (ih fun snap' hsame b hb => ?_)
    exact h snap' (hfirst.trans hsame) b (List.mem_cons_of_mem a hb)

theorem pushRegionResources_sameSites {resources : List RegionResource}
    (h : ∀ resource ∈ resources, ∀ az ∈ resource.cpuMemResources,
      resource.regionName ++ siteDelimiter ++ az.availabilityZone ∈ snap.siteCacheInfoMap) :
    SameSites snap (pushRegionResources resources snap) := by
  apply sameSites_foldl
  intro snap₁ hsame₁ resource hresource
  apply sameSites_foldl
  intro snap₂ hsame₂ az haz
  apply pushAz_sameSites
  rw [hsame₂.mem_iff, hsame₁.mem_iff]
  exact h resource hresource az haz

theorem RecordsHaveSites.sameSites (h : RecordsHaveSites s)
    (hsame : SameSites s.snapshot s'.snapshot) : RecordsHaveSites s' := by
  intro key info hinfo
  have hkey := hsame key
  rw [hinfo, Option.map_some] at hkey
  cases hold : s.snapshot.siteCacheInfoMap.lookup key with
  | none =>
    rw [hold] at hkey
    cases hkey
  | some old =>
    rw [hold, Option.map_some, Option.some.injEq] at hkey
    rw [hkey]
    exact h key old hold

variable {status : String} {cluster : Cluster}

theorem RecordsHaveSites.fileCluster (h : RecordsHaveSites s)
    (hs' : s'.snapshot = fileCluster status cluster s.snapshot) :
    RecordsHaveSites s' := by
  intro key info hinfo
  rw [hs', fileCluster_lookup] at hinfo
  split at hinfo
  case isTrue hkey =>
    cases hinfo
    exact ⟨_, rfl, hkey.symm⟩
  case isFalse => exact h key info hinfo

theorem RecordsHaveSites.step {settings : Settings} {e : Event}
    (h : RecordsHaveSites s) (hhappens : Happens s e) (hknown : PushesKnownSites s e)
    (hstep : ClusterEvents.step settings s e = .ok s') : RecordsHaveSites s' := by
  cases e with
  | create cluster => exact h.fileCluster (by rw [step_create hstep])
  | update cluster =>
    obtain ⟨old, hold⟩ := Map.exists_lookup hhappens
    have hs' := congrArg SchedulerState.snapshot (Except.ok.inj (hstep.symm.trans (step_update_eq hold)))
    split at hs'
    · exact h.fileCluster hs'
    · exact h.sameSites (hs' ▸ refl _)
  | delete key =>
    obtain ⟨cluster, hcluster⟩ := Map.exists_lookup hhappens
    exact h.sameSites ((step_delete hcluster hstep).1 ▸ refl _)
  | push resources =>
    cases hstep
    exact h.sameSites (pushRegionResources_sameSites hknown)
  | schedule ord alloc => exact h.sameSites (step_schedule hstep).1

/-- **Every record has its site**, in every history whose pushes name known sites only. -/
theorem history_recordsHaveSites (settings : Settings) (es : List Event) (s : SchedulerState)
    (h : History settings PushesKnownSites es s) : RecordsHaveSites s := by
  apply h.invariant (fun s e s' hs hmeets hstep => hs.step hmeets.1 hmeets.2 hstep)
  intro key info hinfo
  cases hinfo

/-- Totals for the availability zone `a` of region `r`. -/
def smallPush : List RegionResource :=
  [{ regionName := "r", cpuMemResources := [⟨"a", 10, 10⟩] }]

/-- A cluster without an address or a zone, a valid one, and a push for the site of that. -/
theorem history_recordsHaveSites_push :
    ∃ es s, History {} PushesKnownSites es s ∧ es.length = 3 ∧
      s.snapshot.siteCacheInfoMap.keys = ["r--a", "r--"] ∧ RecordsHaveSites s := by
  have hrun : History {} PushesKnownSites [.create smallCluster,
      .create { nameSpace := "n", name := "d", spec := { region := ⟨"r", ""⟩ } }, .push smallPush] _ :=
    .cons ⟨AList.lookup_eq_none.mp rfl, trivial⟩ rfl <| .cons ⟨AList.lookup_eq_none.mp rfl, trivial⟩ rfl <|
      .cons ⟨trivial, fun resource hresource az haz => by
        cases List.mem_singleton.mp hresource
        cases List.mem_singleton.mp haz
        exact AList.lookup_isSome.mp rfl⟩ rfl (.nil _)
  exact ⟨_, _, hrun, rfl, by decide +kernel, history_recordsHaveSites _ _ _ hrun⟩

/-- A push that arrives before the cluster makes a record without a site. -/
theorem history_push_makes_no_site :
    ∃ es s, History {} (fun _ _ => True) es s ∧ ¬ RecordsHaveSites s := by
  have hrun : History {} (fun _ _ => True) [.push smallPush] _ := .cons ⟨trivial, trivial⟩ rfl (.nil _)
  refine ⟨_, _, hrun, fun hsites => ?_⟩
  obtain ⟨site, hsite, _⟩ := hsites "r--a" _ rfl
  cases hsite

/-! ### What an update leaves of a record -/

/-- The same totals, requests and flavor counts. -/
structure SameCapacity (info info' : SiteCacheInfo) : Prop where
  totalResources : ∀ t, info'.totalResources.lookup t = info.totalResources.lookup t
  requestedResources : ∀ t, info'.requestedResources.get? t = info.requestedResources.get? t
  totalStorage : ∀ t, info'.totalStorage.lookup t = info.totalStorage.lookup t
  requestedStorage : ∀ t, info'.requestedStorage.lookup t = info.requestedStorage.lookup t
  requestedFlavor : ∀ f, info'.requestedFlavor.lookup f = info.requestedFlavor.lookup f
  allocatableFlavor : ∀ f, info'.allocatableFlavor.lookup f = info.allocatableFlavor.lookup f

/-- An update of a cluster leaves the capacity of its site on record as it is. -/
def UpdateKeepsCapacity (settings : Settings) (s : SchedulerState) (cluster : Cluster) : Prop :=
  ∀ s' info, step settings s (.update cluster) = .ok s' →
    s.snapshot.siteCacheInfoMap.lookup cluster.siteID = some info →
    ∃ info', s'.snapshot.siteCacheInfoMap.lookup cluster.siteID = some info' ∧
      SameCapacity info info'

/-- Nothing was pushed for the site and nothing is booked on it: no totals, no requests,
and the flavor counts are those of the spec. -/
structure Untouched (cluster : Cluster) (info : SiteCacheInfo) : Prop where
  totalResources : ∀ t, info.totalResources.lookup t = none
  requestedResources : ∀ t, info.requestedResources.get? t = none
  totalStorage : ∀ t, info.totalStorage.lookup t = none
  requestedStorage : ∀ t, info.requestedStorage.lookup t = none
  requestedFlavor : ∀ f, info.requestedFlavor.lookup f = none
  allocatableFlavor : ∀ f, info.allocatableFlavor.lookup f =
    (flavorCounts cluster.spec.flavors).lookup f

theorem SameCapacity.symm {info info' : SiteCacheInfo} (h : SameCapacity info info') : SameCapacity info' info :=
  ⟨fun t => (h.totalResources t).symm, fun t => (h.requestedResources t).symm, fun t => (h.totalStorage t).symm,
    fun t => (h.requestedStorage t).symm, fun f => (h.requestedFlavor f).symm, fun f => (h.allocatableFlavor f).symm⟩

/-- A new record has the capacity of the old one exactly when that was untouched. -/
theorem sameCapacity_newRecord {info : SiteCacheInfo} :
    SameCapacity info (newRecord { cluster with status := status }) ↔ Untouched cluster info := by
  constructor
  · intro h
    obtain ⟨htotal, hrequested, hstorage, hbooked, hcounts, hflavors⟩ := h.symm
    exact ⟨htotal, hrequested, hstorage, hbooked, hcounts, hflavors⟩
  · rintro ⟨htotal, hrequested, hstorage, hbooked, hcounts, hflavors⟩
    exact SameCapacity.symm ⟨htotal, hrequested, hstorage, hbooked, hcounts, hflavors⟩

theorem SameCapacity.refl (info : SiteCacheInfo) : SameCapacity info info :=
  ⟨fun _ => rfl, fun _ => rfl, fun _ => rfl, fun _ => rfl, fun _ => rfl, fun _ => rfl⟩

theorem history_listed {settings : Settings} {cond : SchedulerState → Event → Prop}
    {es : List Event} (h : History settings cond es s) : Listed s := by
  apply h.invariant (fun s e s' hs hmeets hstep => hs.step hmeets.1 hstep)
  intro key cluster hcluster
  cases hcluster

/-- **An update forgets what is booked and pushed**: it leaves the capacity on record
exactly when the cluster has no name, nothing of it changes, or there was nothing to forget. -/
theorem updateKeepsCapacity_iff (settings : Settings) (es : List Event) (s : SchedulerState)
    (old new : Cluster) (h : History settings (fun _ _ => True) es s)
    (hold : s.lister.lookup new.key = some old) :
    UpdateKeepsCapacity settings s new ↔
      new.name = "" ∨ (old.status = new.status ∧ old.spec = new.spec) ∨
      ∀ info, s.snapshot.siteCacheInfoMap.lookup new.siteID = some info → Untouched new info := by
  have hchange := determineEventType_iff (history_listed h _ _ hold)
  unfold UpdateKeepsCapacity
  rw [step_update_eq hold]
  by_cases hfiles : determineEventType old new = some true
  · have hname : new.name ≠ "" := fun hempty => by simp [determineEventType, hempty] at hfiles
    rw [if_pos hfiles, or_iff_right hname, or_iff_right ((hchange hname).mp hfiles)]
    have hfiled : (fileCluster "Updated" new s.snapshot).siteCacheInfoMap.lookup new.siteID =
        some (newRecord { new with status := "Updated" }) := by
      rw [fileCluster_lookup, if_pos rfl]
    constructor
    · intro hkeeps info hinfo
      obtain ⟨info', hinfo', hcapacity⟩ := hkeeps _ info rfl hinfo
      cases hfiled.symm.trans hinfo'
      exact sameCapacity_newRecord.mp hcapacity
    · intro huntouched s' info hs' hinfo
      cases hs'
      exact ⟨_, hfiled, sameCapacity_newRecord.mpr (huntouched info hinfo)⟩
  · -- The update is dropped.
    rw [if_neg hfiles]
    refine iff_of_true (fun s' info hs' hinfo => ?_) ?_
    · cases hs'
      exact ⟨info, hinfo, SameCapacity.refl info⟩
    · by_cases hname : new.name = ""
      · exact Or.inl hname
      · exact Or.inr (Or.inl (not_not.mp fun hne => hfiles ((hchange hname).mpr hne)))

/-- The small cluster after a change of its status. -/
def readyCluster : Cluster := { smallCluster with status := "Ready" }

theorem updateKeepsCapacity_iff_ready :
    ∃ es s, History {} (fun _ _ => True) es s ∧ UpdateKeepsCapacity {} s readyCluster := by
  have hrun : History {} (fun _ _ => True) [.create smallCluster] _ :=
    .cons ⟨AList.lookup_eq_none.mp rfl, trivial⟩ rfl (.nil _)
  refine ⟨_, _, hrun, (updateKeepsCapacity_iff {} _ _ smallCluster readyCluster hrun rfl).mpr
    (Or.inr (Or.inr fun info hinfo => ?_))⟩
  cases hinfo
  exact ⟨fun _ => rfl, fun _ => rfl, fun _ => rfl, fun _ => rfl, fun _ => rfl, fun _ => rfl⟩

/-- Once totals were pushed, a change of the status alone loses them. -/
theorem update_forgets_totals :
    ∃ es s, History {} (fun _ _ => True) es s ∧
      s.lister.lookup readyCluster.key = some smallCluster ∧
      readyCluster.spec = smallCluster.spec ∧ ¬ UpdateKeepsCapacity {} s readyCluster := by
  have hrun : History {} (fun _ _ => True) [.create smallCluster, .push smallPush] _ :=
    .cons ⟨AList.lookup_eq_none.mp rfl, trivial⟩ rfl <| .cons ⟨trivial, trivial⟩ rfl (.nil _)
  refine ⟨_, _, hrun, rfl, rfl, fun hkeeps => ?_⟩
  obtain ⟨info', hinfo', hcapacity⟩ := hkeeps _ _ rfl rfl
  cases hinfo'
  cases hcapacity.totalResources defaultResourceType

end GlobalScheduler.ClusterEvents
