import GlobalScheduler.Scheduler.Books
import GlobalScheduler.Transition

/-! Storage over many calls.

Binding books no storage: the filter of every call compares one copy of the stack with
the storage of a site that nothing was ever bound to. What a call binds is a prefix of
the slots (`boundSlots`), each with the storage of the stack (`call_storage`), so the
storage of a site lasts exactly as long as these copies happen to fit. -/
namespace GlobalScheduler.Schedule

open Go SiteCacheInfo Transition Outcome AList

/-! ### What is bound -/

/-- `Count` times size over the resources that ask for a volume type. -/
def storageOf (t : String) (resources : List Resource) : Int :=
  (resources.map fun r => r.count * (r.storage.lookup t).getD 0).sum

/-- The storage of a type that the replicas on a site take. -/
def storageAt (siteID t : String) (log : List Stack) : Int :=
  ((boundAt siteID log).map fun stack => storageOf t stack.resources).sum

theorem storageAt_append (siteID t : String) (a b : List Stack) :
    storageAt siteID t (a ++ b) = storageAt siteID t a + storageAt siteID t b := by
  rw [storageAt, boundAt_append, List.map_append, List.sum_append]
  rfl

section Shipped
variable {settings : Settings} {ord : MapOrders} {snap : Snapshot}

theorem Binds.storage {state : CycleState} {stack : Stack} {resources : List Resource}
    {ids : List String} {q : Progress}
    (h : Binds (shipped settings ord snap) state stack ⟨snap, resources, []⟩ ids q) (siteID t : String) :
    storageAt siteID t q.bound = ids.count siteID * storageOf t resources := by
  have hone : ∀ bound ∈ boundAt siteID q.bound,
      storageOf t bound.resources = storageOf t resources := by
    intro bound hbound
    rw [storageOf, (h.alike (g := fun r => r.count * (r.storage.lookup t).getD 0) fun _ _ => rfl).2
      bound (List.mem_filter.mp hbound).1]
    rfl
  obtain ⟨new, hnew, hids⟩ := h.bound
  rw [List.nil_append] at hnew
  rw [storageAt, sum_alike hone, length_boundAt, hnew, hids]

/-! ### What is booked -/

/-- The storage of a record, all of it and what is requested of it. -/
def storageBooks (info : SiteCacheInfo) : Map String Fp × Map String Fp :=
  (info.totalStorage, info.requestedStorage)

/-- **Binding books no storage.** -/
theorem storageBooks_booked {ord : DeductOrders} {resInfo : AllResInfo} {rf : Map String RegionFlavor}
    {info info' : SiteCacheInfo} (hnone : resInfo.storage = ∅)
    (h : deductSiteResInfo ord resInfo rf info = .ok info') : storageBooks info' = storageBooks info := by
  rw [storageBooks, (deductSiteResInfo_lowered h).totalStorage, deductSiteResInfo_storage hnone h]
  rfl

end Shipped

/-! ### One call -/

/-- A call with what the runtime and the configuration chose for it. -/
structure Call where
  settings : Settings := {}
  ord : MapOrders := {}
  alloc : Allocation

/-- The strategies succeed and the slots they hand out for the replicas are `ids`. -/
def HandsOut (call : Call) (snap : Snapshot) (ids : List String) : Prop :=
  let snap := snap.updateFlavor call.settings
  let fw := shipped call.settings call.ord snap
  ∃ prio sites status, prioritize fw call.ord.sites snap call.alloc = .ok (.ok prio) ∧
    Framework.runStrategyPlugins prio.state (withSelector call.alloc) fw.strategyPlugins
      prio.priorityList = .ok (sites, status) ∧ status.isSuccess = true ∧
    ids = boundSlots call.alloc.replicas sites

variable {call : Call} {snap start : Snapshot}

theorem HandsOut.unique {ids ids' : List String}
    (h : HandsOut call snap ids) (h' : HandsOut call snap ids') : ids = ids' := by
  obtain ⟨prio, sites, status, hprio, hstrat, _, rfl⟩ := h
  obtain ⟨prio', sites', status', hprio', hstrat', _, rfl⟩ := h'
  cases hprio.symm.trans hprio'
  cases hstrat.symm.trans hstrat'
  rfl

/-- **The storage a call binds**: that of the stack for each slot handed out, and none
where nothing is handed out. -/
theorem call_storage {r : Result} (h : scheduleShipped call.settings call.ord snap call.alloc = .ok r) :
    ((∀ ids, ¬ HandsOut call snap ids) ∧ r.bound = []) ∨
      ∃ ids, HandsOut call snap ids ∧ ∀ siteID t, storageAt siteID t r.bound =
        ids.count siteID * storageOf t call.alloc.stack.resources := by
  rcases schedule_ok h with ⟨e, hprio, rfl⟩ | ⟨⟨prio, sites, status, hprio, hstrat, hfail⟩, rfl⟩ |
    ⟨prio, sites, err, p, hprio, hplaced, rfl⟩
  · refine Or.inl ⟨?_, rfl⟩
    rintro ids ⟨prio', _, _, hprio', _⟩
    cases hprio.symm.trans hprio'
  · refine Or.inl ⟨?_, rfl⟩
    rintro ids ⟨prio', sites', status', hprio', hstrat', hok, _⟩
    cases hprio.symm.trans hprio'
    cases hstrat.symm.trans hstrat'
    rw [hfail] at hok
    cases hok
  · obtain ⟨status, hstrat, hok⟩ := hplaced.strategies
    refine Or.inr ⟨_, ⟨prio, sites, status, hprio, hstrat, hok, rfl⟩, ?_⟩
    exact (hplaced.binds_all hprio).2.storage

theorem call_storageBooks {r : Result}
    (h : scheduleShipped call.settings call.ord snap call.alloc = .ok r) (key : String) :
    (r.snapshot.siteCacheInfoMap.lookup key).map storageBooks =
      (snap.siteCacheInfoMap.lookup key).map storageBooks := by
  rcases schedule_ok h with ⟨e, _, rfl⟩ | ⟨_, rfl⟩ | ⟨prio, sites, err, p, hprio, hplaced, rfl⟩
  · rfl
  · rfl
  · exact (hplaced.binds_all hprio).2.kept (fun _ _ _ _ _ => storageBooks_booked) key

/-! ### Calls one after the other -/

/-- The total of a volume type of a site minus what is requested of it, both being whole
numbers. -/
def StorageRoom (snap : Snapshot) (siteID t : String) (room : Int) : Prop :=
  ∃ info, ∃ total requested : Int, snap.siteCacheInfoMap.lookup siteID = some info ∧
    (info.totalStorage.lookup t).getD (.fin 0) = .fin total ∧
    (info.requestedStorage.lookup t).getD (.fin 0) = .fin requested ∧ room = total - requested

/-- What is bound to a site is within the storage it had at the start. -/
def WithinStorage (start : Snapshot) (log : List Stack) : Prop :=
  ∀ siteID t room, StorageRoom start siteID t room → storageAt siteID t log ≤ room

/-- The records as the calls left them and the replicas they bound. -/
structure Ledger where
  snapshot : Snapshot
  log : List Stack := []

def Ledger.Step (s : Ledger) (call : Call) (s' : Ledger) : Prop :=
  ∃ r, scheduleShipped call.settings call.ord s.snapshot call.alloc = .ok r ∧
    s' = ⟨r.snapshot, s.log ++ r.bound⟩

/-- The copies handed out fit, together with all that was bound before, in the storage of
their sites. -/
def StorageFits (s : Ledger) (call : Call) : Prop :=
  ∀ ids, HandsOut call s.snapshot ids → ∀ siteID t room, StorageRoom s.snapshot siteID t room →
    storageAt siteID t s.log + ids.count siteID * storageOf t call.alloc.stack.resources ≤ room

/-- The storage of the records is as it was. -/
def SameStorage (start snap : Snapshot) : Prop :=
  ∀ key, (snap.siteCacheInfoMap.lookup key).map storageBooks =
    (start.siteCacheInfoMap.lookup key).map storageBooks

theorem SameStorage.room (h : SameStorage start snap) {siteID t : String}
    {room : Int} (hroom : StorageRoom start siteID t room) : StorageRoom snap siteID t room := by
  obtain ⟨info, total, requested, hinfo, htotal, hrequested, rfl⟩ := hroom
  have hsame := h siteID
  rw [hinfo, Option.map_some] at hsame
  obtain ⟨info', hinfo', hbooks⟩ := Option.map_eq_some_iff.mp hsame
  obtain ⟨htotals, hrequests⟩ := Prod.mk.inj hbooks
  rw [← htotals] at htotal
  rw [← hrequests] at hrequested
  exact ⟨info', total, requested, hinfo', htotal, hrequested, rfl⟩

theorem SameStorage.symm (h : SameStorage start snap) : SameStorage snap start :=
  fun key => (h key).symm

theorem Ledger.Step.sameStorage {s s' : Ledger}
    (hs : SameStorage start s.snapshot) (h : s.Step call s') : SameStorage start s'.snapshot := by
  obtain ⟨r, hr, rfl⟩ := h
  exact fun key => (call_storageBooks hr key).trans (hs key)

/-- **One call keeps within the storage exactly if what it hands out fits.** -/
theorem Ledger.Step.within_iff {s s' : Ledger}
    (hs : SameStorage start s.snapshot) (hwithin : WithinStorage start s.log) (h : s.Step call s') :
    WithinStorage start s'.log ↔ StorageFits s call := by
  obtain ⟨r, hr, rfl⟩ := h
  rcases call_storage hr with ⟨hnone, hbound⟩ | ⟨ids, hids, hbound⟩
  · rw [hbound, List.append_nil]
    exact iff_of_true hwithin fun ids hids => absurd hids (hnone ids)
  · constructor
    · intro hafter ids' hids' siteID t room hroom
      rw [← hids.unique hids', ← hbound, ← storageAt_append]
      exact hafter siteID t room (hs.symm.room hroom)
    · intro hfits siteID t room hroom
      rw [storageAt_append, hbound]
      exact hfits ids hids siteID t room (hs.room hroom)

/-- **Storage over whole runs**: calls that fit, one after the other, keep within what the
sites had at the start, and the first that does not fit leaves some site with more bound
than it had. -/
theorem storage_within_iff (start : Snapshot) (calls : List Call) (s : Ledger)
    (h : Run Ledger.Step (fun _ _ => True) ⟨start, []⟩ calls s) :
    (WithinStorage start [] → Run Ledger.Step StorageFits ⟨start, []⟩ calls s →
        WithinStorage start s.log) ∧
      ∀ call s', s.Step call s' → WithinStorage start s.log →
        (WithinStorage start s'.log ↔ StorageFits s call) := by
  have hsame : ∀ (s : Ledger) call s', SameStorage start s.snapshot → True → s.Step call s' →
      SameStorage start s'.snapshot := fun _ _ _ hs _ hstep => hstep.sameStorage hs
  have hopen : SameStorage start (⟨start, []⟩ : Ledger).snapshot := fun _ => rfl
  constructor
  · intro hstart hfits
    refine (h.kept_iff (R := fun s => WithinStorage start s.log) hsame ?_ hopen hstart).1
      (hfits.mono fun _ _ hmeets => ⟨trivial, hmeets⟩)
    exact fun _ _ _ hs hwithin _ hstep => hstep.within_iff hs hwithin
  · intro call s' hstep hwithin
    exact hstep.within_iff (h.invariant hsame hopen) hwithin

/-- A site with machines for four copies and 100 of storage type `sas`. -/
def storageRecord : SiteCacheInfo :=
  { freshSite "a" 4 with totalStorage := singleton "sas" (.fin 100) }

theorem storageRecord_keyed : ∀ site, storageRecord.site = some site → site.siteID = "r--a" := by
  simp [storageRecord, freshSite]

def storageSite : Snapshot := Snapshot.empty.put "r--a" storageRecord storageRecord_keyed

/-- A request for copies of one machine with 60 of that storage. -/
def storageRequest (replicas : Int) : Call where
  alloc := { request replicas with stack := { resources :=
    [{ flavors := [{ flavorID := "f" }], count := 1, storage := singleton "sas" 60 }] } }

theorem storageSite_room {siteID t : String} {room : Int} (h : StorageRoom storageSite siteID t room) :
    siteID = "r--a" ∧ room = if t = "sas" then 100 else 0 := by
  obtain ⟨info, total, requested, hinfo, htotal, hrequested, rfl⟩ := h
  obtain rfl : siteID = "r--a" := by
    by_contra hne
    have hnone : storageSite.siteCacheInfoMap.lookup siteID = none := lookup_insert_ne hne
    rw [hnone] at hinfo
    cases hinfo
  cases hinfo
  refine ⟨rfl, ?_⟩
  have hzero : requested = 0 := by
    have hfin := Fp.fin.inj hrequested
    exact_mod_cast hfin.symm
  rw [hzero, sub_zero]
  split
  case isTrue ht =>
    subst ht
    have hfin := Fp.fin.inj htotal
    exact_mod_cast hfin.symm
  case isFalse ht =>
    have hnone : (singleton "sas" (Fp.fin 100) : Map String Fp).lookup t = none :=
      lookup_insert_ne (s := ∅) ht
    have hfin := Fp.fin.inj ((congrArg (·.getD (.fin 0)) hnone).symm.trans htotal)
    exact_mod_cast hfin.symm

/-- One copy is bound, and it fits. -/
theorem storage_within_iff_one_copy :
    ∃ s, Ledger.Step ⟨storageSite, []⟩ (storageRequest 1) s ∧ storageAt "r--a" "sas" s.log = 60 ∧
      WithinStorage storageSite s.log ∧ StorageFits ⟨storageSite, []⟩ (storageRequest 1) := by
  have hrun : (scheduleShipped {} {} storageSite (storageRequest 1).alloc).map
      (fun r => storageAt "r--a" "sas" r.bound) = .ok 60 := by
    decide +kernel
  obtain ⟨r, hr, hbound⟩ := map_ok.mp hrun
  have hstep : Ledger.Step ⟨storageSite, []⟩ (storageRequest 1) ⟨r.snapshot, [] ++ r.bound⟩ :=
    ⟨r, hr, rfl⟩
  have hopen : WithinStorage storageSite [] := by
    intro siteID t room hroom
    rw [(storageSite_room hroom).2]
    show (0 : Int) ≤ _
    split <;> decide
  have hwithin : WithinStorage storageSite ([] ++ r.bound) := by
    intro siteID t room hroom
    obtain ⟨rfl, rfl⟩ := storageSite_room hroom
    split
    case isTrue ht =>
      rw [ht, List.nil_append, hbound]
      decide
    case isFalse ht =>
      have hnone : (singleton "sas" 60 : Map String Int).lookup t = none :=
        lookup_insert_ne (s := ∅) ht
      rcases call_storage hr with ⟨_, hempty⟩ | ⟨ids, _, htaken⟩
      · rw [hempty]
        exact le_refl 0
      · rw [List.nil_append, htaken]
        simp [storageOf, storageRequest, hnone]
  have hiff := (storage_within_iff storageSite [] ⟨storageSite, []⟩ (.nil _)).2 _ _ hstep hopen
  exact ⟨_, hstep, hbound, hwithin, hiff.mp hwithin⟩

/-- Two copies of 60 are bound to the 100 of the site: the filter looks at one copy, and its
limit does not reach the strategies. -/
theorem storage_two_copies :
    ∃ s, Run Ledger.Step (fun _ _ => True) ⟨storageSite, []⟩ [storageRequest 2] s ∧
      ¬ WithinStorage storageSite s.log := by
  have hrun : (scheduleShipped {} {} storageSite (storageRequest 2).alloc).map
      (fun r => storageAt "r--a" "sas" r.bound) = .ok 120 := by
    decide +kernel
  obtain ⟨r, hr, hbound⟩ := map_ok.mp hrun
  have hrun : Run Ledger.Step (fun _ _ => True) ⟨storageSite, []⟩ [storageRequest 2]
      ⟨r.snapshot, [] ++ r.bound⟩ := (Run.nil _).snoc trivial ⟨r, hr, rfl⟩
  refine ⟨_, hrun, fun hwithin => ?_⟩
  have hroom : StorageRoom storageSite "r--a" "sas" 100 :=
    ⟨_, 100, 0, rfl, rfl, rfl, rfl⟩
  have hle := hwithin "r--a" "sas" 100 hroom
  rw [List.nil_append, hbound] at hle
  exact absurd hle (by decide)

end GlobalScheduler.Schedule
