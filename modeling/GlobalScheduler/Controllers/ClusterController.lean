import GlobalScheduler.Controllers.ClusterQueue

/-! The cluster controller.

Handlers of cluster events add pairs of key and event type to the work queue, and the workers
send the profile of the cluster to the resource collector. A deleted cluster is no longer in
the lister, so the handler of deletions keeps it in a map, after it has added the pair. A
worker may look the cluster up between the two. It then puts the pair back to try again; but
`Done` was called with the key and not with the pair, so the queue takes the pair for one that
is still being processed and never hands it out again. -/
namespace GlobalScheduler.ClusterController

open Go Clusterv1 Transition ClusterQueue WorkQueue Function

/-! ### The handlers -/

/-- `KeyFunc` of a cluster of the system tenant. -/
def keyFunc (cluster : Cluster) : String :=
  if cluster.nameSpace = "" then cluster.name else cluster.nameSpace ++ "/" ++ cluster.name

def verifyClusterInfo (cluster : Cluster) : Bool :=
  cluster.spec.ipAddress ≠ "" ∧ cluster.spec.region.region ≠ "" ∧
    cluster.spec.region.availabilityZone ≠ "" ∧ cluster.name ≠ ""

/-- Whether `updateCluster` enqueues the cluster: both objects have names, and
`determineEventType` finds a change. -/
def isUpdated (oldCluster newCluster : Cluster) : Bool :=
  keyFunc oldCluster ≠ "" ∧ keyFunc newCluster ≠ "" ∧ oldCluster.name ≠ "" ∧ newCluster.name ≠ "" ∧
    ¬ (oldCluster.name = newCluster.name ∧ oldCluster.status = newCluster.status ∧
      oldCluster.spec = newCluster.spec)

/-! ### The workers -/

/-- Where a worker stands. -/
inductive Worker where
  /-- It waits for an item. -/
  | idle
  /-- It has an item, and calls `gRPCRequest`. -/
  | got (e : KeyWithEventType)
  /-- It has the profile, and calls `GrpcSendClusterProfile`. -/
  | sending (e : KeyWithEventType) (profile : Cluster)
  /-- It has sent the profile of a deleted cluster, and takes the cluster from the map. -/
  | sent (e : KeyWithEventType)
  /-- `gRPCRequest` has returned false, and it calls `AddRateLimited`. -/
  | failed (e : KeyWithEventType)
  /-- It has come to the end of `syncHandler`. -/
  | synced (e : KeyWithEventType)
deriving DecidableEq

def Worker.item : Worker → Option KeyWithEventType
  | .idle => none
  | .got e | .sending e _ | .sent e | .failed e | .synced e => some e

/-- The branch of `gRPCRequest` that sends a profile, if there is a cluster and a host. -/
def requestWith (host : String) (e : KeyWithEventType) (status : String) : Option Cluster → Worker
  | none => .failed e
  | some cluster => if host ≠ "" then .sending e { cluster with status := status } else .synced e

/-- `gRPCRequest` up to the sending; `listed` is what the lister has. -/
def gRPCRequest (host : String) (deletedClusters : Map String Cluster) (listed : Option Cluster)
    (e : KeyWithEventType) : Worker :=
  match e.eventType with
  | .create => requestWith host e "Created" listed
  | .update => if listed = none then .failed e else .synced e
  | .delete => requestWith host e "Deleted" (deletedClusters.lookup e.key)

/-! ### The steps -/

/-- The controller: its queue and what waits there for a delay to pass, the workers, the
cluster that `deleteCluster` is about to record, the map of deleted clusters, and the profiles
that were sent. The informer calls one handler at a time. -/
structure State where
  queue : WorkQueue Item := {}
  waiting : Finset KeyWithEventType := ∅
  worker : Nat → Worker := fun _ => .idle
  recording : Option Cluster := none
  deletedClusters : Map String Cluster := ∅
  sent : List Cluster := []

inductive Event where
  | addCluster (cluster : Cluster)
  | updateCluster (oldCluster newCluster : Cluster)
  /-- `deleteCluster` up to `Enqueue`. -/
  | deleteCluster (cluster : Cluster)
  /-- The rest of `deleteCluster`. -/
  | record
  | take (w : Nat) (e : KeyWithEventType)
  /-- The worker looks up the cluster, with the answer of the lister. -/
  | request (w : Nat) (listed : Option Cluster)
  | send (w : Nat)
  | drop (w : Nat)
  | retry (w : Nat)
  /-- The delay of a retry has passed. -/
  | ready (e : KeyWithEventType)
  /-- The rest of `syncHandler`, with what the lister answers now, and the deferred `Done`. -/
  | finish (w : Nat) (listed : Option Cluster)

def Event.deletes : Event → Bool
  | .deleteCluster _ => true
  | _ => false

def enqueue (s : State) (e : KeyWithEventType) : State := { s with queue := s.queue.add (.event e) }

def setWorker (s : State) (w : Nat) (worker : Worker) : State :=
  { s with worker := update s.worker w worker }

/-- One step; nothing when the event cannot happen, or is a panic. -/
def step (host : String) (s : State) : Event → Option State
  | .addCluster cluster =>
    if s.recording.isSome then none else some (enqueue s ⟨.create, keyFunc cluster⟩)
  | .updateCluster oldCluster newCluster =>
    if s.recording.isSome then none
    else some (if isUpdated oldCluster newCluster then enqueue s ⟨.update, keyFunc newCluster⟩ else s)
  | .deleteCluster cluster =>
    if s.recording.isSome then none
    else some (if verifyClusterInfo cluster then
      { enqueue s ⟨.delete, keyFunc cluster⟩ with recording := some cluster } else s)
  | .record =>
    match s.recording with
    | none => none
    | some cluster =>
      some { s with
        deletedClusters := s.deletedClusters.insert (keyFunc cluster) cluster
        recording := none }
  | .take w e =>
    match s.worker w, s.queue.get with
    | .idle, some (item, queue) =>
      if item = .event e then some (setWorker { s with queue := queue } w (.got e)) else none
    | _, _ => none
  | .request w listed =>
    match s.worker w with
    | .got e => some (setWorker s w (gRPCRequest host s.deletedClusters listed e))
    | _ => none
  | .send w =>
    match s.worker w with
    | .sending e profile =>
      some (setWorker { s with sent := s.sent ++ [profile] } w
        (if e.eventType = .delete then .sent e else .synced e))
    | _ => none
  | .drop w =>
    match s.worker w with
    | .sent e =>
      some (setWorker { s with deletedClusters := s.deletedClusters.erase e.key } w (.synced e))
    | _ => none
  | .retry w =>
    match s.worker w with
    | .failed e => some (setWorker { s with waiting := insert e s.waiting } w (.synced e))
    | _ => none
  | .ready e =>
    if e ∈ s.waiting then some { enqueue s e with waiting := s.waiting.erase e } else none
  | .finish w listed =>
    match s.worker w with
    | .synced e =>
      -- Of a created or updated cluster that the lister does not have, the status is set.
      if e.eventType ≠ .delete ∧ listed = none then none
      else some (setWorker { s with queue := s.queue.done (.key e.key) } w .idle)
    | _ => none

def Step (host : String) (s : State) (event : Event) (s' : State) : Prop := step host s event = some s'

/-- No cluster of the key is deleted. -/
def Other (key : String) (_ : State) (event : Event) : Prop :=
  ∀ cluster, event = .deleteCluster cluster → keyFunc cluster ≠ key

/-- There is nothing to get, now or later, and no worker has anything in hand. -/
def Drained (s : State) : Prop :=
  s.queue.queue = [] ∧ s.waiting = ∅ ∧ ∀ w, s.worker w = .idle

/-! ### What a step does -/

section
variable {host : String} {s s' : State} {event : Event}

/-- The steps that happen, one by one. -/
inductive Happens (host : String) (s : State) : Event → State → Prop where
  | addCluster (cluster : Cluster) : s.recording = none →
    Happens host s (.addCluster cluster) (enqueue s ⟨.create, keyFunc cluster⟩)
  | updated (oldCluster newCluster : Cluster) : s.recording = none →
    Happens host s (.updateCluster oldCluster newCluster) (enqueue s ⟨.update, keyFunc newCluster⟩)
  | unchanged (oldCluster newCluster : Cluster) :
    Happens host s (.updateCluster oldCluster newCluster) s
  | refused (cluster : Cluster) : verifyClusterInfo cluster = false →
    Happens host s (.deleteCluster cluster) s
  | deleteCluster (cluster : Cluster) : s.recording = none →
    Happens host s (.deleteCluster cluster)
      { enqueue s ⟨.delete, keyFunc cluster⟩ with recording := some cluster }
  | record (cluster : Cluster) : s.recording = some cluster →
    Happens host s .record { s with
      deletedClusters := s.deletedClusters.insert (keyFunc cluster) cluster
      recording := none }
  | take (w : Nat) (e : KeyWithEventType) (queue : WorkQueue Item) : s.worker w = .idle →
    s.queue.get = some (.event e, queue) →
    Happens host s (.take w e) (setWorker { s with queue := queue } w (.got e))
  | request (w : Nat) (listed : Option Cluster) (e : KeyWithEventType) : s.worker w = .got e →
    Happens host s (.request w listed) (setWorker s w (gRPCRequest host s.deletedClusters listed e))
  | send (w : Nat) (e : KeyWithEventType) (profile : Cluster) : s.worker w = .sending e profile →
    Happens host s (.send w) (setWorker { s with sent := s.sent ++ [profile] } w
      (if e.eventType = .delete then .sent e else .synced e))
  | drop (w : Nat) (e : KeyWithEventType) : s.worker w = .sent e →
    Happens host s (.drop w)
      (setWorker { s with deletedClusters := s.deletedClusters.erase e.key } w (.synced e))
  | retry (w : Nat) (e : KeyWithEventType) : s.worker w = .failed e →
    Happens host s (.retry w) (setWorker { s with waiting := insert e s.waiting } w (.synced e))
  | ready (e : KeyWithEventType) : e ∈ s.waiting →
    Happens host s (.ready e) { enqueue s e with waiting := s.waiting.erase e }
  | finish (w : Nat) (listed : Option Cluster) (e : KeyWithEventType) : s.worker w = .synced e →
    Happens host s (.finish w listed) (setWorker { s with queue := s.queue.done (.key e.key) } w .idle)

theorem Happens.of_step (h : Step host s event s') : Happens host s event s' := by
  unfold Step at h
  cases event with
  | addCluster cluster =>
    simp only [step] at h
    split at h
    · cases h
    case isFalse hnone =>
      cases h
      exact .addCluster cluster (by simpa using hnone)
  | updateCluster oldCluster newCluster =>
    simp only [step] at h
    split at h
    · cases h
    case isFalse hnone =>
      cases h
      split
      · exact .updated oldCluster newCluster (by simpa using hnone)
      · exact .unchanged oldCluster newCluster
  | deleteCluster cluster =>
    simp only [step] at h
    split at h
    · cases h
    case isFalse hnone =>
      cases h
      split
      · exact .deleteCluster cluster (by simpa using hnone)
      case isFalse hrefused => exact .refused cluster (by simpa using hrefused)
  | record =>
    simp only [step] at h
    split at h
    · cases h
    case h_2 cluster hsome =>
      cases h
      exact .record cluster hsome
  | take w e =>
    simp only [step] at h
    split at h
    case h_1 item queue hidle hget =>
      split at h
      case isTrue heq =>
        cases h
        subst heq
        exact .take w e queue hidle hget
      · cases h
    · cases h
  | request w listed =>
    simp only [step] at h
    split at h
    case h_1 e hgot =>
      cases h
      exact .request w listed e hgot
    · cases h
  | send w =>
    simp only [step] at h
    split at h
    case h_1 e profile hsending =>
      cases h
      exact .send w e profile hsending
    · cases h
  | drop w =>
    simp only [step] at h
    split at h
    case h_1 e hsent =>
      cases h
      exact .drop w e hsent
    · cases h
  | retry w =>
    simp only [step] at h
    split at h
    case h_1 e hfailed =>
      cases h
      exact .retry w e hfailed
    · cases h
  | ready e =>
    simp only [step] at h
    split at h
    case isTrue hwaits =>
      cases h
      exact .ready e hwaits
    · cases h
  | finish w listed =>
    simp only [step] at h
    split at h
    case h_1 e hsynced =>
      split at h
      · cases h
      · cases h
        exact .finish w listed e hsynced
    · cases h

def Event.actor : Event → Option Nat
  | .take w _ | .request w _ | .send w | .drop w | .retry w | .finish w _ => some w
  | _ => none

theorem Happens.worker_ne (h : Happens host s event s') {w : Nat} (hne : event.actor ≠ some w) :
    s'.worker w = s.worker w := by
  have hother : ∀ {v : Nat}, some v ≠ some w → w ≠ v := fun hvw hwv => hvw (by rw [hwv])
  cases h <;> first | rfl | exact update_of_ne (hother hne) _ _

/-- How a worker goes on. -/
inductive Moves (host : String) (deletedClusters : Map String Cluster) (w : Nat) :
    Event → Worker → Worker → Prop where
  | take (e : KeyWithEventType) : Moves host deletedClusters w (.take w e) .idle (.got e)
  | request (listed : Option Cluster) (e : KeyWithEventType) :
    Moves host deletedClusters w (.request w listed) (.got e) (gRPCRequest host deletedClusters listed e)
  | sent (e : KeyWithEventType) (profile : Cluster) : e.eventType = .delete →
    Moves host deletedClusters w (.send w) (.sending e profile) (.sent e)
  | done (e : KeyWithEventType) (profile : Cluster) :
    Moves host deletedClusters w (.send w) (.sending e profile) (.synced e)
  | drop (e : KeyWithEventType) : Moves host deletedClusters w (.drop w) (.sent e) (.synced e)
  | retry (e : KeyWithEventType) : Moves host deletedClusters w (.retry w) (.failed e) (.synced e)
  | finish (listed : Option Cluster) (e : KeyWithEventType) :
    Moves host deletedClusters w (.finish w listed) (.synced e) .idle

theorem Happens.moves (h : Happens host s event s') {w : Nat} (hactor : event.actor = some w) :
    Moves host s.deletedClusters w event (s.worker w) (s'.worker w) := by
  cases h with
  | addCluster | updated | unchanged | refused | deleteCluster | record | ready => cases hactor
  | take v e queue hidle hget =>
    cases hactor
    simp only [setWorker, update_self, hidle]
    exact .take e
  | request v listed e hgot =>
    cases hactor
    simp only [setWorker, update_self, hgot]
    exact .request listed e
  | send v e profile hsending =>
    cases hactor
    simp only [setWorker, update_self, hsending]
    split
    case isTrue hdelete => exact .sent e profile hdelete
    · exact .done e profile
  | drop v e hsent =>
    cases hactor
    simp only [setWorker, update_self, hsent]
    exact .drop e
  | retry v e hfailed =>
    cases hactor
    simp only [setWorker, update_self, hfailed]
    exact .retry e
  | finish v listed e hsynced =>
    cases hactor
    simp only [setWorker, update_self, hsynced]
    exact .finish listed e

/-- Where `gRPCRequest` leaves a worker. -/
inductive Requested (deletedClusters : Map String Cluster) (e : KeyWithEventType) : Worker → Prop where
  | created (cluster : Cluster) : Requested deletedClusters e (.sending e { cluster with status := "Created" })
  | deleted (cluster : Cluster) : e.eventType = .delete → deletedClusters.lookup e.key = some cluster →
    Requested deletedClusters e (.sending e { cluster with status := "Deleted" })
  | failed : Requested deletedClusters e (.failed e)
  | synced : Requested deletedClusters e (.synced e)

section
variable {deletedClusters : Map String Cluster} {w : Nat} {a b : Worker} {e : KeyWithEventType} {profile : Cluster}
  {listed : Option Cluster}

theorem gRPCRequest_requested (h : gRPCRequest host deletedClusters listed e = b) :
    Requested deletedClusters e b := by
  subst h
  unfold gRPCRequest requestWith
  split
  · split
    · exact .failed
    · split
      · exact .created _
      · exact .synced
  · split
    · exact .failed
    · exact .synced
  case h_3 hdelete =>
    split
    · exact .failed
    case h_2 hlook =>
      split
      · exact .deleted _ hdelete hlook
      · exact .synced

theorem Moves.item (h : Moves host deletedClusters w event a b) (hb : b.item = some e) :
    a.item = some e ∨ event = .take w e := by
  cases h with
  | take e' =>
    cases hb
    exact Or.inr rfl
  | request listed e' =>
    left
    generalize hmoved : gRPCRequest host deletedClusters listed e' = b at hb
    cases gRPCRequest_requested hmoved <;> exact hb
  | sent | done | drop | retry => exact Or.inl hb
  | finish => cases hb

theorem Moves.got (h : Moves host deletedClusters w event a (.got e)) : event = .take w e := by
  generalize hb : Worker.got e = b at h
  cases h with
  | take e' =>
    cases hb
    rfl
  | request => cases gRPCRequest_requested hb.symm
  | sent | done | drop | retry | finish => cases hb

theorem Moves.sending (h : Moves host deletedClusters w event a (.sending e profile)) :
    a = .got e ∧ Requested deletedClusters e (.sending e profile) := by
  generalize hb : Worker.sending e profile = b at h
  cases h with
  | request listed e' =>
    have hrequested := gRPCRequest_requested hb.symm
    have hsame : e' = e := by
      cases hrequested <;> rfl
    subst hsame
    exact ⟨rfl, hb ▸ hrequested⟩
  | take | sent | done | drop | retry | finish => cases hb

theorem Moves.dropping (h : Moves host deletedClusters w event a (.sent e)) : e.eventType = .delete := by
  generalize hb : Worker.sent e = b at h
  cases h with
  | sent e' profile hdelete =>
    cases hb
    exact hdelete
  | request => cases gRPCRequest_requested hb.symm
  | take | done | drop | retry | finish => cases hb

end

/-- A worker stays where it is, or goes on. -/
theorem Happens.worker (h : Happens host s event s') (w : Nat) :
    s'.worker w = s.worker w ∨ Moves host s.deletedClusters w event (s.worker w) (s'.worker w) := by
  by_cases hactor : event.actor = some w
  · exact Or.inr (h.moves hactor)
  · exact Or.inl (h.worker_ne hactor)

theorem Happens.item (h : Happens host s event s') {w : Nat} {e : KeyWithEventType}
    (hitem : (s'.worker w).item = some e) : (s.worker w).item = some e ∨ event = .take w e := by
  rcases h.worker w with hsame | hmoves
  · exact Or.inl (hsame ▸ hitem)
  · exact hmoves.item hitem

/-! ### Profiles -/

variable {profile : Cluster} {e : KeyWithEventType}

section
variable (h : Happens host s event s')
include h

theorem Happens.sent_mono (hsent : profile ∈ s.sent) : profile ∈ s'.sent := by
  cases h <;> first | exact hsent | exact List.mem_append_left _ hsent

theorem Happens.sent_new (hsent : profile ∈ s'.sent) :
    profile ∈ s.sent ∨ ∃ w e, event = .send w ∧ s.worker w = .sending e profile := by
  cases h with
  | send w e profile' hsending =>
    rcases List.mem_append.mp hsent with hold | hnew
    · exact Or.inl hold
    · cases List.mem_singleton.mp hnew
      exact Or.inr ⟨w, e, rfl, hsending⟩
  | _ => exact Or.inl hsent

theorem Happens.sent_send {w : Nat}
    (hworker : s.worker w = .sending e profile) (hactor : event.actor = some w) : profile ∈ s'.sent := by
  have hmoves := h.moves hactor
  rw [hworker] at hmoves
  have hevent : event = .send w := by
    generalize s'.worker w = b at hmoves
    cases hmoves with
    | sent | done => rfl
  subst hevent
  cases h with
  | send _ e' profile' hsending =>
    rw [hworker] at hsending
    cases hsending
    exact List.mem_append_right _ (List.mem_singleton.mpr rfl)

/-! ### The pair in the queue -/

theorem Happens.given (hgiven : s.queue.Given (.event e)) : s'.queue.Given (.event e) := by
  cases h with
  | addCluster | updated | deleteCluster | ready => exact hgiven.add _
  | unchanged | refused | record | request | send | drop | retry => exact hgiven
  | take w e' queue hidle hget =>
    exact hgiven.same (get_sameAt hget (get_ne hget hgiven.notQueued))
  | finish => exact hgiven.same (done_sameAt (by simp))

theorem Happens.take_ne (hnone : s.queue.queue.count (.event e) = 0) (w : Nat) : event ≠ .take w e := by
  intro hevent
  subst hevent
  cases h with
  | take _ _ queue hidle hget => exact get_ne hget hnone rfl

/-- A deletion stays where it is in the queue unless it is taken, deleted again or ready. -/
theorem Happens.sameAt {key : String} (hother : Other key s event)
    (hwaits : ⟨.delete, key⟩ ∉ s.waiting) (htake : ∀ w, event ≠ .take w ⟨.delete, key⟩) :
    WorkQueue.SameAt (.event ⟨.delete, key⟩) s.queue s'.queue := by
  cases h with
  | addCluster | updated => exact add_sameAt (by simp)
  | unchanged | refused | record | request | send | drop | retry => exact WorkQueue.SameAt.refl _ _
  | deleteCluster cluster =>
    have hne := hother cluster rfl
    exact add_sameAt (by simpa using hne)
  | ready e hin =>
    have hne : e ≠ ⟨.delete, key⟩ := fun heq => hwaits (heq ▸ hin)
    exact add_sameAt (by simpa using hne)
  | take w e queue hidle hget =>
    have hne : e ≠ ⟨.delete, key⟩ := fun heq => htake w (by rw [heq])
    exact get_sameAt hget (by simpa using hne)
  | finish => exact done_sameAt (by simp)

theorem Happens.waits (hwaits : e ∈ s'.waiting) : e ∈ s.waiting ∨ ∃ w, (s.worker w).item = some e := by
  cases h with
  | retry w e' hfailed =>
    rcases Finset.mem_insert.mp hwaits with rfl | hold
    · exact Or.inr ⟨w, by rw [hfailed]; rfl⟩
    · exact Or.inl hold
  | ready e' _ => exact Or.inl (Finset.mem_of_mem_erase hwaits)
  | _ => exact Or.inl hwaits

end

end

end GlobalScheduler.ClusterController
