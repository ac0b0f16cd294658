import GlobalScheduler.Controllers.ClusterController

/-! What becomes of a deleted cluster.

The pair of a deletion is handed to a worker once and never again, since the queue takes it
for one in processing from then on. So the profile is sent if that worker finds the cluster in
the map, and otherwise never: the retry waits out its delay and is added to a queue that does
not hand it out. -/
namespace GlobalScheduler.ClusterController

open Go Clusterv1 Transition ClusterQueue AList

/-- What `deleteCluster` enqueues. -/
def deletionOf (cluster : Cluster) : KeyWithEventType := ⟨.delete, keyFunc cluster⟩

def deletedProfile (cluster : Cluster) : Cluster := { cluster with status := "Deleted" }

/-- A worker that looks up the cluster does so when `deleteCluster` has recorded it. -/
def LooksAfterRecord (cluster : Cluster) (s : State) (event : Event) : Prop :=
  ∀ w listed, event = .request w listed → s.worker w = .got (deletionOf cluster) →
    s.recording ≠ some cluster

/-! ### What holds of the controller at all times -/

structure Sound (s : State) : Prop where
  isOpen : s.queue.shuttingDown = false
  filed : ∀ key cluster, s.deletedClusters.lookup key = some cluster → keyFunc cluster = key
  profiles : ∀ w e profile, s.worker w = .sending e profile →
    profile.status = "Created" ∨ e = deletionOf profile
  drops : ∀ w e, s.worker w = .sent e → e.eventType = .delete

theorem sound_init : Sound {} where
  isOpen := rfl
  filed := fun _ _ h => by cases h
  profiles := fun _ _ _ h => by cases h
  drops := fun _ _ h => by cases h

section
variable {host : String} {s s' : State} {event : Event} {cluster : Cluster}

theorem Happens.isOpen (h : Happens host s event s') (hopen : s.queue.shuttingDown = false) :
    s'.queue.shuttingDown = false := by
  cases h with
  | addCluster | updated | deleteCluster | ready =>
    exact (WorkQueue.shuttingDown_add _ _).trans hopen
  | take w e queue hidle hget => exact (WorkQueue.got hget).shuttingDown.trans hopen
  | _ => exact hopen

theorem Happens.filed (h : Happens host s event s')
    (hfiled : ∀ key cluster, s.deletedClusters.lookup key = some cluster → keyFunc cluster = key) :
    ∀ key cluster, s'.deletedClusters.lookup key = some cluster → keyFunc cluster = key := by
  intro key cluster hlook
  cases h with
  | record recorded =>
    by_cases heq : key = keyFunc recorded
    · rw [heq, lookup_insert] at hlook
      cases hlook
      exact heq.symm
    · rw [lookup_insert_ne heq] at hlook
      exact hfiled key cluster hlook
  | drop w e =>
    have herase : (s.deletedClusters.erase e.key).lookup key = some cluster := hlook
    by_cases heq : key = e.key
    · rw [heq, lookup_erase] at herase
      cases herase
    · rw [lookup_erase_ne heq] at herase
      exact hfiled key cluster herase
  | _ => exact hfiled key cluster hlook

theorem Sound.step (h : Sound s) (hstep : Happens host s event s') : Sound s' where
  isOpen := hstep.isOpen h.isOpen
  filed := hstep.filed h.filed
  profiles := by
    intro w e profile hworker
    rcases hstep.worker w with hsame | hmoves
    · exact h.profiles w e profile (hsame ▸ hworker)
    · rw [hworker] at hmoves
      cases hmoves.sending.2 with
      | created => exact Or.inl rfl
      | deleted found hdelete hlook =>
        obtain ⟨eventType, key⟩ := e
        cases hdelete
        cases h.filed key found hlook
        exact Or.inr rfl
  drops := by
    intro w e hworker
    rcases hstep.worker w with hsame | hmoves
    · exact h.drops w e (hsame ▸ hworker)
    · rw [hworker] at hmoves
      exact hmoves.dropping

theorem Sound.sends (h : Sound s) {w : Nat} {e : KeyWithEventType}
    (hworker : s.worker w = .sending e (deletedProfile cluster)) : e = deletionOf cluster := by
  rcases h.profiles w e _ hworker with hcreated | heq
  · exact absurd (show "Deleted" = "Created" from hcreated) (by decide)
  · exact heq

/-- What `deleteCluster` is about to record: the same, nothing more, or another cluster. -/
theorem Happens.recording (h : Happens host s event s') {key : String} (hother : Other key s event)
    {recorded : Cluster} (hrecording : s'.recording = some recorded) :
    s.recording = some recorded ∨ keyFunc recorded ≠ key := by
  cases h with
  | record => cases hrecording
  | deleteCluster deleted =>
    cases hrecording
    exact Or.inr (hother _ rfl)
  | _ => exact Or.inl hrecording

/-- `deleteCluster` is not about to record a cluster of the key. -/
def Recorded (cluster : Cluster) (s : State) : Prop :=
  ∀ recorded, s.recording = some recorded → keyFunc recorded ≠ keyFunc cluster

theorem Recorded.looks (h : Recorded cluster s) (event : Event) : LooksAfterRecord cluster s event :=
  fun _ _ _ _ hrecording => h cluster hrecording rfl

/-! ### Before the deletion -/

/-- The controller has not heard of a deletion of the key. -/
structure Unheard (cluster : Cluster) (s : State) : Prop extends Sound s where
  fresh : s.queue.Fresh (.event (deletionOf cluster))
  notWaiting : deletionOf cluster ∉ s.waiting
  notTaken : ∀ w, (s.worker w).item ≠ some (deletionOf cluster)
  recorded : Recorded cluster s
  notRecorded : s.deletedClusters.lookup (keyFunc cluster) = none
  notSent : deletedProfile cluster ∉ s.sent

theorem unheard_init (cluster : Cluster) : Unheard cluster {} where
  toSound := sound_init
  fresh := ⟨rfl, Finset.notMem_empty _, Finset.notMem_empty _⟩
  notWaiting := Finset.notMem_empty _
  notTaken := fun _ h => by cases h
  recorded := fun _ h => by cases h
  notRecorded := rfl
  notSent := List.not_mem_nil

/-- The profile is sent by nobody while no worker has the deletion in hand. -/
theorem Sound.notSent (h : Sound s) (hstep : Happens host s event s')
    (hnone : ∀ w, s.worker w ≠ .sending (deletionOf cluster) (deletedProfile cluster))
    (hnot : deletedProfile cluster ∉ s.sent) : deletedProfile cluster ∉ s'.sent := by
  intro hsent
  rcases hstep.sent_new hsent with hold | ⟨w, e, -, hworker⟩
  · exact hnot hold
  · have heq := h.sends hworker
    subst heq
    exact hnone w hworker

/-- The entry of a key changes when its cluster is recorded, or a worker drops it. -/
theorem Happens.lookup (h : Happens host s event s') (hsound : Sound s) {key : String}
    (hkeep : ∀ w, s.worker w ≠ .sent ⟨.delete, key⟩) :
    s'.deletedClusters.lookup key = s.deletedClusters.lookup key ∨
      ∃ recorded, s.recording = some recorded ∧ keyFunc recorded = key ∧ s'.recording = none ∧
        s'.deletedClusters.lookup key = some recorded := by
  cases h with
  | record recorded hrecording =>
    by_cases heq : keyFunc recorded = key
    · subst heq
      exact Or.inr ⟨recorded, hrecording, rfl, rfl, lookup_insert _⟩
    · exact Or.inl (lookup_insert_ne (Ne.symm heq))
  | drop w e hworker =>
    refine Or.inl (lookup_erase_ne fun heq => ?_)
    obtain ⟨eventType, key'⟩ := e
    cases hsound.drops w _ hworker
    subst heq
    exact hkeep w hworker
  | _ => exact Or.inl rfl

section
variable (hother : Other (keyFunc cluster) s event) (hstep : Happens host s event s')
include hother hstep

theorem Recorded.step (h : Recorded cluster s) : Recorded cluster s' := fun recorded hrecording =>
  (hstep.recording hother hrecording).elim (h recorded) id

theorem Unheard.step (h : Unheard cluster s) : Unheard cluster s' where
  toSound := h.toSound.step hstep
  fresh := h.fresh.same (hstep.sameAt hother h.notWaiting (hstep.take_ne h.fresh.notQueued))
  notWaiting := fun hwaits => (hstep.waits hwaits).elim h.notWaiting fun ⟨w, hitem⟩ => h.notTaken w hitem
  notTaken := fun w hitem => (hstep.item hitem).elim (h.notTaken w) (hstep.take_ne h.fresh.notQueued w)
  recorded := h.recorded.step hother hstep
  notRecorded := by
    have hkeep : ∀ w, s.worker w ≠ .sent (deletionOf cluster) := fun w hworker =>
      h.notTaken w (by rw [hworker]; rfl)
    rcases hstep.lookup h.toSound hkeep with hsame | ⟨recorded, hrecording, hkey, -⟩
    · exact hsame.trans h.notRecorded
    · exact absurd hkey (h.recorded recorded hrecording)
  notSent := by
    refine h.toSound.notSent hstep (fun w hworker => ?_) h.notSent
    exact h.notTaken w (by rw [hworker]; rfl)

/-! ### On the way to the profile -/

/-- The cluster is in the map, or is about to be recorded. -/
def Noted (cluster : Cluster) (s : State) : Prop :=
  (s.recording = some cluster ∧ s.deletedClusters.lookup (keyFunc cluster) = none) ∨
    (Recorded cluster s ∧ s.deletedClusters.lookup (keyFunc cluster) = some cluster)

theorem Noted.step (h : Noted cluster s) (hsound : Sound s)
    (hkeep : ∀ w, s.worker w ≠ .sent (deletionOf cluster)) : Noted cluster s' := by
  rcases hstep.lookup hsound hkeep with hsame | ⟨recorded, hrecording, hkey, hnone, hlook⟩
  · rcases h with ⟨hrecording, hlook⟩ | ⟨hnot, hlook⟩
    · left
      refine ⟨?_, hsame.trans hlook⟩
      cases hstep with
      | record recorded hrecording' =>
        -- The recording itself would have changed the entry.
        rw [hrecording] at hrecording'
        cases hrecording'
        have hnow : (s.deletedClusters.insert (keyFunc cluster) cluster).lookup (keyFunc cluster) = none :=
          hsame.trans hlook
        rw [lookup_insert] at hnow
        cases hnow
      | deleteCluster _ hnone =>
        rw [hnone] at hrecording
        cases hrecording
      | _ => exact hrecording
    · exact Or.inr ⟨hnot.step hother hstep, hsame.trans hlook⟩
  · rcases h with ⟨hcluster, -⟩ | ⟨hnot, -⟩
    · rw [hcluster] at hrecording
      cases hrecording
      refine Or.inr ⟨fun recorded hrecording => ?_, hlook⟩
      rw [hnone] at hrecording
      cases hrecording
    · exact absurd hkey (hnot recorded hrecording)

/-- The deletion is in the queue, in the hands of one worker that has not looked for the
cluster yet, in the hands of one that has found it, or done. -/
inductive OnTheWay (cluster : Cluster) (s : State) : Prop where
  | queued : s.queue.Queued (.event (deletionOf cluster)) → deletionOf cluster ∉ s.waiting →
    (∀ w, (s.worker w).item ≠ some (deletionOf cluster)) → Noted cluster s →
    deletedProfile cluster ∉ s.sent → OnTheWay cluster s
  | taken (w : Nat) : s.queue.Given (.event (deletionOf cluster)) →
    s.worker w = .got (deletionOf cluster) →
    (∀ v, (s.worker v).item = some (deletionOf cluster) → v = w) → Noted cluster s →
    deletedProfile cluster ∉ s.sent → OnTheWay cluster s
  | found (w : Nat) : s.worker w = .sending (deletionOf cluster) (deletedProfile cluster) →
    Recorded cluster s → OnTheWay cluster s
  | sent : deletedProfile cluster ∈ s.sent → Recorded cluster s → OnTheWay cluster s

/-- The worker with the deletion did not find the cluster. -/
structure Missed (cluster : Cluster) (s : State) : Prop where
  given : s.queue.Given (.event (deletionOf cluster))
  notGot : ∀ w, s.worker w ≠ .got (deletionOf cluster)
  notFound : ∀ w profile, s.worker w ≠ .sending (deletionOf cluster) profile
  notSent : deletedProfile cluster ∉ s.sent

omit hother in
/-- **A deletion that was missed stays missed.** -/
theorem Missed.step (h : Missed cluster s) (hsound : Sound s) : Missed cluster s' where
  given := hstep.given h.given
  notGot := by
    intro w hworker
    rcases hstep.worker w with hsame | hmoves
    · exact h.notGot w (hsame ▸ hworker)
    · rw [hworker] at hmoves
      exact hstep.take_ne h.given.notQueued w hmoves.got
  notFound := by
    intro w profile hworker
    rcases hstep.worker w with hsame | hmoves
    · exact h.notFound w profile (hsame ▸ hworker)
    · rw [hworker] at hmoves
      exact h.notGot w hmoves.sending.1
  notSent := hsound.notSent hstep (fun w => h.notFound w _) h.notSent

omit hother hstep in
theorem OnTheWay.not_missed (h : OnTheWay cluster s) : ¬ Missed cluster s := by
  intro hmissed
  cases h with
  | queued hqueued => exact hqueued.notGiven hmissed.given.given
  | taken w _ hgot => exact hmissed.notGot w hgot
  | found w hfound => exact hmissed.notFound w _ hfound
  | sent hsent => exact hmissed.notSent hsent

theorem OnTheWay.step_queued (hsound : Sound s) (hqueued : s.queue.Queued (.event (deletionOf cluster)))
    (hwaits : deletionOf cluster ∉ s.waiting)
    (hnone : ∀ w, (s.worker w).item ≠ some (deletionOf cluster)) (hnoted : Noted cluster s)
    (hnot : deletedProfile cluster ∉ s.sent) : OnTheWay cluster s' := by
  have hkeep : ∀ w, s.worker w ≠ .sent (deletionOf cluster) := fun w hworker =>
    hnone w (by rw [hworker]; rfl)
  have hnoted' := hnoted.step hother hstep hsound hkeep
  have hnot' : deletedProfile cluster ∉ s'.sent := hsound.notSent hstep
    (fun w hworker => hnone w (by rw [hworker]; rfl)) hnot
  have hholds : ∀ v, (s'.worker v).item = some (deletionOf cluster) →
      event = .take v (deletionOf cluster) := fun v hitem => (hstep.item hitem).resolve_left (hnone v)
  by_cases htake : ∃ w, event = .take w (deletionOf cluster)
  · obtain ⟨w, rfl⟩ := htake
    refine .taken w ?_ ?_ (fun v hitem => ?_) hnoted' hnot'
    · cases hstep with
      | take _ _ queue hidle hget => exact hqueued.get hget
    · cases hstep with
      | take _ _ queue hidle hget => exact Function.update_self _ _ _
    · cases hholds v hitem
      rfl
  · have htake' : ∀ w, event ≠ .take w (deletionOf cluster) := fun w heq => htake ⟨w, heq⟩
    refine .queued (hqueued.same (hstep.sameAt hother hwaits htake')) (fun hin => ?_)
      (fun w hitem => htake' w (hholds w hitem)) hnoted' hnot'
    exact (hstep.waits hin).elim hwaits fun ⟨w, hitem⟩ => hnone w hitem

/-- The worker that has the deletion finds the cluster exactly if it is recorded. -/
theorem OnTheWay.step_taken (hhost : host ≠ "") (hsound : Sound s) {w : Nat}
    (hgiven : s.queue.Given (.event (deletionOf cluster))) (hgot : s.worker w = .got (deletionOf cluster))
    (honly : ∀ v, (s.worker v).item = some (deletionOf cluster) → v = w) (hnoted : Noted cluster s)
    (hnot : deletedProfile cluster ∉ s.sent) :
    (LooksAfterRecord cluster s event → OnTheWay cluster s') ∧
      (¬ LooksAfterRecord cluster s event → Missed cluster s') := by
  have hworker : ∀ v worker, worker ≠ .got (deletionOf cluster) →
      worker.item = some (deletionOf cluster) → s.worker v ≠ worker := by
    intro v worker hne hitem heq
    cases honly v (by rw [heq]; exact hitem)
    exact hne (heq.symm.trans hgot)
  have hgiven' := hstep.given hgiven
  have hnot' : deletedProfile cluster ∉ s'.sent := hsound.notSent hstep
    (fun v => hworker v _ (by simp) rfl) hnot
  have hholds : ∀ v, (s'.worker v).item = some (deletionOf cluster) → v = w := by
    intro v hitem
    rcases hstep.item hitem with hold | htake
    · exact honly v hold
    · exact absurd htake (hstep.take_ne hgiven.notQueued v)
  by_cases hactor : event.actor = some w
  · have hmoves := hstep.moves hactor
    rw [hgot] at hmoves
    obtain ⟨listed, rfl, hmoved⟩ : ∃ listed, event = .request w listed ∧
        s'.worker w = gRPCRequest host s.deletedClusters listed (deletionOf cluster) := by
      generalize s'.worker w = b at hmoves
      cases hmoves with
      | request listed => exact ⟨listed, rfl, rfl⟩
    have hlooks : LooksAfterRecord cluster s (.request w listed) ↔ s.recording ≠ some cluster := by
      constructor
      · exact fun h => h w listed rfl hgot
      · intro h _ _ _ _
        exact h
    rw [hlooks, not_not]
    constructor
    · intro hrecorded
      obtain ⟨hdone, hlook⟩ := hnoted.resolve_left fun hpending => hrecorded hpending.1
      refine .found w (hmoved.trans ?_) (hdone.step hother hstep)
      simp [gRPCRequest, deletionOf, hlook, requestWith, hhost, deletedProfile]
    · intro hrecording
      obtain ⟨-, hlook⟩ := hnoted.resolve_right fun hdone => hdone.1 cluster hrecording rfl
      have hfailed : s'.worker w = .failed (deletionOf cluster) := by
        rw [hmoved]
        simp [gRPCRequest, deletionOf, hlook, requestWith]
      have hstage : ∀ v worker, worker ≠ .failed (deletionOf cluster) →
          worker.item = some (deletionOf cluster) → s'.worker v ≠ worker := by
        intro v worker hne hitem heq
        cases hholds v (by rw [heq]; exact hitem)
        exact hne (heq.symm.trans hfailed)
      exact ⟨hgiven', fun v => hstage v _ (by simp) rfl, fun v _ => hstage v _ (by simp) rfl, hnot'⟩
  · have hlooks : LooksAfterRecord cluster s event := by
      intro v listed hevent hgot' _
      cases honly v (by rw [hgot']; rfl)
      subst hevent
      exact hactor rfl
    refine ⟨fun _ => ?_, fun hnot => absurd hlooks hnot⟩
    have hkeep : ∀ v, s.worker v ≠ .sent (deletionOf cluster) := fun v => hworker v _ (by simp) rfl
    exact .taken w hgiven' ((hstep.worker_ne hactor).trans hgot) hholds
      (hnoted.step hother hstep hsound hkeep) hnot'

omit hother in
theorem OnTheWay.step_found {w : Nat}
    (hfound : s.worker w = .sending (deletionOf cluster) (deletedProfile cluster))
    (hrecorded : Recorded cluster s') : OnTheWay cluster s' := by
  by_cases hactor : event.actor = some w
  · exact .sent (hstep.sent_send hfound hactor) hrecorded
  · exact .found w ((hstep.worker_ne hactor).trans hfound) hrecorded

/-- **The one step that loses a deletion** is the look at the map before the cluster is in it. -/
theorem OnTheWay.step (hhost : host ≠ "") (h : OnTheWay cluster s) (hsound : Sound s) :
    (LooksAfterRecord cluster s event → OnTheWay cluster s') ∧
      (¬ LooksAfterRecord cluster s event → Missed cluster s') := by
  cases h with
  | queued hqueued hwaits hnone hnoted hnot =>
    refine ⟨fun _ => step_queued hother hstep hsound hqueued hwaits hnone hnoted hnot, fun hearly => ?_⟩
    refine absurd (fun w _ _ hgot _ => ?_) hearly
    exact hnone w (by rw [hgot]; rfl)
  | taken w hgiven hgot honly hnoted hnot =>
    exact step_taken hother hstep hhost hsound hgiven hgot honly hnoted hnot
  | found w hfound hrecorded =>
    exact ⟨fun _ => step_found hstep hfound (hrecorded.step hother hstep),
      fun hearly => absurd (hrecorded.looks event) hearly⟩
  | sent hsent hrecorded =>
    exact ⟨fun _ => .sent (hstep.sent_mono hsent) (hrecorded.step hother hstep),
      fun hearly => absurd (hrecorded.looks event) hearly⟩

end

/-! ### One deletion -/

theorem Unheard.deleteCluster (h : Unheard cluster s) (hvalid : verifyClusterInfo cluster = true)
    (hstep : Happens host s (.deleteCluster cluster) s') : OnTheWay cluster s' := by
  cases hstep with
  | refused _ hrefused =>
    rw [hvalid] at hrefused
    cases hrefused
  | deleteCluster _ hnone =>
    exact .queued (h.fresh.add h.isOpen) h.notWaiting h.notTaken (Or.inl ⟨rfl, h.notRecorded⟩) h.notSent

theorem OnTheWay.sent_of_drained (h : OnTheWay cluster s) (hdrained : Drained s) :
    deletedProfile cluster ∈ s.sent := by
  obtain ⟨hempty, -, hidle⟩ := hdrained
  cases h with
  | queued hqueued =>
    have honce := hqueued.once
    rw [hempty] at honce
    cases honce
  | taken w _ hgot =>
    rw [hidle w] at hgot
    cases hgot
  | found w hfound =>
    rw [hidle w] at hfound
    cases hfound
  | sent hsent => exact hsent

end

/-- **When a deletion reaches the collector**: of a controller that runs until all is quiet,
with one deletion of a valid cluster, the profile is sent exactly if no worker looked for the
cluster before the handler had recorded it. -/
theorem deleted_profile_sent_iff {host : String} (hhost : host ≠ "") {cluster : Cluster}
    (hvalid : verifyClusterInfo cluster = true) {earlier later : List Event} {s t u : State}
    (hearlier : Run (Step host) (Other (keyFunc cluster)) {} earlier s)
    (hdelete : Step host s (.deleteCluster cluster) t)
    (hlater : Run (Step host) (Other (keyFunc cluster)) t later u) (hdrained : Drained u) :
    deletedProfile cluster ∈ u.sent ↔
      Run (Step host) (fun s event => Other (keyFunc cluster) s event ∧ LooksAfterRecord cluster s event)
        t later u := by
  have hunheard : Unheard cluster s := hearlier.invariant
    (fun s event s' h hother hstep => h.step hother (.of_step hstep)) (unheard_init cluster)
  have hstart : Sound t ∧ OnTheWay cluster t :=
    ⟨hunheard.toSound.step (.of_step hdelete), hunheard.deleteCluster hvalid (.of_step hdelete)⟩
  have hkept : ∀ s event s', Sound s ∧ OnTheWay cluster s → Other (keyFunc cluster) s event →
      LooksAfterRecord cluster s event → Step host s event s' → Sound s' ∧ OnTheWay cluster s' :=
    fun s event s' h hother hlooks hstep =>
      ⟨h.1.step (.of_step hstep), (h.2.step hother (.of_step hstep) hhost h.1).1 hlooks⟩
  have hlost : ∀ s event s', Sound s ∧ OnTheWay cluster s → Other (keyFunc cluster) s event →
      ¬ LooksAfterRecord cluster s event → Step host s event s' → Sound s' ∧ Missed cluster s' :=
    fun s event s' h hother hearly hstep =>
      ⟨h.1.step (.of_step hstep), (h.2.step hother (.of_step hstep) hhost h.1).2 hearly⟩
  have hstays : ∀ s event s', Sound s ∧ Missed cluster s → Other (keyFunc cluster) s event →
      Step host s event s' → Sound s' ∧ Missed cluster s' :=
    fun s event s' h _ hstep => ⟨h.1.step (.of_step hstep), h.2.step (.of_step hstep) h.1⟩
  have hrule := hlater.kept_iff_of_lost hkept hlost hstays
    (fun s h hmissed => h.2.not_missed hmissed.2) hstart
  rw [hrule.1]
  constructor
  · intro hsent
    exact hrule.2.resolve_right fun hmissed => hmissed.2.notSent hsent
  · intro hway
    exact hway.2.sent_of_drained hdrained

def validCluster : Cluster where
  nameSpace := "ns"
  name := "c"
  spec := { ipAddress := "10.0.0.1", region := ⟨"r", "a"⟩ }

theorem other_of {key : String} {s : State} {event : Event} (h : event.deletes = false) :
    Other key s event := by
  intro cluster hevent
  subst hevent
  cases h

def enqueued (s : State) : State :=
  { enqueue s (deletionOf validCluster) with recording := some validCluster }

/-- The handler records the cluster, and then a worker handles the deletion. -/
theorem deleted_profile_sent_recorded : ∃ later t u,
    Step "host" {} (.deleteCluster validCluster) t ∧
      Run (Step "host") (Other (keyFunc validCluster)) t later u ∧
      Drained u ∧ deletedProfile validCluster ∈ u.sent := by
  let guard (s : State) (event : Event) :=
    Other (keyFunc validCluster) s event ∧ LooksAfterRecord validCluster s event
  have hquiet : ∀ {s event}, event.deletes = false → (∀ w listed, event ≠ .request w listed) → guard s event :=
    fun h hnot => ⟨other_of h, fun w listed heq => absurd heq (hnot w listed)⟩
  obtain ⟨u, hkept, hdrained⟩ : ∃ u, Run (Step "host") guard (enqueued {})
      [.record, .take 0 (deletionOf validCluster), .request 0 none, .send 0, .drop 0, .finish 0 none] u ∧
        Drained u := by
    refine ⟨_, .cons (hquiet rfl (by simp)) rfl <| .cons (hquiet rfl (by simp)) rfl <|
      .cons ⟨other_of rfl, fun _ _ _ _ h => by cases h⟩ rfl <| .cons (hquiet rfl (by simp)) rfl <|
      .cons (hquiet rfl (by simp)) rfl <| .cons (hquiet rfl (by simp)) rfl (.nil _), ?_⟩
    exact ⟨by decide +kernel, by decide +kernel, fun w => by cases w <;> rfl⟩
  have hdelete : Step "host" {} (.deleteCluster validCluster) (enqueued {}) := rfl
  have hrun := hkept.mono fun _ _ h => h.1
  exact ⟨_, enqueued {}, u, hdelete, hrun, hdrained,
    (deleted_profile_sent_iff (by decide) (by decide) (.nil _) hdelete hrun hdrained).mpr hkept⟩

/-- A worker looks for the cluster before the handler has recorded it: all comes to rest, and no
profile was sent. -/
theorem deleted_profile_lost : ∃ later t u,
    Step "host" {} (.deleteCluster validCluster) t ∧
      Run (Step "host") (Other (keyFunc validCluster)) t later u ∧ Drained u ∧
      verifyClusterInfo validCluster = true ∧ u.sent = [] := by
  have hrun : Run (Step "host") (Other (keyFunc validCluster)) (enqueued {})
      [.take 0 (deletionOf validCluster), .request 0 none, .record, .retry 0, .finish 0 none,
        .ready (deletionOf validCluster)] _ :=
    .cons (other_of rfl) rfl <| .cons (other_of rfl) rfl <| .cons (other_of rfl) rfl <|
      .cons (other_of rfl) rfl <| .cons (other_of rfl) rfl <| .cons (other_of rfl) rfl (.nil _)
  exact ⟨_, enqueued {}, _, rfl, hrun, ⟨by decide +kernel, by decide +kernel, fun w => by cases w <;> rfl⟩,
    by decide, rfl⟩

end GlobalScheduler.ClusterController
