import GlobalScheduler.Controllers.DispatcherProcess

/-! All machines of an allocation or none.

The loops fill the places of an allocation from the front. As long as every call returns,
either all places are filled, or the machines that were made are the ones deleted, each
once: their hosts and tokens were looked up when they were made, and are still known. -/
namespace GlobalScheduler.DispatcherProcess

open Go Allocv1 Outcome Deletion AList List

/-! ### Making machines -/

/-- The numbers of the process but that of the pods made. -/
def State.numbers (s : State) : Nat × Nat × Nat :=
  (s.totalPodDeleteNum, s.totalAllocationCreateNum, s.totalAllocationDeleteNum)

/-- The machine can be found again. -/
def State.Finds (s : State) (vm : Vm) : Prop :=
  s.clusterIpMap.lookup vm.clusterName = some vm.host ∧ vm.host ∈ s.tokenMap ∧ vm.id ≠ ""

/-- Between two states these machines were made, and can be found again. -/
structure Made (s t : State) (vms : List Vm) : Prop where
  created : t.created = s.created ++ vms
  deleted : t.deleted = s.deleted
  numbers : t.numbers = s.numbers
  hosts : ∀ name ip, s.clusterIpMap.lookup name = some ip → t.clusterIpMap.lookup name = some ip
  tokens : ∀ ip, ip ∈ s.tokenMap → ip ∈ t.tokenMap
  known : ∀ vm ∈ vms, t.Finds vm

section Making
variable {answers : Answers} {s t u : State} {vms vms' : List Vm}

theorem Made.refl (s : State) : Made s s [] where
  created := (append_nil _).symm
  deleted := rfl
  numbers := rfl
  hosts := fun _ _ h => h
  tokens := fun _ h => h
  known := forall_mem_nil _

/-- Nothing but the number of requests changes. -/
theorem Made.asked (s : State) (n : Nat) : Made s { s with requests := n } [] :=
  { Made.refl s with }

theorem Made.trans (h : Made s t vms) (h' : Made t u vms') : Made s u (vms ++ vms') where
  created := by rw [h'.created, h.created, append_assoc]
  deleted := h'.deleted.trans h.deleted
  numbers := h'.numbers.trans h.numbers
  hosts := fun name ip hip => h'.hosts name ip (h.hosts name ip hip)
  tokens := fun ip hip => h'.tokens ip (h.tokens ip hip)
  known := by
    intro vm hvm
    cases mem_append.mp hvm with
    | inl hvm =>
      obtain ⟨hhost, htoken, hid⟩ := h.known vm hvm
      exact ⟨h'.hosts _ _ hhost, h'.tokens _ htoken, hid⟩
    | inr hvm => exact h'.known vm hvm

variable {r : Option String} {clusterName : String}

theorem getHostIP_made (h : getHostIP answers clusterName s = (t, r)) :
    Made s t [] ∧ ∀ host, r = some host → t.clusterIpMap.lookup clusterName = some host := by
  unfold getHostIP at h
  cases hknown : s.clusterIpMap.lookup clusterName with
  | some ip =>
    simp only [hknown, Prod.mk.injEq] at h
    obtain ⟨rfl, rfl⟩ := h
    exact ⟨Made.refl s, fun host heq => heq ▸ hknown⟩
  | none =>
    simp only [hknown] at h
    cases hanswer : answers.cluster s.requests clusterName with
    | none =>
      simp only [hanswer, Prod.mk.injEq] at h
      obtain ⟨rfl, rfl⟩ := h
      exact ⟨Made.asked s _, fun host heq => by cases heq⟩
    | some ip =>
      simp only [hanswer, Prod.mk.injEq] at h
      obtain ⟨rfl, rfl⟩ := h
      refine ⟨{ Made.refl s with hosts := fun name ip' hip => ?_, known := forall_mem_nil _ }, fun host heq => ?_⟩
      · have hne : name ≠ clusterName := by
          intro heq
          rw [heq, hknown] at hip
          cases hip
        simpa only [lookup_insert_ne hne] using hip
      · cases heq
        simp only [lookup_insert]

theorem getToken_made {ip : String} (h : getToken answers ip s = .ok (t, r)) :
    Made s t [] ∧ (r ≠ none → ip ∈ t.tokenMap) := by
  unfold getToken at h
  cases hknown : s.tokenMap.lookup ip with
  | some token =>
    simp only [hknown] at h
    cases h
    exact ⟨Made.refl s, fun _ => Map.mem_of_lookup hknown⟩
  | none =>
    simp only [hknown] at h
    obtain ⟨answer, -, h⟩ := bind_ok.mp h
    cases answer with
    | none =>
      cases h
      exact ⟨Made.asked s _, fun hne => absurd rfl hne⟩
    | some token =>
      cases h
      refine ⟨{ Made.refl s with tokens := fun ip' hip => ?_, known := forall_mem_nil _ }, fun _ => ?_⟩
      · exact (mem_insert _).mpr (Or.inr hip)
      · exact (mem_insert _).mpr (Or.inl rfl)

/-- What the lookups find is found again. -/
theorem lookUp_made {found : Option (String × String)}
    (h : lookUp answers clusterName s = .ok (t, found)) :
    Made s t [] ∧ ∀ host token, found = some (host, token) →
      t.clusterIpMap.lookup clusterName = some host ∧ host ∈ t.tokenMap := by
  unfold lookUp at h
  split at h
  · next s₁ hfind =>
    cases h
    exact ⟨(getHostIP_made hfind).1, fun _ _ heq => by cases heq⟩
  · next s₁ host hfind =>
    obtain ⟨hmade, hhost⟩ := getHostIP_made hfind
    obtain ⟨⟨s₂, found⟩, hget, h⟩ := bind_ok.mp h
    obtain ⟨hmade', htoken⟩ := getToken_made hget
    cases h
    refine ⟨hmade.trans hmade', fun host' token heq => ?_⟩
    obtain ⟨token', hfound, heq⟩ := Option.map_eq_some_iff.mp heq
    cases heq
    exact ⟨hmade'.hosts _ _ (hhost host rfl), htoken (by rw [hfound]; exact Option.some_ne_none token)⟩

theorem lookUp_known {host : String} (hhost : s.clusterIpMap.lookup clusterName = some host)
    (htoken : host ∈ s.tokenMap) :
    ∃ token, lookUp answers clusterName s = .ok (s, some (host, token)) := by
  obtain ⟨token, htoken⟩ := Map.exists_lookup htoken
  refine ⟨token, ?_⟩
  simp only [lookUp, getHostIP, hhost, getToken, htoken]
  rfl

/-- One machine at most was made. -/
def MadeOne (s t : State) (clusterName : String) (resource : Resources) (r : Option String) : Prop :=
  (r = none ∧ Made s t []) ∨ ∃ host id, r = some id ∧ Made s t [⟨host, id, clusterName, resource⟩]

theorem serverCreateResources_made {host token : String} {resource : Resources}
    (h : serverCreateResources answers host token clusterName resource s = .ok (t, r))
    (hhost : s.clusterIpMap.lookup clusterName = some host) (htoken : host ∈ s.tokenMap) :
    MadeOne s t clusterName resource r := by
  have hasked := Made.asked s (s.requests + 1)
  obtain ⟨flavorRef, -, h⟩ := bind_ok.mp h
  dsimp only at h
  split at h
  · obtain ⟨found, -, h⟩ := bind_ok.mp h
    cases found with
    | none =>
      cases h
      exact Or.inl ⟨rfl, hasked⟩
    | some id =>
      cases h
      refine Or.inr ⟨host, id, rfl, { hasked with created := rfl, known := ?_ }⟩
      intro vm hvm
      rw [mem_singleton.mp hvm]
      exact ⟨hhost, htoken, id.property⟩
  · cases h

theorem createInstance_made {resource : Resources} {clusterInstance : ClusterInstance}
    (h : createInstance answers resource clusterInstance s = .ok (t, r)) :
    MadeOne s t clusterInstance.clusterName resource r := by
  obtain ⟨⟨s₁, found⟩, hlook, h⟩ := bind_ok.mp h
  obtain ⟨hmade, hfound⟩ := lookUp_made hlook
  cases found with
  | none =>
    cases h
    exact Or.inl ⟨rfl, hmade⟩
  | some found =>
    obtain ⟨hhost, htoken⟩ := hfound found.1 found.2 rfl
    cases serverCreateResources_made h hhost htoken with
    | inl hnone => exact Or.inl ⟨hnone.1, hmade.trans hnone.2⟩
    | inr hsome =>
      obtain ⟨host, id, hr, hone⟩ := hsome
      exact Or.inr ⟨host, id, hr, hmade.trans hone⟩

end Making

/-! ### Filling places -/

def Vm.place (vm : Vm) : Resources × String := (vm.resource, vm.clusterName)

/-- The instance of an allocation that has the machine. -/
def Vm.instance (vm : Vm) : ClusterInstance := ⟨vm.clusterName, vm.id⟩

def places (resources : List Resources) : List (Resources × String) :=
  resources.flatMap fun resource =>
    resource.virtualMachine.clusterInstances.map fun ci => (resource, ci.clusterName)

/-- The first places were filled with these machines, and the rest is as it was. -/
structure Filled (s t : State) (places : List (Resources × String))
    (before after : List ClusterInstance) (all : Bool) (vms : List Vm) (rest : List ClusterInstance) :
    Prop where
  made : Made s t vms
  after : after = vms.map Vm.instance ++ rest
  before : rest <:+ before
  places : ∃ left, places = vms.map Vm.place ++ left ∧ (left = [] ↔ rest = [])
  all : all = true ↔ rest = []

section Filling
variable {answers : Answers} {s t u : State} {vms vms' : List Vm} {ps ps' : List (Resources × String)}
  {before before' after after' rest : List ClusterInstance} {all : Bool}

theorem filled_nil (s : State) : Filled s s [] [] [] true [] [] where
  made := Made.refl s
  after := rfl
  before := suffix_refl _
  places := ⟨[], rfl, iff_of_true rfl rfl⟩
  all := iff_of_true rfl rfl

theorem Filled.append (h : Filled s t ps before after true vms [])
    (h' : Filled t u ps' before' after' all vms' rest) :
    Filled s u (ps ++ ps') (before ++ before') (after ++ after') all (vms ++ vms') rest where
  made := h.made.trans h'.made
  after := by
    rw [h.after, h'.after, append_nil, map_append, append_assoc]
  before := h'.before.trans (suffix_append _ _)
  places := by
    obtain ⟨left, hplaces, hleft⟩ := h.places
    obtain ⟨left', hplaces', hleft'⟩ := h'.places
    refine ⟨left', ?_, hleft'⟩
    rw [hplaces, hplaces', hleft.mpr rfl, append_nil, map_append, append_assoc]
  all := h'.all

theorem Filled.stop (h : Filled s t ps before after false vms rest) :
    Filled s t (ps ++ ps') (before ++ before') (after ++ before') false vms (rest ++ before') where
  made := h.made
  after := by rw [h.after, append_assoc]
  before := by
    obtain ⟨old, hold⟩ := h.before
    exact ⟨old, by rw [← hold, append_assoc]⟩
  places := by
    obtain ⟨left, hplaces, hleft⟩ := h.places
    have hsome : rest ≠ [] := fun hnil => Bool.false_ne_true (h.all.mpr hnil)
    have hsome' : left ≠ [] := fun hnil => hsome (hleft.mp hnil)
    refine ⟨left ++ ps', by rw [hplaces, append_assoc], ?_⟩
    exact iff_of_false (append_ne_nil_of_left_ne_nil hsome' _)
      (append_ne_nil_of_left_ne_nil hsome _)
  all := by
    have hsome : rest ≠ [] := fun hnil => Bool.false_ne_true (h.all.mpr hnil)
    exact iff_of_false Bool.false_ne_true (append_ne_nil_of_left_ne_nil hsome _)

theorem filled_one {resource : Resources} {clusterInstance : ClusterInstance} {r : Option String}
    (h : MadeOne s t clusterInstance.clusterName resource r) :
    (∃ vms, r = none ∧ Filled s t [(resource, clusterInstance.clusterName)] [clusterInstance]
      [clusterInstance] false vms [clusterInstance]) ∨
    ∃ vms id, r = some id ∧ Filled s t [(resource, clusterInstance.clusterName)] [clusterInstance]
      [{ clusterInstance with instanceId := id }] true vms [] := by
  cases h with
  | inl hnone =>
    obtain ⟨hr, hmade⟩ := hnone
    refine Or.inl ⟨[], hr, hmade, rfl, suffix_refl _, ⟨_, rfl, ?_⟩, ?_⟩
    · exact iff_of_false (cons_ne_nil _ _) (cons_ne_nil _ _)
    · exact iff_of_false Bool.false_ne_true (cons_ne_nil _ _)
  | inr hsome =>
    obtain ⟨host, id, hr, hmade⟩ := hsome
    exact Or.inr ⟨_, id, hr, hmade, rfl, nil_suffix, ⟨[], rfl, iff_of_true rfl rfl⟩,
      iff_of_true rfl rfl⟩

/-- **The inner loop** fills from the front. -/
theorem createInstances_filled {resource : Resources}
    (h : createInstances answers resource before s = .ok (t, after, all)) :
    ∃ vms rest, Filled s t (before.map fun ci => (resource, ci.clusterName)) before after all vms rest := by
  induction before generalizing s after with
  | nil =>
    cases h
    exact ⟨[], [], filled_nil _⟩
  | cons clusterInstance before ih =>
    obtain ⟨⟨s₁, r⟩, hone, h⟩ := bind_ok.mp h
    cases filled_one (createInstance_made hone) with
    | inl hnone =>
      obtain ⟨vms, rfl, hfilled⟩ := hnone
      cases h
      exact ⟨vms, _, hfilled.stop⟩
    | inr hsome =>
      obtain ⟨vms, id, rfl, hfilled⟩ := hsome
      obtain ⟨⟨s₂, after, all⟩, hrest, h⟩ := bind_ok.mp h
      cases h
      obtain ⟨vms', rest, hfilled'⟩ := ih hrest
      exact ⟨_, rest, hfilled.append hfilled'⟩

/-- **Both loops** fill from the front. -/
theorem createResources_filled {resources resources' : List Resources}
    (h : createResources answers resources s = .ok (t, resources', all)) :
    ∃ vms rest, Filled s t (places resources) (instances resources) (instances resources') all vms rest := by
  induction resources generalizing s resources' all with
  | nil =>
    cases h
    exact ⟨[], [], filled_nil _⟩
  | cons resource resources ih =>
    obtain ⟨⟨s₁, after, first⟩, hfirst, h⟩ := bind_ok.mp h
    obtain ⟨vms, rest, hfilled⟩ := createInstances_filled hfirst
    cases first with
    | true =>
      obtain ⟨⟨s₂, resources'', all⟩, hrest, h⟩ := bind_ok.mp h
      cases h
      obtain ⟨vms', rest', hfilled'⟩ := ih hrest
      obtain rfl : rest = [] := hfilled.all.mp rfl
      exact ⟨_, rest', hfilled.append hfilled'⟩
    | false =>
      cases h
      exact ⟨vms, _, hfilled.stop⟩

end Filling

/-! ### Deleting them again -/

def Vm.target (vm : Vm) : String × String := (vm.host, vm.id)

def Deletion.target (deletion : Deletion) : String × String := (deletion.host, deletion.id)

section Deleting
variable {answers : Answers} {s : State}

theorem deleteInstances_empty {cis : List ClusterInstance} (h : ∀ ci ∈ cis, ci.instanceId = "") :
    deleteInstances answers cis s = .ok s := by
  induction cis with
  | nil => rfl
  | cons ci cis ih =>
    rw [deleteInstances, if_neg (not_not.mpr (h ci mem_cons_self))]
    exact ih fun ci' hci' => h ci' (mem_cons_of_mem ci hci')

theorem deleteInstance_ok {deletion : Deletion} {t : State} :
    deleteInstance answers deletion s = .ok t ↔
      answers.parses (instanceDetailsURL deletion.host deletion.id) = true ∧
        { s with deleted := s.deleted ++ [deletion] } = t := by
  unfold deleteInstance
  split
  · next hparses => rw [pure_ok, and_iff_right hparses]
  · next hparses => exact iff_of_false (fun h => by cases h) fun h => hparses h.1

/-- The requests to delete these machines can be made. -/
def Deletable (answers : Answers) (vms : List Vm) : Prop :=
  ∀ vm ∈ vms, answers.parses (instanceDetailsURL vm.host vm.id) = true

/-- The machines are deleted if requests for all of them can be made, and else the process ends. -/
theorem deleteInstances_vms {vms : List Vm} {rest : List ClusterInstance}
    (hknown : ∀ vm ∈ vms, s.Finds vm) (hrest : ∀ ci ∈ rest, ci.instanceId = "") :
    ((∃ t, deleteInstances answers (vms.map Vm.instance ++ rest) s = .ok t) ↔ Deletable answers vms) ∧
      ∀ t, deleteInstances answers (vms.map Vm.instance ++ rest) s = .ok t → t.created = s.created ∧
        t.deleted.map target = s.deleted.map target ++ vms.map Vm.target := by
  induction vms generalizing s with
  | nil =>
    have hnone : deleteInstances answers ([].map Vm.instance ++ rest) s = .ok s := deleteInstances_empty hrest
    refine ⟨iff_of_true ⟨s, hnone⟩ (forall_mem_nil _), fun t ht => ?_⟩
    cases hnone.symm.trans ht
    exact ⟨rfl, (append_nil _).symm⟩
  | cons vm vms ih =>
    obtain ⟨hhost, htoken, hid⟩ := hknown vm mem_cons_self
    obtain ⟨token, hlook⟩ := @lookUp_known answers _ _ _ hhost htoken
    have hloop : deleteInstances answers ((vm :: vms).map Vm.instance ++ rest) s =
        deleteInstance answers ⟨vm.host, token, vm.id⟩ s >>= deleteInstances answers (vms.map Vm.instance ++ rest) := by
      rw [map_cons, cons_append, deleteInstances, if_pos (show vm.instance.instanceId ≠ "" from hid)]
      simp only [Vm.instance, hlook]
      rfl
    obtain ⟨hiff, hdone⟩ := ih (s := { s with deleted := s.deleted ++ [⟨vm.host, token, vm.id⟩] })
      fun vm' hvm' => hknown vm' (mem_cons_of_mem vm hvm')
    rw [hloop]
    constructor
    · simp only [bind_ok, deleteInstance_ok]
      rw [Deletable, forall_mem_cons]
      constructor
      · rintro ⟨t, s₁, ⟨hparses, rfl⟩, ht⟩
        exact ⟨hparses, hiff.mp ⟨t, ht⟩⟩
      · rintro ⟨hparses, hvms⟩
        obtain ⟨t, ht⟩ := hiff.mpr hvms
        exact ⟨t, _, ⟨hparses, rfl⟩, ht⟩
    · intro t ht
      obtain ⟨s₁, hone, ht⟩ := bind_ok.mp ht
      obtain ⟨-, rfl⟩ := deleteInstance_ok.mp hone
      obtain ⟨hcreated, hdeleted⟩ := hdone t ht
      refine ⟨hcreated, ?_⟩
      rw [hdeleted, map_append, append_assoc]
      rfl

end Deleting

/-! ### Calls that return -/

section Returning
variable {answers : Answers} {s : State}

/-- The type assertions on the reply hold, or are not come to. -/
def CreateReply.Asserted : CreateReply → Prop
  | .unreadable => True
  | .reply statusCode server => statusCode = 403 ∨ server ≠ .other ∧ server ≠ .object none

/-- A machine can be asked for: the resource has a flavor, the URL can be parsed, and the reply
is as asserted. -/
structure Asks (answers : Answers) (resource : Resources) (clusterName host token : String) (s : State) :
    Prop where
  url : answers.parses (serverCreateRequestURL host) = true
  reply : ∃ flavorRef, resource.flavors.head? = some flavorRef ∧
    (answers.create s.requests host token (serverOf clusterName resource flavorRef)).Asserted

/-- The round of an instance returns: its lookups do, and where host and token are found, a
machine can be asked for. -/
def InstanceSafe (answers : Answers) (resource : Resources) (clusterInstance : ClusterInstance)
    (s : State) : Prop :=
  ∃ t found, lookUp answers clusterInstance.clusterName s = .ok (t, found) ∧
    ∀ host token, found = some (host, token) → Asks answers resource clusterInstance.clusterName host token t

variable {resource : Resources}

theorem instanceID_returns_iff {reply : CreateReply} : (∃ r, instanceID reply = .ok r) ↔ reply.Asserted := by
  cases reply with
  | unreadable => exact iff_of_true ⟨_, rfl⟩ trivial
  | reply statusCode server =>
    by_cases hforbidden : statusCode = 403
    · exact iff_of_true ⟨none, if_pos hforbidden⟩ (Or.inl hforbidden)
    · simp only [instanceID, if_neg hforbidden, CreateReply.Asserted, or_iff_right hforbidden]
      cases server with
      | missing => exact iff_of_true ⟨_, rfl⟩ (by simp)
      | other => simp [throw_ok]
      | object id =>
        cases id with
        | none => simp [throw_ok]
        | some id => exact iff_of_true ⟨_, rfl⟩ (by simp)

theorem index_zero {α : Type} {l : List α} {a : α} : index l 0 = .ok a ↔ l.head? = some a := by
  cases l with
  | nil => exact iff_of_false nofun nofun
  | cons b rest => exact pure_ok.trans Option.some_inj.symm

theorem serverCreateResources_returns_iff {host token clusterName : String} :
    (∃ r, serverCreateResources answers host token clusterName resource s = .ok r) ↔
      Asks answers resource clusterName host token s := by
  unfold serverCreateResources
  constructor
  · rintro ⟨r, hok⟩
    obtain ⟨flavorRef, hindex, hok⟩ := bind_ok.mp hok
    split at hok
    · next hparses =>
      obtain ⟨found, hreply, -⟩ := bind_ok.mp hok
      exact ⟨hparses, flavorRef, index_zero.mp hindex, instanceID_returns_iff.mp ⟨found, hreply⟩⟩
    · cases hok
  · rintro ⟨hparses, flavorRef, hhead, hreply⟩
    obtain ⟨found, hfound⟩ := instanceID_returns_iff.mpr hreply
    simp only [bind_ok, hparses, if_true]
    cases found with
    | none => exact ⟨_, flavorRef, index_zero.mpr hhead, none, hfound, rfl⟩
    | some id => exact ⟨_, flavorRef, index_zero.mpr hhead, some id, hfound, rfl⟩

theorem createInstance_returns_iff {clusterInstance : ClusterInstance} :
    (∃ r, createInstance answers resource clusterInstance s = .ok r) ↔
      InstanceSafe answers resource clusterInstance s := by
  constructor
  · rintro ⟨r, hok⟩
    obtain ⟨⟨t, found⟩, hlook, hok⟩ := bind_ok.mp hok
    refine ⟨t, found, hlook, fun host token heq => ?_⟩
    cases heq
    exact serverCreateResources_returns_iff.mp ⟨r, hok⟩
  · rintro ⟨t, found, hlook, hasks⟩
    cases found with
    | none => exact ⟨_, bind_ok.mpr ⟨_, hlook, rfl⟩⟩
    | some found =>
      obtain ⟨r, hok⟩ := serverCreateResources_returns_iff.mpr (hasks found.1 found.2 rfl)
      exact ⟨r, bind_ok.mpr ⟨_, hlook, hok⟩⟩

/-- Each round returns that follows on machines made for all the places before, and where a
round makes none, those made before can be deleted. -/
def Safe (answers : Answers) : List (Resources × ClusterInstance) → State → Prop
  | [], _ => True
  | (resource, clusterInstance) :: rest, s => InstanceSafe answers resource clusterInstance s ∧
      (∀ t, createInstance answers resource clusterInstance s = .ok (t, none) →
        Deletable answers t.created) ∧
      ∀ t id, createInstance answers resource clusterInstance s = .ok (t, some id) → Safe answers rest t

def rounds (resources : List Resources) : List (Resources × ClusterInstance) :=
  resources.flatMap fun resource => resource.virtualMachine.clusterInstances.map fun ci => (resource, ci)

/-- Where all places are filled the rest is safe, and where not, what was made can be deleted. -/
def GoesOn (answers : Answers) (t : State) (all : Bool) (next : State → Prop) : Prop :=
  if all then next t else Deletable answers t.created

theorem safe_append {cis : List ClusterInstance} {rest : List (Resources × ClusterInstance)} :
    Safe answers (cis.map (fun ci => (resource, ci)) ++ rest) s ↔
      ∃ t after all, createInstances answers resource cis s = .ok (t, after, all) ∧
        GoesOn answers t all (Safe answers rest) := by
  induction cis generalizing s with
  | nil =>
    constructor
    · exact fun hsafe => ⟨s, [], true, rfl, hsafe⟩
    · rintro ⟨t, after, all, hok, hsafe⟩
      cases hok
      exact hsafe
  | cons ci cis ih =>
    simp only [map_cons, cons_append, Safe, createInstances]
    rw [← createInstance_returns_iff]
    constructor
    · rintro ⟨⟨⟨t, found⟩, hone⟩, hstop, hnext⟩
      cases found with
      | none => exact ⟨t, _, false, bind_ok.mpr ⟨_, hone, rfl⟩, hstop t hone⟩
      | some id =>
        obtain ⟨u, after, all, hloop, hsafe⟩ := ih.mp (hnext t id hone)
        exact ⟨u, _, all, bind_ok.mpr ⟨_, hone, bind_ok.mpr ⟨_, hloop, rfl⟩⟩, hsafe⟩
    · rintro ⟨u, after, all, hok, hsafe⟩
      obtain ⟨⟨t, found⟩, hone, hok⟩ := bind_ok.mp hok
      refine ⟨⟨_, hone⟩, fun t' hone' => ?_, fun t' id hone' => ?_⟩
      · cases hone.symm.trans hone'
        cases hok
        exact hsafe
      · cases hone.symm.trans hone'
        obtain ⟨⟨u', after', all'⟩, hloop, hok⟩ := bind_ok.mp hok
        cases hok
        exact ih.mpr ⟨_, after', _, hloop, hsafe⟩

/-- **The loops return**, and what they made can be deleted if it must, exactly if their rounds
are safe. -/
theorem createResources_safe_iff {resources : List Resources} :
    Safe answers (rounds resources) s ↔
      ∃ t after all, createResources answers resources s = .ok (t, after, all) ∧
        GoesOn answers t all fun _ => True := by
  induction resources generalizing s with
  | nil => exact iff_of_true trivial ⟨s, [], true, rfl, trivial⟩
  | cons resource resources ih =>
    rw [rounds, flatMap_cons, safe_append, createResources]
    constructor
    · rintro ⟨t, first, all, hfirst, hsafe⟩
      cases all with
      | true =>
        obtain ⟨u, after, all, hrest, hsafe⟩ := ih.mp hsafe
        exact ⟨u, _, all, bind_ok.mpr ⟨_, hfirst, bind_ok.mpr ⟨_, hrest, rfl⟩⟩, hsafe⟩
      | false => exact ⟨t, _, false, bind_ok.mpr ⟨_, hfirst, rfl⟩, hsafe⟩
    · rintro ⟨u, after, all, hok, hsafe⟩
      obtain ⟨⟨t, first, all'⟩, hfirst, hok⟩ := bind_ok.mp hok
      refine ⟨t, first, all', hfirst, ?_⟩
      cases all' with
      | true =>
        obtain ⟨⟨u', after', all''⟩, hrest, hok⟩ := bind_ok.mp hok
        cases hok
        exact ih.mpr ⟨_, after', _, hrest, hsafe⟩
      | false =>
        cases hok
        exact hsafe

end Returning

/-! ### The call -/

/-- The state in which the machines of a new allocation are asked for, with nothing asked
for in this call yet. -/
def State.started (s : State) (duration : Int) : State := { s with
  totalAllocationCreateNum := s.totalAllocationCreateNum + 1
  totalCreateLatency := s.totalCreateLatency + duration
  created := []
  deleted := [] }

/-- All machines of the allocation were made and it is scheduled, or it has failed and those
that were made in the call are deleted, each once. -/
def Transactional (answers : Answers) (duration : Int) (alloc : Allocv1.Allocation) (s : State) :
    Prop :=
  ∃ t alloc', sendAllocationToCluster answers false duration alloc
      { s with created := [], deleted := [] } = .ok (t, alloc') ∧
    (alloc'.status.phase = .scheduled ↔ t.created.map Vm.place = places alloc.spec.resources) ∧
    (alloc'.status.phase = .scheduled → t.deleted = []) ∧
    (alloc'.status.phase ≠ .scheduled → alloc'.status.phase = .failed ∧
      t.deleted.map target = t.created.map Vm.target)

/-- A new allocation: the machines are made, and deleted if some are missing. -/
theorem sendAllocationToCluster_create {answers : Answers} {duration : Int}
    {alloc : Allocv1.Allocation} {s : State} {r : State × Allocv1.Allocation} :
    sendAllocationToCluster answers false duration alloc { s with created := [], deleted := [] } = .ok r ↔
      ∃ t resources all,
        createResources answers alloc.spec.resources (s.started duration) = .ok (t, resources, all) ∧
        r.2 = { alloc with
          spec := { alloc.spec with resources := resources }
          status := { alloc.status with
            dispatcherName := s.name
            phase := if all then .scheduled else .failed } } ∧
        (if all then r.1 = t else deleteInstances answers (instances resources) t = .ok r.1) := by
  have hquo : quo (s.totalCreateLatency + duration) (s.totalAllocationCreateNum + 1 : Nat) =
      .ok ((s.totalCreateLatency + duration).tdiv (s.totalAllocationCreateNum + 1 : Nat)) :=
    quo_ok.mpr ⟨by omega, rfl⟩
  obtain ⟨u, alloc'⟩ := r
  dsimp only
  constructor
  · intro hok
    obtain ⟨⟨t, average⟩, hlatency, hok⟩ := bind_ok.mp hok
    obtain ⟨value, -, hlatency⟩ := bind_ok.mp hlatency
    cases hlatency
    obtain ⟨⟨t, alloc'', all⟩, hall, hok⟩ := bind_ok.mp hok
    obtain ⟨⟨t, resources, all⟩, hloop, hall⟩ := bind_ok.mp hall
    cases hall
    refine ⟨t, resources, all, hloop, ?_⟩
    cases all with
    | true =>
      cases hok
      exact ⟨rfl, rfl⟩
    | false =>
      obtain ⟨t', hdelete, hok⟩ := bind_ok.mp hok
      cases hok
      exact ⟨rfl, hdelete⟩
  · intro hcall
    obtain ⟨t, resources, all, hloop, halloc, hstate⟩ := hcall
    refine bind_ok.mpr ⟨_, bind_ok.mpr ⟨_, hquo, rfl⟩, bind_ok.mpr
      ⟨_, bind_ok.mpr ⟨_, hloop, rfl⟩, ?_⟩⟩
    cases all with
    | true =>
      rw [halloc, show u = t from hstate]
      rfl
    | false =>
      rw [halloc]
      exact bind_ok.mpr ⟨u, hstate, rfl⟩

/-- **An allocation gets all its machines or none**, for all answers, exactly if no round is
come to that panics (over a host or an ID that makes no URL, a token that is not in the reply,
a resource without a flavor, or a reply without the ID of a server), and where a round makes no
machine, the requests to delete those made before can be made. -/
theorem transactional_iff (answers : Answers) (duration : Int) (alloc : Allocv1.Allocation) (s : State)
    (hids : ∀ ci ∈ instances alloc.spec.resources, ci.instanceId = "") :
    Transactional answers duration alloc s ↔
      Safe answers (rounds alloc.spec.resources) (s.started duration) := by
  rw [createResources_safe_iff, Transactional]
  constructor
  · rintro ⟨u, alloc', hok, -⟩
    obtain ⟨t, resources, all, hloop, -, hdelete⟩ := sendAllocationToCluster_create.mp hok
    refine ⟨t, resources, all, hloop, ?_⟩
    cases all with
    | true => trivial
    | false =>
      obtain ⟨vms, rest, hfilled⟩ := createResources_filled hloop
      have hcreated : t.created = vms := hfilled.made.created
      have hrest : ∀ ci ∈ rest, ci.instanceId = "" := fun ci hci => hids ci (hfilled.before.subset hci)
      rw [hfilled.after] at hdelete
      show Deletable answers t.created
      rw [hcreated]
      exact (deleteInstances_vms hfilled.made.known hrest).1.mp ⟨_, hdelete⟩
  · rintro ⟨t, resources, all, hloop, hgoes⟩
    obtain ⟨vms, rest, hfilled⟩ := createResources_filled hloop
    have hcreated : t.created = vms := hfilled.made.created
    have hdeleted : t.deleted = [] := hfilled.made.deleted
    obtain ⟨left, hplaces, hleft⟩ := hfilled.places
    -- The places are all filled exactly if no instance is left.
    have hall : all = true ↔ vms.map Vm.place = places alloc.spec.resources := by
      rw [hfilled.all, ← hleft, hplaces]
      constructor
      · intro hnil
        rw [hnil, append_nil]
      · intro heq
        exact append_right_eq_self.mp heq.symm
    cases all with
    | true =>
      refine ⟨t, _, sendAllocationToCluster_create.mpr ⟨t, resources, true, hloop, rfl, rfl⟩, ?_, ?_, ?_⟩
      · exact iff_of_true rfl (hcreated ▸ hall.mp rfl)
      · exact fun _ => hdeleted
      · exact fun hne => absurd rfl hne
    | false =>
      have hrest : ∀ ci ∈ rest, ci.instanceId = "" :=
        fun ci hci => hids ci (hfilled.before.subset hci)
      have hdeletes := @deleteInstances_vms answers _ _ _ hfilled.made.known hrest
      obtain ⟨u, hdelete⟩ := hdeletes.1.mpr (hcreated ▸ hgoes)
      obtain ⟨hmade, hgone⟩ := hdeletes.2 u hdelete
      rw [← hfilled.after] at hdelete
      refine ⟨u, _, sendAllocationToCluster_create.mpr ⟨t, resources, false, hloop, rfl, hdelete⟩, ?_, ?_, ?_⟩
      · rw [hmade, hcreated, ← hall]
        exact iff_of_false (by simp) Bool.false_ne_true
      · exact fun hscheduled => absurd hscheduled (by simp)
      · rw [hgone, hdeleted, hmade, hcreated]
        exact fun _ => ⟨rfl, rfl⟩

/-! ### Two machines on a cluster -/

/-- A cluster that makes the first machine it is asked for, and answers the second request. -/
def oneRoom (second : CreateReply) : Answers where
  parses := fun _ => true
  cluster := fun _ _ => some "10.0.0.1"
  token := fun _ _ => some ⟨201, ["t"]⟩
  create := fun requests _ _ _ =>
    if requests = 2 then .reply 202 (.object (some ⟨"v1", by decide⟩)) else second

/-- Two machines of the cluster `k`, of which the second may be of these flavors. -/
def twoMachines (flavors : List String) : Allocv1.Allocation where
  spec := { resources := [
    { name := "r1", flavors := ["f"], virtualMachine := { clusterInstances := [⟨"k", ""⟩] } },
    { name := "r2", flavors := flavors, virtualMachine := { clusterInstances := [⟨"k", ""⟩] } }] }

theorem transactional_iff_no_room :
    Transactional (oneRoom .unreadable) 0 (twoMachines ["f"]) { name := "d" } ∧
      (sendAllocationToCluster (oneRoom .unreadable) false 0 (twoMachines ["f"]) { name := "d" }).map
        (fun r => (r.2.status.phase, r.1.created.map Vm.target, r.1.deleted)) =
          .ok (.failed, [("10.0.0.1", "v1")], [⟨"10.0.0.1", "t", "v1"⟩]) := by
  refine ⟨(transactional_iff (oneRoom .unreadable) 0 (twoMachines ["f"]) { name := "d" } (by decide)).mpr ?_, rfl⟩
  refine ⟨⟨_, _, rfl, fun host token hfound => ?_⟩, fun t _ => fun _ _ => rfl, fun t id hone => ?_⟩
  · cases hfound
    exact ⟨rfl, "f", rfl, Or.inr ⟨nofun, nofun⟩⟩
  · cases hone
    refine ⟨⟨_, _, rfl, fun host token hfound => ?_⟩, fun t _ => fun _ _ => rfl, fun _ _ _ => trivial⟩
    cases hfound
    exact ⟨rfl, "f", rfl, trivial⟩

/-- **A machine is left behind**: a resource without flavors stops the process after the
first machine was made, and so does a reply with a server that has no ID. -/
theorem transactional_fails : (∀ ci ∈ instances (twoMachines []).spec.resources, ci.instanceId = "") ∧
      ¬ Transactional (oneRoom .unreadable) 0 (twoMachines []) { name := "d" } ∧
      sendAllocationToCluster (oneRoom .unreadable) false 0 (twoMachines []) { name := "d" } =
        .error .indexOutOfRange ∧
      ¬ Transactional (oneRoom (.reply 202 (.object none))) 0 (twoMachines ["f"]) { name := "d" } ∧
      sendAllocationToCluster (oneRoom (.reply 202 (.object none))) false 0 (twoMachines ["f"])
        { name := "d" } = .error .interfaceConversion := by
  have hflavors : sendAllocationToCluster (oneRoom .unreadable) false 0 (twoMachines []) { name := "d" } =
      .error .indexOutOfRange := rfl
  have hreply : sendAllocationToCluster (oneRoom (.reply 202 (.object none))) false 0 (twoMachines ["f"])
      { name := "d" } = .error .interfaceConversion := rfl
  refine ⟨by decide, fun hcall => ?_, hflavors, fun hcall => ?_, hreply⟩
  · obtain ⟨t, alloc', hok, -⟩ := hcall
    cases hflavors.symm.trans hok
  · obtain ⟨t, alloc', hok, -⟩ := hcall
    cases hreply.symm.trans hok

end GlobalScheduler.DispatcherProcess
