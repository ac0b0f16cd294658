import GlobalScheduler.Framework.Framework
import GlobalScheduler.SiteCacheInfoProofs
import GlobalScheduler.Snapshot

/-! The default binder.

It names the site in the stack, gives each resource the flavor chosen for the
site, and books the vCPUs and memory of those flavors on the site's record. -/
namespace GlobalScheduler.DefaultBinder

open Go SiteCacheInfo List

def name : String := "DefaultBinder"

/-- Where a stack bound to `site` is said to be. -/
def selectedAt (site : Site) : Selected where
  siteID := site.siteID
  region := site.regionAzMap.region
  availabilityZone := site.regionAzMap.availabilityZone
  clusterName := site.clusterName
  clusterNamespace := site.clusterNamespace

def selectFlavors (resources : List Resource) (flavors : List FlavorInfo) : List Resource :=
  zipWith (fun r flv => { r with flavorIDSelected := flv.flavor.flavorID }) resources flavors

variable {flavors : List FlavorInfo} {resources : List Resource} {snap : Snapshot}

theorem selectFlavors_map {β : Type} {g : Resource → β}
    (hg : ∀ r f, g { r with flavorIDSelected := f } = g r) (h : resources.length = flavors.length) :
    (selectFlavors resources flavors).map g = resources.map g := by
  induction resources generalizing flavors with
  | nil => rfl
  | cons r rest ih =>
    cases flavors with
    | nil => cases h
    | cons flv others =>
      have hrest := ih (Nat.succ.inj h)
      rw [selectFlavors, zipWith_cons_cons, map_cons, map_cons, hg]
      exact congrArg _ hrest

theorem selectFlavors_flavorIDs (h : resources.length = flavors.length) :
    (selectFlavors resources flavors).map (·.flavorIDSelected) = flavors.map (·.flavor.flavorID) := by
  induction resources generalizing flavors with
  | nil =>
    obtain rfl : flavors = [] := length_eq_zero_iff.mp h.symm
    rfl
  | cons r rest ih =>
    cases flavors with
    | nil => cases h
    | cons flv others =>
      have hrest := ih (Nat.succ.inj h)
      simpa [selectFlavors] using hrest

theorem selectFlavors_again (h : resources.length = flavors.length) (others : List FlavorInfo) :
    selectFlavors (selectFlavors resources flavors) others = selectFlavors resources others := by
  induction resources generalizing flavors others with
  | nil => rfl
  | cons r rest ih =>
    cases flavors with
    | nil => cases h
    | cons flv flvs =>
      cases others with
      | nil => rfl
      | cons other others =>
        have hrest := ih (Nat.succ.inj h) others
        simpa [selectFlavors] using hrest

/-- What one resource takes, with its type; nothing when its flavor is not known in
the region or has no positive number of vCPUs. -/
def resourceTakes (snap : Snapshot) (region : String) (r : Resource) :
    Option (String × CPUAndMemory) := do
  let flv ← snap.getFlavor r.flavorIDSelected region
  let vcpus ← parseInt flv.vcpus
  if vcpus ≤ 0 then none
  else some (flv.resourceType, ⟨vcpus * r.count, flv.ram * r.count⟩)

def takes (snap : Snapshot) (region : String) (resources : List Resource) :
    Map String CPUAndMemory :=
  (resources.filterMap (resourceTakes snap region)).foldl
    (fun m e => m.insert e.1 (((m.lookup e.1).getD .zero).add e.2)) ∅

theorem mem_takes {region : String} {t : String} :
    t ∈ takes snap region resources ↔
      ∃ e ∈ resources.filterMap (resourceTakes snap region), e.1 = t := by
  unfold takes
  induction resources.filterMap (resourceTakes snap region) using reverseRecOn with
  | nil => simp
  | append_singleton es e ih =>
    rw [foldl_append, foldl_cons, foldl_nil, AList.mem_insert, ih]
    simp only [mem_append, mem_singleton]
    constructor
    · rintro (rfl | ⟨e', he', rfl⟩)
      · exact ⟨e, Or.inr rfl, rfl⟩
      · exact ⟨e', Or.inl he', rfl⟩
    · rintro ⟨e', he' | rfl, rfl⟩
      · exact Or.inr ⟨e', he', rfl⟩
      · exact Or.inl rfl

/-- **What is taken of a type is the sum over the resources of that type.** -/
theorem takes_amount (snap : Snapshot) (region : String) (resources : List Resource) (t : String) (d : Dimension) :
    (((takes snap region resources).lookup t).getD .zero).amount d =
      (((resources.filterMap (resourceTakes snap region)).filter (·.1 = t)).map
        (·.2.amount d)).sum := by
  unfold takes
  induction resources.filterMap (resourceTakes snap region) using reverseRecOn with
  | nil => simp
  | append_singleton es e ih =>
    rw [foldl_append, foldl_cons, foldl_nil, filter_append, map_append, sum_append, ← ih]
    by_cases ht : e.1 = t
    · subst ht
      simp
    · rw [AList.lookup_insert_ne (Ne.symm ht)]
      simp [ht]

def resInfo (snap : Snapshot) (region : String) (resources : List Resource) : AllResInfo where
  cpuAndMem := takes snap region resources

/-- The error of `GetSiteSelectorState`. -/
def selectorStateError (state : CycleState) (siteID : String) : String :=
  match state.siteTempSelected with
  | none => "error reading \"SiteTempSelected\" from cycleState: not found"
  | some _ => "siteID(" ++ siteID ++ ") not found"

/-- `DefaultBinder.Bind`; `ord` is the runtime's choice in the booking. -/
def bind (ord : DeductOrders) (snap : Snapshot) (state : CycleState) (stack : Stack)
    (info : SiteCacheInfo) : Outcome (Status × Stack × SiteCacheInfo) := do
  let site ← info.getSite
  let stack := { stack with selected := selectedAt site }
  match getSiteSelectorState state site.siteID with
  | none =>
    pure (⟨.error, ["getting site " ++ quoted site.siteID ++ " info failed: " ++
      selectorStateError state site.siteID]⟩, stack, info)
  | some selected =>
    if stack.resources.length ≠ selected.flavors.length then
      pure (⟨.error, ["siteID(" ++ site.siteID ++ ") flavor count not equal to server count!"]⟩,
        stack, info)
    else
      let resources := selectFlavors stack.resources selected.flavors
      let info ← info.deductSiteResInfo ord (resInfo snap site.regionAzMap.region resources)
        snap.regionFlavorMap
      pure (.nil, { stack with resources := resources }, info)

variable {stack stack' : Stack} {info info' : SiteCacheInfo}

variable {state : CycleState} {status : Status}

/-- **What a call that returns has done**: refused and changed nothing but where the
stack is said to be, or booked the flavors chosen for the site. -/
theorem bind_ok {ord : DeductOrders}
    (h : bind ord snap state stack info = .ok (status, stack', info')) :
    ∃ site, info.site = some site ∧ stack'.selected = selectedAt site ∧
      ((status.code = .error ∧ info' = info ∧ stack'.resources = stack.resources ∧
          ∀ selected, getSiteSelectorState state site.siteID = some selected →
            stack.resources.length ≠ selected.flavors.length) ∨
        ∃ selected, status = .nil ∧ getSiteSelectorState state site.siteID = some selected ∧
          stack.resources.length = selected.flavors.length ∧
          stack'.resources = selectFlavors stack.resources selected.flavors ∧
          info.deductSiteResInfo ord
            (resInfo snap site.regionAzMap.region stack'.resources) snap.regionFlavorMap =
              .ok info') := by
  obtain ⟨site, hsite, h⟩ := Outcome.bind_ok.mp h
  refine ⟨site, getSite_ok.mp hsite, ?_⟩
  dsimp only at h
  split at h
  case h_1 hnone =>
    cases h
    refine ⟨rfl, Or.inl ⟨rfl, rfl, rfl, ?_⟩⟩
    intro selected hsome
    rw [hnone] at hsome
    cases hsome
  case h_2 selected hsome =>
    split at h
    case isTrue hlen =>
      cases h
      refine ⟨rfl, Or.inl ⟨rfl, rfl, rfl, ?_⟩⟩
      intro selected' hsome'
      rw [hsome] at hsome'
      cases hsome'
      exact hlen
    case isFalse hlen =>
      obtain ⟨booked, hbook, h⟩ := Outcome.bind_ok.mp h
      cases h
      exact ⟨rfl, Or.inr ⟨selected, rfl, hsome, not_not.mp hlen, rfl, hbook⟩⟩

def plugin (ord : Nat → DeductOrders) (snap : Snapshot) : BindPlugin where
  name := name
  bind := fun i state stack info => bind (ord i) snap state stack info
  keepsSite := by
    intro i state stack info status stack' info' h
    obtain ⟨_, _, _, ⟨_, rfl, _⟩ | ⟨_, _, _, _, _, hbook⟩⟩ := bind_ok h
    · rfl
    · exact (deductSiteResInfo_lowered hbook).site
  selects := by
    intro i state stack info status stack' info' h _
    obtain ⟨site, hsite, hsel, _⟩ := bind_ok h
    exact ⟨site, hsite, by rw [hsel]; rfl⟩

theorem runBindPlugins_ok {fw : Framework} {ord : Nat → DeductOrders}
    (hfw : fw.bindPlugins = [plugin ord snap]) {i : Nat}
    (h : fw.runBindPlugins i state stack info = .ok (status, stack', info')) :
    ∃ status₁, bind (ord i) snap state stack info = .ok (status₁, stack', info') ∧
      status.isSuccess = status₁.isSuccess := by
  rw [Framework.runBindPlugins, hfw] at h
  obtain ⟨⟨status₁, stack₁, info₁⟩, hbind, h⟩ := Outcome.bind_ok.mp h
  dsimp only at h
  split at h
  case isTrue hskip =>
    cases h
    exact ⟨_, hbind, rfl⟩
  case isFalse =>
    split at h
    case isTrue hsucc =>
      cases h
      exact ⟨_, hbind, rfl⟩
    case isFalse hfail =>
      cases h
      exact ⟨_, hbind, (Bool.not_eq_true _ ▸ hfail : _ = false).symm⟩

end GlobalScheduler.DefaultBinder
