import GlobalScheduler.Plugins.Score

/-! What the least-allocated score counts for each flavor.

The totals and the requests it compares are sums over the flavors of the stack. For a flavor
it should take the pools of the flavor's type, but `getResourceType` looks the type up only
for a flavor it has not found: for all others it gives the empty type, and only the pools
count whose key has an empty part. -/
namespace GlobalScheduler.Score

open Go Outcome

/-! ### The share of a flavor -/

/-- The ID under which `calculateStackResourceRequest` lists a flavor: not a spot block, known,
with a number of vCPUs. -/
def counted (snap : Snapshot) (flv : Flavor) : Option String :=
  if (flv.spot.map (·.spotDurationHours)).getD 0 ≠ 0 then none
  else (snap.getFlavor flv.flavorID "").bind fun flvObj => (parseInt flvObj.vcpus).map fun _ => flvObj.id

/-- The totals and the requests of the pools of a type. -/
def poolSums (info : SiteCacheInfo) (amount : CPUAndMemory → Int) (resourceType : String) : Int × Int :=
  (poolSum amount resourceType (info.totalResources.entries.map fun e => (e.1, e.2)),
    poolSum amount resourceType (info.requestedResources.ptr.keys.filterMap fun k =>
      (info.requestedResources.get? k).map fun v => (k, v)))

/-- What a flavor of the stack adds to the totals and the requests. -/
def share (snap : Snapshot) (amount : CPUAndMemory → Int) (site : Site) (info : SiteCacheInfo)
    (flv : Flavor) : Outcome (Int × Int) :=
  match counted snap flv with
  | none => pure (0, 0)
  | some flavorID => do
    let resourceType ← getResourceType snap flavorID site
    pure (poolSums info amount resourceType)

def addShare (s c : Int × Int) : Int × Int := (s.1 + c.1, s.2 + c.2)

/-- **The amounts that are scored** are the sums of the shares. -/
theorem calculatePoolRequest_shares (snap : Snapshot) (amount : CPUAndMemory → Int) (stack : Stack)
    (site : Site) (info : SiteCacheInfo) :
    calculatePoolRequest snap amount stack site info =
      (stack.resources.flatMap (·.flavors)).foldlM (fun s flv => do
        let c ← share snap amount site info flv
        pure (addShare s c)) (0, 0) := by
  have hlisted : stack.resources.flatMap (requestedFlavors snap) =
      (stack.resources.flatMap (·.flavors)).filterMap (counted snap) := by
    rw [List.filterMap_flatMap]
    rfl
  unfold calculatePoolRequest
  rw [hlisted, List.foldlM_filterMap]
  congr 1
  funext s flv
  unfold share
  cases counted snap flv with
  | none => simp [addShare]
  | some flavorID =>
    show (getResourceType snap flavorID site >>= _) = ((getResourceType snap flavorID site >>= _) >>= _)
    rw [bind_assoc]
    rfl

/-! ### What it should be -/

/-- One of the hosts has the type. -/
def Offers (site : Site) (resourceType : String) : Prop :=
  ∃ host ∈ site.hosts, resourceType ∈ split host.resourceType flavorDelimiter

/-- The share of a flavor that is known in the region is that of its type, if a host has it; a
flavor that is not known has none. -/
structure ShareRight (snap : Snapshot) (site : Site) (info : SiteCacheInfo) (flv : Flavor) : Prop where
  known : ∀ flavor, snap.getFlavor flv.flavorID site.regionAzMap.region = some flavor →
    flavor.resourceType ≠ "" → Offers site flavor.resourceType → ∀ d : Dimension,
      share snap (·.amount d) site info flv = .ok (poolSums info (·.amount d) flavor.resourceType)
  unknown : snap.getFlavor flv.flavorID site.regionAzMap.region = none → ∀ d : Dimension,
    share snap (·.amount d) site info flv = .ok (0, 0)

/-- What the code makes of a flavor and what it should be come to the same. -/
def SharesAgree (snap : Snapshot) (site : Site) (info : SiteCacheInfo) (flv : Flavor) : Prop :=
  match snap.getFlavor flv.flavorID site.regionAzMap.region, counted snap flv with
  | some flavor, none => flavor.resourceType ≠ "" → Offers site flavor.resourceType →
    ∀ d : Dimension, poolSums info (·.amount d) flavor.resourceType = (0, 0)
  | some flavor, some flavorID => flavor.resourceType ≠ "" → Offers site flavor.resourceType →
    snap.getFlavor flavorID site.regionAzMap.region ≠ none ∧
      ∀ d : Dimension, poolSums info (·.amount d) "" = poolSums info (·.amount d) flavor.resourceType
  | none, none => True
  | none, some flavorID =>
    (snap.getFlavor flavorID site.regionAzMap.region ≠ none ∨ site.hosts = []) ∧
      ∀ d : Dimension, poolSums info (·.amount d) "" = (0, 0)

section
variable {snap : Snapshot} {amount : CPUAndMemory → Int} {site : Site} {info : SiteCacheInfo} {flv : Flavor}
  {flavorID : String} {sums : Int × Int}

theorem getResourceType_ok {resourceType : String} : getResourceType snap flavorID site = .ok resourceType ↔
    (snap.getFlavor flavorID site.regionAzMap.region ≠ none ∨ site.hosts = []) ∧ "" = resourceType := by
  unfold getResourceType
  cases snap.getFlavor flavorID site.regionAzMap.region with
  | some flavor => simp [pure_ok]
  | none =>
    by_cases hhosts : site.hosts = []
    · simp [hhosts, pure_ok]
    · simp [hhosts, throw_ok]

theorem share_none (h : counted snap flv = none) : share snap amount site info flv = .ok sums ↔ (0, 0) = sums := by
  rw [share, h]
  exact pure_ok

theorem share_some (h : counted snap flv = some flavorID) : share snap amount site info flv = .ok sums ↔
    (snap.getFlavor flavorID site.regionAzMap.region ≠ none ∨ site.hosts = []) ∧
      poolSums info amount "" = sums := by
  rw [share, h]
  show (getResourceType snap flavorID site >>= _) = .ok sums ↔ _
  rw [bind_ok]
  simp only [getResourceType_ok, pure_ok]
  constructor
  · rintro ⟨_, ⟨hreads, rfl⟩, hsums⟩
    exact ⟨hreads, hsums⟩
  · intro h
    exact ⟨"", ⟨h.1, rfl⟩, h.2⟩

theorem Offers.hosts_ne_nil {resourceType : String} (h : Offers site resourceType) : site.hosts ≠ [] := by
  obtain ⟨host, hmem, -⟩ := h
  exact List.ne_nil_of_mem hmem

theorem shareRight_of_known {flavor : RegionFlavor}
    (h : snap.getFlavor flv.flavorID site.regionAzMap.region = some flavor) :
    ShareRight snap site info flv ↔ (flavor.resourceType ≠ "" → Offers site flavor.resourceType →
      ∀ d : Dimension, share snap (·.amount d) site info flv =
        .ok (poolSums info (·.amount d) flavor.resourceType)) := by
  constructor
  · intro hright
    exact hright.known flavor h
  · intro hknown
    refine ⟨fun flavor' h' => ?_, fun hnone => ?_⟩
    · cases h.symm.trans h'
      exact hknown
    · cases h.symm.trans hnone

theorem shareRight_of_unknown (h : snap.getFlavor flv.flavorID site.regionAzMap.region = none) :
    ShareRight snap site info flv ↔
      ∀ d : Dimension, share snap (·.amount d) site info flv = .ok (0, 0) := by
  constructor
  · intro hright
    exact hright.unknown h
  · intro hunknown
    refine ⟨fun flavor' h' => ?_, fun _ => hunknown⟩
    cases h.symm.trans h'

theorem forall_dimension_and {p : Prop} {q : Dimension → Prop} : (∀ d, p ∧ q d) ↔ p ∧ ∀ d, q d :=
  ⟨fun h => ⟨(h .vcpu).1, fun d => (h d).2⟩, fun h d => ⟨h.1, h.2 d⟩⟩

theorem shareRight_iff : ShareRight snap site info flv ↔ SharesAgree snap site info flv := by
  unfold SharesAgree
  cases hflavor : snap.getFlavor flv.flavorID site.regionAzMap.region with
  | some flavor =>
    rw [shareRight_of_known hflavor]
    cases hcounted : counted snap flv with
    | none => simp only [share_none hcounted, eq_comm]
    | some flavorID =>
      simp only [share_some hcounted, forall_dimension_and]
      -- A type that is offered is offered by a host.
      refine forall_congr' fun _ => forall_congr' fun hoffers => ?_
      rw [or_iff_left hoffers.hosts_ne_nil]
  | none =>
    rw [shareRight_of_unknown hflavor]
    cases hcounted : counted snap flv with
    | none => simp [share_none hcounted]
    | some flavorID => simp [share_some hcounted, forall_dimension_and]

end

/-- **When the amounts are right.** The amounts that are scored are sums over the flavors of the
stack, and the share of a flavor is right exactly if the pools whose key has an empty part come
to what its type should: to the sums of the type if it is known and offered, and to zero if it
is not known; a known flavor that is not listed must have pools that come to zero; and the
flavor that is listed must be known in the region, or the site have no hosts. -/
theorem amounts_right_iff (snap : Snapshot) (stack : Stack) (site : Site) (info : SiteCacheInfo) :
    (∀ d : Dimension, calculatePoolRequest snap (·.amount d) stack site info =
      (stack.resources.flatMap (·.flavors)).foldlM (fun s flv => do
        let c ← share snap (·.amount d) site info flv
        pure (addShare s c)) (0, 0)) ∧
    ∀ flv ∈ stack.resources.flatMap (·.flavors),
      (ShareRight snap site info flv ↔ SharesAgree snap site info flv) := by
  refine ⟨fun d => calculatePoolRequest_shares snap (·.amount d) stack site info, ?_⟩
  intro flv _
  exact shareRight_iff

/-- A site in region `r` with hosts for `vm`, and pools of that type. -/
def vmSite : Site where
  siteID := "r--a"
  regionAzMap := { region := "r" }
  hosts := [⟨"vm"⟩]

def vmPools : SiteCacheInfo where
  site := some vmSite
  totalResources := (∅ : Map String CPUAndMemory).insert "vm" ⟨8, 16⟩

/-- The region sells the flavor `f`; the flavor `g` is sold elsewhere. -/
def sellsInR : Snapshot where
  siteCacheInfoMap := ∅
  keyed := Snapshot.empty.keyed
  flavorMap := ((∅ : Map String RegionFlavor).insert "f"
    { id := "f", region := "r", vcpus := "2", ram := 4, resourceType := "vm" }).insert "g"
    { id := "g", region := "q", vcpus := "2", ram := 4, resourceType := "vm" }
  regionFlavorMap := (∅ : Map String RegionFlavor).insert "r||f"
    { id := "f", region := "r", vcpus := "2", ram := 4, resourceType := "vm" }

/-- **Neither flavor is right**: for the one that is sold nothing is counted, and the one that
is not ends in a panic. -/
theorem amounts_wrong :
    share sellsInR (·.amount .vcpu) vmSite vmPools ⟨"f", none⟩ = .ok (0, 0) ∧
      poolSums vmPools (·.amount .vcpu) "vm" = (8, 0) ∧
      share sellsInR (·.amount .vcpu) vmSite vmPools ⟨"g", none⟩ = .error .nilPointer ∧
      ¬ ShareRight sellsInR vmSite vmPools ⟨"f", none⟩ ∧ ¬ ShareRight sellsInR vmSite vmPools ⟨"g", none⟩ := by
  have hf : share sellsInR (·.amount .vcpu) vmSite vmPools ⟨"f", none⟩ = .ok (0, 0) := by
    decide +kernel
  have hsums : poolSums vmPools (·.amount .vcpu) "vm" = (8, 0) := by decide +kernel
  have hg : share sellsInR (·.amount .vcpu) vmSite vmPools ⟨"g", none⟩ = .error .nilPointer := by
    decide +kernel
  refine ⟨hf, hsums, hg, ?_, ?_⟩
  · intro hright
    have hshare := hright.known { id := "f", region := "r", vcpus := "2", ram := 4, resourceType := "vm" }
      (by decide +kernel) (by decide) ⟨⟨"vm"⟩, List.mem_cons_self, by decide +kernel⟩ .vcpu
    cases hshare
  · intro hright
    have hshare := hright.unknown (by decide +kernel) .vcpu
    cases hshare

end GlobalScheduler.Score
