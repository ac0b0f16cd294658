import GlobalScheduler.SiteCacheInfoProofs

/-! A record under repeated bookings.

The copies of one stack that go to a site are booked one after the other, each with
the same demand (`Booked`). This module says by how much the record moves over such
a sequence: the counts by one a copy where the loop over the flavors is left early,
the requests by the demand of each copy where the type is tracked, and then the
counts to what the totals still hold. -/
namespace GlobalScheduler.SiteCacheInfo

open Go CPUAndMemory

/-- `k` bookings of the same demand take the record from `n` to `n'`. -/
inductive Booked (rf : Map String RegionFlavor) (resInfo : AllResInfo) :
    Nat → SiteCacheInfo → SiteCacheInfo → Prop where
  | none (n : SiteCacheInfo) : Booked rf resInfo 0 n n
  | book {k : Nat} {n n' n'' : SiteCacheInfo} {ord : DeductOrders} (before : Booked rf resInfo k n n')
      (last : n'.deductSiteResInfo ord resInfo rf = .ok n'') : Booked rf resInfo (k + 1) n n''

section Steps
variable {rf : Map String RegionFlavor} {resInfo : AllResInfo} {ord : DeductOrders} {n n' : SiteCacheInfo}
  {site : Site}

/-- The loop over the flavors of the record is left early: the region does not list
one of them, or the totals of the type it counts for are not known. -/
def LeftEarly (rf : Map String RegionFlavor) (resInfo : AllResInfo) (site : Site)
    (n : SiteCacheInfo) : Prop :=
  ∃ f ∈ n.allocatableFlavor, listed rf (getRegionName site.siteID) f = none ∨
    "" ∈ resInfo.cpuAndMem ∧ n.totalResources.lookup defaultResourceType = none

theorem LeftEarly.lowered (h : LeftEarly rf resInfo site n) (hlow : Lowered n n') :
    LeftEarly rf resInfo site n' := by
  obtain ⟨f, hf, hwhy⟩ := h
  refine ⟨f, (hlow.flavors f).mpr hf, ?_⟩
  rw [hlow.totalResources]
  exact hwhy

theorem deductSiteResInfo_deduct (hsite : n.site = some site)
    (honly : ∀ t ∈ resInfo.cpuAndMem, t = "") (hearly : LeftEarly rf resInfo site n)
    (h : n.deductSiteResInfo ord resInfo rf = .ok n') {f : String} {a a' : Int}
    (ha : n.allocatableFlavor.lookup f = some a) (ha' : n'.allocatableFlavor.lookup f = some a') :
    a' ≤ a - 1 := by
  obtain ⟨types, requested, storage, site', fs, hraise, hsite', hfs, h, -⟩ := deductSiteResInfo_ok h
  cases hsite.symm.trans hsite'
  refine updateFlavors_deduct
    (n := { n with requestedResources := requested, requestedStorage := storage })
    (fun f hf => (hfs f).mp hf) ?_ h ha ha'
  obtain ⟨g, hg, hwhy⟩ := hearly
  refine ⟨g, (hfs g).mpr hg, ?_⟩
  rcases hwhy with hnone | ⟨hdefault, htotal⟩
  · exact Or.inl hnone
  · right
    rcases deductCpuAndMem_default honly hraise with ⟨hnone, _⟩ | ⟨_, _, rfl, _⟩
    · exact absurd hdefault (AList.lookup_eq_none.mp hnone)
    · exact ⟨_, List.mem_singleton_self _, htotal⟩

theorem deductSiteResInfo_requested (honly : ∀ t ∈ resInfo.cpuAndMem, t = "")
    (htracks : Tracks defaultResourceType n.requestedResources)
    (h : n.deductSiteResInfo ord resInfo rf = .ok n') :
    Tracks defaultResourceType n'.requestedResources ∧
      n'.requestedOf defaultResourceType =
        (n.requestedOf defaultResourceType).add ((resInfo.cpuAndMem.lookup "").getD .zero) := by
  obtain ⟨types, requested, storage, site, fs, hraise, _, _, _, _, hsame⟩ := deductSiteResInfo_ok h
  rw [requestedOf, requestedOf, hsame]
  rcases deductCpuAndMem_default honly hraise with ⟨hnone, _, rfl⟩ | ⟨res, hres, _, hadd⟩
  · rw [hnone]
    exact ⟨htracks, by simp [add, zero]⟩
  · rw [hres]
    exact addRequested_tracks (by decide) htracks hadd

end Steps

/-! ### Sequences -/

section Runs
variable {rf : Map String RegionFlavor} {resInfo : AllResInfo} {k : Nat} {n n' : SiteCacheInfo}

theorem Booked.first {ord : DeductOrders} {m : SiteCacheInfo}
    (hfirst : n.deductSiteResInfo ord resInfo rf = .ok m) (h : Booked rf resInfo k m n') :
    Booked rf resInfo (k + 1) n n' := by
  induction h with
  | none m => exact .book (.none n) hfirst
  | book _ last ih => exact .book (ih hfirst) last

theorem Booked.lowered (h : Booked rf resInfo k n n') : Lowered n n' := by
  induction h with
  | none n => exact Lowered.refl n
  | book _ last ih => exact ih.trans (deductSiteResInfo_lowered last)

/-- **One a copy**: the counts of a record whose loop is left early. -/
theorem Booked.deducted {site : Site} (h : Booked rf resInfo k n n') (hsite : n.site = some site)
    (honly : ∀ t ∈ resInfo.cpuAndMem, t = "") (hearly : LeftEarly rf resInfo site n)
    {f : String} {a a' : Int} (ha : n.allocatableFlavor.lookup f = some a)
    (ha' : n'.allocatableFlavor.lookup f = some a') : a' ≤ a - k := by
  induction h generalizing a' with
  | none n =>
    rw [ha] at ha'
    cases ha'
    simp
  | book before last ih =>
    have hlow := before.lowered
    obtain ⟨b, hb, _⟩ := hlow.lookup ha
    have hstep := deductSiteResInfo_deduct (hlow.site.trans hsite) honly (hearly.lowered hlow)
      last hb ha'
    have hbefore := ih hsite hearly ha hb
    omega

/-- **The demand of each copy**: the requests of a tracked type. -/
theorem Booked.requested (h : Booked rf resInfo k n n') (honly : ∀ t ∈ resInfo.cpuAndMem, t = "")
    (htracks : Tracks defaultResourceType n.requestedResources) :
    Tracks defaultResourceType n'.requestedResources ∧
      ∀ d, (n'.requestedOf defaultResourceType).amount d =
        (n.requestedOf defaultResourceType).amount d +
          k * ((resInfo.cpuAndMem.lookup "").getD .zero).amount d := by
  induction h with
  | none n => exact ⟨htracks, fun d => by simp⟩
  | book before last ih =>
    obtain ⟨htracks', hbefore⟩ := ih htracks
    obtain ⟨hlast, hreq⟩ := deductSiteResInfo_requested honly htracks' last
    refine ⟨hlast, fun d => ?_⟩
    rw [hreq, add_amount, hbefore d]
    push_cast
    ring

/-- **What the totals still hold**: the counts after one booking or more, where the
region lists every flavor and the totals are known. -/
theorem Booked.capped {site : Site} {total : CPUAndMemory} (h : Booked rf resInfo k n n')
    (hk : 0 < k) (hsite : n.site = some site) (honly : ∀ t ∈ resInfo.cpuAndMem, t = "")
    (hdefault : "" ∈ resInfo.cpuAndMem)
    (hlisted : ∀ f ∈ n.allocatableFlavor, (listed rf (getRegionName site.siteID) f).isSome)
    (htotal : n.totalResources.lookup defaultResourceType = some total)
    {f : String} {vcpus ram count a' : Int}
    (hflv : listed rf (getRegionName site.siteID) f = some (vcpus, ram))
    (hcount : flavorCount total (n'.requestedOf defaultResourceType) vcpus ram = .ok count)
    (ha' : n'.allocatableFlavor.lookup f = some a') : a' ≤ count := by
  cases h with
  | none => cases hk
  | @book _ _ m _ _ before last =>
    have hlow := before.lowered
    obtain ⟨types, requested, storage, site', fs, hraise, hsite', hfs, h, hlow', hsame⟩ :=
      deductSiteResInfo_ok last
    cases (hlow.site.trans hsite).symm.trans hsite'
    have hf := (hlow'.flavors f).mp (Map.mem_of_lookup ha')
    obtain ⟨a, ha⟩ := Map.exists_lookup hf
    rw [requestedOf, hsame] at hcount
    rcases deductCpuAndMem_default honly hraise with ⟨hnone, _⟩ | ⟨_, _, rfl, _⟩
    · exact absurd hdefault (AList.lookup_eq_none.mp hnone)
    have hcut := updateFlavors_cut
      (n := { m with requestedResources := requested, requestedStorage := storage }) (fun f hf => (hfs f).mp hf)
      (fun f hf => hlisted f ((hlow.flavors f).mp ((hfs f).mp hf)))
      ((congrArg (AList.lookup _) hlow.totalResources).trans htotal) h hflv hcount ha
    rw [if_pos ((hfs f).mpr hf)] at hcut
    cases ha'.symm.trans hcut
    exact min_le_right _ _

end Runs

end GlobalScheduler.SiteCacheInfo
