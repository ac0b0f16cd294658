import GlobalScheduler.Bookings

/-! The flavor counts after a booking, against the free part of the totals.

A booking is to leave no more of a flavor than the free vCPUs and memory of its type hold.
The first of the two rules cuts to what is free of the default type, and only when the
request names the empty type; the second takes one off every count whatever is free, and the
order of the runtime decides which flavors were cut before it. -/
namespace GlobalScheduler.SiteCacheInfo

open Go Outcome Map List

/-! ### The first loop -/

theorem addRequested_returns (ord : List String) (t : String) (res : CPUAndMemory)
    (m : RefMap String CPUAndMemory) : ∃ m', addRequested ord t res m = .ok m' := by
  rw [addRequested]
  split
  · exact ⟨_, rfl⟩
  · refine (rangeM_ok (fun _ => True) (fun m key _ _ _ => ?_) ord trivial).imp fun _ h => h.1
    split
    · exact ⟨_, rfl, trivial⟩
    · exact ⟨_, rfl, trivial⟩

def defaulted (t : String) : String := if t = "" then defaultResourceType else t

/-- The loop over the types of a request, in this order. -/
def raiseAll (ord : DeductOrders) (es : List (String × CPUAndMemory)) (m : RefMap String CPUAndMemory) :
    Outcome (RefMap String CPUAndMemory) :=
  es.foldlM (fun m e => addRequested (ord.requested e.1) (defaulted e.1) e.2 m) m

section Raise
variable {ord : DeductOrders} {cpuAndMem : Map String CPUAndMemory} {m m' : RefMap String CPUAndMemory}

/-- **The first loop** names the default type exactly if the request names the empty one. -/
theorem deductCpuAndMem_eq : deductCpuAndMem ord cpuAndMem m =
    (raiseAll ord (entriesBy ord.types cpuAndMem) m).map fun m' =>
      (if "" ∈ cpuAndMem then [defaultResourceType] else [], m') := by
  have hloop : ∀ (es : List (String × CPUAndMemory)) (types : List String)
      (m : RefMap String CPUAndMemory), es.foldlM (fun s e => do
        let resType := if e.1 = "" then defaultResourceType else e.1
        let types := if e.1 = "" then s.1 ++ [resType] else s.1
        let m ← addRequested (ord.requested e.1) resType e.2 s.2
        pure (types, m)) (types, m) = (raiseAll ord es m).map fun m' =>
          (types ++ replicate ((es.map Prod.fst).count "") defaultResourceType, m') := by
    intro es
    induction es with
    | nil => exact fun types m => by simp [raiseAll, pure, Except.pure, Except.map]
    | cons e rest ih =>
      intro types m
      rw [foldlM_cons, raiseAll, foldlM_cons, defaulted]
      dsimp only
      cases addRequested (ord.requested e.1) (if e.1 = "" then defaultResourceType else e.1) e.2 m with
      | error p => rfl
      | ok m₁ =>
        refine (ih _ m₁).trans (congrArg (fun types => (raiseAll ord rest m₁).map fun m' => (types, m')) ?_)
        by_cases hempty : e.1 = "" <;> simp [hempty, replicate_succ]
  have hcount : ((entriesBy ord.types cpuAndMem).map Prod.fst).count "" =
      if "" ∈ cpuAndMem then 1 else 0 := by
    rw [(entriesBy_perm ord.types cpuAndMem).count_eq, cpuAndMem.keys_nodup.count]
    simp only [AList.mem_keys]
  rw [deductCpuAndMem, hloop, hcount]
  split <;> rfl

theorem deductCpuAndMem_returns (ord : DeductOrders) (cpuAndMem : Map String CPUAndMemory)
    (m : RefMap String CPUAndMemory) : ∃ m', deductCpuAndMem ord cpuAndMem m =
      .ok (if "" ∈ cpuAndMem then [defaultResourceType] else [], m') := by
  obtain ⟨m', hraise, -⟩ : ∃ m', raiseAll ord (entriesBy ord.types cpuAndMem) m = .ok m' ∧ True :=
    foldlM_ok (fun _ => True) _
      (fun m e _ _ => (addRequested_returns _ _ e.2 m).imp fun _ h => ⟨h, trivial⟩) trivial
  exact ⟨m', by rw [deductCpuAndMem_eq, hraise]; rfl⟩

theorem deductCpuAndMem_raiseAll {types : List String} (h : deductCpuAndMem ord cpuAndMem m = .ok (types, m')) :
    raiseAll ord (entriesBy ord.types cpuAndMem) m = .ok m' := by
  rw [deductCpuAndMem_eq] at h
  obtain ⟨m₁, hraise, heq⟩ := map_ok.mp h
  cases heq
  exact hraise

end Raise

/-! ### The loop over the flavors -/

/-- What the free part of the totals holds of a flavor. -/
def freeFor (total requested : CPUAndMemory) (vcpus ram : Int) : Int :=
  min ((total.vcpu - requested.vcpu).tdiv vcpus) ((total.memory - requested.memory).tdiv ram)

section Loop
variable {types : List String} {region : String} {rf : Map String RegionFlavor} {fs : List String} {t f : String}
  {total : CPUAndMemory} {n : SiteCacheInfo} {vcpus ram : Int}

theorem flavorCount_zero (requested : CPUAndMemory) (h : vcpus = 0 ∨ ram = 0) :
    flavorCount total requested vcpus ram = .error .divideByZero := by
  by_cases hv : vcpus = 0
  · rw [hv]
    rfl
  · rw [flavorCount, quo_ok.mpr ⟨hv, rfl⟩, h.resolve_left hv]
    rfl

theorem updateFlavors_divides (hlisted : listed rf region f = some (vcpus, ram))
    (htotal : n.totalResources.lookup t = some total) (h : vcpus = 0 ∨ ram = 0) (rest : List String) :
    updateFlavors [t] region rf (f :: rest) n = .error .divideByZero := by
  rw [updateFlavors_cons, hlisted]
  dsimp only
  rw [capByTypes, htotal]
  dsimp only
  rw [flavorCount_zero _ h]
  rfl

/-- A flavor or a type that is not known ends the loop if it is met first. -/
theorem updateFlavors_first (h : listed rf region f = none ∨
      types = [t] ∧ n.totalResources.lookup t = none) (rest : List String) :
    updateFlavors types region rf (f :: rest) n = .ok n.deductFlavor := by
  rw [updateFlavors_cons]
  cases hlisted : listed rf region f with
  | none => rfl
  | some flavor =>
    rw [hlisted] at h
    obtain ⟨rfl, hnone⟩ := h.resolve_left (by simp)
    dsimp only
    rw [capByTypes, hnone]
    rfl

theorem capByTypes_returns (h : ∀ t ∈ types, t ∈ n.totalResources → vcpus ≠ 0 ∧ ram ≠ 0) :
    ∃ result, capByTypes f vcpus ram types n = .ok result := by
  induction types generalizing n with
  | nil => exact ⟨_, rfl⟩
  | cons t rest ih =>
    rw [capByTypes]
    cases htotal : n.totalResources.lookup t with
    | none => exact ⟨_, rfl⟩
    | some total =>
      obtain ⟨hv, hr⟩ := h t mem_cons_self (mem_of_lookup htotal)
      dsimp only
      rw [flavorCount_eq hv hr]
      exact ih fun t' ht' => h t' (mem_cons_of_mem t ht')

theorem updateFlavors_returns (hfs : ∀ f ∈ fs, f ∈ n.allocatableFlavor)
    (h : ∀ t ∈ types, t ∈ n.totalResources → ∀ f ∈ fs, ∀ vcpus ram,
      listed rf region f = some (vcpus, ram) → vcpus ≠ 0 ∧ ram ≠ 0) :
    ∃ n', updateFlavors types region rf fs n = .ok n' := by
  induction fs generalizing n with
  | nil => exact ⟨n, rfl⟩
  | cons f rest ih =>
    rw [updateFlavors_cons]
    cases hlisted : listed rf region f with
    | none => exact ⟨_, rfl⟩
    | some flavor =>
      obtain ⟨⟨m, stop⟩, hcap⟩ := capByTypes_returns (f := f) (n := n) fun t ht htotal =>
        h t ht htotal f mem_cons_self flavor.1 flavor.2 hlisted
      have hlow := (capByTypes_lowered (hfs f mem_cons_self) hcap).1
      cases stop with
      | true => exact ⟨m.deductFlavor, bind_ok.mpr ⟨_, hcap, rfl⟩⟩
      | false =>
        obtain ⟨n', hn'⟩ := ih (n := m)
          (fun g hg => (hlow.flavors g).mpr (hfs g (mem_cons_of_mem f hg)))
          (fun t ht htotal g hg => h t ht (hlow.totalResources ▸ htotal) g (mem_cons_of_mem f hg))
        exact ⟨n', bind_ok.mpr ⟨_, hcap, hn'⟩⟩

theorem updateFlavors_untouched (hlisted : ∀ f ∈ fs, (listed rf region f).isSome) :
    updateFlavors [] region rf fs n = .ok n := by
  induction fs with
  | nil => rfl
  | cons f rest ih =>
    obtain ⟨flavor, hf⟩ := Option.isSome_iff_exists.mp (hlisted f mem_cons_self)
    rw [updateFlavors_cons, hf]
    exact ih fun g hg => hlisted g (mem_cons_of_mem f hg)

end Loop

/-! ### The bound -/

/-- A flavor of the region with vCPUs and memory, whose type is requested and has known totals. -/
structure Concerns (rf : Map String RegionFlavor) (resInfo : AllResInfo) (n : SiteCacheInfo)
    (site : Site) (f : String) (vcpus ram : Int) (t : String) (total : CPUAndMemory) : Prop where
  flavor : ∃ flv, rf.lookup (getRegionName site.siteID ++ flavorDelimiter ++ f) = some flv ∧
    parseInt flv.vcpus = some vcpus ∧ flv.ram = ram ∧ defaulted flv.resourceType = t
  vcpus_pos : 0 < vcpus
  ram_pos : 0 < ram
  requested : ∃ key ∈ resInfo.cpuAndMem, defaulted key = t
  total : n.totalResources.lookup t = some total

/-- So many machines of a flavor are no more than is free. -/
def Fits (count vcpus ram : Int) (total requested : CPUAndMemory) : Prop :=
  count * vcpus ≤ max 0 (total.vcpu - requested.vcpu) ∧
    count * ram ≤ max 0 (total.memory - requested.memory)

section Fits
variable {count count' vcpus ram : Int} {total requested : CPUAndMemory}

theorem Fits.mono (h : Fits count vcpus ram total requested) (hle : count' ≤ count)
    (hv : 0 < vcpus) (hr : 0 < ram) : Fits count' vcpus ram total requested :=
  ⟨(Int.mul_le_mul_of_nonneg_right hle hv.le).trans h.1,
    (Int.mul_le_mul_of_nonneg_right hle hr.le).trans h.2⟩

theorem fits_min_iff (hv : 0 < vcpus) (hr : 0 < ram) : Fits (min count count') vcpus ram total requested ↔
    Fits count vcpus ram total requested ∨ Fits count' vcpus ram total requested := by
  constructor
  · intro h
    cases min_choice count count' with
    | inl heq => exact Or.inl (heq ▸ h)
    | inr heq => exact Or.inr (heq ▸ h)
  · intro h
    cases h with
    | inl h => exact h.mono (min_le_left _ _) hv hr
    | inr h => exact h.mono (min_le_right _ _) hv hr

end Fits

section Concerns
variable {rf : Map String RegionFlavor} {resInfo : AllResInfo} {n n' : SiteCacheInfo} {site : Site} {f : String}
  {vcpus ram : Int} {t : String} {total : CPUAndMemory}

theorem Concerns.listed (h : Concerns rf resInfo n site f vcpus ram t total) :
    SiteCacheInfo.listed rf (getRegionName site.siteID) f = some (vcpus, ram) := by
  obtain ⟨flv, hlookup, hparse, hram, -⟩ := h.flavor
  simp [SiteCacheInfo.listed, hlookup, hparse, hram]

theorem Concerns.congr (h : Concerns rf resInfo n site f vcpus ram t total)
    (htotals : n'.totalResources = n.totalResources) : Concerns rf resInfo n' site f vcpus ram t total :=
  ⟨h.flavor, h.vcpus_pos, h.ram_pos, h.requested, htotals ▸ h.total⟩

end Concerns

/-- No count is above the bound. -/
def Bounded (rf : Map String RegionFlavor) (resInfo : AllResInfo) (n : SiteCacheInfo) : Prop :=
  ∀ site, n.site = some site → ∀ f a vcpus ram t total,
    Concerns rf resInfo n site f vcpus ram t total → n.allocatableFlavor.lookup f = some a →
      Fits a vcpus ram total (n.requestedOf t)

/-- Where the default type is counted, no flavor that is listed divides by zero. -/
def Divisible (rf : Map String RegionFlavor) (resInfo : AllResInfo) (site : Site) (n : SiteCacheInfo) : Prop :=
  "" ∈ resInfo.cpuAndMem → defaultResourceType ∈ n.totalResources → ∀ f ∈ n.allocatableFlavor, ∀ vcpus ram,
    listed rf (getRegionName site.siteID) f = some (vcpus, ram) → vcpus ≠ 0 ∧ ram ≠ 0

/-- What the flavor update needs of the record it finds: no divisor of zero; where the loop may
be left early, one machine less fits; and elsewhere the machines there are fit, or those that
the free part of the default type holds. -/
structure CountsFit (rf : Map String RegionFlavor) (resInfo : AllResInfo) (site : Site)
    (n : SiteCacheInfo) : Prop where
  divisors : Divisible rf resInfo site n
  early : LeftEarly rf resInfo site n → ∀ f a vcpus ram t total,
    Concerns rf resInfo n site f vcpus ram t total → n.allocatableFlavor.lookup f = some a →
      Fits (a - 1) vcpus ram total (n.requestedOf t)
  late : ¬ LeftEarly rf resInfo site n → ∀ f a vcpus ram t total,
    Concerns rf resInfo n site f vcpus ram t total → n.allocatableFlavor.lookup f = some a →
      Fits a vcpus ram total (n.requestedOf t) ∨
        ∃ all, "" ∈ resInfo.cpuAndMem ∧ n.totalResources.lookup defaultResourceType = some all ∧
          Fits (freeFor all (n.requestedOf defaultResourceType) vcpus ram) vcpus ram total (n.requestedOf t)

/-! ### The flavor update -/

def counted (resInfo : AllResInfo) : List String :=
  if "" ∈ resInfo.cpuAndMem then [defaultResourceType] else []

def visited (flavors : List String) (n : SiteCacheInfo) : List String :=
  (visits flavors n.allocatableFlavor).filter (· ∈ n.allocatableFlavor)

section Update
variable {rf : Map String RegionFlavor} {resInfo : AllResInfo} {n : SiteCacheInfo} {site : Site}
  {flavors : List String} {f : String}

theorem mem_visited : f ∈ visited flavors n ↔ f ∈ n.allocatableFlavor := by
  simp only [visited, mem_filter, mem_visits, decide_eq_true_eq]
  exact ⟨And.right, fun hf => ⟨Or.inr hf, hf⟩⟩

theorem visited_first (hf : f ∈ n.allocatableFlavor) : ∃ rest, visited [f] n = f :: rest := by
  refine ⟨(n.allocatableFlavor.keys.filter (· ∉ [f])).filter (· ∈ n.allocatableFlavor), ?_⟩
  simp [visited, visits, hf]

theorem updateSiteFlavor_eq (hsite : n.site = some site) (types flavors : List String) :
    updateSiteFlavor flavors types rf n =
      updateFlavors types (getRegionName site.siteID) rf (visited flavors n) n := by
  rw [updateSiteFlavor, SiteCacheInfo.getSite_ok.mpr hsite]
  rfl

/-- The flavor update neither divides by zero nor leaves a count above the bound. -/
def UpdateBounded (rf : Map String RegionFlavor) (resInfo : AllResInfo) (n : SiteCacheInfo)
    (flavors : List String) : Prop :=
  updateSiteFlavor flavors (counted resInfo) rf n ≠ .error .divideByZero ∧
    ∀ n', updateSiteFlavor flavors (counted resInfo) rf n = .ok n' → Bounded rf resInfo n'

/-- Where the loop may be left early, some order takes one machine of every flavor and cuts none. -/
theorem LeftEarly.exists_deduct (hsite : n.site = some site) (hearly : LeftEarly rf resInfo site n) :
    ∃ flavors, updateSiteFlavor flavors (counted resInfo) rf n = .ok n.deductFlavor := by
  obtain ⟨f, hf, hwhy⟩ := hearly
  obtain ⟨rest, hrest⟩ := visited_first hf
  refine ⟨[f], ?_⟩
  rw [updateSiteFlavor_eq hsite, hrest]
  refine updateFlavors_first (hwhy.imp_right fun ⟨hempty, hnone⟩ => ⟨?_, hnone⟩) rest
  rw [counted, if_pos hempty]

theorem updateSiteFlavor_late (hsite : n.site = some site) (hlate : ¬ LeftEarly rf resInfo site n)
    (hdivisors : Divisible rf resInfo site n) {a vcpus ram : Int} (ha : n.allocatableFlavor.lookup f = some a)
    (hf : listed rf (getRegionName site.siteID) f = some (vcpus, ram)) (flavors : List String) :
    ∃ n', updateSiteFlavor flavors (counted resInfo) rf n = .ok n' ∧ Lowered n n' ∧ SameRequests n n' ∧
      (("" ∉ resInfo.cpuAndMem ∧ n'.allocatableFlavor.lookup f = some a) ∨
        ∃ all, "" ∈ resInfo.cpuAndMem ∧ n.totalResources.lookup defaultResourceType = some all ∧
          n'.allocatableFlavor.lookup f =
            some (min a (freeFor all (n.requestedOf defaultResourceType) vcpus ram))) := by
  have hmem : f ∈ n.allocatableFlavor := mem_of_lookup ha
  have hlisted : ∀ g ∈ visited flavors n, (listed rf (getRegionName site.siteID) g).isSome := fun g hg =>
    Option.isSome_iff_ne_none.mpr fun hnone => hlate ⟨g, mem_visited.mp hg, Or.inl hnone⟩
  rw [updateSiteFlavor_eq hsite, counted]
  by_cases hempty : "" ∈ resInfo.cpuAndMem
  · obtain ⟨all, hall⟩ := Option.ne_none_iff_exists'.mp fun hnone =>
      hlate ⟨f, hmem, Or.inr ⟨hempty, hnone⟩⟩
    have hnonzero : ∀ g ∈ visited flavors n, ∀ vcpus ram,
        listed rf (getRegionName site.siteID) g = some (vcpus, ram) → vcpus ≠ 0 ∧ ram ≠ 0 :=
      fun g hg => hdivisors hempty (mem_of_lookup hall) g (mem_visited.mp hg)
    obtain ⟨n', hn'⟩ := updateFlavors_returns (fun g hg => mem_visited.mp hg)
      (fun t (_ : t ∈ [defaultResourceType]) _ => hnonzero)
    obtain ⟨hlow, hsame⟩ := updateFlavors_lowered (fun g hg => mem_visited.mp hg) hn'
    obtain ⟨hv, hr⟩ := hnonzero f (mem_visited.mpr hmem) vcpus ram hf
    have hcut := updateFlavors_cut (fun g hg => mem_visited.mp hg) hlisted hall hn' hf
      (flavorCount_eq hv hr) ha
    rw [if_pos (mem_visited.mpr hmem)] at hcut
    rw [if_pos hempty]
    exact ⟨n', hn', hlow, hsame, Or.inr ⟨all, hempty, hall, hcut⟩⟩
  · rw [if_neg hempty]
    exact ⟨n, updateFlavors_untouched hlisted, Lowered.refl n, SameRequests.refl n, Or.inl ⟨hempty, ha⟩⟩

theorem CountsFit.of_bounded (hsite : n.site = some site)
    (h : ∀ flavors, UpdateBounded rf resInfo n flavors) : CountsFit rf resInfo site n := by
  have hdivisors : Divisible rf resInfo site n := by
    intro hempty htotal f hf vcpus ram hlisted
    rw [← not_or]
    intro hzero
    obtain ⟨total, htotal⟩ := exists_lookup htotal
    obtain ⟨rest, hrest⟩ := visited_first hf
    apply (h [f]).1
    rw [updateSiteFlavor_eq hsite, counted, if_pos hempty, hrest]
    exact updateFlavors_divides hlisted htotal hzero rest
  refine ⟨hdivisors, ?_, ?_⟩
  · intro hearly f a vcpus ram t total hconcerns ha
    obtain ⟨flavors, hdeduct⟩ := hearly.exists_deduct hsite
    refine (h flavors).2 _ hdeduct site hsite f (a - 1) vcpus ram t total (hconcerns.congr rfl) ?_
    rw [deductFlavor_lookup, ha]
    rfl
  · intro hlate f a vcpus ram t total hconcerns ha
    obtain ⟨n', hn', hlow, hsame, hcount⟩ :=
      updateSiteFlavor_late hsite hlate hdivisors ha hconcerns.listed []
    have hfits := fun b => (h []).2 n' hn' site (hlow.site.trans hsite) f b vcpus ram t total
      (hconcerns.congr hlow.totalResources)
    rw [requestedOf, hsame.resources] at hfits
    cases hcount with
    | inl hkept => exact Or.inl (hfits a hkept.2)
    | inr hcut =>
      obtain ⟨all, hempty, hall, hmin⟩ := hcut
      exact ((fits_min_iff hconcerns.vcpus_pos hconcerns.ram_pos).mp (hfits _ hmin)).imp_right
        fun hfree => ⟨all, hempty, hall, hfree⟩

theorem CountsFit.bounded (h : CountsFit rf resInfo site n) (hsite : n.site = some site)
    (flavors : List String) : UpdateBounded rf resInfo n flavors := by
  have hreturns : ∃ n', updateSiteFlavor flavors (counted resInfo) rf n = .ok n' := by
    rw [updateSiteFlavor_eq hsite]
    refine updateFlavors_returns (fun g hg => mem_visited.mp hg) ?_
    intro t ht htotal g hg
    rw [counted] at ht
    split at ht
    case isTrue hempty =>
      rw [mem_singleton.mp ht] at htotal
      exact h.divisors hempty htotal g (mem_visited.mp hg)
    case isFalse => cases ht
  obtain ⟨n', hn'⟩ := hreturns
  refine ⟨by rw [hn']; simp, ?_⟩
  intro n'' hn'' site' hsite' f a' vcpus ram t total hconcerns ha'
  cases hn'.symm.trans hn''
  have hloop := hn'
  rw [updateSiteFlavor_eq hsite] at hloop
  obtain ⟨hlow, hsame⟩ := updateFlavors_lowered (fun g hg => mem_visited.mp hg) hloop
  cases (hlow.site.trans hsite).symm.trans hsite'
  have hconcerns' := hconcerns.congr hlow.totalResources.symm
  have hf : f ∈ n.allocatableFlavor :=
    (hlow.flavors f).mp (mem_of_lookup ha')
  obtain ⟨a, ha⟩ := exists_lookup hf
  rw [requestedOf, hsame.resources]
  by_cases hearly : LeftEarly rf resInfo site n
  · have hle : a' ≤ a - 1 := by
      refine updateFlavors_deduct (fun g hg => mem_visited.mp hg) ?_ hloop ha ha'
      obtain ⟨g, hg, hwhy⟩ := hearly
      refine ⟨g, mem_visited.mpr hg, hwhy.imp_right fun hfree => ?_⟩
      exact ⟨defaultResourceType, by rw [counted, if_pos hfree.1]; exact mem_singleton_self _, hfree.2⟩
    exact (h.early hearly f a vcpus ram t total hconcerns' ha).mono hle hconcerns.vcpus_pos
      hconcerns.ram_pos
  · obtain ⟨n₁, hn₁, -, -, hcount⟩ :=
      updateSiteFlavor_late hsite hearly h.divisors ha hconcerns.listed flavors
    cases hn'.symm.trans hn₁
    cases h.late hearly f a vcpus ram t total hconcerns' ha with
    | inl hfits => exact hfits.mono (hlow.counts f a a' ha ha') hconcerns.vcpus_pos hconcerns.ram_pos
    | inr hfree =>
      obtain ⟨all, hempty, hall, hfits⟩ := hfree
      cases hcount with
      | inl hkept => exact absurd hempty hkept.1
      | inr hcut =>
        obtain ⟨all', -, hall', hmin⟩ := hcut
        cases hall.symm.trans hall'
        cases ha'.symm.trans hmin
        exact (fits_min_iff hconcerns.vcpus_pos hconcerns.ram_pos).mpr (Or.inr hfits)

theorem CountsFit.storage {storage : Map String Fp} (h : CountsFit rf resInfo site n) :
    CountsFit rf resInfo site { n with requestedStorage := storage } where
  divisors := h.divisors
  early := fun hearly f a vcpus ram t total hconcerns =>
    h.early hearly f a vcpus ram t total (hconcerns.congr rfl)
  late := fun hlate f a vcpus ram t total hconcerns =>
    h.late hlate f a vcpus ram t total (hconcerns.congr rfl)

end Update

/-! ### The whole booking -/

/-- No booking of the request divides by zero, and after it no count is above the bound. -/
def CountsBounded (rf : Map String RegionFlavor) (resInfo : AllResInfo) (n : SiteCacheInfo) : Prop :=
  ∀ ord, n.deductSiteResInfo ord resInfo rf ≠ .error .divideByZero ∧
    ∀ n', n.deductSiteResInfo ord resInfo rf = .ok n' → Bounded rf resInfo n'

theorem deductSiteResInfo_eq (rf : Map String RegionFlavor) {resInfo : AllResInfo} {n : SiteCacheInfo}
    {ord : DeductOrders} {types : List String} {requested : RefMap String CPUAndMemory}
    (hraise : deductCpuAndMem ord resInfo.cpuAndMem n.requestedResources = .ok (types, requested)) :
    types = counted resInfo ∧ ∃ storage, ∀ flavors,
      n.deductSiteResInfo { ord with flavors := flavors } resInfo rf =
        updateSiteFlavor flavors (counted resInfo) rf
          { n with requestedResources := requested, requestedStorage := storage } := by
  have htypes : types = counted resInfo := by
    obtain ⟨m', hm'⟩ := deductCpuAndMem_returns ord resInfo.cpuAndMem n.requestedResources
    cases hraise.symm.trans hm'
    rfl
  subst htypes
  refine ⟨rfl, resInfo.storage.entries.foldl
    (fun m e => m.insert e.1 (Fp.add .float64 ((m.lookup e.1).getD (.fin 0)) e.2)) n.requestedStorage,
    fun flavors => ?_⟩
  have hraise' : deductCpuAndMem { ord with flavors := flavors } resInfo.cpuAndMem n.requestedResources =
      .ok (counted resInfo, requested) := hraise
  rw [deductSiteResInfo, hraise']
  rfl

/-- **The counts stay within the bound for every order exactly if they fit** the record as the
flavor update finds it. -/
theorem countsBounded_iff (rf : Map String RegionFlavor) (resInfo : AllResInfo) (n : SiteCacheInfo) :
    CountsBounded rf resInfo n ↔ ∀ site, n.site = some site → ∀ ord types requested,
      deductCpuAndMem ord resInfo.cpuAndMem n.requestedResources = .ok (types, requested) →
        CountsFit rf resInfo site { n with requestedResources := requested } := by
  constructor
  · intro hbounded site hsite ord types requested hraise
    obtain ⟨-, storage, hbooking⟩ := deductSiteResInfo_eq rf hraise
    have hfit : CountsFit rf resInfo site
        { n with requestedResources := requested, requestedStorage := storage } := by
      refine CountsFit.of_bounded hsite fun flavors => ?_
      have h := hbounded { ord with flavors := flavors }
      rw [hbooking flavors] at h
      exact h
    exact hfit.storage
  · intro hfit ord
    obtain ⟨requested, hraise⟩ := deductCpuAndMem_returns ord resInfo.cpuAndMem n.requestedResources
    obtain ⟨-, storage, hbooking⟩ := deductSiteResInfo_eq rf hraise
    have hbooking' : n.deductSiteResInfo ord resInfo rf = updateSiteFlavor ord.flavors (counted resInfo) rf
        { n with requestedResources := requested, requestedStorage := storage } := hbooking ord.flavors
    rw [hbooking']
    rcases Option.eq_none_or_eq_some n.site with hsite | ⟨site, hsite⟩
    · have hpanic : updateSiteFlavor ord.flavors (counted resInfo) rf
          { n with requestedResources := requested, requestedStorage := storage } = .error .nilPointer := by
        rw [updateSiteFlavor, getSite, hsite]
        rfl
      rw [hpanic]
      exact ⟨by simp, fun n' hn' => by cases hn'⟩
    · have hcounts : CountsFit rf resInfo site
          { n with requestedResources := requested, requestedStorage := storage } :=
        (hfit site hsite ord _ requested hraise).storage
      exact hcounts.bounded hsite ord.flavors

/-- A site with totals of two vCPUs and two of memory that counts ten machines of flavor `f`, and
one of flavor `g`. -/
def tenOfF : SiteCacheInfo where
  site := some { siteID := "r--a" }
  totalResources := (∅ : Map String CPUAndMemory).insert "vm" ⟨2, 2⟩
  allocatableFlavor := ((∅ : Map String Int).insert "g" 1).insert "f" 10

/-- The region lists flavor `f` only, with one vCPU and so much memory. -/
def listsF (ram : Int) : Map String RegionFlavor :=
  (∅ : Map String RegionFlavor).insert "r||f" { id := "f", vcpus := "1", ram := ram }

/-- A request for one vCPU and one of memory, without a type. -/
def oneUntyped : AllResInfo where
  cpuAndMem := (∅ : Map String CPUAndMemory).insert "" ⟨1, 1⟩

/-- Flavor `g` first: nine machines of flavor `f` are left where one fits. A flavor without
memory first: the booking divides by zero. -/
theorem countsBounded_fails : ¬ CountsBounded (listsF 1) oneUntyped tenOfF ∧
    tenOfF.deductSiteResInfo { flavors := ["f"] } oneUntyped (listsF 0) = .error .divideByZero := by
  refine ⟨fun hbounded => ?_, by decide +kernel⟩
  have hrun : (tenOfF.deductSiteResInfo { flavors := ["g"] } oneUntyped (listsF 1)).map
      (fun n => (n.site, n.totalResources.lookup "vm", n.allocatableFlavor.lookup "f", n.requestedOf "vm")) =
        .ok (some { siteID := "r--a" }, some ⟨2, 2⟩, some 9, ⟨1, 1⟩) := by
    decide +kernel
  obtain ⟨n', hn', heq⟩ := map_ok.mp hrun
  obtain ⟨hsite, heq⟩ := Prod.mk.inj heq
  obtain ⟨htotal, heq⟩ := Prod.mk.inj heq
  obtain ⟨hcount, hrequested⟩ := Prod.mk.inj heq
  have hfits := (hbounded _).2 n' hn' _ hsite "f" 9 1 1 "vm" ⟨2, 2⟩
    ⟨⟨_, AList.lookup_insert _, by decide, rfl, rfl⟩, by decide, by decide, ⟨"", by decide, rfl⟩, htotal⟩ hcount
  rw [hrequested] at hfits
  exact absurd hfits.1 (by decide)

end GlobalScheduler.SiteCacheInfo
