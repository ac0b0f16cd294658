import GlobalScheduler.SiteCacheInfo

/-! What booking does to a record.

A booking changes what is requested and how many of each flavor are left, and
nothing else (`Lowered`): no flavor appears or vanishes and no count goes up.
`updateFlavors_cut` and `updateFlavors_deduct` say by how much the counts go down
under each of the two rules. -/
namespace GlobalScheduler.SiteCacheInfo

open Go Outcome AList Map

/-- From `n` to `n'` flavor counts may have gone down; sites, totals and the set of
flavors are the same. -/
structure Lowered (n n' : SiteCacheInfo) : Prop where
  site : n'.site = n.site
  totalResources : n'.totalResources = n.totalResources
  totalStorage : n'.totalStorage = n.totalStorage
  flavors : ∀ f, f ∈ n'.allocatableFlavor ↔ f ∈ n.allocatableFlavor
  counts : ∀ f a a', n.allocatableFlavor.lookup f = some a →
    n'.allocatableFlavor.lookup f = some a' → a' ≤ a

theorem Lowered.refl (n : SiteCacheInfo) : Lowered n n where
  site := rfl
  totalResources := rfl
  totalStorage := rfl
  flavors := fun _ => Iff.rfl
  counts := by
    intro f a a' h h'
    rw [h] at h'
    cases h'
    exact le_refl a

variable {f t : String} {n n' : SiteCacheInfo} {ram vcpus : Int} {stop : Bool} {types : List String}
  {m : RefMap String CPUAndMemory} {ord : DeductOrders} {resInfo : AllResInfo} {rf : Map String RegionFlavor}

theorem Lowered.lookup (h : Lowered n n') {a : Int} (ha : n.allocatableFlavor.lookup f = some a) :
    ∃ a', n'.allocatableFlavor.lookup f = some a' ∧ a' ≤ a := by
  have hf : f ∈ n'.allocatableFlavor :=
    (h.flavors f).mpr (mem_of_lookup ha)
  obtain ⟨a', ha'⟩ := exists_lookup hf
  exact ⟨a', ha', h.counts f a a' ha ha'⟩

theorem Lowered.trans {n'' : SiteCacheInfo} (h : Lowered n n') (h' : Lowered n' n'') :
    Lowered n n'' where
  site := h'.site.trans h.site
  totalResources := h'.totalResources.trans h.totalResources
  totalStorage := h'.totalStorage.trans h.totalStorage
  flavors := fun f => (h'.flavors f).trans (h.flavors f)
  counts := by
    intro f a a'' ha ha''
    obtain ⟨a', ha', hle⟩ := h.lookup ha
    exact (h'.counts f a' a'' ha' ha'').trans hle

/-- What is requested of the site is the same. -/
structure SameRequests (n n' : SiteCacheInfo) : Prop where
  resources : n'.requestedResources = n.requestedResources
  storage : n'.requestedStorage = n.requestedStorage

theorem SameRequests.refl (n : SiteCacheInfo) : SameRequests n n := ⟨rfl, rfl⟩

theorem SameRequests.trans {n'' : SiteCacheInfo} (h : SameRequests n n')
    (h' : SameRequests n' n'') : SameRequests n n'' :=
  ⟨h'.resources.trans h.resources, h'.storage.trans h.storage⟩

/-! ### The two rules -/

theorem deductFlavor_lookup (n : SiteCacheInfo) (f : String) :
    n.deductFlavor.allocatableFlavor.lookup f = (n.allocatableFlavor.lookup f).map (· - 1) :=
  lookup_mapVals _ _ f

theorem deductFlavor_lowered (n : SiteCacheInfo) : Lowered n n.deductFlavor where
  site := rfl
  totalResources := rfl
  totalStorage := rfl
  flavors := by
    intro f
    rw [← lookup_isSome, ← lookup_isSome, deductFlavor_lookup, Option.isSome_map]
  counts := by
    intro f a a' h h'
    rw [deductFlavor_lookup, h, Option.map_some, Option.some.injEq] at h'
    omega

theorem capFlavor_lookup {a : Int} (h : n.allocatableFlavor.lookup f = some a) (count : Int) (g : String) :
    (n.capFlavor f count).allocatableFlavor.lookup g =
      if g = f then some (min a count) else n.allocatableFlavor.lookup g := by
  have hf : f ∈ n.allocatableFlavor := mem_of_lookup h
  unfold capFlavor
  simp only [hf, if_true, h, Option.getD_some]
  by_cases hg : g = f
  · subst hg
    split
    · rw [lookup_insert, if_pos rfl, min_eq_right (by omega)]
    · rw [h, if_pos rfl, min_eq_left (by omega)]
  · rw [if_neg hg]
    split
    · exact lookup_insert_ne hg
    · rfl

theorem capFlavor_lowered (hf : f ∈ n.allocatableFlavor) (count : Int) : Lowered n (n.capFlavor f count) := by
  obtain ⟨a, ha⟩ := exists_lookup hf
  refine ⟨rfl, rfl, rfl, ?_, ?_⟩
  · intro g
    rw [← lookup_isSome, ← lookup_isSome, capFlavor_lookup ha]
    by_cases hg : g = f
    · subst hg
      simp [ha]
    · simp [hg]
  · intro g b b' hb hb'
    rw [capFlavor_lookup ha] at hb'
    by_cases hg : g = f
    · subst hg
      rw [if_pos rfl] at hb'
      rw [ha] at hb
      cases hb
      cases hb'
      exact min_le_left _ _
    · rw [if_neg hg, hb] at hb'
      cases hb'
      exact le_refl _

theorem flavorCount_eq {total requested : CPUAndMemory} (hv : vcpus ≠ 0) (hr : ram ≠ 0) :
    flavorCount total requested vcpus ram =
      .ok (min ((total.vcpu - requested.vcpu).tdiv vcpus)
        ((total.memory - requested.memory).tdiv ram)) := by
  have hmin : ∀ a b : Int, (if a > b then b else a) = min a b := by
    intro a b
    split <;> omega
  unfold flavorCount
  rw [quo_ok.mpr ⟨hv, rfl⟩, quo_ok.mpr ⟨hr, rfl⟩]
  exact congrArg Except.ok (hmin _ _)

theorem capByTypes_lowered (hf : f ∈ n.allocatableFlavor) (h : capByTypes f vcpus ram types n = .ok (n', stop)) :
    Lowered n n' ∧ SameRequests n n' := by
  induction types generalizing n with
  | nil =>
    cases h
    exact ⟨Lowered.refl _, SameRequests.refl _⟩
  | cons t rest ih =>
    rw [capByTypes] at h
    split at h
    · cases h
      exact ⟨Lowered.refl _, SameRequests.refl _⟩
    · obtain ⟨count, _, h⟩ := bind_ok.mp h
      have hcap := capFlavor_lowered hf count
      obtain ⟨hlow, hreq⟩ := ih ((hcap.flavors f).mpr hf) h
      exact ⟨hcap.trans hlow, hreq.resources, hreq.storage⟩

theorem capByTypes_stop (ht : t ∈ types) (hnone : n.totalResources.lookup t = none)
    (h : capByTypes f vcpus ram types n = .ok (n', stop)) : stop = true := by
  induction types generalizing n with
  | nil => cases ht
  | cons t' rest ih =>
    rw [capByTypes] at h
    split at h
    · cases h
      rfl
    case h_2 total htotal =>
      obtain ⟨count, _, h⟩ := bind_ok.mp h
      rcases List.mem_cons.mp ht with rfl | hrest
      · rw [hnone] at htotal
        cases htotal
      · exact ih (n := n.capFlavor f count) hrest hnone h

theorem capByTypes_one {total : CPUAndMemory} (htotal : n.totalResources.lookup t = some total)
    (h : capByTypes f vcpus ram [t] n = .ok (n', stop)) :
    stop = false ∧ ∃ count,
      flavorCount total ((n.requestedResources.get? t).getD .zero) vcpus ram = .ok count ∧
      n' = n.capFlavor f count := by
  rw [capByTypes, htotal] at h
  obtain ⟨count, hcount, h⟩ := bind_ok.mp h
  cases h
  exact ⟨rfl, count, hcount, rfl⟩

/-! ### The loop over the flavors -/

/-- The vCPUs and memory of a flavor as the loop reads them, if the region lists it. -/
def listed (regionFlavors : Map String RegionFlavor) (region flavorid : String) :
    Option (Int × Int) := do
  let flv ← regionFlavors.lookup (region ++ flavorDelimiter ++ flavorid)
  let vcpus ← parseInt flv.vcpus
  some (vcpus, flv.ram)

section Loop
variable {types : List String} {region : String} {rf : Map String RegionFlavor}

/-- **One round of the loop.** -/
theorem updateFlavors_cons (f : String) (rest : List String) (n : SiteCacheInfo) :
    updateFlavors types region rf (f :: rest) n =
      (match listed rf region f with
      | none => pure n.deductFlavor
      | some (vcpus, ram) => do
        let (m, stop) ← capByTypes f vcpus ram types n
        if stop then pure m.deductFlavor else updateFlavors types region rf rest m) := by
  rw [updateFlavors, listed]
  cases rf.lookup (region ++ flavorDelimiter ++ f) with
  | none => rfl
  | some flv =>
    simp only [Option.bind_eq_bind, Option.bind_some]
    cases parseInt flv.vcpus <;> rfl

variable {fs : List String} {n n' : SiteCacheInfo}

theorem updateFlavors_lowered (hfs : ∀ f ∈ fs, f ∈ n.allocatableFlavor)
    (h : updateFlavors types region rf fs n = .ok n') : Lowered n n' ∧ SameRequests n n' := by
  induction fs generalizing n with
  | nil =>
    cases h
    exact ⟨Lowered.refl _, SameRequests.refl _⟩
  | cons f rest ih =>
    rw [updateFlavors_cons] at h
    split at h
    · cases h
      exact ⟨deductFlavor_lowered n, rfl, rfl⟩
    · obtain ⟨⟨m, stop⟩, hcap, h⟩ := bind_ok.mp h
      obtain ⟨hlow, hreq⟩ := capByTypes_lowered (hfs f List.mem_cons_self) hcap
      cases stop with
      | true =>
        cases h
        exact ⟨hlow.trans (deductFlavor_lowered m), hreq.resources, hreq.storage⟩
      | false =>
        have hmem : ∀ g ∈ rest, g ∈ m.allocatableFlavor :=
          fun g hg => (hlow.flavors g).mpr (hfs g (List.mem_cons_of_mem f hg))
        obtain ⟨hrest, hreq'⟩ := ih hmem h
        exact ⟨hlow.trans hrest, hreq.trans hreq'⟩

/-- **The second rule**: where the loop meets a flavor the region does not list, or a
type whose totals are not known, every count goes down by one at least. -/
theorem updateFlavors_deduct (hfs : ∀ f ∈ fs, f ∈ n.allocatableFlavor)
    (hmeets : ∃ f ∈ fs, listed rf region f = none ∨
      ∃ t ∈ types, n.totalResources.lookup t = none)
    (h : updateFlavors types region rf fs n = .ok n') {f : String} {a a' : Int}
    (ha : n.allocatableFlavor.lookup f = some a) (ha' : n'.allocatableFlavor.lookup f = some a') :
    a' ≤ a - 1 := by
  induction fs generalizing n a with
  | nil => obtain ⟨_, hnil, _⟩ := hmeets; cases hnil
  | cons g rest ih =>
    rw [updateFlavors_cons] at h
    split at h
    · cases h
      rw [deductFlavor_lookup, ha, Option.map_some, Option.some.injEq] at ha'
      omega
    case h_2 vcpus ram hlisted =>
      obtain ⟨⟨m, stop⟩, hcap, h⟩ := bind_ok.mp h
      obtain ⟨hlow, _⟩ := capByTypes_lowered (hfs g List.mem_cons_self) hcap
      obtain ⟨b, hb, hle⟩ := hlow.lookup ha
      cases stop with
      | true =>
        cases h
        rw [deductFlavor_lookup, hb, Option.map_some, Option.some.injEq] at ha'
        omega
      | false =>
        -- The loop went on, so what it meets is a flavor further down the list.
        have hrest : ∃ f ∈ rest, listed rf region f = none ∨
            ∃ t ∈ types, m.totalResources.lookup t = none := by
          obtain ⟨g', hg', hwhy⟩ := hmeets
          rcases hwhy with hnone | ⟨t, ht, htotal⟩
          · rcases List.mem_cons.mp hg' with rfl | hg'
            · rw [hlisted] at hnone
              cases hnone
            · exact ⟨g', hg', Or.inl hnone⟩
          · exact absurd (capByTypes_stop ht htotal hcap) (by simp)
        have hmem : ∀ f ∈ rest, f ∈ m.allocatableFlavor :=
          fun f hf => (hlow.flavors f).mpr (hfs f (List.mem_cons_of_mem g hf))
        have := ih hmem hrest h hb
        omega

/-- **The first rule**: where the region lists every flavor and the totals are known,
every count is cut to what the free part of the totals holds. -/
theorem updateFlavors_cut {t : String} {total : CPUAndMemory} (hfs : ∀ f ∈ fs, f ∈ n.allocatableFlavor)
    (hlisted : ∀ f ∈ fs, (listed rf region f).isSome) (htotal : n.totalResources.lookup t = some total)
    (h : updateFlavors [t] region rf fs n = .ok n') {f : String} {vcpus ram count a : Int}
    (hflv : listed rf region f = some (vcpus, ram))
    (hcount : flavorCount total ((n.requestedResources.get? t).getD .zero) vcpus ram = .ok count)
    (ha : n.allocatableFlavor.lookup f = some a) :
    n'.allocatableFlavor.lookup f = some (if f ∈ fs then min a count else a) := by
  induction fs generalizing n a with
  | nil =>
    cases h
    simpa using ha
  | cons g rest ih =>
    obtain ⟨⟨v, r⟩, hg⟩ := Option.isSome_iff_exists.mp (hlisted g List.mem_cons_self)
    rw [updateFlavors_cons, hg] at h
    obtain ⟨⟨m, stop⟩, hcap, h⟩ := bind_ok.mp h
    have hlow := (capByTypes_lowered (hfs g List.mem_cons_self) hcap).1
    obtain ⟨rfl, c, hc, rfl⟩ := capByTypes_one htotal hcap
    obtain ⟨b, hb⟩ := exists_lookup (hfs g List.mem_cons_self)
    have hcut := capFlavor_lookup hb c f
    have hrest := fun b => ih (n := n.capFlavor g c) (a := b)
      (fun f hf => (hlow.flavors f).mpr (hfs f (List.mem_cons_of_mem g hf)))
      (fun f hf => hlisted f (List.mem_cons_of_mem g hf)) htotal h hcount
    by_cases hfg : f = g
    · subst hfg
      cases hflv.symm.trans hg
      cases hcount.symm.trans hc
      cases ha.symm.trans hb
      rw [if_pos rfl] at hcut
      rw [hrest _ hcut, if_pos List.mem_cons_self]
      split
      · exact congrArg some (min_eq_left (min_le_right _ _))
      · rfl
    · rw [if_neg hfg] at hcut
      rw [hrest a (hcut.trans ha)]
      simp [hfg]

end Loop

/-! ### Requested resources -/

/-- The type has a pool of its own, and no other pool lists it. -/
def Owns (t : String) (m : RefMap String CPUAndMemory) : Prop :=
  t ∈ m.ptr ∧ ∀ key ∈ m.ptr, t ∈ split key flavorDelimiter → key = t

/-- Such a pool, or no pool at all yet. -/
def Tracks (t : String) (m : RefMap String CPUAndMemory) : Prop :=
  m.ptr.keys = [] ∨ Owns t m

theorem Owns.write (h : Owns t m) (f : CPUAndMemory → CPUAndMemory) : Owns t ((m.modify t f).share t t) := by
  simpa only [Owns, RefMap.mem_modify_share_self] using h

/-- What is requested of a type; nothing where it has no pool. -/
def requestedOf (n : SiteCacheInfo) (t : String) : CPUAndMemory :=
  (n.requestedResources.get? t).getD .zero

/-- The loop over the pools writes at the type's own pool and passes over the others. -/
theorem addRequested_pools (ord : List String) (res : CPUAndMemory) (ht : t ∈ split t flavorDelimiter)
    (hm : Owns t m) :
    rangeM ord RefMap.ptr (fun reqType _ (m : RefMap String CPUAndMemory) =>
      if t ∈ split reqType flavorDelimiter then
        pure ((m.modify reqType (·.add res)).share reqType t)
      else pure m) m = pure ((m.modify t (·.add res)).share t t) := by
  refine rangeM_once (Owns t) t
    (fun m : RefMap String CPUAndMemory => (m.modify t (·.add res)).share t t) ?_ ?_ ?_ ?_ ord hm
  · exact fun m hm => hm.1
  · intro m _ _
    rw [if_pos ht]
  · intro m key i hm hkey hne
    have hmem : key ∈ m.ptr := mem_of_lookup hkey
    rw [if_neg fun hin => hne (hm.2 key hmem hin)]
  · exact fun m hm => hm.write _

/-- **Raising the requests of a tracked type** adds exactly what is asked for. -/
theorem addRequested_tracks {ord : List String} {res : CPUAndMemory}
    {m' : RefMap String CPUAndMemory} (ht : t ∈ split t flavorDelimiter) (hm : Tracks t m)
    (h : addRequested ord t res m = .ok m') :
    Tracks t m' ∧ (m'.get? t).getD .zero = ((m.get? t).getD .zero).add res := by
  unfold addRequested at h
  split at h
  case isTrue hnone =>
    cases h
    have hget : m.get? t = none := by
      rw [← Option.not_isSome_iff_eq_none, RefMap.get?_isSome, mem_keys, hnone]
      simp
    refine ⟨Or.inr ⟨by simp [RefMap.new], ?_⟩, ?_⟩
    · intro key hkey _
      rcases RefMap.mem_new.mp hkey with rfl | hold
      · rfl
      · rw [mem_keys, hnone] at hold
        cases hold
    · rw [RefMap.get?_new_self, hget]
      simp [CPUAndMemory.add, CPUAndMemory.zero]
  case isFalse hsome =>
    have hm := hm.resolve_left hsome
    rw [addRequested_pools ord res ht hm] at h
    cases h
    obtain ⟨v, hv⟩ := Option.isSome_iff_exists.mp (RefMap.get?_isSome.mpr hm.1)
    refine ⟨Or.inr (hm.write _), ?_⟩
    rw [RefMap.get?_modify_share_self, hv]
    rfl

theorem deductCpuAndMem_default {cpuAndMem : Map String CPUAndMemory} {m' : RefMap String CPUAndMemory}
    (honly : ∀ t ∈ cpuAndMem, t = "") (h : deductCpuAndMem ord cpuAndMem m = .ok (types, m')) :
    (cpuAndMem.lookup "" = none ∧ types = [] ∧ m' = m) ∨
      ∃ res, cpuAndMem.lookup "" = some res ∧ types = [defaultResourceType] ∧
        addRequested (ord.requested "") defaultResourceType res m = .ok m' := by
  unfold deductCpuAndMem at h
  rw [entriesBy_only ord.types honly] at h
  cases hres : cpuAndMem.lookup "" with
  | none =>
    rw [hres] at h
    cases h
    exact Or.inl ⟨rfl, rfl, rfl⟩
  | some res =>
    rw [hres] at h
    obtain ⟨⟨types₁, m₁⟩, hround, h⟩ := bind_ok.mp h
    cases h
    obtain ⟨m₂, hadd, hround⟩ := bind_ok.mp hround
    cases hround
    exact Or.inr ⟨res, rfl, rfl, hadd⟩

/-! ### The whole booking -/

/-- **What a booking does**: it raises the requests and then updates every flavor. -/
theorem deductSiteResInfo_ok (h : deductSiteResInfo ord resInfo rf n = .ok n') :
    ∃ types requested storage site fs,
      deductCpuAndMem ord resInfo.cpuAndMem n.requestedResources = .ok (types, requested) ∧
      n.site = some site ∧ (∀ f, f ∈ fs ↔ f ∈ n.allocatableFlavor) ∧
      updateFlavors types (getRegionName site.siteID) rf fs
        { n with requestedResources := requested, requestedStorage := storage } = .ok n' ∧
      Lowered n n' ∧ n'.requestedResources = requested := by
  obtain ⟨⟨types, requested⟩, hraise, h⟩ := bind_ok.mp h
  obtain ⟨site, hsite, h⟩ := bind_ok.mp h
  obtain ⟨hlow, hsame⟩ := updateFlavors_lowered (fun f hf => of_decide_eq_true (List.mem_filter.mp hf).2) h
  refine ⟨types, requested, _, site, _, hraise, SiteCacheInfo.getSite_ok.mp hsite, fun f => ?_, h,
    ⟨hlow.site, hlow.totalResources, hlow.totalStorage, hlow.flavors, hlow.counts⟩, hsame.resources⟩
  simp only [List.mem_filter, mem_visits, decide_eq_true_eq]
  exact ⟨fun h => h.2, fun h => ⟨Or.inr h, h⟩⟩

/-- **A booking lowers.** -/
theorem deductSiteResInfo_lowered (h : deductSiteResInfo ord resInfo rf n = .ok n') : Lowered n n' := by
  obtain ⟨_, _, _, _, _, _, _, _, _, hlow, _⟩ := deductSiteResInfo_ok h
  exact hlow

theorem deductSiteResInfo_storage (hnone : resInfo.storage = ∅)
    (h : deductSiteResInfo ord resInfo rf n = .ok n') : n'.requestedStorage = n.requestedStorage := by
  obtain ⟨⟨types, requested⟩, _, h⟩ := bind_ok.mp h
  obtain ⟨site, _, h⟩ := bind_ok.mp h
  have hsame := (updateFlavors_lowered (fun f hf => of_decide_eq_true (List.mem_filter.mp hf).2) h).2
  rw [hsame.storage, hnone]
  rfl

end GlobalScheduler.SiteCacheInfo
