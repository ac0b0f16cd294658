import GlobalScheduler.Cache.SiteCacheInfo

/-! How many machines of a flavor a site has room for.

`updateFlavor` counts the flavors a site supports, each once, under its ID. A flavor has a
count if it needs something and the pools of its type have something, and the count is the
largest number that fits into what is left of these pools, as long as no more is requested
of them than there is. -/
namespace GlobalScheduler.Cache

open Go Outcome AList CPUAndMemory Map List

/-! ### Sums over the pools of a type -/

variable (ord : List String)

variable (pools : Map String CPUAndMemory)

variable (resType : String)

def poolTotal (d : Dimension) : Int :=
  ((pools.entries.filter fun e => resType ∈ split e.1 flavorDelimiter).map fun e => e.2.amount d).sum

theorem foldl_amount (d : Dimension) (l : List (String × CPUAndMemory)) (ret : CPUAndMemory) :
    (l.foldl (fun ret e => if resType ∈ split e.1 flavorDelimiter then ret.add e.2 else ret) ret).amount d =
      ret.amount d + ((l.filter fun e => resType ∈ split e.1 flavorDelimiter).map fun e => e.2.amount d).sum := by
  induction l generalizing ret with
  | nil => simp
  | cons e rest ih =>
    rw [foldl_cons, ih]
    by_cases hlists : resType ∈ split e.1 flavorDelimiter
    · simp [hlists, add_assoc]
    · simp [hlists]

theorem entriesBy_perm_entries : (entriesBy ord pools).Perm (pools.entries.map fun e => (e.1, e.2)) := by
  have hnodup : ((pools.entries.map fun e => (e.1, e.2)).map Prod.fst).Nodup := by
    rw [map_map]
    exact pools.nodupKeys
  refine (perm_ext_iff_of_nodup (entriesBy_nodup ord pools).of_map hnodup.of_map).mpr ?_
  rintro ⟨key, value⟩
  rw [mem_entriesBy, mem_map]
  constructor
  · intro hlook
    exact ⟨⟨key, value⟩, mem_lookup_iff.mp hlook, rfl⟩
  · rintro ⟨e, he, heq⟩
    cases heq
    exact mem_lookup_iff.mpr he

theorem resourceInOrder_amount (d : Dimension) :
    (resourceInOrder ord pools resType).amount d = poolTotal pools resType d := by
  have hperm := ((entriesBy_perm_entries ord pools).filter
    fun e => resType ∈ split e.1 flavorDelimiter).map fun e => e.2.amount d
  rw [resourceInOrder, foldl_amount, zero_amount, zero_add, hperm.sum_eq, poolTotal, filter_map, map_map]
  rfl

/-! ### The flavors of a site -/

def ids (flavors : List StoredFlavor) : List String := flavors.map (·.id)

theorem nodup_listed {found : List StoredFlavor} {flavor : StoredFlavor} {supports : Prop}
    [Decidable supports] (h : (ids found).Nodup) :
    (ids (if supports ∧ ¬ found.any (·.id = flavor.id) then found ++ [flavor] else found)).Nodup := by
  split
  case isFalse => exact h
  case isTrue hnew =>
    rw [ids, map_append, nodup_append]
    refine ⟨h, nodup_singleton _, ?_⟩
    intro id hid id' hid' heq
    obtain ⟨other, hother, rfl⟩ := mem_map.mp hid
    rw [map_singleton, mem_singleton] at hid'
    exact hnew.2 (any_eq_true.mpr ⟨other, hother, by simp [heq, hid']⟩)

theorem nodup_getSupportFlavorsBySite (env : Env) (site : CachedSite) :
    (ids (getSupportFlavorsBySite env site)).Nodup := by
  refine foldlRecOn env.flavorList _ (motive := fun found => (ids found).Nodup) nodup_nil ?_
  intro found hfound flavor _
  refine foldlRecOn site.hosts _ (motive := fun found => (ids found).Nodup) hfound ?_
  intro found hfound host _
  have hlisted := @nodup_listed found flavor (site.regionAzMap.region = flavor.region ∧
    flavor.resourceType ∈ split host.resourceType flavorDelimiter ∧
      onSale flavor site.regionAzMap.availabilityZone) _ hfound
  simpa only [and_assoc] using hlisted

namespace CachedInfo
variable {n : CachedInfo} {env : Env} {flavor : StoredFlavor} {vcpus count : Int} {id : String}

section
variable (n : CachedInfo)

/-- The first flavor with this ID that the site supports. -/
def firstSupported (env : Env) (id : String) : Option StoredFlavor :=
  n.site.bind fun site => (getSupportFlavorsBySite env site).find? (·.id = id)

/-- The flavor needs vCPUs and memory, and the pools of its type have some. -/
structure Countable (flavor : StoredFlavor) (vcpus : Int) : Prop where
  parsed : parseInt flavor.vcpus = some vcpus
  vcpus_pos : 0 < vcpus
  ram_pos : 0 < flavor.ram
  total_vcpu : 0 < poolTotal n.totalResources flavor.resourceType .vcpu
  total_memory : 0 < poolTotal n.totalResources flavor.resourceType .memory

def left (resType : String) (d : Dimension) : Int :=
  poolTotal n.totalResources resType d - poolTotal n.requestedResources resType d

/-- So many machines of the flavor fit into what is left. -/
def Fits (flavor : StoredFlavor) (vcpus count : Int) : Prop :=
  count * vcpus ≤ n.left flavor.resourceType .vcpu ∧ count * flavor.ram ≤ n.left flavor.resourceType .memory

end

variable {ord : List String × List String}

theorem flavorCountIn_eq (h : n.Countable flavor vcpus) : n.flavorCountIn ord flavor =
    some (min ((n.left flavor.resourceType .vcpu).tdiv vcpus)
      ((n.left flavor.resourceType .memory).tdiv flavor.ram)) := by
  obtain ⟨hparsed, hvcpus, hram, hvcpu, hmemory⟩ := h
  rw [← resourceInOrder_amount ord.1] at hvcpu hmemory
  have hcounted : ¬ (vcpus ≤ 0 ∨ flavor.ram ≤ 0 ∨
      (resourceInOrder ord.1 n.totalResources flavor.resourceType).vcpu ≤ 0 ∨
      (resourceInOrder ord.1 n.totalResources flavor.resourceType).memory ≤ 0) := by
    rintro (h | h | h | h)
    · exact absurd hvcpus (not_lt.mpr h)
    · exact absurd hram (not_lt.mpr h)
    · exact absurd hvcpu (not_lt.mpr h)
    · exact absurd hmemory (not_lt.mpr h)
  unfold flavorCountIn left
  rw [hparsed]
  dsimp only
  rw [if_neg hcounted, ← resourceInOrder_amount ord.1, ← resourceInOrder_amount ord.2,
    ← resourceInOrder_amount ord.1, ← resourceInOrder_amount ord.2, min_comm, min_def_lt]
  rfl

theorem flavorCountIn_isSome : (n.flavorCountIn ord flavor).isSome ↔ ∃ vcpus, n.Countable flavor vcpus := by
  constructor
  · intro hsome
    unfold flavorCountIn at hsome
    split at hsome
    · cases hsome
    · next vcpus hparsed =>
      dsimp only at hsome
      split at hsome
      · cases hsome
      · next hcounted =>
        rw [not_or, not_or, not_or, not_le, not_le, not_le, not_le] at hcounted
        refine ⟨vcpus, hparsed, hcounted.1, hcounted.2.1, ?_, ?_⟩
        · rw [← resourceInOrder_amount ord.1]
          exact hcounted.2.2.1
        · rw [← resourceInOrder_amount ord.1]
          exact hcounted.2.2.2
  · rintro ⟨vcpus, h⟩
    rw [flavorCountIn_eq h]
    rfl

/-- A quotient that is cut toward zero is the largest multiple below what is not negative. -/
theorem le_tdiv_iff {a b k : Int} (ha : 0 ≤ a) (hb : 0 < b) : k ≤ a.tdiv b ↔ k * b ≤ a := by
  rw [Int.tdiv_eq_ediv_of_nonneg ha, Int.le_ediv_iff_mul_le hb]

/-- **The count is the largest number that fits.** -/
theorem isGreatest_count (h : n.Countable flavor vcpus)
    (hleft : ∀ d, 0 ≤ n.left flavor.resourceType d) (hcount : n.flavorCountIn ord flavor = some count) :
    IsGreatest {k | n.Fits flavor vcpus k} count := by
  have hfits : ∀ k, n.Fits flavor vcpus k ↔ k ≤ count := by
    intro k
    cases (flavorCountIn_eq h).symm.trans hcount
    rw [Fits, le_min_iff, le_tdiv_iff (hleft .vcpu) h.vcpus_pos, le_tdiv_iff (hleft .memory) h.ram_pos]
  refine ⟨(hfits count).mpr le_rfl, ?_⟩
  intro k hk
  exact (hfits k).mp hk

variable {ords : StoredFlavor → List String × List String}

theorem lookup_foldl_counts (count : StoredFlavor → Option Int) (l : List StoredFlavor) (hnodup : (ids l).Nodup)
    (counts : Map String Int) (hnew : ∀ flavor ∈ l, counts.lookup flavor.id = none) (id : String) :
    (l.foldl (fun counts flavor => tally flavor (count flavor) counts) counts).lookup id =
      ((l.find? (·.id = id)).bind count).or (counts.lookup id) := by
  induction l generalizing counts with
  | nil => rfl
  | cons flavor rest ih =>
    obtain ⟨hother, hrest⟩ := nodup_cons.mp hnodup
    have hne : ∀ flavor' ∈ rest, flavor'.id ≠ flavor.id := fun flavor' hmem heq =>
      hother (mem_map.mpr ⟨flavor', hmem, heq⟩)
    have hnone : rest.find? (·.id = flavor.id) = none :=
      find?_eq_none.mpr fun flavor' hmem => by simpa using hne flavor' hmem
    rw [foldl_cons]
    cases hcount : count flavor with
    | none =>
      rw [tally, ih hrest counts fun flavor' hmem => hnew flavor' (mem_cons_of_mem _ hmem)]
      by_cases hid : flavor.id = id
      · subst hid
        simp [hnone, hcount]
      · rw [find?_cons_of_neg (by simpa using hid)]
    | some _ =>
      rw [tally, ih hrest _ fun flavor' hmem => by
        rw [lookup_insert_ne (hne flavor' hmem), hnew flavor' (mem_cons_of_mem _ hmem)]]
      by_cases hid : flavor.id = id
      · subst hid
        simp [hnone, hcount, hnew flavor mem_cons_self]
      · rw [find?_cons_of_neg (by simpa using hid), lookup_insert_ne (Ne.symm hid)]

theorem getSite_ok {site : CachedSite} : n.getSite = .ok site ↔ n.site = some site := by
  unfold getSite
  cases n.site with
  | none => simp [throw_ok]
  | some site => simp [pure_ok]

/-- What `updateFlavor` leaves under an ID is the count of the first flavor with it. -/
theorem lookup_updateFlavorIn {n' : CachedInfo} (h : n.updateFlavorIn env ords = .ok n') (id : String) :
    n'.allocatableFlavor.lookup id =
      (n.firstSupported env id).bind fun flavor => n.flavorCountIn (ords flavor) flavor := by
  unfold updateFlavorIn at h
  split at h
  · next hempty =>
    cases h
    cases hsite : n.site with
    | none => simp [firstSupported, hsite]
    | some site => simp [firstSupported, hsite, getSupportFlavorsBySite, hempty]
  · obtain ⟨site, hsite, h⟩ := bind_ok.mp h
    cases h
    have hloop := lookup_foldl_counts (fun flavor => n.flavorCountIn (ords flavor) flavor)
      (getSupportFlavorsBySite env site) (nodup_getSupportFlavorsBySite env site) ∅
      (fun _ _ => lookup_empty _) id
    rw [lookup_empty, Option.or_none] at hloop
    rw [firstSupported, getSite_ok.mp hsite]
    exact hloop

/-- A record without a site cannot be updated as soon as there is a flavor. -/
theorem updateFlavorIn_returns :
    (∃ n', n.updateFlavorIn env ords = .ok n') ↔ n.site ≠ none ∨ env.flavorList = [] := by
  unfold updateFlavorIn
  split
  · next hempty => exact iff_of_true ⟨_, rfl⟩ (Or.inr hempty)
  · next hflavors =>
    rw [or_iff_left hflavors, getSite]
    cases n.site with
    | none => simp [throw, throwThe, MonadExceptOf.throw, bind, Except.bind]
    | some site => exact iff_of_true ⟨_, rfl⟩ (Option.some_ne_none site)

/-- **The counts of flavors.** Whatever the order of the flavor store's list and of the loops
over the pools: the update returns if the record has a site, and leaves a count for exactly
those IDs whose first supported flavor needs something and has pools. It is the largest number
that fits if no more is requested of these pools than they have. -/
theorem updateFlavor_counts (n : CachedInfo) (env : Env)
    (ords : StoredFlavor → List String × List String) :
    ((∃ n', n.updateFlavorIn env ords = .ok n') ↔ n.site ≠ none ∨ env.flavorList = []) ∧
    ∀ n', n.updateFlavorIn env ords = .ok n' → ∀ id,
      (id ∈ n'.allocatableFlavor ↔
        ∃ flavor vcpus, n.firstSupported env id = some flavor ∧ n.Countable flavor vcpus) ∧
      ∀ flavor vcpus, n.firstSupported env id = some flavor → n.Countable flavor vcpus →
        (∀ d, poolTotal n.requestedResources flavor.resourceType d ≤
          poolTotal n.totalResources flavor.resourceType d) →
        ∃ count, n'.allocatableFlavor.lookup id = some count ∧
          IsGreatest {k | n.Fits flavor vcpus k} count := by
  refine ⟨updateFlavorIn_returns, ?_⟩
  intro n' hupdate id
  have hlook := lookup_updateFlavorIn hupdate id
  constructor
  · rw [← lookup_isSome, hlook, Option.isSome_bind, Option.any_eq_true]
    simp [flavorCountIn_isSome]
  · intro flavor vcpus hfirst hcountable hrequested
    have hcount : n.flavorCountIn (ords flavor) flavor = _ := flavorCountIn_eq hcountable
    rw [hfirst, Option.bind_some, hcount] at hlook
    refine ⟨_, hlook, isGreatest_count hcountable ?_ hcount⟩
    intro d
    exact sub_nonneg.mpr (hrequested d)

/-- A site with 9 vCPUs and 40 of memory for `vm` and `lxc`, of which 1 and 10 are taken. -/
def halfFree : CachedInfo where
  site := some { siteID := "r--a", regionAzMap := { region := "r", availabilityZone := "a" },
                 hosts := [{ resourceType := "vm||lxc" }, { resourceType := "vm" }] }
  totalResources := (∅ : Map String CPUAndMemory).insert "vm||lxc" ⟨9, 40⟩
  requestedResources := (∅ : Map String CPUAndMemory).insert "vm||lxc" ⟨1, 10⟩

def flavorF : StoredFlavor where
  id := "f"
  region := "r"
  vcpus := "2"
  ram := 4
  resourceType := "vm"
  regionFlavorID := "r--f"

def sellsF : Env := { flavors := (∅ : Map String StoredFlavor).insert "r--f" flavorF }

/-- Both hosts have the type of the flavor, which is counted once. -/
example : (halfFree.updateFlavor sellsF).map (fun n' => n'.allocatableFlavor.lookup "f") = .ok (some 4) := by
  decide +kernel

theorem updateFlavor_counts_halfFree : ∃ n' count,
    halfFree.updateFlavorIn sellsF anyOrder = .ok n' ∧
      n'.allocatableFlavor.lookup "f" = some count ∧ IsGreatest {k | halfFree.Fits flavorF 2 k} count := by
  obtain ⟨hreturns, hcounts⟩ := halfFree.updateFlavor_counts sellsF anyOrder
  obtain ⟨n', hn'⟩ := hreturns.mpr (Or.inl nofun)
  have hfirst : halfFree.firstSupported sellsF "f" = some flavorF := by decide +kernel
  have hcountable : halfFree.Countable flavorF 2 := by constructor <;> decide +kernel
  have hrequested : ∀ d, poolTotal halfFree.requestedResources flavorF.resourceType d ≤
      poolTotal halfFree.totalResources flavorF.resourceType d := by
    intro d
    cases d <;> decide +kernel
  obtain ⟨count, hcount, hgreatest⟩ := (hcounts n' hn' "f").2 flavorF 2 hfirst hcountable hrequested
  exact ⟨n', count, hn', hcount, hgreatest⟩

end CachedInfo

end GlobalScheduler.Cache
