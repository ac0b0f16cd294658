import GlobalScheduler.Accounting
import GlobalScheduler.Scheduler.Books

/-! Capacity over many calls.

A call whose books follow binds no more of a flavor or a type than is left, and leaves
that much less. A site is a budget that such calls spend, so it is not overbooked as long
as every call finds its books in a state to follow. -/
namespace GlobalScheduler.Schedule

open Go SiteCacheInfo Accounting Outcome AList DefaultBinder Snapshot

/-! ### A call as a spending step -/

section Step
variable {settings : Settings} {ord : MapOrders} {snap : Snapshot} {alloc : Allocation} {r : Result}

/-- **A call against the flavor counts**: it binds no more machines of a flavor than
there are, and there are that many fewer afterwards. -/
theorem call_flavors (h : scheduleShipped settings ord snap alloc = .ok r)
    (hkeeps : KeepsBooks settings ord snap alloc) (siteID f : String) :
    vmsAt siteID f r.bound ≤ max 0 (allocatable snap siteID f) ∧
      allocatable r.snapshot siteID f + vmsAt siteID f r.bound ≤ allocatable snap siteID f := by
  rcases scheduleShipped_site h hkeeps.replicas.1 siteID with
    ⟨hnone, hsame⟩ | ⟨info, info', site, sel, hinfo', hbooking⟩
  · rw [vmsAt, hnone, allocatable, allocatable, hsame]
    simp
  · obtain ⟨aggs, haggs, hchosen⟩ := hbooking.chosen
    have hfollows := hkeeps.sites aggs siteID sel info site haggs hchosen hbooking.found
      hbooking.hosted
    have hinfo : snap.siteCacheInfoMap.lookup siteID = some info := hbooking.found
    have hvms := sum_alike fun stack hstack => vmsOf_alike (hbooking.alike stack hstack).2 hbooking.counts f
    rw [vmsAt, hvms, allocatable, allocatable, hinfo, hinfo', Option.bind_some, Option.bind_some]
    by_cases hmem : ∃ flv ∈ sel.flavors, flv.flavor.flavorID = f
    · obtain ⟨flv, hflv, rfl⟩ := hmem
      obtain ⟨a, ha, hcover⟩ := hbooking.covered hfollows hkeeps.replicas.2 hflv
      obtain ⟨a', ha', _⟩ := hbooking.booked.lowered.lookup ha
      have hdown := hbooking.counted hfollows hflv ha ha'
      have hsum := sum_filter_key (l := sel.flavors.map fun flv => (flv.flavor.flavorID, flv.count))
        (by rw [List.map_map]; exact hfollows.once) (List.mem_map_of_mem hflv)
      rw [hsum, ha, ha', Option.getD_some, Option.getD_some]
      exact ⟨le_max_of_le_right hcover, hdown⟩
    · -- The flavor is not chosen: none of it is bound, and its count does not go up.
      have hnil : (sel.flavors.map fun flv => (flv.flavor.flavorID, flv.count)).filter
          (·.1 = f) = [] := by
        apply List.filter_eq_nil_iff.mpr
        intro e he hef
        apply hmem
        obtain ⟨flv, hflv, rfl⟩ := List.mem_map.mp he
        exact ⟨flv, hflv, of_decide_eq_true hef⟩
      rw [hnil, List.map_nil, List.sum_nil, mul_zero, add_zero]
      refine ⟨le_max_left _ _, ?_⟩
      cases ha : info.allocatableFlavor.lookup f with
      | none =>
        have hgone : info'.allocatableFlavor.lookup f = none := by
          rw [lookup_eq_none, hbooking.booked.lowered.flavors f, ← lookup_eq_none]
          exact ha
        rw [hgone]
      | some a =>
        obtain ⟨a', ha', hle⟩ := hbooking.booked.lowered.lookup ha
        rw [ha']
        exact hle

end Step

/-! ### Many calls -/

variable {settings : Settings} {snap snap' : Snapshot}

/-- The flavors a machine's size is looked up in do not change from call to call. -/
theorem takenAt_congr (h : snap'.regionFlavorMap = snap.regionFlavorMap) (siteID t : String) (d : Dimension)
    (log : List Stack) :
    takenAt (snap'.updateFlavor settings) siteID t d log =
      takenAt (snap.updateFlavor settings) siteID t d log := by
  have hflavor : (snap'.updateFlavor settings).getFlavor = (snap.updateFlavor settings).getFlavor := by
    funext id region
    simp [getFlavor, updateFlavor, h]
  have htakes : resourceTakes (snap'.updateFlavor settings) =
      resourceTakes (snap.updateFlavor settings) := by
    funext region r
    simp [resourceTakes, hflavor]
  have htaken : takenOf (snap'.updateFlavor settings) t d =
      takenOf (snap.updateFlavor settings) t d := by
    funext stack
    simp [takenOf, htakes]
  rw [takenAt, takenAt, htaken]

/-- How the books stand after some calls: a budget for every flavor of every site and
for the default type, and nothing taken of other types. -/
structure Balanced (settings : Settings) (snap : Snapshot) (log : List Stack) (snap' : Snapshot) :
    Prop where
  tables : snap'.regionFlavorMap = snap.regionFlavorMap
  flavors : ∀ siteID f, Budget (allocatable snap siteID f) (vmsAt siteID f log)
    (allocatable snap' siteID f)
  totals : ∀ siteID info, snap.siteCacheInfoMap.lookup siteID = some info →
    ∃ info', snap'.siteCacheInfoMap.lookup siteID = some info' ∧
      info'.totalResources = info.totalResources ∧
      ∀ t total d, info.totalResources.lookup t = some total →
        if t = defaultResourceType then
          Budget (free info total t d) (takenAt (snap.updateFlavor settings) siteID t d log)
            (free info' total t d)
        else takenAt (snap.updateFlavor settings) siteID t d log = 0

theorem Balanced.opening (settings : Settings) (snap : Snapshot) :
    Balanced settings snap [] snap where
  tables := rfl
  flavors := fun siteID f => Budget.opening _
  totals := by
    intro siteID info hinfo
    refine ⟨info, hinfo, rfl, fun t total d _ => ?_⟩
    split
    · exact Budget.opening _
    · rfl

theorem Balanced.call {log : List Stack}
    {ord : MapOrders} {alloc : Allocation} {r : Result} (hbal : Balanced settings snap log snap')
    (hkeeps : KeepsBooks settings ord snap' alloc) (h : scheduleShipped settings ord snap' alloc = .ok r) :
    Balanced settings snap (log ++ r.bound) r.snapshot where
  tables := (scheduleShipped_regionFlavorMap h).trans hbal.tables
  flavors := by
    intro siteID f
    obtain ⟨hx, hleft⟩ := call_flavors h hkeeps siteID f
    rw [vmsAt, boundAt_append, List.map_append, List.sum_append]
    exact (hbal.flavors siteID f).spend hx hleft
  totals := by
    intro siteID info hinfo
    obtain ⟨info₁, hinfo₁, htotals₁, hbudget⟩ := hbal.totals siteID info hinfo
    have happend : ∀ t d, takenAt (snap.updateFlavor settings) siteID t d (log ++ r.bound) =
        takenAt (snap.updateFlavor settings) siteID t d log +
          ((boundAt siteID r.bound).map (takenOf (snap'.updateFlavor settings) t d)).sum := by
      intro t d
      rw [takenAt, boundAt_append, List.map_append, List.sum_append]
      exact congrArg (_ + ·) (takenAt_congr hbal.tables siteID t d r.bound).symm
    rcases scheduleShipped_site h hkeeps.replicas.1 siteID with
      ⟨hnone, hsame⟩ | ⟨_, info', site, sel, hinfo', hbooking⟩
    · refine ⟨info₁, hsame.trans hinfo₁, htotals₁, fun t total d htotal => ?_⟩
      rw [happend, hnone, List.map_nil, List.sum_nil, add_zero]
      exact hbudget t total d htotal
    · cases hbooking.found.symm.trans hinfo₁
      obtain ⟨aggs, haggs, hchosen⟩ := hbooking.chosen
      have hfollows := hkeeps.sites aggs siteID sel info₁ site haggs hchosen hinfo₁ hbooking.hosted
      refine ⟨info', hinfo', hbooking.booked.lowered.totalResources.trans htotals₁, fun t total d htotal => ?_⟩
      have hbefore := hbudget t total d htotal
      have htaken := sum_alike fun stack hstack => takenOf_alike (hbooking.alike stack hstack).2
        (hbooking.alike stack hstack).1 hfollows.untyped t d
      rw [happend, htaken]
      rw [← htotals₁] at htotal
      split at hbefore
      case isTrue ht =>
        subst ht
        rw [if_pos rfl, if_pos rfl]
        exact hbefore.spend (hbooking.fits hfollows htotal d) (hbooking.requested hfollows htotal d).le
      case isFalse ht => rw [if_neg ht, if_neg ht, hbefore, mul_zero, add_zero]

theorem Calls.balanced {log : List Stack}
    (h : Calls settings (KeepsBooks settings) snap log snap') : Balanced settings snap log snap' := by
  induction h with
  | none => exact Balanced.opening settings _
  | call _ holds last ih => exact ih.call holds last

/-- **No site is overbooked in a run of calls that keep the books.** -/
theorem calls_withinStart (settings : Settings) (snap snap' : Snapshot) (log : List Stack)
    (h : Calls settings (KeepsBooks settings) snap log snap') : WithinStart settings snap log := by
  have hbal := h.balanced
  refine ⟨fun siteID f => (hbal.flavors siteID f).within, ?_⟩
  intro siteID info t total d hinfo htotal
  obtain ⟨_, _, _, hbudget⟩ := hbal.totals siteID info hinfo
  have hthis := hbudget t total d htotal
  split at hthis
  · exact hthis.within
  · rw [hthis]
    exact le_max_left _ _

/-- A site with ten machines of flavor `f`, one vCPU and one unit of memory each, and
totals of ten. -/
def sizedSite : Snapshot :=
  { empty.put "r--a"
      { freshSite "a" 10 with totalResources := singleton "vm" ⟨10, 10⟩ }
      (by simp [freshSite]) with
    regionFlavorMap := singleton "r||f" { id := "f", vcpus := "1", ram := 1 } }

theorem sizedSite_keepsBooks : KeepsBooks {} {} sizedSite (request 2) where
  replicas := by decide
  sites := by
    intro aggs siteID sel info site haggs hchosen hinfo hsite
    obtain ⟨info₁, agg, n, hinfo₁, hmatch, rfl⟩ := hchosen
    obtain rfl : siteID = "r--a" := by
      by_contra hne
      have hnone : sizedSite.siteCacheInfoMap.lookup siteID = none := lookup_insert_ne hne
      rw [hnone] at hinfo
      cases hinfo
    cases hinfo
    cases hinfo₁
    cases hsite
    cases haggs
    have hfirst := hmatch.symm.trans (show _ =
      (.ok (some (⟨[⟨{ flavorID := "f" }, 1⟩], 10⟩, 10)) : Outcome _) by decide +kernel)
    cases hfirst
    exact {
      plain := by simp
      once := by simp
      untyped := fun t ht => (show ∀ t ∈ keys _, t = "" by decide +kernel) t
        (mem_keys.mp ht)
      counted := by
        refine Or.inr ⟨⟨10, 10⟩, by decide +kernel, ⟨by decide +kernel, ?_, ?_⟩⟩
        · exact fun f hf => (show ∀ f ∈ keys _, (listed _ _ f).isSome by decide +kernel) f
            (mem_keys.mp hf)
        · intro flv hflv
          obtain rfl := List.mem_singleton.mp hflv
          refine ⟨1, 1, by decide +kernel, by decide, by decide, fun a ha => ?_⟩
          cases ha.symm.trans (show _ = some (10 : Int) by decide +kernel)
          decide +kernel
      room := by
        intro total htotal
        cases htotal.symm.trans (show _ = some (⟨10, 10⟩ : CPUAndMemory) by decide +kernel)
        refine ⟨Or.inl rfl, fun d => ?_⟩
        cases d <;> decide +kernel }

theorem calls_withinStart_two_copies :
    ∃ log snap', Calls {} (KeepsBooks {}) sizedSite log snap' ∧ log.length = 2 ∧
      WithinStart {} sizedSite log := by
  have hrun : (scheduleShipped {} {} sizedSite (request 2)).map (fun r => r.bound.length) = .ok 2 := by
    decide +kernel
  obtain ⟨r, hr, hlen⟩ := map_ok.mp hrun
  have hcalls : Calls {} (KeepsBooks {}) sizedSite ([] ++ r.bound) r.snapshot :=
    .call (.none sizedSite) sizedSite_keepsBooks hr
  exact ⟨_, _, hcalls, hlen, calls_withinStart _ _ _ _ hcalls⟩

/-- A stack of two resources that both ask for a machine of flavor `f`, and a site with
one such machine: the second resource's count replaces the first's when the machines
are counted, and two machines are bound. -/
theorem calls_overbook :
    ∃ log snap', Calls {} (fun _ _ _ => True) (freshSites [("a", 1)]) log snap' ∧
      ¬ WithinStart {} (freshSites [("a", 1)]) log := by
  have hrun : (scheduleShipped {} {} (freshSites [("a", 1)])
      { request 1 with stack := { resources :=
          [{ flavors := [{ flavorID := "f" }], count := 1 },
           { flavors := [{ flavorID := "f" }], count := 1 }] } }).map
      (fun r => vmsAt "r--a" "f" r.bound) = .ok 2 := by
    decide +kernel
  obtain ⟨r, hr, hvms⟩ := map_ok.mp hrun
  refine ⟨[] ++ r.bound, r.snapshot, .call (.none _) trivial hr, fun hwithin => ?_⟩
  have hle := hwithin.1 "r--a" "f"
  rw [List.nil_append, hvms] at hle
  exact absurd hle (by decide +kernel)

end GlobalScheduler.Schedule
