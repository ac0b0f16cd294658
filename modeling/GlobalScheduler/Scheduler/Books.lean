import GlobalScheduler.Plugins.FlavorMatch
import GlobalScheduler.Scheduler.SiteEffect

/-! The books of a site and a call.

Calls follow one another with no event in between, and each sees the books the ones
before it left. The books of a site can follow what a call binds (`KeepsBooks`) when
there is one resource a flavor, the counts go down by what is bound, and there is room
in the totals. -/
namespace GlobalScheduler.Schedule

open Go SiteCacheInfo DefaultBinder FlavorPlugin List

/-! ### What was there and what is bound -/

/-- `AllocatableFlavor[f]` of a site. -/
def allocatable (snap : Snapshot) (siteID f : String) : Int :=
  ((snap.siteCacheInfoMap.lookup siteID).bind (·.allocatableFlavor.lookup f)).getD 0

/-- The total of a type minus what is requested of it. -/
def free (info : SiteCacheInfo) (total : CPUAndMemory) (t : String) (d : Dimension) : Int :=
  total.amount d - (info.requestedOf t).amount d

/-- The machines of a flavor among the resources of a stack. -/
def vmsOf (f : String) (stack : Stack) : Int :=
  ((stack.resources.filter (·.flavorIDSelected = f)).map (·.count)).sum

/-- What the machines of a stack take of a resource type. -/
def takenOf (snap : Snapshot) (t : String) (d : Dimension) (stack : Stack) : Int :=
  (((stack.resources.filterMap (DefaultBinder.resourceTakes snap stack.selected.region)).filter
    fun e => (if e.1 = "" then defaultResourceType else e.1) = t).map (·.2.amount d)).sum

def vmsAt (siteID f : String) (log : List Stack) : Int :=
  ((boundAt siteID log).map (vmsOf f)).sum

def takenAt (snap : Snapshot) (siteID t : String) (d : Dimension) (log : List Stack) : Int :=
  ((boundAt siteID log).map (takenOf snap t d)).sum

/-- What is bound to a site is within what it had at the start: of each flavor its count,
and of each resource type whose total is known the free part. A number below zero is
no room. -/
def WithinStart (settings : Settings) (snap : Snapshot) (log : List Stack) : Prop :=
  (∀ siteID f, vmsAt siteID f log ≤ max 0 (allocatable snap siteID f)) ∧
    ∀ siteID info t total d, snap.siteCacheInfoMap.lookup siteID = some info →
      info.totalResources.lookup t = some total →
      takenAt (snap.updateFlavor settings) siteID t d log ≤ max 0 (free info total t d)

/-- Calls one after the other, each with a condition on the state it starts from; the
log lists the replicas they bound. -/
inductive Calls (settings : Settings) (cond : MapOrders → Snapshot → Allocation → Prop) :
    Snapshot → List Stack → Snapshot → Prop where
  | none (snap : Snapshot) : Calls settings cond snap [] snap
  | call {snap snap' : Snapshot} {log : List Stack} {ord : MapOrders} {alloc : Allocation}
      {r : Result} (before : Calls settings cond snap log snap') (holds : cond ord snap' alloc)
      (last : scheduleShipped settings ord snap' alloc = .ok r) :
      Calls settings cond snap (log ++ r.bound) r.snapshot

/-! ### When the books follow -/

/-- The counts of the chosen flavors are no larger a promise than the totals make: the
region lists every flavor of the site, and each chosen count is at least what the free
part of the totals holds, so that it goes down with it. -/
structure InStep (snap : Snapshot) (info : SiteCacheInfo) (site : Site) (total : CPUAndMemory)
    (sel : SiteSelectorInfo) : Prop where
  region : getRegionName site.siteID = site.regionAzMap.region ∧ site.regionAzMap.region ≠ ""
  listed : ∀ f ∈ info.allocatableFlavor,
    (listed snap.regionFlavorMap site.regionAzMap.region f).isSome
  counts : ∀ flv ∈ sel.flavors, ∃ vcpus ram,
    SiteCacheInfo.listed snap.regionFlavorMap site.regionAzMap.region flv.flavor.flavorID =
      some (vcpus, ram) ∧ 0 < vcpus ∧ 0 < ram ∧
    ∀ a, info.allocatableFlavor.lookup flv.flavor.flavorID = some a →
      min ((free info total defaultResourceType .vcpu).tdiv vcpus)
        ((free info total defaultResourceType .memory).tdiv ram) ≤ a

/-- The books of a site can follow copies of a choice made for it. -/
structure Follows (snap : Snapshot) (info : SiteCacheInfo) (site : Site) (alloc : Allocation)
    (sel : SiteSelectorInfo) : Prop where
  /-- Ordinary machines, at least one a resource. -/
  plain : ∀ flv ∈ sel.flavors, flv.flavor.spot = none ∧ 1 ≤ flv.count
  /-- No flavor is chosen for two resources. -/
  once : (sel.flavors.map (·.flavor.flavorID)).Nodup
  /-- No chosen flavor names a resource type of its own. -/
  untyped : ∀ t ∈ (demand snap site alloc sel).cpuAndMem, t = ""
  /-- Single machines where a copy costs one of every flavor, or counts in step. -/
  counted : (LeftEarly snap.regionFlavorMap (demand snap site alloc sel) site info ∧
      ∀ flv ∈ sel.flavors, flv.count = 1) ∨
    ∃ total, info.totalResources.lookup defaultResourceType = some total ∧
      InStep snap info site total sel
  /-- Where the total is known, what is requested is tracked and the copies fit. -/
  room : ∀ total, info.totalResources.lookup defaultResourceType = some total →
    Tracks defaultResourceType info.requestedResources ∧
    ∀ d, copies alloc sel * (takes snap site alloc sel).amount d ≤
      max 0 (free info total defaultResourceType d)

/-- The books of every site can follow what a call chooses for it. -/
structure KeepsBooks (settings : Settings) (ord : MapOrders) (snap : Snapshot) (alloc : Allocation) :
    Prop where
  replicas : 1 ≤ alloc.replicas ∧ alloc.replicas ≤ 2 ^ 53
  sites : ∀ aggs siteID sel info site,
    calculateFlavorAggregate alloc.stack = .ok aggs →
    Chosen settings ord (snap.updateFlavor settings) aggs siteID sel →
    snap.siteCacheInfoMap.lookup siteID = some info → info.site = some site →
    Follows (snap.updateFlavor settings) info site alloc sel

/-! ### The machines of a choice -/

theorem machines_flavors {alloc : Allocation} {sel : SiteSelectorInfo}
    (h : sel.flavors.map (·.count) = alloc.stack.resources.map (·.count)) :
    (machines alloc sel).map (fun r => (r.flavorIDSelected, r.count)) =
      sel.flavors.map (fun flv => (flv.flavor.flavorID, flv.count)) := by
  unfold machines
  revert h
  induction alloc.stack.resources generalizing sel with
  | nil =>
    intro h
    rw [map_eq_nil_iff.mp h]
    rfl
  | cons r rest ih =>
    intro h
    cases hflv : sel.flavors with
    | nil => rw [hflv] at h; cases h
    | cons flv others =>
      rw [hflv, map_cons, map_cons, cons.injEq] at h
      have hrest := @ih ⟨others, 0⟩ h.2
      simp only [selectFlavors, zipWith_cons_cons, map_cons, h.1] at hrest ⊢
      rw [hrest]

/-- One resource a flavor: the machines of a chosen flavor are those of its resource. -/
theorem sum_filter_key {l : List (String × Int)} (hnodup : (l.map Prod.fst).Nodup) {f : String}
    {c : Int} (h : (f, c) ∈ l) : ((l.filter (·.1 = f)).map Prod.snd).sum = c := by
  induction l with
  | nil => cases h
  | cons e rest ih =>
    obtain ⟨hfresh, hnodup⟩ := nodup_cons.mp hnodup
    rcases mem_cons.mp h with rfl | h
    · have hnone : rest.filter (·.1 = f) = [] := by
        apply filter_eq_nil_iff.mpr
        intro e he hef
        apply hfresh
        exact mem_map.mpr ⟨e, he, of_decide_eq_true hef⟩
      simp [hnone]
    · have hne : e.1 ≠ f := fun hef => hfresh (hef ▸ mem_map_of_mem h)
      simp [hne, ih hnodup h]

section Alike
variable {alloc : Allocation} {sel : SiteSelectorInfo} {site : Site} {bound : List Stack}

theorem sum_alike {g : Stack → Int} {x : Int} (h : ∀ stack ∈ bound, g stack = x) :
    (bound.map g).sum = bound.length * x := by
  rw [map_congr_left h, map_const', sum_replicate, nsmul_eq_mul]

theorem vmsOf_alike {stack : Stack} (hstack : stack.resources = machines alloc sel)
    (hcounts : sel.flavors.map (·.count) = alloc.stack.resources.map (·.count)) (f : String) :
    vmsOf f stack = (((sel.flavors.map fun flv => (flv.flavor.flavorID, flv.count)).filter
      (·.1 = f)).map Prod.snd).sum := by
  rw [vmsOf, hstack, ← machines_flavors hcounts, filter_map, map_map]
  rfl

theorem takenOf_alike {snap : Snapshot} {stack : Stack} (hstack : stack.resources = machines alloc sel)
    (hselected : stack.selected = selectedAt site)
    (huntyped : ∀ t ∈ (demand snap site alloc sel).cpuAndMem, t = "") (t : String) (d : Dimension) :
    takenOf snap t d stack =
      if t = defaultResourceType then (takes snap site alloc sel).amount d else 0 := by
  have htype : ∀ e ∈ (machines alloc sel).filterMap
      (DefaultBinder.resourceTakes snap site.regionAzMap.region), e.1 = "" :=
    fun e he => huntyped e.1 (mem_takes.mpr ⟨e, he, rfl⟩)
  rw [takenOf, hstack, hselected, show (selectedAt site).region =
    site.regionAzMap.region from rfl]
  split
  case isTrue ht =>
    subst ht
    rw [takes, demand, resInfo, takes_amount]
    congr 2
    apply filter_congr
    intro e he
    simp [htype e he]
  case isFalse ht =>
    rw [filter_eq_nil_iff.mpr fun e he => by simpa [htype e he] using Ne.symm ht]
    rfl

end Alike

/-! ### One call -/

/-- Whole machines of size `v` in what is left of `n` after `k` copies of size `x`. -/
theorem tdiv_sub_add_le {n v k c x : Int} (hv : 0 < v) (hc : 0 ≤ c) (hx : v * c ≤ x) (hk : 0 ≤ k)
    (hroom : k * x ≤ n) : (n - k * x).tdiv v + k * c ≤ n.tdiv v := by
  have hx0 : 0 ≤ k * x := mul_nonneg hk ((mul_nonneg hv.le hc).trans hx)
  rw [Int.tdiv_eq_ediv_of_nonneg (by omega), Int.tdiv_eq_ediv_of_nonneg (by omega), Int.le_ediv_iff_mul_le hv]
  have hdiv : (n - k * x) / v * v ≤ n - k * x := Int.ediv_mul_le _ hv.ne'
  have hcopies : k * c * v ≤ k * x :=
    calc k * c * v = k * (v * c) := by ring
      _ ≤ k * x := by gcongr
  linarith [add_mul ((n - k * x) / v) (k * c) v]

section Call
variable {settings : Settings} {ord : MapOrders} {snap : Snapshot} {alloc : Allocation} {siteID : String}
  {info info' : SiteCacheInfo} {site : Site} {sel : SiteSelectorInfo} {bound : List Stack}

theorem resourceTakes_listed {snap : Snapshot} {region : String} (hregion : region ≠ "")
    {r : Resource} {vcpus ram : Int} (hv : 0 < vcpus)
    (hlisted : SiteCacheInfo.listed snap.regionFlavorMap region r.flavorIDSelected =
      some (vcpus, ram)) :
    ∃ t, DefaultBinder.resourceTakes snap region r = some (t, ⟨vcpus * r.count, ram * r.count⟩) := by
  obtain ⟨flv, hflv, h⟩ := Option.bind_eq_some_iff.mp hlisted
  obtain ⟨v, hparse, h⟩ := Option.bind_eq_some_iff.mp h
  cases h
  refine ⟨flv.resourceType, ?_⟩
  rw [DefaultBinder.resourceTakes, Snapshot.getFlavor, if_neg hregion, hflv]
  simp [hparse, hv]

section InStep
variable {total : CPUAndMemory} (hstep : InStep snap info site total sel) (hfollows : Follows snap info site alloc sel)
  (hcounts : sel.flavors.map (·.count) = alloc.stack.resources.map (·.count))
include hstep hfollows hcounts

theorem InStep.resourceTakes {r : Resource} (hr : r ∈ machines alloc sel) :
    ∃ vcpus ram, SiteCacheInfo.listed snap.regionFlavorMap site.regionAzMap.region
        r.flavorIDSelected = some (vcpus, ram) ∧ 0 ≤ vcpus * r.count ∧ 0 ≤ ram * r.count ∧
      DefaultBinder.resourceTakes snap site.regionAzMap.region r =
        some ("", ⟨vcpus * r.count, ram * r.count⟩) := by
  have hmem : (r.flavorIDSelected, r.count) ∈
      sel.flavors.map (fun flv => (flv.flavor.flavorID, flv.count)) := by
    rw [← machines_flavors hcounts]
    exact mem_map_of_mem hr
  obtain ⟨flv, hflv, heq⟩ := mem_map.mp hmem
  obtain ⟨hid, hcount⟩ := Prod.mk.inj heq
  obtain ⟨vcpus, ram, hlisted, hv, hram, _⟩ := hstep.counts flv hflv
  have hpos := (hfollows.plain flv hflv).2
  rw [hid] at hlisted
  obtain ⟨t, htakes⟩ := resourceTakes_listed hstep.region.2 hv hlisted
  have ht : t = "" := hfollows.untyped t
    (mem_takes.mpr ⟨_, mem_filterMap.mpr ⟨r, hr, htakes⟩, rfl⟩)
  subst ht
  exact ⟨vcpus, ram, hlisted, mul_nonneg hv.le (by omega), mul_nonneg hram.le (by omega), htakes⟩

/-- In step, one copy takes at least what the machines of one chosen flavor take. -/
theorem InStep.demand_ge {flv : FlavorInfo} (hflv : flv ∈ sel.flavors)
    {vcpus ram : Int} (hlisted : SiteCacheInfo.listed snap.regionFlavorMap site.regionAzMap.region
      flv.flavor.flavorID = some (vcpus, ram)) :
    "" ∈ (demand snap site alloc sel).cpuAndMem ∧
      vcpus * flv.count ≤ (takes snap site alloc sel).amount .vcpu ∧
      ram * flv.count ≤ (takes snap site alloc sel).amount .memory := by
  have hmem : (flv.flavor.flavorID, flv.count) ∈
      (machines alloc sel).map (fun r => (r.flavorIDSelected, r.count)) := by
    rw [machines_flavors hcounts]
    exact mem_map_of_mem hflv
  obtain ⟨r, hr, heq⟩ := mem_map.mp hmem
  obtain ⟨hid, hcount⟩ := Prod.mk.inj heq
  obtain ⟨v, m, hlisted', _, _, htakes⟩ := hstep.resourceTakes hfollows hcounts hr
  rw [hid, hlisted] at hlisted'
  cases hlisted'
  have hentry : ("", (⟨vcpus * flv.count, ram * flv.count⟩ : CPUAndMemory)) ∈
      (machines alloc sel).filterMap
        (DefaultBinder.resourceTakes snap site.regionAzMap.region) :=
    mem_filterMap.mpr ⟨r, hr, by rw [htakes, hcount]⟩
  -- The other machines take nothing below zero.
  have hnonneg : ∀ d, ∀ x ∈ (((machines alloc sel).filterMap (DefaultBinder.resourceTakes snap
      site.regionAzMap.region)).filter (·.1 = "")).map (·.2.amount d), 0 ≤ x := by
    intro d x hx
    obtain ⟨e, he, rfl⟩ := mem_map.mp hx
    obtain ⟨r', hr', htakes'⟩ := mem_filterMap.mp (mem_filter.mp he).1
    obtain ⟨v', m', _, hv', hm', htakes''⟩ := hstep.resourceTakes hfollows hcounts hr'
    rw [htakes''] at htakes'
    cases htakes'
    cases d with
    | vcpu => exact hv'
    | memory => exact hm'
  have hge : ∀ d, (⟨vcpus * flv.count, ram * flv.count⟩ : CPUAndMemory).amount d ≤
      (takes snap site alloc sel).amount d := by
    intro d
    rw [takes, demand, resInfo, takes_amount]
    apply single_le_sum (hnonneg d)
    exact mem_map.mpr ⟨_, mem_filter.mpr ⟨hentry, by simp⟩, rfl⟩
  exact ⟨mem_takes.mpr ⟨_, hentry, rfl⟩, hge .vcpu, hge .memory⟩

end InStep

variable (h : Booking settings ord snap alloc siteID info info' site sel bound)
include h

theorem Booking.counts : sel.flavors.map (·.count) = alloc.stack.resources.map (·.count) := by
  obtain ⟨aggs, haggs, hchosen⟩ := h.chosen
  exact hchosen.counts haggs

variable {flv : FlavorInfo} {total : CPUAndMemory} (hfollows : Follows snap info site alloc sel)
include hfollows

theorem Booking.covered (hR : alloc.replicas ≤ 2 ^ 53) (hflv : flv ∈ sel.flavors) :
    ∃ a, info.allocatableFlavor.lookup flv.flavor.flavorID = some a ∧
      bound.length * flv.count ≤ a := by
  obtain ⟨aggs, haggs, info₁, agg, n, hinfo, hmatch, rfl⟩ := h.chosen
  obtain rfl : info₁ = info := Option.some.inj (hinfo.symm.trans h.found)
  obtain ⟨a, ha, hle, hcover⟩ := firstMatch_covers hmatch
    (fun flv hflv => (hfollows.plain flv hflv).1) hfollows.once flv hflv
  have hpos := (hfollows.plain flv hflv).2
  refine ⟨a, ha, ?_⟩
  have ha0 : 0 ≤ a := by omega
  have hquot : 0 ≤ a.tdiv flv.count := Int.tdiv_nonneg ha0 (by omega)
  have hcount := h.count
  -- Either a float holds the quotient, or it is larger than any request.
  have hk : (bound.length : Int) ≤ a.tdiv flv.count := by
    by_cases hsmall : a.tdiv flv.count ≤ 2 ^ 53
    · have hn := hcover (whole_of_abs_le (by rwa [abs_of_nonneg hquot]))
      rw [max_eq_right hquot] at hn
      exact hcount.trans ((min_le_right _ _).trans (max_le hquot hn))
    · exact (hcount.trans (min_le_left _ _)).trans (hR.trans (not_le.mp hsmall).le)
  calc (bound.length : Int) * flv.count ≤ a.tdiv flv.count * flv.count := by gcongr
    _ ≤ a := by
      rw [Int.tdiv_eq_ediv_of_nonneg ha0]
      exact Int.ediv_mul_le _ (by omega)

theorem Booking.fits
    (htotal : info.totalResources.lookup defaultResourceType = some total) (d : Dimension) :
    bound.length * (takes snap site alloc sel).amount d ≤
      max 0 (free info total defaultResourceType d) := by
  have hroom := (hfollows.room total htotal).2 d
  have hcount := h.count
  rcases le_total 0 ((takes snap site alloc sel).amount d)
    with hpos | hneg
  · exact (mul_le_mul_of_nonneg_right hcount hpos).trans hroom
  · exact le_max_of_le_left (mul_nonpos_of_nonneg_of_nonpos (by positivity) hneg)

/-- **The requests go up by what is bound.** -/
theorem Booking.requested
    (htotal : info.totalResources.lookup defaultResourceType = some total) (d : Dimension) :
    free info' total defaultResourceType d + bound.length * (takes snap site alloc sel).amount d =
      free info total defaultResourceType d := by
  have hreq := (h.booked.requested hfollows.untyped (hfollows.room total htotal).1).2 d
  rw [free, hreq, free, takes]
  ring

/-- **The count of a chosen flavor goes down by what is bound.** -/
theorem Booking.counted (hflv : flv ∈ sel.flavors)
    {a a' : Int} (ha : info.allocatableFlavor.lookup flv.flavor.flavorID = some a)
    (ha' : info'.allocatableFlavor.lookup flv.flavor.flavorID = some a') :
    a' + bound.length * flv.count ≤ a := by
  rcases hfollows.counted with ⟨hearly, hone⟩ | ⟨total, htotal, hstep⟩
  · have hdown := h.booked.deducted h.hosted hfollows.untyped hearly ha ha'
    rw [hone flv hflv]
    omega
  · rcases Nat.eq_zero_or_pos bound.length with hzero | hpos
    · have hle := h.booked.lowered.counts _ a a' ha ha'
      rw [hzero]
      simpa using hle
    · obtain ⟨vcpus, ram, hlisted, hv, hr, hmin⟩ := hstep.counts flv hflv
      obtain ⟨hdefault, hdv, hdm⟩ := hstep.demand_ge hfollows h.counts hflv hlisted
      have hc := (hfollows.plain flv hflv).2
      have hk : (1 : Int) ≤ bound.length := by exact_mod_cast hpos
      -- What is free before covers the copies, and what is free after is the rest of it.
      have hleft : ∀ d v, 0 < v → v * flv.count ≤
          (takes snap site alloc sel).amount d →
          (free info' total defaultResourceType d).tdiv v + bound.length * flv.count ≤
            (free info total defaultResourceType d).tdiv v := by
        intro d v hvpos hge
        have hone : 1 ≤ (takes snap site alloc sel).amount d :=
          (one_le_mul_of_one_le_of_one_le hvpos hc).trans hge
        have hsome : 1 ≤ bound.length * (takes snap site alloc sel).amount d :=
          one_le_mul_of_one_le_of_one_le hk hone
        have hfits := h.fits hfollows htotal d
        rw [eq_sub_of_add_eq (h.requested hfollows htotal d)]
        exact tdiv_sub_add_le hvpos (by omega) hge (by omega) (by omega)
      have hcap := h.booked.capped hpos h.hosted hfollows.untyped hdefault
        (by rw [hstep.region.1]; exact hstep.listed) htotal (by rw [hstep.region.1]; exact hlisted)
        (flavorCount_eq hv.ne' hr.ne') ha'
      have hvcpu := hleft .vcpu vcpus hv hdv
      have hmemory := hleft .memory ram hr hdm
      obtain ⟨hcapv, hcapm⟩ := le_min_iff.mp hcap
      rcases min_le_iff.mp (hmin a ha) with hle | hle
      · exact (add_le_add_left hcapv _).trans (hvcpu.trans hle)
      · exact (add_le_add_left hcapm _).trans (hmemory.trans hle)

end Call

end GlobalScheduler.Schedule
