import GlobalScheduler.Plugins.FlavorPanics

/-! Spot capacity.

A block request is matched hour entry by hour entry against the capacity of both
dimensions. A request without a time limit is compared the other way round: it is refused
where the capacity is larger than the request, and it is the request that is divided by
the capacity. So a site with too little is accepted, and the number of copies grows as the
capacity shrinks.

The plugin takes its roundings as parameters; what is proved is about exact rationals. -/
namespace GlobalScheduler.FlavorPlugin.Spot

open Go Outcome Fp AList Map List

/-! ### What a request asks for -/

/-- What a request asks of a pool: each count, with the capacity of its kind. -/
def asked (request : SpotHours) (pool : PreemptibleResource) : List (Int × Option Fp) :=
  if request.isSpotBlock then
    (entriesBy [] request.preemptibleResourceFinite).map fun e => (e.2, pool.finite.lookup e.1)
  else [(request.infinite, some pool.infinite)]

def demands (request : SpotHours) (spotFlv : SpotResource) : List (Int × Option Fp) :=
  asked request (spotPools request spotFlv).1 ++ asked request (spotPools request spotFlv).2

/-- The capacity is there for the count, and for `n` times the count. -/
def Enough (n : Int) (demand : Int × Option Fp) : Prop :=
  ∃ capacity : ℚ, demand.2 = some (.fin capacity) ∧ (demand.1 : ℚ) ≤ capacity ∧ (n : ℚ) * demand.1 ≤ capacity

/-- **A match is a promise**: where the plugin says that the site matches, with `n` copies, the
site has the capacity for one copy and for `n`. -/
def MatchRight (map : Map String SpotHours) (info : SiteCacheInfo) : Prop :=
  ∀ ord n, isSpotFlavorMatch .rational .rational false ord map info = .ok (true, n) →
    ∀ flavorID request, map.lookup flavorID = some request →
      ∃ spotFlv, info.allocatableSpotFlavor.lookup flavorID = some spotFlv ∧
        ∀ demand ∈ demands request spotFlv, Enough n demand

/-- The capacities of a pool are rational numbers. -/
structure PoolExact (pool : PreemptibleResource) : Prop where
  infinite : ∃ q, pool.infinite = .fin q
  finite : ∀ key x, pool.finite.lookup key = some x → ∃ q, x = .fin q

/-- The spot capacities of a site are rational numbers. -/
def Exact (info : SiteCacheInfo) : Prop :=
  ∀ flavorID spotFlv, info.allocatableSpotFlavor.lookup flavorID = some spotFlv →
    ∀ request, PoolExact (spotPools request spotFlv).1 ∧ PoolExact (spotPools request spotFlv).2

/-! ### What the plugin computes -/

/-- The quotients of all flavors, in the order of the loops. -/
def siteQuotients (ord : Orders) (map : Map String SpotHours) (info : SiteCacheInfo) : List Fp :=
  (entriesBy ord.spot map).flatMap fun e =>
    ((info.allocatableSpotFlavor.lookup e.1).map (quotients .rational .rational (ord.hours e.1) e.2)).getD []

/-- The copies of a match, in whatever order the maps are gone through. -/
def spotCopies (map : Map String SpotHours) (info : SiteCacheInfo) : Int :=
  ((siteQuotients {} map info).foldl min maxFloat64).toInt64

section
variable {info : SiteCacheInfo} {map : Map String SpotHours}

theorem convert_rational (x : Fp) : convert .rational x = x := by
  cases x <;> rfl

theorem siteQuotients_perm (ord : Orders) (map : Map String SpotHours) (info : SiteCacheInfo) :
    (siteQuotients ord map info).Perm (siteQuotients {} map info) := by
  apply ((entriesBy_perm_entriesBy ord.spot [] map).flatMap_right _).trans
  apply List.Perm.flatMap_left
  intro e _
  cases info.allocatableSpotFlavor.lookup e.1 with
  | none => exact List.Perm.refl _
  | some spotFlv =>
    unfold quotients
    split
    · exact (entriesBy_perm_entriesBy _ _ _).flatMap_right _
    · exact List.Perm.refl _

/-- What the plugin takes for a match. -/
def Accepts (map : Map String SpotHours) (info : SiteCacheInfo) : Prop :=
  ∀ flavorID request, map.lookup flavorID = some request →
    ∃ spotFlv, info.allocatableSpotFlavor.lookup flavorID = some spotFlv ∧ SpotCovered .rational request spotFlv

/-- **What the plugin returns for a match.** -/
theorem isSpotFlavorMatch_true {ord : Orders} {n : Int} :
    isSpotFlavorMatch .rational .rational false ord map info = .ok (true, n) ↔
      Accepts map info ∧ spotCopies map info = n := by
  unfold isSpotFlavorMatch spotCopies
  rw [if_neg Bool.false_ne_true, spotFlavorLoop_true]
  have hfold := (siteQuotients_perm ord map info).foldl_eq (f := min) maxFloat64
  unfold siteQuotients at hfold ⊢
  rw [hfold]
  refine and_congr_left fun _ => ⟨fun hall flavorID request hreq => ?_, fun hall e he => ?_⟩
  · exact hall (flavorID, request) (mem_entriesBy.mpr hreq)
  · exact hall e.1 e.2 (mem_entriesBy.mp he)

/-! ### When a match keeps its promise -/

/-- What a match has to meet besides: a request without a time limit asks for exactly the
capacity, and a negative count is met by each quotient that is not above one. -/
structure Suits (map : Map String SpotHours) (info : SiteCacheInfo) (request : SpotHours)
    (spotFlv : SpotResource) : Prop where
  infinite : request.isSpotBlock = false → ∀ demand ∈ demands request spotFlv, demand.2 = some (.fin demand.1)
  negative : ∀ demand ∈ demands request spotFlv, demand.1 < 0 →
    ∀ capacity : ℚ, demand.2 = some (.fin capacity) →
      ∀ quotient ∈ siteQuotients {} map info, lt (.fin 1) quotient = false →
        (quotient.toInt64 : ℚ) * demand.1 ≤ capacity

variable {flavorID : String} {request : SpotHours} {spotFlv : SpotResource}

theorem mem_siteQuotients (hreq : map.lookup flavorID = some request)
    (hlookup : info.allocatableSpotFlavor.lookup flavorID = some spotFlv) {q : Fp}
    (hq : q ∈ quotients .rational .rational [] request spotFlv) : q ∈ siteQuotients {} map info := by
  refine mem_flatMap.mpr ⟨(flavorID, request), mem_entriesBy.mpr hreq, ?_⟩
  rw [hlookup]
  exact hq

theorem spotCopies_le {q : ℚ} (hq : fin q ∈ siteQuotients {} map info) (hnonneg : 0 ≤ q) :
    (spotCopies map info : ℚ) ≤ q :=
  (toInt64_le_of_rank (rank_foldl_min_le hq)).trans_eq (max_eq_right hnonneg)

theorem lt_rational {a b : ℚ} : lt (.fin a) (.fin b) = false ↔ b ≤ a := by
  rw [lt, decide_eq_false_iff_not, not_lt]

theorem div_rational {capacity : ℚ} {count : Int} (hne : count ≠ 0) :
    div .rational (.fin capacity) (.ofInt .rational count) = .fin (capacity / count) := by
  have hcount : ((count : ℚ)) ≠ 0 := by exact_mod_cast hne
  show (if (count : ℚ) = 0 then _ else _) = _
  rw [if_neg hcount]
  rfl

/-- The copies of a match with a quotient that is not above one are one of the quotients, cut. -/
theorem spotCopies_mem {q : Fp} (hq : q ∈ siteQuotients {} map info) (hone : lt (.fin 1) q = false) :
    ∃ least ∈ siteQuotients {} map info, lt (.fin 1) least = false ∧ least.toInt64 = spotCopies map info := by
  have hleast : rank ((siteQuotients {} map info).foldl min maxFloat64) ≤ rank (.fin 1) :=
    (rank_foldl_min_le hq).trans (lt_fin_eq_false.mp hone)
  rcases foldl_min_mem (siteQuotients {} map info) maxFloat64 with hmax | hmem
  · rw [hmax] at hleast
    have hbound := two_pow_le_maxFloat64.trans (rank_fin_le.mp hleast)
    norm_num at hbound
  · exact ⟨_, hmem, lt_fin_eq_false.mpr hleast, rfl⟩

theorem spotCopies_le_toInt64 {q : Fp} (hq : q ∈ siteQuotients {} map info) (hone : lt (.fin 1) q = false) :
    spotCopies map info ≤ q.toInt64 :=
  toInt64_mono (rank_foldl_min_le hq) (lt_fin_eq_false.mp hone) (by norm_num)

theorem enough_of_quotient {count : Int} {capacity : ℚ} (hcovered : (count : ℚ) ≤ capacity)
    (hquotient : count ≠ 0 → fin (capacity / count) ∈ siteQuotients {} map info)
    (hnegative : count < 0 → ∀ quotient ∈ siteQuotients {} map info, lt (.fin 1) quotient = false →
      (quotient.toInt64 : ℚ) * count ≤ capacity) :
    Enough (spotCopies map info) (count, some (.fin capacity)) := by
  refine ⟨capacity, rfl, hcovered, ?_⟩
  rcases lt_trichotomy count 0 with hneg | hzero | hpos
  · -- The quotient of a negative count is at most one.
    have hcount : (count : ℚ) < 0 := by exact_mod_cast hneg
    obtain ⟨least, hmem, hone, hcopies⟩ := spotCopies_mem (hquotient hneg.ne)
      (lt_rational.mpr ((div_le_one_of_neg hcount).mpr hcovered))
    rw [← hcopies]
    exact hnegative hneg least hmem hone
  · rw [hzero] at hcovered ⊢
    simpa using hcovered
  · have hcount : (0 : ℚ) < count := by exact_mod_cast hpos
    have hcopies := spotCopies_le (hquotient hpos.ne') (div_nonneg (hcount.le.trans hcovered) hcount.le)
    exact (le_div_iff₀ hcount).mp hcopies

theorem quotients_block (hblock : request.isSpotBlock = true) {e : String × Int}
    (he : e ∈ entriesBy [] request.preemptibleResourceFinite) {q : Fp}
    (hq : q ∈ hourQuotients .rational .rational (spotPools request spotFlv).1 (spotPools request spotFlv).2 e) :
    q ∈ quotients .rational .rational [] request spotFlv := by
  unfold quotients
  rw [if_pos hblock]
  exact mem_flatMap.mpr ⟨e, he, hq⟩

theorem enough_block (hexact : PoolExact (spotPools request spotFlv).1 ∧ PoolExact (spotPools request spotFlv).2)
    (hreq : map.lookup flavorID = some request)
    (hlookup : info.allocatableSpotFlavor.lookup flavorID = some spotFlv) (hblock : request.isSpotBlock = true)
    (hmatched : SpotCovered .rational request spotFlv) (hsuits : Suits map info request spotFlv) :
    ∀ demand ∈ demands request spotFlv, Enough (spotCopies map info) demand := by
  unfold SpotCovered at hmatched
  rw [if_pos hblock] at hmatched
  have hpool : ∀ pool, PoolExact pool → (∀ demand ∈ asked request pool, demand ∈ demands request spotFlv) →
      (∀ e ∈ entriesBy [] request.preemptibleResourceFinite, Covers .rational (pool.finite.lookup e.1) e.2 ∧
        convert .rational (div .rational ((pool.finite.lookup e.1).getD .nan) (.ofInt .rational e.2)) ∈
          quotients .rational .rational [] request spotFlv) →
      ∀ demand ∈ asked request pool, Enough (spotCopies map info) demand := by
    intro pool hpool hdemands hentries demand hdemand
    have hnegative := hsuits.negative demand (hdemands demand hdemand)
    unfold asked at hdemand
    rw [if_pos hblock] at hdemand
    obtain ⟨e, he, rfl⟩ := mem_map.mp hdemand
    obtain ⟨⟨x, hx, hless⟩, hquotient⟩ := hentries e he
    obtain ⟨capacity, rfl⟩ := hpool.finite e.1 x hx
    rw [hx] at hquotient hnegative ⊢
    refine enough_of_quotient (lt_rational.mp hless) (fun hne => ?_) fun hneg => hnegative hneg capacity rfl
    rw [Option.getD_some, convert_rational, div_rational hne] at hquotient
    exact mem_siteQuotients hreq hlookup hquotient
  intro demand hdemand
  rcases mem_append.mp hdemand with hcpu | hmem
  · refine hpool _ hexact.1 (fun d hd => mem_append_left _ hd) (fun e he => ?_) demand hcpu
    exact ⟨(hmatched e.1 e.2 (mem_entriesBy.mp he)).1, quotients_block hblock he (mem_cons_self ..)⟩
  · refine hpool _ hexact.2 (fun d hd => mem_append_right _ hd) (fun e he => ?_) demand hmem
    exact ⟨(hmatched e.1 e.2 (mem_entriesBy.mp he)).2,
      quotients_block hblock he (mem_cons_of_mem _ (mem_singleton_self _))⟩

theorem demands_infinite (hblock : request.isSpotBlock = false) : demands request spotFlv =
    [(request.infinite, some (spotPools request spotFlv).1.infinite),
      (request.infinite, some (spotPools request spotFlv).2.infinite)] := by
  unfold demands asked
  rw [if_neg (by simp [hblock]), if_neg (by simp [hblock])]
  rfl

/-- A request without a time limit has the capacity if it asks for exactly that. -/
theorem enough_infinite (hreq : map.lookup flavorID = some request)
    (hlookup : info.allocatableSpotFlavor.lookup flavorID = some spotFlv) (hblock : request.isSpotBlock = false)
    (hsuits : Suits map info request spotFlv) :
    ∀ demand ∈ demands request spotFlv, Enough (spotCopies map info) demand := by
  have hquotient : request.infinite ≠ 0 → fin ((request.infinite : ℚ) / request.infinite) ∈ siteQuotients {} map info := by
    intro hne
    apply mem_siteQuotients hreq hlookup
    have hcapacity := hsuits.infinite hblock _ (by rw [demands_infinite hblock]; exact mem_cons_self ..)
    unfold quotients
    rw [if_neg (by simp [hblock]), convert_rational, Option.some.inj hcapacity, ← div_rational hne]
    exact mem_cons_self ..
  intro demand hdemand
  have hcapacity := hsuits.infinite hblock demand hdemand
  have hnegative := hsuits.negative demand hdemand
  have hcount : demand.1 = request.infinite := by
    rw [demands_infinite hblock] at hdemand
    rcases mem_cons.mp hdemand with rfl | hsecond
    · rfl
    · rw [mem_singleton.mp hsecond]
  obtain ⟨count, capacity⟩ := demand
  have hall : capacity = some (.fin request.infinite) := hcapacity.trans (by rw [hcount])
  cases hcount
  cases hall
  exact enough_of_quotient le_rfl hquotient fun hneg => hnegative hneg _ rfl

/-- What a request without a time limit is matched with is no more than it asks for. -/
theorem infinite_of_enough (hmatched : SpotCovered .rational request spotFlv) (hblock : request.isSpotBlock = false) {n : Int}
    (henough : ∀ demand ∈ demands request spotFlv, Enough n demand) :
    ∀ demand ∈ demands request spotFlv, demand.2 = some (.fin demand.1) := by
  have hpools : ∀ x : Fp, lt (.ofInt .rational request.infinite) x = false →
      Enough n (request.infinite, some x) → some x = some (.fin request.infinite) := by
    intro x hless henough
    obtain ⟨capacity, hcapacity, hle, -⟩ := henough
    cases hcapacity
    rw [le_antisymm (lt_rational.mp hless) hle]
    rfl
  unfold SpotCovered at hmatched
  rw [if_neg (by simp [hblock])] at hmatched
  rw [demands_infinite hblock] at henough ⊢
  intro demand hdemand
  rcases mem_cons.mp hdemand with rfl | hsecond
  · exact hpools _ hmatched.1 (henough _ (mem_cons_self ..))
  · rw [mem_singleton.mp hsecond]
    exact hpools _ hmatched.2 (henough _ (mem_cons_of_mem _ (mem_singleton_self _)))

/-- **A match keeps its promise exactly if** the requests without a time limit ask for the whole
capacity, no more and no less, and the negative counts are met by the quotients. -/
theorem matchRight_iff (hexact : Exact info) : MatchRight map info ↔
    (Accepts map info → ∀ flavorID request spotFlv, map.lookup flavorID = some request →
      info.allocatableSpotFlavor.lookup flavorID = some spotFlv → Suits map info request spotFlv) := by
  constructor
  · intro hright haccepts flavorID request spotFlv hreq hlookup
    obtain ⟨spotFlv', hlookup', henough⟩ :=
      hright {} _ (isSpotFlavorMatch_true.mpr ⟨haccepts, rfl⟩) flavorID request hreq
    obtain ⟨spotFlv'', hlookup'', hmatched⟩ := haccepts flavorID request hreq
    rw [hlookup] at hlookup' hlookup''
    cases hlookup'
    cases hlookup''
    refine ⟨fun hblock => infinite_of_enough hmatched hblock henough, ?_⟩
    intro demand hdemand hneg capacity hcapacity quotient hquotient hone
    obtain ⟨capacity', hcapacity', -, hcopies⟩ := henough demand hdemand
    rw [hcapacity] at hcapacity'
    cases hcapacity'
    have hle : (spotCopies map info : ℚ) ≤ quotient.toInt64 := by
      exact_mod_cast spotCopies_le_toInt64 hquotient hone
    exact (mul_le_mul_of_nonpos_right hle (by exact_mod_cast hneg.le)).trans hcopies
  · intro hsuits ord n hmatch flavorID request hreq
    obtain ⟨haccepts, rfl⟩ := isSpotFlavorMatch_true.mp hmatch
    obtain ⟨spotFlv, hlookup, hmatched⟩ := haccepts flavorID request hreq
    have hsuit := hsuits haccepts flavorID request spotFlv hreq hlookup
    refine ⟨spotFlv, hlookup, ?_⟩
    cases hblock : request.isSpotBlock with
    | true => exact enough_block (hexact flavorID spotFlv hlookup request) hreq hlookup hblock hmatched hsuit
    | false => exact enough_infinite hreq hlookup hblock hsuit

end

/-! ### Small inputs -/

/-- Pools with a capacity without a time limit, and the same for one hour. -/
def spotSitePools (capacity : ℚ) : SpotResource :=
  let pool : PreemptibleResource := ⟨.fin capacity, insert "1h" (.fin capacity) ∅⟩
  ⟨pool, pool, pool, pool⟩

/-- A site with such pools for the flavor `f`. -/
def spotSite (capacity : ℚ) : SiteCacheInfo where
  allocatableSpotFlavor := insert "f" (spotSitePools capacity) ∅

theorem lookup_insert_empty {V : Type} {key flavorID : String} {v v' : V}
    (h : (insert key v (∅ : Map String V)).lookup flavorID = some v') : flavorID = key ∧ v' = v := by
  by_cases hid : flavorID = key
  · rw [hid, lookup_insert] at h
    exact ⟨hid, (Option.some.inj h).symm⟩
  · rw [lookup_insert_ne hid] at h
    cases h

theorem exact_spotSite (capacity : ℚ) : Exact (spotSite capacity) := by
  intro flavorID spotFlv hlookup request
  have hpool : PoolExact ⟨.fin capacity, insert "1h" (.fin capacity) ∅⟩ :=
    ⟨⟨capacity, rfl⟩, fun key x hx => ⟨capacity, (lookup_insert_empty hx).2⟩⟩
  obtain ⟨-, rfl⟩ := lookup_insert_empty hlookup
  unfold spotPools
  split
  · exact ⟨hpool, hpool⟩
  · exact ⟨hpool, hpool⟩

/-- Two machines for an hour, on a site with five. -/
theorem matchRight_block :
    isSpotFlavorMatch .rational .rational false {}
        (insert "f" { isSpotBlock := true, preemptibleResourceFinite := insert "1h" 2 ∅ } ∅) (spotSite 5) =
      .ok (true, 2) ∧
    MatchRight (insert "f" { isSpotBlock := true, preemptibleResourceFinite := insert "1h" 2 ∅ } ∅)
      (spotSite 5) := by
  refine ⟨by decide +kernel, ?_⟩
  refine (matchRight_iff (exact_spotSite 5)).mpr fun _ flavorID request spotFlv hreq hlookup => ?_
  obtain ⟨rfl, rfl⟩ := lookup_insert_empty hreq
  obtain ⟨-, rfl⟩ := lookup_insert_empty hlookup
  refine ⟨fun hblock => (by cases hblock), fun demand hdemand hneg => ?_⟩
  have hcounts : ∀ demand ∈ demands { isSpotBlock := true, preemptibleResourceFinite := insert "1h" 2 ∅ }
      (spotSitePools 5), demand.1 = 2 := by
    decide +kernel
  rw [hcounts demand hdemand] at hneg
  exact absurd hneg (by decide)

/-- Ten machines without a time limit on a site with one: the site matches, with ten copies. -/
theorem match_without_capacity :
    isSpotFlavorMatch .rational .rational false {} (insert "f" { infinite := 10 } ∅) (spotSite 1) =
        .ok (true, 10) ∧
      demands { infinite := 10 } (spotSitePools 1) = [(10, some (.fin 1)), (10, some (.fin 1))] ∧
      ¬ MatchRight (insert "f" { infinite := 10 } ∅) (spotSite 1) := by
  have hmatch : isSpotFlavorMatch .rational .rational false {} (insert "f" { infinite := 10 } ∅) (spotSite 1) =
      .ok (true, 10) := by
    decide +kernel
  have hdemands : demands { infinite := 10 } (spotSitePools 1) = [(10, some (.fin 1)), (10, some (.fin 1))] := rfl
  refine ⟨hmatch, hdemands, fun hright => ?_⟩
  obtain ⟨spotFlv, hlookup, henough⟩ := hright {} 10 hmatch "f" { infinite := 10 } (lookup_insert _)
  cases hlookup
  obtain ⟨capacity, hcapacity, hle, -⟩ := henough (10, some (.fin 1)) (by rw [hdemands]; exact mem_cons_self ..)
  cases hcapacity
  exact absurd hle (by norm_num)

end GlobalScheduler.FlavorPlugin.Spot
