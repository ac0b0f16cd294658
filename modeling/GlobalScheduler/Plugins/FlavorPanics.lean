import GlobalScheduler.Plugins.FlavorMatch

/-! When the flavor plugin stops with a panic.

The enumeration takes an index into the flavors of every resource, so that a resource
without one stops it, and so does a stack without resources. Matching divides by the count
of a flavor that the site has, whatever the count. The combinations are matched one after
the other up to the first that fits, and within one the runtime chooses the order, so a
count of zero stops some run exactly if it stands in a combination that is reached. -/
namespace GlobalScheduler.FlavorPlugin

open Go Odometer LastWrite Outcome SiteCacheInfo Fp Map

/-! ### The enumeration -/

/-- There is a resource, and either the first has no flavor or all others have one. -/
def Enumerable : List Resource → Prop
  | [] => False
  | r :: rest => r.flavors = [] ∨ ∀ r' ∈ rest, r'.flavors ≠ []

theorem flavors_ne_nil_of_aggregateAt {resources : List Resource} {temp agg : FlavorAggregate}
    (h : aggregateAt (resources.map fun _ => 0) resources temp = .ok agg) :
    ∀ r ∈ resources, r.flavors ≠ [] := by
  induction resources generalizing temp with
  | nil => simp
  | cons r rest ih =>
    rw [List.map_cons, aggregateAt] at h
    cases hflavors : r.flavors with
    | nil =>
      rw [hflavors] at h
      cases h
    | cons flavor others =>
      rw [hflavors] at h
      exact List.forall_mem_cons.mpr ⟨by simp [hflavors], ih h⟩

theorem enumerable_of_ok {stack : Stack} {aggs : FlavorAggregates}
    (h : calculateFlavorAggregate stack = .ok aggs) : Enumerable stack.resources := by
  obtain ⟨aggs', hloop, -⟩ := bind_ok.mp h
  cases hresources : stack.resources with
  | nil =>
    rw [hresources] at hloop
    cases hloop
  | cons r rest =>
    rw [hresources, List.map_cons, List.map_cons, aggregatesFrom] at hloop
    by_cases hflavors : 0 < r.flavors.length
    · rw [if_pos hflavors] at hloop
      obtain ⟨agg, hagg, -⟩ := bind_ok.mp hloop
      have hall : ∀ r' ∈ r :: rest, r'.flavors ≠ [] := flavors_ne_nil_of_aggregateAt hagg
      exact Or.inr fun r' hr' => hall r' (List.mem_cons_of_mem r hr')
    · exact Or.inl (List.length_eq_zero_iff.mp (by omega))

theorem Enumerable.calculate {stack : Stack} (h : Enumerable stack.resources) :
    ∃ aggs, calculateFlavorAggregate stack = .ok ⟨aggs⟩ ∧
      aggs.map (·.flavors) = choices stack.resources := by
  cases hresources : stack.resources with
  | nil =>
    rw [hresources] at h
    exact h.elim
  | cons r rest =>
    rw [hresources] at h
    cases h with
    | inl hnone =>
      refine ⟨[], ?_, by simp [choices, hnone]⟩
      rw [calculateFlavorAggregate, hresources, List.map_cons, List.map_cons, aggregatesFrom,
        if_neg (by simp [hnone])]
      rfl
    | inr hall =>
      rw [← hresources]
      exact calculateFlavorAggregate_choices hresources hall

/-! ### Spot machines -/

section Roundings
variable (single double : Format)

/-- The capacity is not below the count. -/
def Covers (capacity : Option Fp) (count : Int) : Prop :=
  ∃ x, capacity = some x ∧ lt x (.ofInt single count) = false

/-- The pools match the request: a block by its hours, and another where it is not below the
capacity. -/
def SpotCovered (request : SpotHours) (spotFlv : SpotResource) : Prop :=
  if request.isSpotBlock then
    ∀ key value, request.preemptibleResourceFinite.lookup key = some value →
      Covers single ((spotPools request spotFlv).1.finite.lookup key) value ∧
        Covers single ((spotPools request spotFlv).2.finite.lookup key) value
  else
    lt (.ofInt single request.infinite) (spotPools request spotFlv).1.infinite = false ∧
      lt (.ofInt single request.infinite) (spotPools request spotFlv).2.infinite = false

def hourQuotients (cpu mem : PreemptibleResource) (e : String × Int) : List Fp :=
  [convert double (div single ((cpu.finite.lookup e.1).getD .nan) (.ofInt single e.2)),
    convert double (div single ((mem.finite.lookup e.1).getD .nan) (.ofInt single e.2))]

/-- The quotients of a flavor: without a time limit the request is divided by the capacity. -/
def quotients (hours : List String) (request : SpotHours) (spotFlv : SpotResource) : List Fp :=
  if request.isSpotBlock then
    (entriesBy hours request.preemptibleResourceFinite).flatMap
      (hourQuotients single double (spotPools request spotFlv).1 (spotPools request spotFlv).2)
  else
    let quotient := convert double (div single (.ofInt single request.infinite) (spotPools request spotFlv).1.infinite)
    [quotient, quotient]

end Roundings

/-- The site matches the spot requests of the choice; with `spot_fake` set it always does. -/
def SpotFits (fake : Bool) (info : SiteCacheInfo) (choice : List FlavorInfo) : Prop :=
  fake = true ∨ ∀ f request, (choice.foldl countFlavor (∅, ∅)).2.lookup f = some request →
    ∃ spotFlv, info.allocatableSpotFlavor.lookup f = some spotFlv ∧ SpotCovered .float32 request spotFlv

section Spot
variable {single double : Format} {info : SiteCacheInfo} {site : Site}

@[simp] theorem covers_none (count : Int) : ¬ Covers single none count := by
  simp [Covers]

@[simp] theorem covers_some (x : Fp) (count : Int) :
    Covers single (some x) count ↔ lt x (.ofInt single count) = false := by
  simp [Covers]

theorem spotHoursLoop_some {cpu mem : PreemptibleResource} {es : List (String × Int)} {x y : Fp} :
    spotHoursLoop single double cpu mem es x = some y ↔
      (∀ e ∈ es, Covers single (cpu.finite.lookup e.1) e.2 ∧ Covers single (mem.finite.lookup e.1) e.2) ∧
        (es.flatMap (hourQuotients single double cpu mem)).foldl min x = y := by
  induction es generalizing x with
  | nil => simp [spotHoursLoop]
  | cons e rest ih =>
    rw [List.forall_mem_cons, List.flatMap_cons, List.foldl_append, spotHoursLoop, hourQuotients]
    cases hcpu : cpu.finite.lookup e.1 with
    | none => simp
    | some c =>
      cases hless : lt c (.ofInt single e.2) with
      | true => simp [hless]
      | false =>
        cases hmem : mem.finite.lookup e.1 with
        | none => simp [hless]
        | some m =>
          cases hmless : lt m (.ofInt single e.2) with
          | true => simp [hless, hmless]
          | false => simp [hless, hmless, ih]

theorem spotFlavor_some {hours : List String} {request : SpotHours} {spotFlv : SpotResource} {x y : Fp} :
    spotFlavor single double hours request spotFlv x = some y ↔
      SpotCovered single request spotFlv ∧ (quotients single double hours request spotFlv).foldl min x = y := by
  unfold spotFlavor SpotCovered quotients
  cases request.isSpotBlock with
  | true =>
    simp only [if_true, spotHoursLoop_some]
    refine and_congr_left fun _ => ⟨fun hall key value hvalue => ?_, fun hall e he => ?_⟩
    · exact hall (key, value) (mem_entriesBy.mpr hvalue)
    · exact hall e.1 e.2 (mem_entriesBy.mp he)
  | false =>
    simp only [Bool.false_eq_true, if_false]
    split
    case isTrue hless => simp [hless]
    case isFalse hcpu =>
      split
      case isTrue hless => simp [hless]
      case isFalse hmem => simp [hcpu, hmem]

/-- A match of all flavors, and its copies. -/
theorem spotFlavorLoop_true {hours : String → List String} {es : List (String × SpotHours)} {x : Fp} {n : Int} :
    spotFlavorLoop single double hours info es x = .ok (true, n) ↔
      (∀ e ∈ es, ∃ spotFlv, info.allocatableSpotFlavor.lookup e.1 = some spotFlv ∧
        SpotCovered single e.2 spotFlv) ∧
      ((es.flatMap fun e => ((info.allocatableSpotFlavor.lookup e.1).map
        (quotients single double (hours e.1) e.2)).getD []).foldl min x).toInt64 = n := by
  induction es generalizing x with
  | nil =>
    show (Except.ok (true, x.toInt64) : Outcome _) = _ ↔ _
    simp
  | cons e rest ih =>
    rw [List.forall_mem_cons, List.flatMap_cons, List.foldl_append, spotFlavorLoop]
    cases hlookup : info.allocatableSpotFlavor.lookup e.1 with
    | none =>
      refine iff_of_false (fun h => ?_) (by simp)
      obtain ⟨site, -, hpure⟩ := bind_ok.mp h
      cases hpure
    | some spotFlv =>
      rw [Option.bind_some]
      cases hmatch : spotFlavor single double (hours e.1) e.2 spotFlv x with
      | none =>
        refine iff_of_false (fun h => ?_) (fun h => ?_)
        · obtain ⟨site, -, hpure⟩ := bind_ok.mp h
          cases hpure
        · obtain ⟨spotFlv', hsame, hmatched⟩ := h.1.1
          cases hsame
          cases hmatch.symm.trans (spotFlavor_some.mpr ⟨hmatched, rfl⟩)
      | some y =>
        obtain ⟨hmatched, hfold⟩ := spotFlavor_some.mp hmatch
        rw [ih, Option.map_some, Option.getD_some, hfold]
        refine and_congr_left fun _ => ⟨fun hrest => ⟨⟨spotFlv, rfl, hmatched⟩, hrest⟩, And.right⟩

theorem spotFlavorLoop_returns (hsite : info.site = some site) (hours : String → List String)
    (es : List (String × SpotHours)) (x : Fp) : ∃ r, spotFlavorLoop single double hours info es x = .ok r := by
  induction es generalizing x with
  | nil => exact ⟨_, rfl⟩
  | cons e rest ih =>
    rw [spotFlavorLoop]
    split
    · exact ⟨_, bind_ok.mpr ⟨site, getSite_ok.mpr hsite, rfl⟩⟩
    · exact ih _

theorem isSpotFlavorMatch_ok (hsite : info.site = some site) (fake : Bool) (ord : Orders)
    (agg : FlavorAggregate) :
    ∃ b n, isSpotFlavorMatch .float32 .float64 fake ord (getFlavorToCount agg).2 info = .ok (b, n) ∧
      (b = true ↔ SpotFits fake info agg.flavors) := by
  cases fake with
  | true => exact ⟨true, 1000, rfl, by simp [SpotFits]⟩
  | false =>
    obtain ⟨⟨b, n⟩, hloop⟩ := @spotFlavorLoop_returns .float32 .float64 _ _ hsite ord.hours
      (entriesBy ord.spot (getFlavorToCount agg).2) maxFloat64
    refine ⟨b, n, hloop, ?_⟩
    simp only [SpotFits, Bool.false_eq_true, false_or]
    constructor
    · rintro rfl f request hreq
      exact (spotFlavorLoop_true.mp hloop).1 (f, request) (mem_entriesBy.mpr hreq)
    · intro hall
      cases hloop.symm.trans (spotFlavorLoop_true.mpr ⟨fun e he => hall e.1 e.2 (mem_entriesBy.mp he), rfl⟩)
      rfl

end Spot

/-! ### The division -/

/-- A flavor that the site has stands in the choice with the count zero. -/
def DividesByZero (info : SiteCacheInfo) (choice : List FlavorInfo) : Prop :=
  ∃ f, lastCount choice f = some 0 ∧ Covered info f 0

/-- No choice up to the first that fits divides by zero. -/
def SafeChoices (fake : Bool) (info : SiteCacheInfo) : List (List FlavorInfo) → Prop
  | [] => True
  | choice :: rest => ¬ DividesByZero info choice ∧
      (LastFits info choice ∧ SpotFits fake info choice ∨ SafeChoices fake info rest)

section Division
variable {info : SiteCacheInfo} {site : Site} {agg : FlavorAggregate}

theorem isComFlavorMatch_divides (h : DividesByZero info agg.flavors) :
    ∃ ord, isComFlavorMatch ord (getFlavorToCount agg).1 info = .error .divideByZero := by
  obtain ⟨f, hzero, a, ha, hle⟩ := h
  rw [← getFlavorToCount_lookup] at hzero
  obtain ⟨rest, hentries⟩ := entriesBy_first hzero
  refine ⟨{ flavors := [f] }, ?_⟩
  rw [isComFlavorMatch, hentries, comFlavorLoop, ha]
  simp only [if_neg (not_lt.mpr hle)]
  rfl

/-- **The loop returns for every order exactly if no choice it comes to divides by zero.** -/
theorem firstMatch_returns_iff (fake : Bool) (hsite : info.site = some site)
    (aggs : List FlavorAggregate) (i : Nat) :
    (∀ ord, ∃ found, firstMatch fake ord info i aggs = .ok found) ↔
      SafeChoices fake info (aggs.map (·.flavors)) := by
  induction aggs generalizing i with
  | nil => exact iff_of_true (fun _ => ⟨none, rfl⟩) trivial
  | cons agg rest ih =>
    rw [List.map_cons, SafeChoices]
    by_cases hzero : DividesByZero info agg.flavors
    · refine iff_of_false (fun hall => ?_) fun hsafe => hsafe.1 hzero
      obtain ⟨ord, hord⟩ := isComFlavorMatch_divides hzero
      obtain ⟨found, hfound⟩ := hall fun _ => ord
      obtain ⟨com, hcom, -⟩ := bind_ok.mp hfound
      rw [hord] at hcom
      cases hcom
    · have hnonzero : ∀ f c, lastCount agg.flavors f = some c → Covered info f c → c ≠ 0 := by
        intro f c hc hcovered hc0
        subst hc0
        exact hzero ⟨f, hc, hcovered⟩
      have hround : ∀ ord, ∃ taken, (taken = none ↔ ¬ (LastFits info agg.flavors ∧
          SpotFits fake info agg.flavors)) ∧ firstMatch fake ord info i (agg :: rest) =
            taken.elim (firstMatch fake ord info (i + 1) rest) fun n => .ok (some (agg, n)) := by
        intro ord
        obtain ⟨b, n, hcom, hb⟩ := isComFlavorMatch_ok hsite (ord i) hnonzero
        obtain ⟨b', n', hspot, hb'⟩ := isSpotFlavorMatch_ok hsite fake (ord i) agg
        rw [← hb, ← hb']
        refine ⟨if b && b' then some (stackMaxCount (getFlavorToCount agg) n n') else none, ?_, ?_⟩
        · cases b <;> cases b' <;> simp
        · rw [firstMatch, hcom]
          cases b <;> cases b' <;>
            simp only [bind, Except.bind, hspot] <;> rfl
      by_cases hfits : LastFits info agg.flavors ∧ SpotFits fake info agg.flavors
      · refine iff_of_true (fun ord => ?_) ⟨hzero, Or.inl hfits⟩
        obtain ⟨taken, htaken, hfirst⟩ := hround ord
        obtain ⟨n, rfl⟩ := Option.ne_none_iff_exists'.mp fun hnone => htaken.mp hnone hfits
        exact ⟨_, hfirst⟩
      · have hnext : ∀ ord, firstMatch fake ord info i (agg :: rest) =
            firstMatch fake ord info (i + 1) rest := by
          intro ord
          obtain ⟨taken, htaken, hfirst⟩ := hround ord
          rw [hfirst, htaken.mpr hfits]
          rfl
        simp [hnext, ih (i + 1), hzero, hfits]

end Division

/-! ### The plugin's calls -/

/-- The three calls return, for every order of the runtime. -/
def Completes (fake : Bool) (state : CycleState) (stack : Stack) (info : SiteCacheInfo) : Prop :=
  ∃ state₁ status, preFilter state stack = .ok (state₁, status) ∧
    ∀ ord, (∃ result, filter fake ord state₁ info = .ok result) ∧
      ∃ result, score fake ord state₁ info = .ok result

theorem completes_iff {info : SiteCacheInfo} {site : Site} (hsite : info.site = some site)
    (fake : Bool) (state : CycleState) (stack : Stack) :
    Completes fake state stack info ↔
      Enumerable stack.resources ∧ SafeChoices fake info (choices stack.resources) := by
  constructor
  · intro ⟨state₁, status, hpre, hcalls⟩
    obtain ⟨aggs, haggs, hstate⟩ := bind_ok.mp hpre
    have henumerable := enumerable_of_ok haggs
    refine ⟨henumerable, ?_⟩
    obtain ⟨aggs', haggs', hchoices⟩ := henumerable.calculate
    rw [haggs] at haggs'
    cases haggs'
    cases hstate
    rw [← hchoices, ← firstMatch_returns_iff fake hsite aggs' 0]
    intro ord
    obtain ⟨result, hfilter⟩ := (hcalls ord).1
    obtain ⟨found, hfound, -⟩ := bind_ok.mp hfilter
    exact ⟨found, hfound⟩
  · intro ⟨henumerable, hsafe⟩
    obtain ⟨aggs, haggs, hchoices⟩ := henumerable.calculate
    rw [← hchoices, ← firstMatch_returns_iff fake hsite aggs 0] at hsafe
    refine ⟨_, _, bind_ok.mpr ⟨_, haggs, rfl⟩, fun ord => ?_⟩
    obtain ⟨found, hfound⟩ := hsafe ord
    have hget : info.getSite = .ok site := getSite_ok.mpr hsite
    cases found with
    | none =>
      exact ⟨⟨_, bind_ok.mpr ⟨_, hfound, bind_ok.mpr ⟨_, hget, rfl⟩⟩⟩,
        _, bind_ok.mpr ⟨_, hfound, rfl⟩⟩
    | some taken =>
      exact ⟨⟨_, bind_ok.mpr ⟨_, hfound, rfl⟩⟩,
        _, bind_ok.mpr ⟨_, hfound, bind_ok.mpr ⟨_, hget, rfl⟩⟩⟩

end GlobalScheduler.FlavorPlugin
