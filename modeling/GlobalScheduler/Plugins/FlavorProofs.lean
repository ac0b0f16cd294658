import GlobalScheduler.Plugins.Flavor

/-! What the flavor plugin records.

A combination has one flavor for each resource, with that resource's count. The
number of copies recorded with it went through floats, and is a whole number that
a float holds exactly. -/
namespace GlobalScheduler.FlavorPlugin

open Go Outcome Fp

/-! ### Combinations -/

theorem bump_length (lens ix : List Nat) : (bump lens ix).1.length = ix.length := by
  induction ix generalizing lens with
  | nil => cases lens <;> rfl
  | cons k ix ih =>
    cases lens with
    | nil => rfl
    | cons len lens =>
      rw [bump]
      dsimp only
      split_ifs <;> simp [ih]

theorem nextIndex_length (lens ix : List Nat) : (nextIndex lens ix).length = ix.length := by
  cases ix with
  | nil => rfl
  | cons k ix => simp [nextIndex, bump_length]

variable {agg : FlavorAggregate} {aggs : List FlavorAggregate} {n : Int} {info : SiteCacheInfo} {x : Fp}
  {es : List (String × Int)}

variable {ix : List Nat} {resources : List Resource}

theorem aggregateAt_counts {temp : FlavorAggregate} (hlen : ix.length = resources.length)
    (h : aggregateAt ix resources temp = .ok agg) :
    agg.flavors.map (·.count) = temp.flavors.map (·.count) ++ resources.map (·.count) := by
  induction resources generalizing ix temp with
  | nil =>
    obtain rfl : ix = [] := List.length_eq_zero_iff.mp hlen
    cases h
    simp
  | cons r rest ih =>
    cases ix with
    | nil => cases hlen
    | cons k ix =>
      rw [aggregateAt] at h
      split at h
      · exact absurd h (by simp [throw_ok])
      · rw [ih (by simpa using hlen) h]
        simp

theorem aggregatesFrom_counts {fuel : Nat} (hlen : ix.length = resources.length)
    (h : aggregatesFrom resources fuel ix = .ok aggs) :
    ∀ agg ∈ aggs, agg.flavors.map (·.count) = resources.map (·.count) := by
  induction fuel generalizing ix aggs with
  | zero =>
    cases h
    simp
  | succ fuel ih =>
    unfold aggregatesFrom at h
    split at h
    case h_1 k ix r rest =>
      split at h
      · obtain ⟨agg, hagg, h⟩ := bind_ok.mp h
        obtain ⟨others, hothers, h⟩ := bind_ok.mp h
        cases h
        intro agg' hmem
        rcases List.mem_cons.mp hmem with rfl | hmem
        · simpa using aggregateAt_counts hlen hagg
        · exact ih (by rw [nextIndex_length, hlen]) hothers agg' hmem
      · cases h
        simp
    case h_2 => exact absurd h (by simp [throw_ok])

/-- **A combination has one entry per resource, with its count.** -/
theorem calculateFlavorAggregate_counts {stack : Stack} {aggs : FlavorAggregates}
    (h : calculateFlavorAggregate stack = .ok aggs) :
    ∀ agg ∈ aggs.aggregates, agg.flavors.map (·.count) = stack.resources.map (·.count) := by
  obtain ⟨list, hlist, h⟩ := bind_ok.mp h
  cases h
  exact aggregatesFrom_counts (by simp) hlist

/-! ### The first match -/

section FirstMatch
variable {fake : Bool} {ord : Nat → Orders} {info : SiteCacheInfo}

/-- The plugin looked at the combination and passed it over. -/
def PassedOver (fake : Bool) (ord : Nat → Orders) (info : SiteCacheInfo) (agg : FlavorAggregate) : Prop :=
  ∃ j com spot, isComFlavorMatch (ord j) (getFlavorToCount agg).1 info = .ok com ∧
    isSpotFlavorMatch .float32 .float64 fake (ord j) (getFlavorToCount agg).2 info = .ok spot ∧ (com.1 && spot.1) = false

/-- The plugin looked at the combination and took it for so many copies. -/
def Taken (fake : Bool) (ord : Nat → Orders) (info : SiteCacheInfo) (agg : FlavorAggregate) (n : Int) :
    Prop :=
  ∃ j maxCom maxSpot, isComFlavorMatch (ord j) (getFlavorToCount agg).1 info = .ok (true, maxCom) ∧
    isSpotFlavorMatch .float32 .float64 fake (ord j) (getFlavorToCount agg).2 info = .ok (true, maxSpot) ∧
    n = stackMaxCount (getFlavorToCount agg) maxCom maxSpot

theorem firstMatch_cases {i : Nat} {found : Option (FlavorAggregate × Int)}
    (h : firstMatch fake ord info i aggs = .ok found) :
    (found = none ∧ ∀ agg ∈ aggs, PassedOver fake ord info agg) ∨
      ∃ before agg after n, aggs = before ++ agg :: after ∧ found = some (agg, n) ∧
        (∀ other ∈ before, PassedOver fake ord info other) ∧ Taken fake ord info agg n := by
  induction aggs generalizing i with
  | nil =>
    cases h
    exact Or.inl ⟨rfl, by simp⟩
  | cons agg rest ih =>
    obtain ⟨⟨com, maxCom⟩, hcom, hnext⟩ := bind_ok.mp h
    obtain ⟨⟨spot, maxSpot⟩, hspot, hrest⟩ := bind_ok.mp hnext
    dsimp only at hrest
    split at hrest
    case isTrue hboth =>
      cases hrest
      obtain ⟨rfl, rfl⟩ := Bool.and_eq_true_iff.mp hboth
      exact Or.inr ⟨[], agg, rest, _, rfl, rfl, by simp, i, maxCom, maxSpot, hcom, hspot, rfl⟩
    case isFalse hnot =>
      have hpassed : PassedOver fake ord info agg :=
        ⟨i, (com, maxCom), (spot, maxSpot), hcom, hspot, by simpa using hnot⟩
      cases ih hrest with
      | inl hnone => exact Or.inl ⟨hnone.1, List.forall_mem_cons.mpr ⟨hpassed, hnone.2⟩⟩
      | inr hsome =>
        obtain ⟨before, agg', after, n, hsplit, hfound, hbefore, htaken⟩ := hsome
        exact Or.inr ⟨agg :: before, agg', after, n, by rw [hsplit]; rfl, hfound,
          List.forall_mem_cons.mpr ⟨hpassed, hbefore⟩, htaken⟩

theorem firstMatch_taken {i : Nat} (h : firstMatch fake ord info i aggs = .ok (some (agg, n))) :
    agg ∈ aggs ∧ Taken fake ord info agg n := by
  cases firstMatch_cases h with
  | inl hnone => cases hnone.1
  | inr hsome =>
    obtain ⟨before, agg', after, n', rfl, heq, -, htaken⟩ := hsome
    cases heq
    exact ⟨by simp, htaken⟩

end FirstMatch

/-! ### Copies are floats -/

/-- A whole number that a `float64` holds. -/
def Whole (n : Int) : Prop := Format.float64.round (n : ℚ) = n

theorem whole_of_abs_le (h : |n| ≤ 2 ^ 53) : Whole n :=
  Format.nearest_of_holds (by decide) ⟨n, 0, h, by simp⟩

/-- One flavor: the loop ends without a match, or it goes on with what the flavor covers. -/
theorem comFlavorLoop_cons {e : String × Int} {rest : List (String × Int)}
    {b : Bool} (h : comFlavorLoop info (e :: rest) x = .ok (b, n)) :
    b = false ∧ n = 0 ∨ ∃ a, info.allocatableFlavor.lookup e.1 = some a ∧ e.2 ≤ a ∧
      comFlavorLoop info rest (min x (ofInt .float64 (a.tdiv e.2))) = .ok (b, n) := by
  rw [comFlavorLoop] at h
  split at h
  case h_1 =>
    obtain ⟨_, _, h⟩ := bind_ok.mp h
    cases h
    exact Or.inl ⟨rfl, rfl⟩
  case h_2 a ha =>
    split at h
    case isTrue =>
      obtain ⟨_, _, h⟩ := bind_ok.mp h
      cases h
      exact Or.inl ⟨rfl, rfl⟩
    case isFalse hge =>
      obtain ⟨copies, hcopies, h⟩ := bind_ok.mp h
      obtain ⟨_, rfl⟩ := quo_ok.mp hcopies
      exact Or.inr ⟨a, ha, not_lt.mp hge, h⟩

theorem comFlavorLoop_whole {b : Bool} (hx : x.IsValue .float64) (h : comFlavorLoop info es x = .ok (b, n)) :
    Whole n := by
  have hzero : Whole 0 := whole_of_abs_le (by decide)
  induction es generalizing x with
  | nil =>
    cases h
    exact hx.toInt64
  | cons e rest ih =>
    cases comFlavorLoop_cons h with
    | inl hnone => exact hnone.2 ▸ hzero
    | inr hgoes =>
      obtain ⟨a, _, _, h⟩ := hgoes
      exact ih (hx.min (isValue_ofInt _ _)) h

theorem spotHoursLoop_isValue {cpu mem : PreemptibleResource} {y : Fp}
    (hx : x.IsValue .float64) (h : spotHoursLoop .float32 .float64 cpu mem es x = some y) : y.IsValue .float64 := by
  induction es generalizing x with
  | nil =>
    cases h
    exact hx
  | cons e rest ih =>
    obtain ⟨cpuValue, _, h⟩ := Option.bind_eq_some_iff.mp h
    split at h
    · cases h
    · obtain ⟨memValue, _, h⟩ := Option.bind_eq_some_iff.mp h
      split at h
      · cases h
      · exact ih ((hx.min (isValue_convert _ _)).min (isValue_convert _ _)) h

theorem spotFlavor_isValue {hours : List String} {req : SpotHours} {flv : SpotResource} {y : Fp}
    (hx : x.IsValue .float64) (h : spotFlavor .float32 .float64 hours req flv x = some y) : y.IsValue .float64 := by
  unfold spotFlavor at h
  dsimp only at h
  split at h
  · exact spotHoursLoop_isValue hx h
  · split at h
    · cases h
    · split at h
      · cases h
      · cases h
        exact (hx.min (isValue_convert _ _)).min (isValue_convert _ _)

theorem spotFlavorLoop_whole {hours : String → List String}
    {es : List (String × SpotHours)} {b : Bool} (hx : x.IsValue .float64)
    (h : spotFlavorLoop .float32 .float64 hours info es x = .ok (b, n)) : Whole n := by
  induction es generalizing x with
  | nil =>
    cases h
    exact hx.toInt64
  | cons e rest ih =>
    rw [spotFlavorLoop] at h
    split at h
    · obtain ⟨_, _, h⟩ := bind_ok.mp h
      cases h
      exact whole_of_abs_le (by decide)
    case h_2 y hy =>
      obtain ⟨flv, _, hy⟩ := Option.bind_eq_some_iff.mp hy
      exact ih (spotFlavor_isValue hx hy) h

/-- **The copies recorded for a site are a whole number that a float holds.** -/
theorem firstMatch_whole {fake : Bool} {ord : Nat → Orders} {i : Nat}
    (h : firstMatch fake ord info i aggs = .ok (some (agg, n))) : Whole n := by
  obtain ⟨_, j, maxCom, maxSpot, hcom, hspot, rfl⟩ := firstMatch_taken h
  have hwholeCom : Whole maxCom := comFlavorLoop_whole isValue_maxFloat64 hcom
  have hwholeSpot : Whole maxSpot := by
    unfold isSpotFlavorMatch at hspot
    split at hspot
    · cases hspot
      exact whole_of_abs_le (by decide)
    · exact spotFlavorLoop_whole isValue_maxFloat64 hspot
  unfold stackMaxCount
  split_ifs
  · exact ((isValue_ofInt _ maxCom).min (isValue_ofInt _ maxSpot)).toInt64
  · exact hwholeCom
  · exact hwholeSpot
  · exact whole_of_abs_le (by decide)

end GlobalScheduler.FlavorPlugin
