import GlobalScheduler.LastWrite
import GlobalScheduler.Plugins.Combinations

/-! Which sites the flavor plugin accepts, and for how many copies.

A choice is one listed flavor per resource. The plugin goes through the choices in
order and takes the first for which the site has the machines. It counts those of a
flavor that several resources chose by the last of them alone, so that it may take a
choice for which the site has too few, and it passes the number of copies through a
float. -/
namespace GlobalScheduler.FlavorPlugin

open Go Odometer LastWrite Outcome Format Fp AList SiteCacheInfo Status
open List hiding nil

/-! ### Choices -/

/-- All choices, the flavors of the last resource moving fastest. -/
def choices : List Resource → List (List FlavorInfo)
  | [] => [[]]
  | r :: rest => r.flavors.flatMap fun flavor => (choices rest).map (⟨flavor, r.count⟩ :: ·)

/-- A listed flavor of the resource, with its count. -/
def Lists (r : Resource) (flv : FlavorInfo) : Prop := flv.flavor ∈ r.flavors ∧ flv.count = r.count

variable {choice : List FlavorInfo} {resources : List Resource} {aggs : List FlavorAggregate} {info : SiteCacheInfo}

theorem mem_choices : choice ∈ choices resources ↔ List.Forall₂ Lists resources choice := by
  induction resources generalizing choice with
  | nil => simp [choices]
  | cons r rest ih =>
    simp only [choices, mem_flatMap, mem_map, forall₂_cons_left_iff, ih]
    constructor
    · intro ⟨flavor, hflavor, others, hothers, heq⟩
      exact ⟨⟨flavor, r.count⟩, others, ⟨hflavor, rfl⟩, hothers, heq.symm⟩
    · intro ⟨flv, others, ⟨hflavor, hcount⟩, hothers, heq⟩
      refine ⟨flv.flavor, hflavor, others, hothers, ?_⟩
      rw [heq, ← hcount]

def flavorsAt (resources : List Resource) (ix : List Nat) : List FlavorInfo :=
  zipWith (fun r k => ⟨r.flavors.getD k ⟨"", none⟩, r.count⟩) resources ix

theorem map_flavorsAt_tuples (resources : List Resource) :
    (tuples (resources.map (·.flavors.length))).map (flavorsAt resources) = choices resources := by
  induction resources with
  | nil => rfl
  | cons r rest ih =>
    have hflavors : r.flavors = (range r.flavors.length).map (r.flavors.getD · ⟨"", none⟩) := by
      refine ext_getElem (by simp) fun k hk _ => ?_
      simp [getElem?_eq_getElem hk]
    rw [choices, ← ih]
    conv_rhs => rw [hflavors]
    rw [map_cons, tuples, map_flatMap, flatMap_map]
    refine flatMap_congr fun k _ => ?_
    rw [map_map, map_map]
    rfl

variable {agg : FlavorAggregate}

theorem Combination.flavors_eq {ix : List Nat}
    (h : Combination resources ix agg) : agg.flavors = flavorsAt resources ix := by
  have hlength : (flavorsAt resources ix).length = resources.length := by
    simp [flavorsAt, h.indices]
  refine ext_getElem (h.length.trans hlength.symm) fun j hj hj' => ?_
  have hr : j < resources.length := h.length ▸ hj
  have hk : j < ix.length := h.indices ▸ hr
  obtain ⟨flavor, hflavor, hat⟩ := h.flavors j resources[j] ix[j]
    (getElem?_eq_getElem hr) (getElem?_eq_getElem hk)
  rw [getElem?_eq_getElem hj, Option.some.injEq] at hat
  simp [flavorsAt, hat, getD_eq_getElem?_getD, hflavor]

theorem map_flavors_eq_choices
    (h : List.Forall₂ (Combination resources) (tuples (resources.map (·.flavors.length))) aggs) :
    aggs.map (·.flavors) = choices resources := by
  rw [← map_flavorsAt_tuples]
  generalize tuples (resources.map (·.flavors.length)) = combinations at h
  induction h with
  | nil => rfl
  | cons hagg _ ih => rw [map_cons, map_cons, hagg.flavors_eq, ih]

/-! ### Counting the machines of a choice -/

def ordinary (f : String) (flv : FlavorInfo) : Option Int :=
  if flv.flavor.spot = none ∧ flv.flavor.flavorID = f then some flv.count else none

/-- The count of the last resource that chose the flavor. -/
def lastCount (choice : List FlavorInfo) (f : String) : Option Int := latest (ordinary f) choice

/-- The counts of all resources that chose the flavor. -/
def totalCount (choice : List FlavorInfo) (f : String) : Int :=
  ((choice.filter (·.flavor.flavorID = f)).map (·.count)).sum

variable {flv : FlavorInfo}

theorem countFlavor_plain (counts : FlavorCounts) (h : flv.flavor.spot = none) :
    (countFlavor counts flv).2 = counts.2 ∧ ∀ f, (countFlavor counts flv).1.lookup f =
      if f = flv.flavor.flavorID then some flv.count else counts.1.lookup f := by
  unfold countFlavor
  rw [h]
  refine ⟨rfl, fun f => ?_⟩
  by_cases hf : f = flv.flavor.flavorID
  · subst hf
    by_cases hseen : flv.flavor.flavorID ∈ counts.1
    · simp [hseen]
    · simp [hseen, lookup_eq_none.mpr hseen]
  · rw [if_neg hf, lookup_insert_ne hf]
    split
    · exact lookup_insert_ne hf
    · rfl

/-- **The plugin counts by the last resource.** -/
theorem getFlavorToCount_lookup (agg : FlavorAggregate) (f : String) :
    (getFlavorToCount agg).1.lookup f = lastCount agg.flavors f := by
  have hround : ∀ (counts : FlavorCounts) (flv : FlavorInfo),
      (countFlavor counts flv).1.lookup f = (ordinary f flv).or (counts.1.lookup f) := by
    intro counts flv
    cases hspot : flv.flavor.spot with
    | some spot =>
      rw [ordinary, if_neg (by simp [hspot]), Option.none_or, countFlavor, hspot]
      dsimp only
      split <;> rfl
    | none =>
      rw [(countFlavor_plain counts hspot).2 f, ordinary]
      by_cases hf : f = flv.flavor.flavorID
      · simp [hf, hspot]
      · simp [hf, Ne.symm hf]
  have hloop := read_foldl (fun counts : FlavorCounts => counts.1.lookup f) hround agg.flavors (∅, ∅)
  rw [getFlavorToCount, hloop]
  simp [lastCount]

theorem mem_entriesBy_getFlavorToCount {ord : List String} {e : String × Int} :
    e ∈ Map.entriesBy ord (getFlavorToCount agg).1 ↔ lastCount agg.flavors e.1 = some e.2 := by
  rw [← getFlavorToCount_lookup]
  exact Map.mem_entriesBy

theorem getFlavorToCount_ordinary
    (h : ∀ flv ∈ agg.flavors, flv.flavor.spot = none) : (getFlavorToCount agg).2 = ∅ := by
  rw [getFlavorToCount]
  revert h
  induction agg.flavors using reverseRecOn with
  | nil => exact fun _ => rfl
  | append_singleton flvs last ih =>
    intro h
    rw [foldl_append, foldl_cons, foldl_nil, (countFlavor_plain _ (h last (by simp))).1]
    exact ih fun flv hflv => h flv (by simp [hflv])

theorem exists_lastCount (hflv : flv ∈ choice)
    (hspot : flv.flavor.spot = none) : ∃ c, lastCount choice flv.flavor.flavorID = some c := by
  rw [← Option.isSome_iff_exists, Option.isSome_iff_ne_none]
  intro hnone
  have hwrite := latest_eq_none_iff.mp hnone flv hflv
  simp [ordinary, hspot] at hwrite

variable {f : String} {c : Int}

theorem mem_of_lastCount (h : lastCount choice f = some c) :
    ∃ flv ∈ choice, flv.flavor.flavorID = f ∧ flv.count = c := by
  obtain ⟨flv, hflv, hwrite⟩ := exists_of_latest h
  rw [ordinary] at hwrite
  split at hwrite
  case isTrue hif => exact ⟨flv, hflv, hif.2, Option.some.inj hwrite⟩
  case isFalse => cases hwrite

theorem lastCount_of_nodup (honce : (choice.map (·.flavor.flavorID)).Nodup)
    (hflv : flv ∈ choice) (hspot : flv.flavor.spot = none) :
    lastCount choice flv.flavor.flavorID = some flv.count := by
  obtain ⟨c, hc⟩ := exists_lastCount hflv hspot
  obtain ⟨flv', hflv', hid, rfl⟩ := mem_of_lastCount hc
  rw [hc, inj_on_of_nodup_map honce hflv' hflv hid]

theorem lastCount_le_totalCount (hpos : ∀ flv ∈ choice, 1 ≤ flv.count)
    (h : lastCount choice f = some c) : c ≤ totalCount choice f := by
  obtain ⟨flv, hflv, hid, rfl⟩ := mem_of_lastCount h
  refine single_le_sum ?_ _ (mem_map_of_mem (mem_filter.mpr ⟨hflv, by simpa using hid⟩))
  intro n hn
  obtain ⟨other, hother, rfl⟩ := mem_map.mp hn
  exact (by decide : (0 : Int) ≤ 1).trans (hpos other (mem_of_mem_filter hother))

/-! ### Matching one choice -/

section Match
variable {info : SiteCacheInfo} {site : Site} {agg : FlavorAggregate}

/-- The site has so many machines of the flavor. -/
def Covered (info : SiteCacheInfo) (f : String) (c : Int) : Prop :=
  ∃ a, info.allocatableFlavor.lookup f = some a ∧ c ≤ a

/-- The site has the machines of the choice, by the last counts. -/
def LastFits (info : SiteCacheInfo) (choice : List FlavorInfo) : Prop :=
  ∀ f c, lastCount choice f = some c → Covered info f c

variable {es : List (String × Int)}

/-- The loop returns unless it comes to divide by zero, and says whether all are covered. -/
theorem comFlavorLoop_ok (hsite : info.site = some site)
    (hzero : ∀ e ∈ es, Covered info e.1 e.2 → e.2 ≠ 0) (x : Fp) :
    ∃ b n, comFlavorLoop info es x = .ok (b, n) ∧
      (b = true ↔ ∀ e ∈ es, Covered info e.1 e.2) := by
  induction es generalizing x with
  | nil => exact ⟨true, _, rfl, by simp⟩
  | cons e rest ih =>
    have hget : info.getSite = .ok site := getSite_ok.mpr hsite
    have hrefused : ¬ Covered info e.1 e.2 →
        (false = true ↔ ∀ e' ∈ e :: rest, Covered info e'.1 e'.2) := fun hnot =>
      iff_of_false (by decide) fun hall => hnot (hall e mem_cons_self)
    rw [comFlavorLoop]
    split
    case h_1 hnone =>
      refine ⟨false, 0, by rw [hget]; rfl, hrefused ?_⟩
      intro hcovered
      obtain ⟨a, ha, -⟩ := hcovered
      rw [hnone] at ha
      cases ha
    case h_2 total htotal =>
      by_cases hless : total < e.2
      · refine ⟨false, 0, by rw [if_pos hless, hget]; rfl, hrefused ?_⟩
        intro hcovered
        obtain ⟨a, ha, hle⟩ := hcovered
        rw [htotal] at ha
        cases ha
        omega
      · have hcovered : Covered info e.1 e.2 := ⟨total, htotal, not_lt.mp hless⟩
        have hquo : quo total e.2 = .ok (total.tdiv e.2) :=
          quo_ok.mpr ⟨hzero e mem_cons_self hcovered, rfl⟩
        obtain ⟨b, n, hloop, hb⟩ := ih (fun e' he' => hzero e' (mem_cons_of_mem e he'))
          (min x (ofInt .float64 (total.tdiv e.2)))
        refine ⟨b, n, ?_, ?_⟩
        · rw [if_neg hless, hquo]
          exact hloop
        · rw [hb]
          simp [hcovered]

/-- The copies are the smallest of the quotients, each rounded to a float. -/
theorem comFlavorLoop_copies {x : ℚ} {n : Int} (h : comFlavorLoop info es (.fin x) = .ok (true, n)) :
    ∃ y : ℚ, n = (fin y).toInt64 ∧ y ≤ x ∧
      (∀ e ∈ es, ∃ a, info.allocatableFlavor.lookup e.1 = some a ∧ e.2 ≤ a ∧
        y ≤ float64.round (a.tdiv e.2)) ∧
      (y = x ∨ ∃ e ∈ es, ∃ a, info.allocatableFlavor.lookup e.1 = some a ∧
        y = float64.round (a.tdiv e.2)) := by
  induction es generalizing x with
  | nil =>
    cases h
    exact ⟨x, rfl, le_refl x, by simp, Or.inl rfl⟩
  | cons e rest ih =>
    cases comFlavorLoop_cons h with
    | inl hnone => cases hnone.1
    | inr hgoes =>
      obtain ⟨total, htotal, hcovered, h⟩ := hgoes
      rw [ofInt, min_fin] at h
      obtain ⟨y, hn, hle, hall, hsome⟩ := ih h
      refine ⟨y, hn, hle.trans (min_le_left _ _), ?_, ?_⟩
      · exact forall_mem_cons.mpr ⟨⟨total, htotal, hcovered, hle.trans (min_le_right _ _)⟩, hall⟩
      · cases hsome with
        | inl hy =>
          cases min_choice x (float64.round (total.tdiv e.2)) with
          | inl hmin => exact Or.inl (hy.trans hmin)
          | inr hmin => exact Or.inr ⟨e, mem_cons_self, total, htotal, hy.trans hmin⟩
        | inr hrest =>
          obtain ⟨e', he', a, ha, hy⟩ := hrest
          exact Or.inr ⟨e', mem_cons_of_mem e he', a, ha, hy⟩

theorem isComFlavorMatch_ok (hsite : info.site = some site) (ord : Orders)
    (hzero : ∀ f c, lastCount agg.flavors f = some c → Covered info f c → c ≠ 0) :
    ∃ b n, isComFlavorMatch ord (getFlavorToCount agg).1 info = .ok (b, n) ∧
      (b = true ↔ LastFits info agg.flavors) := by
  obtain ⟨b, n, hloop, hb⟩ := comFlavorLoop_ok hsite
    (fun e he => hzero e.1 e.2 (mem_entriesBy_getFlavorToCount.mp he)) maxFloat64
  refine ⟨b, n, hloop, hb.trans ?_⟩
  constructor
  · exact fun hall f c hc => hall (f, c) (mem_entriesBy_getFlavorToCount.mpr hc)
  · exact fun hfits e he => hfits e.1 e.2 (mem_entriesBy_getFlavorToCount.mp he)

end Match

/-! ### Choices of ordinary machines -/

/-- Ordinary machines, one or more of each. -/
structure Plain (choice : List FlavorInfo) : Prop where
  nonempty : choice ≠ []
  count : ∀ flv ∈ choice, 1 ≤ flv.count
  ordinary : ∀ flv ∈ choice, flv.flavor.spot = none

/-- The site has the machines of so many copies of the choice. -/
def CopiesFit (info : SiteCacheInfo) (choice : List FlavorInfo) (n : Int) : Prop :=
  ∀ flv ∈ choice, ∃ a, info.allocatableFlavor.lookup flv.flavor.flavorID = some a ∧
    n * totalCount choice flv.flavor.flavorID ≤ a

/-- For one of the flavors the rounded quotient by the last count is the largest number of copies. -/
def Exact (info : SiteCacheInfo) (choice : List FlavorInfo) : Prop :=
  ∃ m : Int, m < 9223372036854775808 ∧ IsGreatest {n | CopiesFit info choice n} m ∧
    ∃ f c a, lastCount choice f = some c ∧ info.allocatableFlavor.lookup f = some a ∧
      float64.round (a.tdiv c) = m

section Ordinary
variable {fake : Bool} {ord : Nat → Orders} {info : SiteCacheInfo} {site : Site} {choice : List FlavorInfo}
  {agg : FlavorAggregate} {n : Int}

theorem Plain.one_le_lastCount (h : Plain choice) (hc : lastCount choice f = some c) : 1 ≤ c := by
  obtain ⟨flv, hflv, -, rfl⟩ := mem_of_lastCount hc
  exact h.count flv hflv

theorem Plain.com_ok (h : Plain agg.flavors) (hsite : info.site = some site) (ord : Orders) :
    ∃ b n, isComFlavorMatch ord (getFlavorToCount agg).1 info = .ok (b, n) ∧
      (b = true ↔ LastFits info agg.flavors) := by
  refine isComFlavorMatch_ok hsite ord fun f c hc _ => ?_
  have := h.one_le_lastCount hc
  omega

theorem Plain.spot_ok (h : Plain agg.flavors) (fake : Bool) (ord : Orders) (info : SiteCacheInfo) :
    ∃ n, isSpotFlavorMatch .float32 .float64 fake ord (getFlavorToCount agg).2 info = .ok (true, n) := by
  rw [getFlavorToCount_ordinary h.ordinary, isSpotFlavorMatch]
  cases fake with
  | true => exact ⟨1000, rfl⟩
  | false => exact ⟨_, by rw [(Map.entriesBy_eq_nil _).mpr rfl]; rfl⟩

theorem PassedOver.not_lastFits (hplain : Plain agg.flavors) (hsite : info.site = some site)
    (h : PassedOver fake ord info agg) : ¬ LastFits info agg.flavors := by
  obtain ⟨j, com, spot, hcom, hspot, hnot⟩ := h
  obtain ⟨b, n, hcom', hb⟩ := hplain.com_ok hsite (ord j)
  obtain ⟨n', hspot'⟩ := hplain.spot_ok fake (ord j) info
  rw [hcom] at hcom'
  rw [hspot] at hspot'
  cases hcom'
  cases hspot'
  rw [← hb]
  simpa using hnot

/-- A taken choice fits by the last counts, and its copies are the smallest rounded quotient. -/
theorem Taken.copies_eq (hordinary : ∀ flv ∈ agg.flavors, flv.flavor.spot = none) (hne : agg.flavors ≠ [])
    (h : Taken fake ord info agg n) : ∃ y : ℚ, n = (fin y).toInt64 ∧
      (∀ f c, lastCount agg.flavors f = some c → ∃ a, info.allocatableFlavor.lookup f = some a ∧ c ≤ a ∧
        y ≤ float64.round (a.tdiv c)) ∧
      (fin y = maxFloat64 ∨ ∃ f c a, lastCount agg.flavors f = some c ∧
        info.allocatableFlavor.lookup f = some a ∧ y = float64.round (a.tdiv c)) := by
  obtain ⟨j, maxCom, maxSpot, hcom, -, hn⟩ := h
  obtain ⟨flv, hflv⟩ := exists_mem_of_ne_nil _ hne
  obtain ⟨c, hc⟩ := exists_lastCount hflv (hordinary flv hflv)
  have hkeys : (getFlavorToCount agg).1.keys ≠ [] := by
    refine ne_nil_of_mem (a := flv.flavor.flavorID) (mem_keys.mp ?_)
    exact lookup_isSome.mp (by rw [getFlavorToCount_lookup, hc]; rfl)
  have hspot : (getFlavorToCount agg).2.keys = [] := by
    rw [getFlavorToCount_ordinary hordinary]
    rfl
  have hmaxCom : n = maxCom := by
    rw [hn, stackMaxCount, if_neg (by simp [hspot]), if_pos hkeys]
  obtain ⟨y, hy, -, hall, hsome⟩ := comFlavorLoop_copies hcom
  refine ⟨y, hmaxCom.trans hy, fun f c hc => hall (f, c) (mem_entriesBy_getFlavorToCount.mpr hc), ?_⟩
  cases hsome with
  | inl hmax => exact Or.inl (congrArg fin hmax)
  | inr hround =>
    obtain ⟨e, he, a, ha, hya⟩ := hround
    exact Or.inr ⟨e.1, e.2, a, mem_entriesBy_getFlavorToCount.mp he, ha, hya⟩

theorem Taken.lastFits (hplain : Plain agg.flavors) (h : Taken fake ord info agg n) :
    LastFits info agg.flavors := by
  intro f c hc
  obtain ⟨y, -, hall, -⟩ := h.copies_eq hplain.ordinary hplain.nonempty
  obtain ⟨a, ha, hle, -⟩ := hall f c hc
  exact ⟨a, ha, hle⟩

/-- **What the copies recorded for a site are covered by**: for a combination of
ordinary flavors, each for one resource. -/
theorem firstMatch_covers {i : Nat} (h : firstMatch fake ord info i aggs = .ok (some (agg, n)))
    (hplain : ∀ flv ∈ agg.flavors, flv.flavor.spot = none)
    (honce : (agg.flavors.map (·.flavor.flavorID)).Nodup) :
    ∀ flv ∈ agg.flavors, ∃ a, info.allocatableFlavor.lookup flv.flavor.flavorID = some a ∧
      flv.count ≤ a ∧ (Whole (a.tdiv flv.count) → n ≤ max 0 (a.tdiv flv.count)) := by
  intro flv hflv
  obtain ⟨y, rfl, hall, -⟩ := (firstMatch_taken h).2.copies_eq hplain (ne_nil_of_mem hflv)
  obtain ⟨a, ha, hle, hy⟩ := hall _ _ (lastCount_of_nodup honce hflv (hplain flv hflv))
  exact ⟨a, ha, hle, fun hwhole => toInt64_le_max (rank_fin_le.mpr (hy.trans_eq hwhole))⟩

theorem LastFits.copiesFit_zero (hplain : Plain choice) (h : LastFits info choice) :
    CopiesFit info choice 0 := by
  intro flv hflv
  obtain ⟨c, hc⟩ := exists_lastCount hflv (hplain.ordinary flv hflv)
  obtain ⟨a, ha, hle⟩ := h _ c hc
  have := hplain.one_le_lastCount hc
  exact ⟨a, ha, by omega⟩

theorem CopiesFit.lastFits (hplain : Plain choice) (h : CopiesFit info choice 1) : LastFits info choice := by
  intro f c hc
  obtain ⟨flv, hflv, rfl, -⟩ := mem_of_lastCount hc
  obtain ⟨a, ha, hle⟩ := h flv hflv
  exact ⟨a, ha, (lastCount_le_totalCount hplain.count hc).trans (by omega)⟩

theorem CopiesFit.mono (hplain : Plain choice) {m : Int} (h : CopiesFit info choice m) (hle : n ≤ m) :
    CopiesFit info choice n := by
  intro flv hflv
  obtain ⟨c, hc⟩ := exists_lastCount hflv (hplain.ordinary flv hflv)
  have htotal := (hplain.one_le_lastCount hc).trans (lastCount_le_totalCount hplain.count hc)
  obtain ⟨a, ha, hfit⟩ := h flv hflv
  exact ⟨a, ha, (Int.mul_le_mul_of_nonneg_right hle (by omega)).trans hfit⟩

theorem one_le_round {a c : Int} (hc : 1 ≤ c) (hle : c ≤ a) : 1 ≤ float64.round (a.tdiv c) := by
  have hquot : (1 : Int) ≤ a.tdiv c := by
    rw [Int.tdiv_eq_ediv_of_nonneg (by omega)]
    exact (Int.le_ediv_iff_mul_le (by omega)).mpr (by omega)
  have hround := two_zpow_le_nearest (p := 53) (by decide) (q := (a.tdiv c : ℚ)) (e := 0)
    (by rw [zpow_zero]; exact_mod_cast hquot)
  rwa [zpow_zero] at hround

theorem LastFits.one_le (h : LastFits info choice) (hplain : Plain choice) {c a m : Int}
    (hc : lastCount choice f = some c) (ha : info.allocatableFlavor.lookup f = some a)
    (hround : float64.round (a.tdiv c) = m) : 1 ≤ m := by
  obtain ⟨a', ha', hle⟩ := h f c hc
  cases ha.symm.trans ha'
  have hpos := one_le_round (hplain.one_le_lastCount hc) hle
  rw [hround] at hpos
  exact_mod_cast hpos

theorem Exact.copiesFit_one (hplain : Plain choice) (hfits : LastFits info choice)
    (h : Exact info choice) : CopiesFit info choice 1 := by
  obtain ⟨m, -, hm, f, c, a, hc, ha, hround⟩ := h
  exact hm.1.mono hplain (hfits.one_le hplain hc ha hround)

/-- **The copies of a taken choice.** -/
theorem Taken.isGreatest_iff (hplain : Plain agg.flavors) (h : Taken fake ord info agg n) :
    IsGreatest {n | CopiesFit info agg.flavors n} n ↔ Exact info agg.flavors := by
  have hfits := h.lastFits hplain
  obtain ⟨y, hn, hall, hsome⟩ := h.copies_eq hplain.ordinary hplain.nonempty
  constructor
  · intro hgreatest
    have hnonneg : 0 ≤ n := hgreatest.2 (hfits.copiesFit_zero hplain)
    cases hsome with
    | inl hmax =>
      -- The start value is no number of copies: as an integer it is negative.
      rw [hmax, maxFloat64, toInt64_of_le two_pow_le_maxFloat64] at hn
      omega
    | inr hround =>
      obtain ⟨f, c, a, hc, ha, rfl⟩ := hround
      obtain ⟨m, hm⟩ := exists_nearest_intCast (p := 53) (by decide) (a.tdiv c)
      have hwhole : float64.round (a.tdiv c) = m := hm
      rw [hwhole, toInt64, trunc_intCast] at hn
      split at hn
      case isTrue hrange =>
        subst hn
        exact ⟨n, hrange.2, hgreatest, f, c, a, hc, ha, hwhole⟩
      case isFalse => omega
  · intro hexact
    obtain ⟨m, hsmall, hm, f, c, a, hc, ha, hround⟩ := hexact
    have hpos : 1 ≤ m := hfits.one_le hplain hc ha hround
    have hym : y = m := by
      obtain ⟨a₁, ha₁, -, hle⟩ := hall f c hc
      cases ha.symm.trans ha₁
      refine le_antisymm (hround ▸ hle) ?_
      cases hsome with
      | inl hmax =>
        cases hmax
        have hbig : (m : ℚ) ≤ 2 ^ 63 := by exact_mod_cast hsmall.le
        exact hbig.trans two_pow_le_maxFloat64
      | inr hround' =>
        -- `m` copies fit, and it is itself a float, so no quotient is rounded below it.
        obtain ⟨f', c', a', hc', ha', rfl⟩ := hround'
        obtain ⟨flv, hflv, rfl, -⟩ := mem_of_lastCount hc'
        obtain ⟨a'', ha'', hfit⟩ := hm.1 flv hflv
        rw [ha'] at ha''
        cases ha''
        have hlast := lastCount_le_totalCount hplain.count hc'
        have hone := hplain.one_le_lastCount hc'
        have hmul : m * c' ≤ a' := (Int.mul_le_mul_of_nonneg_left hlast (by omega)).trans hfit
        have hquot : m ≤ a'.tdiv c' := by
          have hnonneg : 0 ≤ m * c' := Int.mul_nonneg (by omega) (by omega)
          rw [Int.tdiv_eq_ediv_of_nonneg (by omega)]
          exact (Int.le_ediv_iff_mul_le (by omega)).mpr hmul
        have hvalue : nearest 53 (m : ℚ) = m := by
          rw [← hround]
          exact float64.round_round _
        exact le_nearest (by decide) hvalue (by exact_mod_cast hpos) (by exact_mod_cast hquot)
    have hint : n = m := by
      rw [hn, hym]
      exact toInt64_intCast (by omega) hsmall
    rwa [hint]

end Ordinary

/-! ### The plugin's answer -/

/-- The first choice that fits by the last counts. -/
def FirstFit (info : SiteCacheInfo) (resources : List Resource) (choice : List FlavorInfo) : Prop :=
  ∃ before after, choices resources = before ++ choice :: after ∧ LastFits info choice ∧
    ∀ other ∈ before, ¬ LastFits info other

theorem FirstFit.unique {choice' : List FlavorInfo} (h : FirstFit info resources choice)
    (h' : FirstFit info resources choice') : choice = choice' := by
  classical
  have hfind : ∀ {choice}, FirstFit info resources choice →
      (choices resources).find? (fun c => decide (LastFits info c)) = some choice := by
    intro choice ⟨before, after, hsplit, hfits, hbefore⟩
    exact find?_eq_some_iff_append.mpr
      ⟨by simpa using hfits, before, after, hsplit, fun other hother => by simpa using hbefore other hother⟩
  exact Option.some.inj ((hfind h).symm.trans (hfind h'))

theorem firstMatch_firstFit (fake : Bool) (ord : Nat → Orders) {site : Site} (hsite : info.site = some site)
    (hchoices : aggs.map (·.flavors) = choices resources) (hplain : ∀ c ∈ choices resources, Plain c) :
    ∃ found, firstMatch fake ord info 0 aggs = .ok found ∧
      (found = none → ∀ c ∈ choices resources, ¬ LastFits info c) ∧
      ∀ agg n, found = some (agg, n) → FirstFit info resources agg.flavors ∧ Plain agg.flavors ∧
        Taken fake ord info agg n := by
  have hplain' : ∀ agg ∈ aggs, Plain agg.flavors := fun agg hagg =>
    hplain _ (hchoices ▸ mem_map_of_mem hagg)
  have hreturns : ∀ aggs : List FlavorAggregate, (∀ agg ∈ aggs, Plain agg.flavors) →
      ∀ i, ∃ found, firstMatch fake ord info i aggs = .ok found := by
    intro aggs
    induction aggs with
    | nil => exact fun _ _ => ⟨none, rfl⟩
    | cons agg rest ih =>
      intro hall i
      obtain ⟨b, n, hcom, -⟩ := (hall agg mem_cons_self).com_ok hsite (ord i)
      obtain ⟨n', hspot⟩ := (hall agg mem_cons_self).spot_ok fake (ord i) info
      obtain ⟨found, hfound⟩ := ih (fun a ha => hall a (mem_cons_of_mem agg ha)) (i + 1)
      cases b with
      | true => exact ⟨_, bind_ok.mpr ⟨_, hcom, bind_ok.mpr ⟨_, hspot, rfl⟩⟩⟩
      | false => exact ⟨found, bind_ok.mpr ⟨_, hcom, bind_ok.mpr ⟨_, hspot, hfound⟩⟩⟩
  obtain ⟨found, hfound⟩ := hreturns aggs hplain' 0
  refine ⟨found, hfound, ?_, ?_⟩
  · intro hnone c hc
    rw [← hchoices] at hc
    obtain ⟨agg, hagg, rfl⟩ := mem_map.mp hc
    cases firstMatch_cases hfound with
    | inl hall => exact (hall.2 agg hagg).not_lastFits (hplain' agg hagg) hsite
    | inr hsome =>
      obtain ⟨_, _, _, _, _, heq, _⟩ := hsome
      rw [hnone] at heq
      cases heq
  · intro agg n hsome
    cases firstMatch_cases hfound with
    | inl hnone =>
      rw [hsome] at hnone
      cases hnone.1
    | inr htaken =>
      obtain ⟨before, agg', after, n', hsplit, heq, hbefore, htaken⟩ := htaken
      rw [hsome] at heq
      cases heq
      have hagg := hplain' agg (by rw [hsplit]; simp)
      refine ⟨⟨before.map (·.flavors), after.map (·.flavors), ?_, ?_, ?_⟩, hagg, htaken⟩
      · rw [← hchoices, hsplit, map_append, map_cons]
      · exact htaken.lastFits hagg
      · intro other hother
        obtain ⟨agg', hagg', rfl⟩ := mem_map.mp hother
        exact (hbefore agg' hagg').not_lastFits (hplain' agg' (by rw [hsplit]; simp [hagg'])) hsite

theorem calculateFlavorAggregate_choices {stack : Stack} {r : Resource} {rest : List Resource}
    (hcons : stack.resources = r :: rest) (hflavors : ∀ r' ∈ rest, r'.flavors ≠ []) :
    ∃ aggs, calculateFlavorAggregate stack = .ok ⟨aggs⟩ ∧
      aggs.map (·.flavors) = choices stack.resources := by
  obtain ⟨aggs, haggs, hloop⟩ := aggregatesFrom_start (r := r) hflavors
  rw [← hcons] at haggs hloop
  refine ⟨aggs, ?_, map_flavors_eq_choices haggs⟩
  rw [calculateFlavorAggregate, hloop _ (by rw [length_tuples]; exact Nat.lt_succ_self _)]
  rfl

theorem filter_of_firstMatch {fake : Bool} {ord : Nat → Orders} {state : CycleState} {site : Site}
    {s : FlavorAggregates} {found : Option (FlavorAggregate × Int)}
    (hsite : info.site = some site) (hstate : state.preFilterFlavor = some s)
    (hfound : firstMatch fake ord info 0 s.aggregates = .ok found) :
    ∃ status, filter fake ord state info = .ok (state, status) ∧
      (status.isSuccess = true ↔ found ≠ none) := by
  rw [filter, hstate]
  cases found with
  | some _ =>
    exact ⟨.nil, bind_ok.mpr ⟨_, hfound, rfl⟩, by simp [isSuccess, nil]⟩
  | none =>
    have hget := getSite_ok.mpr hsite
    refine ⟨_, bind_ok.mpr ⟨_, hfound, bind_ok.mpr ⟨_, hget, rfl⟩⟩, ?_⟩
    simp [isSuccess]

/-- The filter accepts the site exactly if some choice fits, and the copies found for
the score are the largest number that fit. -/
structure MatchRight (fake : Bool) (ord ord' : Nat → Orders) (info : SiteCacheInfo)
    (resources : List Resource) (state : CycleState) : Prop where
  accepts : ∃ status, filter fake ord state info = .ok (state, status) ∧
    (status.isSuccess = true ↔
      ∃ choice, List.Forall₂ Lists resources choice ∧ CopiesFit info choice 1)
  copies : ∃ s found, state.preFilterFlavor = some s ∧
    firstMatch fake ord' info 0 s.aggregates = .ok found ∧
    ∀ agg n, found = some (agg, n) → IsGreatest {n | CopiesFit info agg.flavors n} n

theorem plain_of_mem_choices (hresources : resources ≠ []) (hcount : ∀ r ∈ resources, 1 ≤ r.count)
    (hordinary : ∀ r ∈ resources, ∀ flavor ∈ r.flavors, flavor.spot = none) :
    ∀ choice ∈ choices resources, Plain choice := by
  intro choice hchoice
  have hlists := mem_choices.mp hchoice
  have hof : ∀ flv ∈ choice, ∃ r ∈ resources, Lists r flv := by
    intro flv hflv
    obtain ⟨j, hj, rfl⟩ := mem_iff_getElem.mp hflv
    have hj' : j < resources.length := hlists.length_eq ▸ hj
    exact ⟨resources[j], getElem_mem hj', forall₂_iff_get.mp hlists |>.2 j hj' hj⟩
  refine ⟨?_, ?_, ?_⟩
  · intro hnil
    rw [hnil] at hlists
    cases hlists
    exact hresources rfl
  · intro flv hflv
    obtain ⟨r, hr, -, hcount'⟩ := hof flv hflv
    exact hcount' ▸ hcount r hr
  · intro flv hflv
    obtain ⟨r, hr, hflavor, -⟩ := hof flv hflv
    exact hordinary r hr _ hflavor

/-- **The plugin is right exactly when the first choice that fits by the last counts is
counted right.** -/
theorem preFilter_filter_right (fake : Bool) (ord ord' : Nat → Orders) (state : CycleState)
    (stack : Stack) (info : SiteCacheInfo) (site : Site) (hsite : info.site = some site)
    (hresources : stack.resources ≠ []) (hcount : ∀ r ∈ stack.resources, 1 ≤ r.count)
    (hflavors : ∀ r ∈ stack.resources, r.flavors ≠ [])
    (hordinary : ∀ r ∈ stack.resources, ∀ flavor ∈ r.flavors, flavor.spot = none) :
    ∃ state₁, preFilter state stack = .ok (state₁, .nil) ∧
      (MatchRight fake ord ord' info stack.resources state₁ ↔
        ∀ choice, FirstFit info stack.resources choice → Exact info choice) := by
  obtain ⟨r, rest, hcons⟩ := exists_cons_of_ne_nil hresources
  obtain ⟨aggs, haggs, hchoices⟩ := calculateFlavorAggregate_choices hcons
    fun r' hr' => hflavors r' (hcons ▸ mem_cons_of_mem r hr')
  have hplain := plain_of_mem_choices hresources hcount hordinary
  obtain ⟨found, hfound, hnone, hsome⟩ := firstMatch_firstFit fake ord hsite hchoices hplain
  obtain ⟨found', hfound', hnone', hsome'⟩ := firstMatch_firstFit fake ord' hsite hchoices hplain
  refine ⟨{ state with preFilterFlavor := some ⟨aggs⟩ }, by rw [preFilter, haggs]; rfl, ?_⟩
  constructor
  · intro hright choice hfirst
    obtain ⟨s, found'', hs, hfound'', hgreatest⟩ := hright.copies
    cases hs
    rw [hfound'] at hfound''
    cases hfound''
    cases hcase : found' with
    | none =>
      obtain ⟨before, after, hsplit, hfits, -⟩ := hfirst
      exact absurd hfits (hnone' hcase choice (by rw [hsplit]; simp))
    | some taken =>
      obtain ⟨hfirst', hagg, htaken⟩ := hsome' taken.1 taken.2 hcase
      rw [hfirst.unique hfirst']
      exact (htaken.isGreatest_iff hagg).mp (hgreatest taken.1 taken.2 hcase)
  · intro hexact
    refine ⟨?_, ⟨aggs⟩, found', rfl, hfound', ?_⟩
    · have hstate : { state with preFilterFlavor := some ⟨aggs⟩ }.preFilterFlavor = some ⟨aggs⟩ := rfl
      obtain ⟨status, hfilter, hstatus⟩ := filter_of_firstMatch hsite hstate hfound
      refine ⟨status, hfilter, hstatus.trans ?_⟩
      constructor
      · intro hne
        obtain ⟨taken, htaken⟩ := Option.ne_none_iff_exists'.mp hne
        obtain ⟨hfirst, hagg, -⟩ := hsome taken.1 taken.2 htaken
        have hone := (hexact _ hfirst).copiesFit_one hagg (Exists.elim hfirst fun _ h => h.choose_spec.2.1)
        obtain ⟨before, after, hsplit, -⟩ := hfirst
        exact ⟨taken.1.flavors, mem_choices.mp (by rw [hsplit]; simp), hone⟩
      · intro ⟨choice, hlists, hone⟩ hnil
        have hmem := mem_choices.mpr hlists
        exact hnone hnil choice hmem (hone.lastFits (hplain choice hmem))
    · intro agg n htaken
      obtain ⟨hfirst, hagg, htaken⟩ := hsome' agg n htaken
      exact (htaken.isGreatest_iff hagg).mpr (hexact _ hfirst)

def smallSite (n : Int) : SiteCacheInfo :=
  { site := some { siteID := "site" }, allocatableFlavor := (∅ : Map String Int).insert "small" n }

theorem smallSite_lookup (n : Int) : (smallSite n).allocatableFlavor.lookup "small" = some n :=
  lookup_insert _

/-- Two small machines of five: the site takes two copies. -/
theorem preFilter_filter_right_small :
    ∃ state₁, preFilter {} { resources := [{ flavors := [⟨"small", none⟩], count := 2 }] } =
        .ok (state₁, .nil) ∧
      MatchRight false (fun _ => {}) (fun _ => {}) (smallSite 5)
        [{ flavors := [⟨"small", none⟩], count := 2 }] state₁ := by
  obtain ⟨state₁, hpre, hright⟩ := preFilter_filter_right false (fun _ => {}) (fun _ => {}) {}
    { resources := [{ flavors := [⟨"small", none⟩], count := 2 }] } (smallSite 5) { siteID := "site" } rfl
    (by decide) (by decide) (by decide) (by decide)
  refine ⟨state₁, hpre, hright.mpr ?_⟩
  intro choice ⟨before, after, hsplit, _⟩
  have hmem : choice ∈ choices [{ flavors := [⟨"small", none⟩], count := 2 }] := by
    rw [hsplit]
    simp
  have hchoice : choice = [⟨⟨"small", none⟩, 2⟩] := by simpa [choices] using hmem
  subst hchoice
  have hfit : ∀ n, CopiesFit (smallSite 5) [⟨⟨"small", none⟩, 2⟩] n ↔ n * 2 ≤ 5 := by
    intro n
    simp [CopiesFit, smallSite_lookup, totalCount]
  refine ⟨2, by decide, ⟨(hfit 2).mpr (by decide), fun n hn => ?_⟩, "small", 2, 5, by decide, rfl, ?_⟩
  · have := (hfit n).mp hn
    omega
  · exact float64_round_intCast (n := 2) (by decide)

/-- Two resources of one small machine each, and one small machine: accepted, though no
choice fits. -/
theorem filter_accepts_repeated :
    ∃ state₁, preFilter {} { resources := [{ flavors := [⟨"small", none⟩], count := 1 },
        { flavors := [⟨"small", none⟩], count := 1 }] } = .ok (state₁, .nil) ∧
      filter false (fun _ => {}) state₁ (smallSite 1) = .ok (state₁, .nil) ∧
      ¬ ∃ choice, List.Forall₂ Lists [{ flavors := [⟨"small", none⟩], count := 1 },
        { flavors := [⟨"small", none⟩], count := 1 }] choice ∧ CopiesFit (smallSite 1) choice 1 := by
  refine ⟨_, rfl, rfl, ?_⟩
  intro ⟨choice, hlists, hfit⟩
  have hchoice : choice = [⟨⟨"small", none⟩, 1⟩, ⟨⟨"small", none⟩, 1⟩] := by
    simpa [choices] using mem_choices.mpr hlists
  subst hchoice
  have := hfit ⟨⟨"small", none⟩, 1⟩ (by simp)
  simp [smallSite_lookup, totalCount] at this

end GlobalScheduler.FlavorPlugin
