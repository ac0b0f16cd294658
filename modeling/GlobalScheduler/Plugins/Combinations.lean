import GlobalScheduler.Odometer
import GlobalScheduler.Plugins.FlavorProofs

/-! The combinations of flavors.

The indices of `calculateFlavorAggregate` count like an odometer that never falls back
to zero in its first digit, so that the loop ends when that digit has run over. It has
then been at every combination of one flavor per resource, in lexicographic order. -/
namespace GlobalScheduler.FlavorPlugin

open Go Odometer List.Forall₂ List

/-! ### One step of the indices -/

/-- Counting up goes to the next position; at the last one it goes back to the first and
says so. -/
theorem tuplesFrom_bump {lens ix : List Nat} (h : Within lens ix) :
    (bump lens ix).2 = false ∧ Within lens (bump lens ix).1 ∧
        tuplesFrom lens ix = ix :: tuplesFrom lens (bump lens ix).1 ∨
      (bump lens ix).2 = true ∧ (bump lens ix).1 = lens.map (fun _ => 0) ∧
        tuplesFrom lens ix = [ix] := by
  induction h with
  | nil => exact Or.inr ⟨rfl, rfl, rfl⟩
  | @cons k len ix lens hk hrest ih =>
    rw [bump]
    dsimp only
    rcases ih with ⟨hcarry, hwithin, hfrom⟩ | ⟨hcarry, hzero, hfrom⟩
    · rw [hcarry]
      refine Or.inl ⟨rfl, cons hk hwithin, ?_⟩
      rw [tuplesFrom, hfrom]
      rfl
    · rw [hcarry, hzero]
      have hpos : ∀ len' ∈ lens, 0 < len' := Within.pos hrest
      by_cases hlast : k + 1 < len
      · simp only [hlast, if_true, Bool.not_true, Bool.false_eq_true, if_false]
        refine Or.inl ⟨trivial, cons hlast ?_, ?_⟩
        · rw [forall₂_map_left_iff]
          exact forall₂_same.mpr hpos
        · rw [tuplesFrom, hfrom, tuplesAbove_of_lt hlast, tuplesFrom, tuplesFrom_zero hpos]
          rfl
      · simp only [hlast, Bool.not_true, Bool.false_eq_true, if_false]
        refine Or.inr ⟨trivial, rfl, ?_⟩
        rw [tuplesFrom, hfrom, tuplesAbove_of_le (by omega)]
        rfl

/-- What the loop has still to go through: nothing once the first index has run over. -/
def ahead (len : Nat) (lens : List Nat) : List Nat → List (List Nat)
  | k :: ix => if k < len then tuplesFrom (len :: lens) (k :: ix) else []
  | [] => []

theorem ahead_nextIndex {len k : Nat} {lens ix : List Nat} (hk : k < len) (hix : Within lens ix) :
    ∃ k' ix', nextIndex (len :: lens) (k :: ix) = k' :: ix' ∧ Within lens ix' ∧
      ahead len lens (k :: ix) = (k :: ix) :: ahead len lens (k' :: ix') := by
  have hpos : ∀ len' ∈ lens, 0 < len' := hix.pos
  rw [nextIndex, ahead, if_pos hk, tuplesFrom]
  dsimp only [tail_cons]
  rcases tuplesFrom_bump hix with ⟨hcarry, hwithin, hfrom⟩ | ⟨hcarry, hzero, hfrom⟩
  · refine ⟨k, (bump lens ix).1, by rw [hcarry]; rfl, hwithin, ?_⟩
    rw [hfrom, ahead, if_pos hk, tuplesFrom]
    rfl
  · refine ⟨k + 1, lens.map fun _ => 0, by rw [hcarry, hzero]; rfl, ?_, ?_⟩
    · rw [Within, forall₂_map_left_iff]
      exact forall₂_same.mpr hpos
    · rw [hfrom, ahead]
      split
      case isTrue hlast =>
        rw [tuplesAbove_of_lt hlast, tuplesFrom, tuplesFrom_zero hpos]
        rfl
      case isFalse hlast =>
        rw [tuplesAbove_of_le (by omega)]
        rfl

/-! ### One combination -/

/-- The flavors at the given indices, each with the count of its resource, and the weight of
their places in the lists. -/
structure Combination (resources : List Resource) (ix : List Nat) (agg : FlavorAggregate) : Prop where
  indices : ix.length = resources.length
  length : agg.flavors.length = resources.length
  flavors : ∀ (j : Nat) (r : Resource) (k : Nat), resources[j]? = some r → ix[j]? = some k →
    ∃ flavor, r.flavors[k]? = some flavor ∧ agg.flavors[j]? = some ⟨flavor, r.count⟩
  weight : agg.weight = (ix.map fun k => ((baseWeight / (k + 1) : Nat) : Int)).sum

variable {resources : List Resource} {ix : List Nat}

theorem aggregateAt_extends (temp : FlavorAggregate) (h : Within (resources.map (·.flavors.length)) ix) :
    ∃ agg, Combination resources ix agg ∧
      aggregateAt ix resources temp = .ok ⟨temp.flavors ++ agg.flavors, temp.weight + agg.weight⟩ := by
  induction resources generalizing ix temp with
  | nil =>
    obtain rfl : ix = [] := forall₂_nil_right_iff.mp h
    refine ⟨{}, ⟨rfl, rfl, by simp, rfl⟩, ?_⟩
    simp [aggregateAt]
    rfl
  | cons r rest ih =>
    obtain ⟨k, ix, hk, hix, rfl⟩ := forall₂_cons_right_iff.mp h
    obtain ⟨flavor, hflavor⟩ : ∃ flavor, r.flavors[k]? = some flavor :=
      ⟨_, getElem?_eq_getElem hk⟩
    obtain ⟨agg, hagg, hat⟩ := ih
      { flavors := temp.flavors ++ [⟨flavor, r.count⟩], weight := temp.weight + baseWeight / (k + 1) } hix
    refine ⟨⟨⟨flavor, r.count⟩ :: agg.flavors, (baseWeight / (k + 1) : Nat) + agg.weight⟩, ?_, ?_⟩
    · refine ⟨by simp [hagg.indices], by simp [hagg.length], ?_, by simp [hagg.weight]⟩
      intro j r' k' hr hk'
      cases j with
      | zero =>
        simp only [getElem?_cons_zero, Option.some.injEq] at hr hk'
        subst hr hk'
        exact ⟨flavor, hflavor, rfl⟩
      | succ j =>
        exact hagg.flavors j r' k' hr hk'
    · rw [aggregateAt, hflavor]
      dsimp only
      rw [hat]
      simp [add_assoc]

theorem aggregateAt_combination (h : Within (resources.map (·.flavors.length)) ix) :
    ∃ agg, aggregateAt ix resources {} = .ok agg ∧ Combination resources ix agg := by
  obtain ⟨agg, hagg, hat⟩ := aggregateAt_extends {} h
  refine ⟨agg, ?_, hagg⟩
  rw [hat]
  simp

/-! ### The loop -/

variable {rest : List Resource}

/-- **The loop goes through what is ahead**, and ends by its own test as soon as there are
rounds enough. -/
theorem aggregatesFrom_ahead {r : Resource} {k : Nat} (hix : Within (rest.map (·.flavors.length)) ix) :
    ∃ aggs, List.Forall₂ (Combination (r :: rest))
        (ahead r.flavors.length (rest.map (·.flavors.length)) (k :: ix)) aggs ∧
      ∀ fuel, (ahead r.flavors.length (rest.map (·.flavors.length)) (k :: ix)).length < fuel →
        aggregatesFrom (r :: rest) fuel (k :: ix) = .ok aggs := by
  generalize hcount : (ahead r.flavors.length (rest.map (·.flavors.length)) (k :: ix)).length = count
  induction count generalizing k ix with
  | zero =>
    have hnone := length_eq_zero_iff.mp hcount
    have hend : ¬ k < r.flavors.length := by
      intro hk
      obtain ⟨_, _, -, -, hahead⟩ := ahead_nextIndex hk hix
      rw [hnone] at hahead
      cases hahead
    refine ⟨[], by rw [hnone]; exact nil, fun fuel hfuel => ?_⟩
    obtain ⟨fuel, rfl⟩ := Nat.exists_eq_succ_of_ne_zero (Nat.ne_of_gt hfuel)
    exact if_neg hend
  | succ count ih =>
    have hk : k < r.flavors.length := by
      by_contra hend
      rw [ahead, if_neg hend] at hcount
      cases hcount
    obtain ⟨k', ix', hnext, hix', hahead⟩ := ahead_nextIndex hk hix
    rw [hahead, length_cons, Nat.succ.injEq] at hcount
    have hwithin : Within ((r :: rest).map (·.flavors.length)) (k :: ix) := cons hk hix
    obtain ⟨agg, hat, hagg⟩ := aggregateAt_combination hwithin
    obtain ⟨aggs, haggs, hloop⟩ := ih hix' hcount
    refine ⟨agg :: aggs, by rw [hahead]; exact cons hagg haggs, fun fuel hfuel => ?_⟩
    obtain ⟨fuel, rfl⟩ := Nat.exists_eq_succ_of_ne_zero (Nat.ne_of_gt (Nat.zero_lt_of_lt hfuel))
    rw [aggregatesFrom, if_pos hk, hat, map_cons, hnext, hloop fuel (by omega)]
    rfl

theorem aggregatesFrom_start {r : Resource} (hflavors : ∀ r' ∈ rest, r'.flavors ≠ []) :
    ∃ aggs, List.Forall₂ (Combination (r :: rest)) (tuples ((r :: rest).map (·.flavors.length))) aggs ∧
      ∀ fuel, (tuples ((r :: rest).map (·.flavors.length))).length < fuel →
        aggregatesFrom (r :: rest) fuel ((r :: rest).map fun _ => 0) = .ok aggs := by
  have hpos : ∀ len ∈ rest.map (·.flavors.length), 0 < len := by
    intro len hlen
    obtain ⟨r', hr', rfl⟩ := mem_map.mp hlen
    exact length_pos_iff.mpr (hflavors r' hr')
  have hzero : Within (rest.map (·.flavors.length)) (rest.map fun _ => 0) := by
    rw [Within, forall₂_map_left_iff, forall₂_map_right_iff]
    exact forall₂_same.mpr fun r' hr' => length_pos_iff.mpr (hflavors r' hr')
  have hahead : ahead r.flavors.length (rest.map (·.flavors.length)) (0 :: rest.map fun _ => 0) =
      tuples ((r :: rest).map (·.flavors.length)) := by
    rw [map_cons, ahead]
    split
    case isTrue hlen =>
      rw [← tuplesFrom_zero, map_cons, map_map]
      · rfl
      · exact forall_mem_cons.mpr ⟨hlen, hpos⟩
    case isFalse hlen => rw [tuples, Nat.eq_zero_of_not_pos hlen, range_zero, flatMap_nil]
  obtain ⟨aggs, haggs, hloop⟩ := aggregatesFrom_ahead (r := r) (k := 0) hzero
  rw [hahead] at haggs hloop
  exact ⟨aggs, haggs, hloop⟩

/-- **Every combination once, in lexicographic order.** The loop ends by its own test: more
rounds than there are combinations change nothing. -/
theorem calculateFlavorAggregate_lists (stack : Stack) (hresources : stack.resources ≠ [])
    (hflavors : ∀ r ∈ stack.resources, r.flavors ≠ []) :
    ∃ (combinations : List (List Nat)) (aggs : List FlavorAggregate),
      calculateFlavorAggregate stack = .ok ⟨aggs⟩ ∧
      (∀ fuel, combinations.length < fuel →
        aggregatesFrom stack.resources fuel (stack.resources.map fun _ => 0) = .ok aggs) ∧
      combinations.Pairwise (· < ·) ∧
      (∀ ix, ix ∈ combinations ↔ ix.length = stack.resources.length ∧
        ∀ (j : Nat) (r : Resource) (k : Nat), stack.resources[j]? = some r → ix[j]? = some k →
          k < r.flavors.length) ∧
      List.Forall₂ (Combination stack.resources) combinations aggs := by
  obtain ⟨r, rest, hcons⟩ := exists_cons_of_ne_nil hresources
  rw [hcons] at hflavors
  obtain ⟨aggs, haggs, hloop⟩ :=
    aggregatesFrom_start (r := r) fun r' hr' => hflavors r' (mem_cons_of_mem r hr')
  rw [← hcons] at haggs hloop
  refine ⟨tuples (stack.resources.map (·.flavors.length)), aggs, ?_, hloop,
    tuples_pairwise _, fun ix => ?_, haggs⟩
  · rw [calculateFlavorAggregate, hloop _ (by rw [length_tuples]; exact Nat.lt_succ_self _)]
    rfl
  · rw [mem_tuples, within_iff, length_map]
    refine and_congr_right fun _ => ?_
    constructor
    · intro h j r k hr hk
      exact h j r.flavors.length k (by rw [getElem?_map, hr]; rfl) hk
    · intro h j len k hlen hk
      rw [getElem?_map, Option.map_eq_some_iff] at hlen
      obtain ⟨r, hr, rfl⟩ := hlen
      exact h j r k hr hk

/-- Two resources, the first with two flavors and the second with three. -/
theorem calculateFlavorAggregate_lists_two :
    ∃ (combinations : List (List Nat)) (aggs : List FlavorAggregate),
      calculateFlavorAggregate { resources := [
        { flavors := [⟨"a", none⟩, ⟨"b", none⟩], count := 1 },
        { flavors := [⟨"a", none⟩, ⟨"c", none⟩, ⟨"d", none⟩], count := 2 }] } = .ok ⟨aggs⟩ ∧
      combinations.Pairwise (· < ·) ∧ [1, 2] ∈ combinations := by
  obtain ⟨combinations, aggs, hcalculate, -, hsorted, hmem, -⟩ := calculateFlavorAggregate_lists
    { resources := [
      { flavors := [⟨"a", none⟩, ⟨"b", none⟩], count := 1 },
      { flavors := [⟨"a", none⟩, ⟨"c", none⟩, ⟨"d", none⟩], count := 2 }] } (by decide) (by decide)
  refine ⟨combinations, aggs, hcalculate, hsorted, (hmem [1, 2]).mpr ⟨rfl, ?_⟩⟩
  rintro (_ | _ | _) r k hr hk
  · cases hr
    cases hk
    decide
  · cases hr
    cases hk
    decide
  · cases hr

end GlobalScheduler.FlavorPlugin
