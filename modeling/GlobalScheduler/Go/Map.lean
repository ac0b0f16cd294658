import Mathlib.Data.List.AList
import Mathlib.Data.List.Dedup
import Mathlib.Data.Multiset.MapFold
import GlobalScheduler.Go.Panic

/-! Go maps and the loops that range over them.

A Go map is a finite map, Mathlib's `AList`. What Lean has no counterpart for is
`range`: the order of the keys is the runtime's choice, a key removed before it
is reached is not produced, and a key the body inserts may be produced or not.
`visits` lists the keys a loop tries for a choice `ord` of the runtime, and
`rangeM` tries each against the map as it is at that moment. Every behaviour the
language allows is `rangeM ord` for some list `ord`, and every list is one, so
"for every iteration order" is a quantifier over lists. -/
namespace Go

open AList

/-- A Go map. -/
abbrev Map (K V : Type) := AList (fun _ : K => V)

namespace Map
variable {K V W σ : Type} [DecidableEq K] {k : K} {m : Map K V}

variable {v : V}

theorem mem_of_lookup (h : m.lookup k = some v) : k ∈ m :=
  lookup_isSome.mp (by rw [h]; rfl)

theorem exists_lookup (h : k ∈ m) : ∃ v, m.lookup k = some v :=
  Option.isSome_iff_exists.mp (lookup_isSome.mpr h)

variable (ord : List K)

/-- The keys a loop tries, in order: the runtime's choice first, then the keys of
the map at the start that the choice does not mention. -/
def visits (m : Map K V) : List K :=
  ord.dedup ++ m.keys.filter (· ∉ ord)

theorem mem_visits {ord : List K} : k ∈ visits ord m ↔ k ∈ ord ∨ k ∈ m := by
  by_cases h : k ∈ ord <;> simp [visits, h, mem_keys]

theorem nodup_visits (m : Map K V) : (visits ord m).Nodup := by
  refine List.nodup_append.mpr ⟨List.nodup_dedup ord, m.keys_nodup.filter _, ?_⟩
  intro a ha b hb hab
  subst hab
  simp only [List.mem_dedup] at ha
  simp [ha] at hb

/-- A `range` loop over the map `get` finds in the state. -/
def rangeM (get : σ → Map K V) (body : K → V → σ → Outcome σ) (s : σ) :
    Outcome σ :=
  (visits ord (get s)).foldlM
    (fun s k => match (get s).lookup k with
      | none => pure s
      | some v => body k v s) s

variable {body : K → V → σ → Outcome σ}

/-- A loop whose rounds all return, and keep what the next round needs, returns. -/
theorem rangeM_ok {get : σ → Map K V} (P : σ → Prop)
    (step : ∀ s k v, P s → (get s).lookup k = some v → ∃ s', body k v s = .ok s' ∧ P s')
    (ord : List K) {s : σ} (hs : P s) : ∃ t, rangeM ord get body s = .ok t ∧ P t := by
  refine Outcome.foldlM_ok P _ (fun s k _ hs => ?_) hs
  cases hv : (get s).lookup k with
  | none => exact ⟨s, rfl, hs⟩
  | some v => exact step s k v hs hv

/-- A loop whose body writes at one key only, and that key is there, is one write. -/
theorem rangeM_once {get : σ → Map K V} (P : σ → Prop) (k₀ : K)
    (g : σ → σ) (hmem : ∀ s, P s → k₀ ∈ get s) (hown : ∀ s v, P s → body k₀ v s = pure (g s))
    (hother : ∀ s k v, P s → (get s).lookup k = some v → k ≠ k₀ → body k v s = pure s)
    (hkeep : ∀ s, P s → P (g s)) (ord : List K) {s : σ} (hs : P s) : rangeM ord get body s = pure (g s) := by
  have hrounds : ∀ (keys : List K) (s : σ), keys.Nodup → P s →
      keys.foldlM (fun s k => match (get s).lookup k with
        | none => pure s
        | some v => body k v s) s = (pure (if k₀ ∈ keys then g s else s) : Outcome σ) := by
    intro keys
    induction keys with
    | nil => intro s _ _; rfl
    | cons k rest ih =>
      intro s hnodup hs
      obtain ⟨hfresh, hnodup⟩ := List.nodup_cons.mp hnodup
      rw [List.foldlM_cons]
      by_cases hk : k = k₀
      · subst hk
        obtain ⟨v, hv⟩ := exists_lookup (hmem s hs)
        simp [hv, hown s v hs, ih (g s) hnodup (hkeep s hs), hfresh]
      · have hround : (match (get s).lookup k with
            | none => pure s
            | some v => body k v s) = (pure s : Outcome σ) := by
          cases hv : (get s).lookup k with
          | none => rfl
          | some v => exact hother s k v hs hv hk
        simp [hround, ih s hnodup hs, Ne.symm hk]
  have hvisit : k₀ ∈ visits ord (get s) := mem_visits.mpr (Or.inr (hmem s hs))
  rw [rangeM, hrounds _ s (nodup_visits ord (get s)) hs, if_pos hvisit]

theorem mem_insert_of_lookup (h : m.lookup k = some v) (v' : V) (k' : K) : k' ∈ m.insert k v' ↔ k' ∈ m := by
  rw [mem_insert]
  refine or_iff_right_of_imp fun heq => heq ▸ ?_
  exact mem_of_lookup h

/-- The entries in the order of the loop, for a body that leaves the map alone. -/
def entriesBy (m : Map K V) : List (K × V) :=
  (visits ord m).filterMap fun k => (m.lookup k).map fun v => (k, v)

theorem mem_entriesBy {ord : List K} : (k, v) ∈ entriesBy ord m ↔ m.lookup k = some v := by
  simp only [entriesBy, List.mem_filterMap, mem_visits, Option.map_eq_some_iff, Prod.mk.injEq]
  constructor
  · rintro ⟨k', _, v', hv', rfl, rfl⟩
    exact hv'
  · intro h
    refine ⟨k, Or.inr ?_, v, h, rfl, rfl⟩
    exact mem_of_lookup h

theorem mem_values {ord : List K} : v ∈ (entriesBy ord m).map Prod.snd ↔ ∃ k, m.lookup k = some v := by
  simp only [List.mem_map, Prod.exists, exists_eq_right, mem_entriesBy]

theorem entriesBy_first (h : m.lookup k = some v) :
    ∃ rest, entriesBy [k] m = (k, v) :: rest := by
  refine ⟨(m.keys.filter (· ∉ [k])).filterMap fun k => (m.lookup k).map fun v => (k, v), ?_⟩
  simp [entriesBy, visits, h]

theorem entriesBy_keys (m : Map K V) : (entriesBy ord m).map Prod.fst = (visits ord m).filter (· ∈ m) := by
  simp only [entriesBy]
  induction visits ord m with
  | nil => rfl
  | cons k rest ih =>
    cases hk : m.lookup k with
    | none =>
      have hm : k ∉ m := lookup_eq_none.mp hk
      simp [hk, hm, ih]
    | some v =>
      have hm : k ∈ m := mem_of_lookup hk
      simp [hk, hm, ih]

theorem entriesBy_nodup (m : Map K V) : ((entriesBy ord m).map Prod.fst).Nodup := by
  rw [entriesBy_keys]
  exact (nodup_visits ord m).filter _

theorem entriesBy_perm (m : Map K V) : ((entriesBy ord m).map Prod.fst).Perm m.keys := by
  rw [entriesBy_keys]
  refine (List.perm_ext_iff_of_nodup ((nodup_visits ord m).filter _) m.keys_nodup).mpr fun k => ?_
  simp only [List.mem_filter, mem_visits, decide_eq_true_eq, ← mem_keys]
  constructor
  · exact And.right
  · exact fun hk => ⟨Or.inr hk, hk⟩

theorem entriesBy_eq_nil : entriesBy ord m = [] ↔ m.keys = [] := by
  have hperm := entriesBy_perm ord m
  constructor
  · intro h
    rw [h] at hperm
    exact hperm.symm.eq_nil
  · intro h
    rw [h] at hperm
    exact List.map_eq_nil_iff.mp hperm.eq_nil

theorem entriesBy_perm_entriesBy (ord ord' : List K) (m : Map K V) : (entriesBy ord m).Perm (entriesBy ord' m) := by
  refine (List.perm_ext_iff_of_nodup (entriesBy_nodup ord m).of_map
    (entriesBy_nodup ord' m).of_map).mpr fun e => ?_
  rw [mem_entriesBy, mem_entriesBy]

theorem entriesBy_only (h : ∀ k' ∈ m, k' = k) : entriesBy ord m = (m.lookup k).toList.map (k, ·) := by
  have hmem : ∀ e ∈ entriesBy ord m, e.1 = k ∧ m.lookup k = some e.2 := by
    rintro ⟨k', v⟩ he
    have hv := mem_entriesBy.mp he
    have hk : k' = k := h k' (mem_of_lookup hv)
    subst hk
    exact ⟨rfl, hv⟩
  cases hv : m.lookup k with
  | none =>
    apply List.eq_nil_iff_forall_not_mem.mpr
    intro e he
    have hsome := (hmem e he).2
    rw [hv] at hsome
    cases hsome
  | some v =>
    have hin : (k, v) ∈ entriesBy ord m := mem_entriesBy.mpr hv
    have hnodup := entriesBy_nodup ord m
    revert hmem hin hnodup
    cases entriesBy ord m with
    | nil => intro _ hin; cases hin
    | cons e rest =>
      intro hmem hin hnodup
      cases rest with
      | nil => rw [← List.mem_singleton.mp hin]; rfl
      | cons e' rest =>
        -- A second entry would have the same key.
        have hkeys : e.1 = e'.1 := by
          rw [(hmem e List.mem_cons_self).1, (hmem e' (by simp)).1]
        simp [hkeys] at hnodup

def mapVals (f : K → V → W) (m : Map K V) : Map K W where
  entries := m.entries.map (Sigma.map id f)
  nodupKeys := by
    have h := m.nodupKeys
    rw [List.NodupKeys, List.keys] at h ⊢
    rwa [List.map_map]

theorem lookup_mapVals (f : K → V → W) (m : Map K V) (k : K) : (mapVals f m).lookup k = (m.lookup k).map (f k) :=
  List.dlookup_map₂ k

def values (m : Map K V) : Multiset V := (m.entries.map Sigma.snd : List V)

theorem values_congr {m' : Map K V} (h : ∀ k, m.lookup k = m'.lookup k) : values m = values m' := by
  refine Multiset.coe_eq_coe.mpr (List.Perm.map _ ?_)
  exact List.lookup_ext m.nodupKeys m'.nodupKeys fun k v => by
    show v ∈ m.lookup k ↔ v ∈ m'.lookup k
    rw [h k]

theorem values_insert (k : K) (v : V) (m : Map K V) : values (m.insert k v) = v ::ₘ values (m.erase k) :=
  rfl

theorem values_of_lookup (h : m.lookup k = some v) : values m = v ::ₘ values (m.erase k) := by
  rw [← values_insert]
  refine values_congr fun k' => ?_
  by_cases hk : k' = k
  · rw [hk, h, lookup_insert]
  · rw [lookup_insert_ne hk]

theorem values_erase_of_lookup (h : m.lookup k = none) : values (m.erase k) = values m := by
  refine values_congr fun k' => ?_
  by_cases hk : k' = k
  · rw [hk, h, lookup_erase]
  · rw [lookup_erase_ne hk]

end Map

end Go
