import Mathlib.Data.Multiset.Filter

/-! Things on shelves, and a register of them.

Every thing belongs on one shelf, its home. Some shelves are set up, and the register lists
the things there should be. The two agree if every shelf that is set up has the registered
things that belong there. -/
namespace Shelves

open Multiset Function

variable {S A : Type} [DecidableEq S] {home : A → S}

/-- A thing goes to its home, which is set up for it if need be. -/
def put (home : A → S) (a : A) (shelf : S → Option (List A)) : S → Option (List A) :=
  update shelf (home a) (some ((shelf (home a)).getD [] ++ [a]))

def setUp (s : S) (shelf : S → Option (List A)) : S → Option (List A) :=
  update shelf s (some ((shelf s).getD []))

def takeDown (s : S) (shelf : S → Option (List A)) : S → Option (List A) :=
  update shelf s none

/-- Every shelf has the registered things that belong there. -/
def Agrees (home : A → S) (shelf : S → Option (List A)) (held : Multiset A) : Prop :=
  ∀ s l, shelf s = some l → (l : Multiset A) = held.filter (home · = s)

/-- What is on a shelf belongs there. -/
def Homed (home : A → S) (shelf : S → Option (List A)) : Prop :=
  ∀ s l, shelf s = some l → ∀ a ∈ l, home a = s

/-- The shelf is up, or there is nothing that belongs on it. -/
def Ready (home : A → S) (shelf : S → Option (List A)) (held : Multiset A) (s : S) : Prop :=
  shelf s ≠ none ∨ ∀ a ∈ held, home a ≠ s

variable {shelf : S → Option (List A)} {held : Multiset A} {a b : A} {s : S}

/-! ### Which changes keep the two in agreement -/

theorem filter_cons_home (a : A) (held : Multiset A) (hhome : home a = s) :
    (a ::ₘ held).filter (home · = s) = a ::ₘ held.filter (home · = s) :=
  filter_cons_of_pos (p := (home · = s)) held hhome

theorem filter_cons_away (a : A) (held : Multiset A) (hhome : home a ≠ s) :
    (a ::ₘ held).filter (home · = s) = held.filter (home · = s) :=
  filter_cons_of_neg (p := (home · = s)) held hhome

theorem agrees_update_iff {l₀ : List A} : Agrees home (update shelf s (some l₀)) held ↔
    (l₀ : Multiset A) = held.filter (home · = s) ∧
      ∀ s' ≠ s, ∀ l, shelf s' = some l → (l : Multiset A) = held.filter (home · = s') := by
  constructor
  · intro h
    refine ⟨h s l₀ (update_self s _ shelf), fun s' hne l hl => h s' l ?_⟩
    rwa [update_of_ne hne]
  · intro h s' l hl
    by_cases heq : s' = s
    · subst heq
      rw [update_self] at hl
      cases hl
      exact h.1
    · rw [update_of_ne heq] at hl
      exact h.2 s' heq l hl

theorem agrees_setUp_iff : Agrees home (setUp s shelf) held ↔
    Agrees home shelf held ∧ Ready home shelf held s := by
  rw [setUp, agrees_update_iff]
  cases hs : shelf s with
  | none =>
    have hempty : ((([] : List A) : Multiset A) = held.filter (home · = s)) ↔
        ∀ a ∈ held, home a ≠ s := by
      rw [coe_nil, eq_comm, filter_eq_nil]
    rw [Option.getD_none, hempty]
    constructor
    · intro h
      refine ⟨fun s' l hl => h.2 s' (fun heq => ?_) l hl, Or.inr h.1⟩
      rw [heq, hs] at hl
      cases hl
    · intro h
      exact ⟨h.2.resolve_left (not_not.mpr hs), fun s' _ l hl => h.1 s' l hl⟩
  | some l₀ =>
    have hready : Ready home shelf held s := Or.inl (by simp [hs])
    simp only [Option.getD_some, hready, and_true]
    constructor
    · intro h s' l hl
      by_cases heq : s' = s
      · rw [heq, hs] at hl
        cases hl
        exact heq ▸ h.1
      · exact h.2 s' heq l hl
    · intro h
      exact ⟨h s l₀ hs, fun s' _ l hl => h s' l hl⟩

theorem Agrees.takeDown (h : Agrees home shelf held) (s : S) : Agrees home (takeDown s shelf) held := by
  intro s' l hl
  by_cases heq : s' = s
  · simp [Shelves.takeDown, heq] at hl
  · exact h s' l (by simpa [Shelves.takeDown, heq] using hl)

/-- A thing that is put up and registered needs its home to be right before. -/
theorem agrees_put_iff : Agrees home (put home a shelf) (a ::ₘ held) ↔
    Agrees home shelf held ∧ Ready home shelf held (home a) := by
  have hsnoc : ∀ l : List A, ((l ++ [a] : List A) : Multiset A) = a ::ₘ l := fun l => by
    rw [cons_coe, coe_eq_coe]
    exact List.perm_append_comm
  rw [← agrees_setUp_iff, put, setUp, agrees_update_iff, agrees_update_iff, hsnoc,
    filter_cons_home a held rfl, cons_inj_right]
  refine and_congr_right fun _ => forall₂_congr fun s' hne => ?_
  rw [filter_cons_away a held (Ne.symm hne)]

theorem Agrees.strike_iff (h : Agrees home shelf (a ::ₘ held)) :
    Agrees home shelf held ↔ shelf (home a) = none := by
  constructor
  · intro h'
    cases hs : shelf (home a) with
    | none => rfl
    | some l =>
      have hboth := (h _ l hs).symm.trans (h' _ l hs)
      exact absurd (congrArg card hboth) (by simp)
  · intro hnone s l hl
    have hne : home a ≠ s := fun heq => by
      rw [heq, hl] at hnone
      cases hnone
    rw [h s l hl, filter_cons_away a held hne]

/-- A thing in the register is replaced with another one of the same home. -/
theorem Agrees.swap_iff (h : Agrees home shelf (a ::ₘ held)) (hhome : home b = home a) :
    Agrees home shelf (b ::ₘ held) ↔ shelf (home a) = none ∨ a = b := by
  constructor
  · intro h'
    cases hs : shelf (home a) with
    | none => exact Or.inl rfl
    | some l =>
      have hboth := (h _ l hs).symm.trans (h' _ l hs)
      rw [filter_cons_home a held rfl, filter_cons_home b held hhome] at hboth
      exact Or.inr ((cons_inj_left _).mp hboth)
  · intro hcases
    cases hcases with
    | inl hnone =>
      intro s l hl
      have hne : home a ≠ s := fun heq => by
        rw [heq, hl] at hnone
        cases hnone
      rw [h s l hl, filter_cons_away a held hne, filter_cons_away b held (hhome ▸ hne)]
    | inr heq => exact heq ▸ h

/-! ### What belongs on its shelf -/

theorem Homed.setUp (h : Homed home shelf) (s : S) : Homed home (setUp s shelf) := by
  intro s' l hl a ha
  by_cases heq : s' = s
  · subst heq
    rw [Shelves.setUp, update_self] at hl
    cases hl
    cases hs : shelf s' with
    | none => simp [hs] at ha
    | some l => exact h s' l hs a (by simpa [hs] using ha)
  · rw [Shelves.setUp, update_of_ne heq] at hl
    exact h s' l hl a ha

theorem Homed.takeDown (h : Homed home shelf) (s : S) : Homed home (takeDown s shelf) := by
  intro s' l hl
  by_cases heq : s' = s
  · simp [Shelves.takeDown, heq] at hl
  · exact h s' l (by simpa [Shelves.takeDown, heq] using hl)

theorem Homed.put (h : Homed home shelf) (a : A) : Homed home (put home a shelf) := by
  intro s l hl b hb
  by_cases heq : s = home a
  · subst heq
    rw [Shelves.put, update_self] at hl
    cases hl
    cases List.mem_append.mp hb with
    | inl hold =>
      cases hs : shelf (home a) with
      | none => simp [hs] at hold
      | some l => exact h _ l hs b (by simpa [hs] using hold)
    | inr hnew => rw [List.mem_singleton.mp hnew]
  · rw [Shelves.put, update_of_ne heq] at hl
    exact h s l hl b hb

/-! ### All things that are up -/

theorem filter_flatMap (hhomed : Homed home shelf) {shelves : List (S × List A)}
    (hnodup : (shelves.map Prod.fst).Nodup) (hup : ∀ e ∈ shelves, shelf e.1 = some e.2) (s : S) :
    (shelves.flatMap Prod.snd).filter (home · = s) =
      if s ∈ shelves.map Prod.fst then (shelf s).getD [] else [] := by
  induction shelves with
  | nil => rfl
  | cons e rest ih =>
    rw [List.map_cons, List.nodup_cons] at hnodup
    have hfirst := hup e List.mem_cons_self
    rw [List.flatMap_cons, List.filter_append,
      ih hnodup.2 fun e' he' => hup e' (List.mem_cons_of_mem e he'), List.map_cons]
    by_cases heq : s = e.1
    · subst heq
      have hall : e.2.filter (home · = e.1) = e.2 :=
        List.filter_eq_self.mpr fun a ha => by simpa using hhomed e.1 e.2 hfirst a ha
      simp [hall, hnodup.1, hfirst]
    · have hnone : e.2.filter (home · = s) = [] := List.filter_eq_nil_iff.mpr fun a ha => by
        rw [hhomed e.1 e.2 hfirst a ha, decide_eq_true_eq]
        exact Ne.symm heq
      simp only [hnone, List.nil_append, List.mem_cons, heq, false_or]

theorem eq_iff_filter_home (home : A → S) {held' : Multiset A} : held = held' ↔
    ∀ s, held.filter (home · = s) = held'.filter (home · = s) := by
  classical
  constructor
  · intro h s
    rw [h]
  · intro h
    ext a
    rw [← count_filter_of_pos (p := (home · = home a)) rfl, h (home a),
      count_filter_of_pos (p := (home · = home a)) rfl]

/-- **Shelf by shelf or all at once**: the two agree if the things that are up are the
registered ones whose home is up. -/
theorem agrees_iff (hhomed : Homed home shelf) {shelves : List (S × List A)}
    (hnodup : (shelves.map Prod.fst).Nodup) (hup : ∀ e, e ∈ shelves ↔ shelf e.1 = some e.2) :
    Agrees home shelf held ↔
      (shelves.flatMap Prod.snd : Multiset A) = held.filter fun a => shelf (home a) ≠ none := by
  rw [eq_iff_filter_home home]
  refine forall_congr' fun s => ?_
  rw [filter_coe, filter_flatMap hhomed hnodup (fun e he => (hup e).mp he), filter_filter]
  cases hs : shelf s with
  | none =>
    have hdown : held.filter (fun a => home a = s ∧ shelf (home a) ≠ none) = 0 := by
      rw [filter_eq_nil]
      intro a _ hboth
      exact hboth.2 (hboth.1 ▸ hs)
    rw [hdown]
    simp
  | some l =>
    have hmem : s ∈ shelves.map Prod.fst := List.mem_map.mpr ⟨(s, l), (hup (s, l)).mpr hs, rfl⟩
    have hhere : held.filter (fun a => home a = s ∧ shelf (home a) ≠ none) =
        held.filter (home · = s) := by
      refine filter_congr fun a _ => ⟨And.left, fun heq => ⟨heq, ?_⟩⟩
      rw [heq, hs]
      exact Option.some_ne_none l
    rw [hhere, if_pos hmem, Option.getD_some]
    simp

/-! ### Changes -/

/-- One change of the shelves and the register, with when it keeps the two in agreement. -/
inductive Change (home : A → S) (shelf : S → Option (List A)) :
    Multiset A → (S → Option (List A)) → Multiset A → Prop → Prop
  | still (held : Multiset A) : Change home shelf held shelf held True
  | setUp (held : Multiset A) (s : S) :
    Change home shelf held (setUp s shelf) held (Ready home shelf held s)
  | takeDown (held : Multiset A) (s : S) : Change home shelf held (takeDown s shelf) held True
  | put (held : Multiset A) (a : A) :
    Change home shelf held (put home a shelf) (a ::ₘ held) (Ready home shelf held (home a))
  /-- A thing is struck off the register and stays on its shelf. -/
  | strike (held : Multiset A) (a : A) :
    Change home shelf (a ::ₘ held) shelf held (shelf (home a) = none)
  /-- A thing of the register is replaced with another of the same home. -/
  | swap (held : Multiset A) (a b : A) (hhome : home b = home a) :
    Change home shelf (a ::ₘ held) shelf (b ::ₘ held) (shelf (home a) = none ∨ a = b)
  /-- A thing is put up in another one's place, which stays on its shelf too. -/
  | replace (held : Multiset A) (a b : A) :
    Change home shelf (a ::ₘ held) (put home b shelf) (b ::ₘ held)
      (shelf (home a) = none ∧ Ready home shelf held (home b))

variable {shelf' : S → Option (List A)} {held' : Multiset A} {keeps keeps' : Prop}

section
variable (h : Change home shelf held shelf' held' keeps)
include h

theorem Change.congr (hiff : keeps ↔ keeps') : Change home shelf held shelf' held' keeps' :=
  propext hiff ▸ h

theorem Change.homed (hhomed : Homed home shelf) : Homed home shelf' := by
  cases h with
  | still | strike | swap => exact hhomed
  | setUp _ s => exact hhomed.setUp s
  | takeDown _ s => exact hhomed.takeDown s
  | put _ a => exact hhomed.put a
  | replace _ _ b => exact hhomed.put b

theorem Change.agrees_iff (hagrees : Agrees home shelf held) : Agrees home shelf' held' ↔ keeps := by
  cases h with
  | still => exact iff_true_intro hagrees
  | setUp _ s => rw [agrees_setUp_iff, and_iff_right hagrees]
  | takeDown _ s => exact iff_true_intro (hagrees.takeDown s)
  | put _ a => rw [agrees_put_iff, and_iff_right hagrees]
  | strike _ a => exact hagrees.strike_iff
  | swap _ a b hhome => exact hagrees.swap_iff hhome
  | replace _ a b => rw [agrees_put_iff, hagrees.strike_iff]

end

end Shelves
