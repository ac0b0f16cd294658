import Mathlib.Data.List.Basic

/-! Go functions that may panic.

A Go function either returns or stops the goroutine with a run-time panic; a
call that panics has no result and no effect that a caller could read. Such a
function is an `Except Panic`, and a loop whose body may panic is a `foldlM`.
`foldlM_ok` is the rule for such a loop: it returns if every round does and keeps
what the next one needs. -/
namespace Go

open List

/-- The run-time panics of the language. -/
inductive Panic where
  | nilPointer
  | indexOutOfRange
  | divideByZero
  | interfaceConversion
deriving DecidableEq, Repr

/-- What a call gives back. -/
abbrev Outcome (α : Type) := Except Panic α

instance {α : Type} [DecidableEq α] : DecidableEq (Outcome α) := fun a b =>
  match a, b with
  | .ok x, .ok y => decidable_of_iff (x = y) (by simp)
  | .error p, .error q => decidable_of_iff (p = q) (by simp)
  | .ok _, .error _ => isFalse (by simp)
  | .error _, .ok _ => isFalse (by simp)

namespace Outcome
variable {ε α β γ σ : Type} {f : α → Except ε β} {x : Except ε α}

theorem bind_ok {b : β} : (x >>= f) = .ok b ↔ ∃ a, x = .ok a ∧ f a = .ok b := by
  cases x with
  | error p | ok a => simp [bind, Except.bind]

theorem bind_error {e : ε} : (x >>= f) = .error e ↔ x = .error e ∨ ∃ a, x = .ok a ∧ f a = .error e := by
  cases x with
  | error p | ok a => simp [bind, Except.bind]

theorem pure_ok {a b : α} : (pure a : Except ε α) = .ok b ↔ a = b := by
  simp [pure, Except.pure]

theorem throw_ok {p : ε} {b : α} : (throw p : Except ε α) = .ok b ↔ False := by
  simp [throw, throwThe, MonadExceptOf.throw]

theorem map_ok {f : α → β} {b : β} : x.map f = .ok b ↔ ∃ a, x = .ok a ∧ f a = b := by
  cases x with
  | error p | ok a => simp [Except.map]

/-- What `f` makes of an element may be read off the element, so also of a list. -/
theorem mapM_map {g : β → γ} {g' : α → γ} (hf : ∀ a b, f a = .ok b → g b = g' a) {as : List α} {bs : List β}
    (h : as.mapM f = .ok bs) : bs.map g = as.map g' := by
  induction as generalizing bs with
  | nil =>
    cases pure_ok.mp h
    rfl
  | cons a rest ih =>
    rw [mapM_cons, bind_ok] at h
    obtain ⟨b, hb, h⟩ := h
    obtain ⟨bs', hbs', h⟩ := bind_ok.mp h
    cases pure_ok.mp h
    rw [map_cons, map_cons, hf a b hb, ih hbs']

theorem mapM_eq_map {g : α → β} {as : List α} (h : ∀ a ∈ as, f a = .ok (g a)) : as.mapM f = .ok (as.map g) := by
  induction as with
  | nil => rfl
  | cons a rest ih =>
    rw [mapM_cons, h a mem_cons_self, ih fun b hb => h b (mem_cons_of_mem a hb)]
    rfl

theorem foldlM_eq_foldl {f : σ → α → Except ε σ} {g : σ → α → σ} {l : List α}
    (h : ∀ s, ∀ a ∈ l, f s a = .ok (g s a)) (s : σ) : l.foldlM f s = .ok (l.foldl g s) := by
  induction l generalizing s with
  | nil => rfl
  | cons a rest ih =>
    rw [foldlM_cons, h s a mem_cons_self, foldl_cons]
    exact ih (fun s b hb => h s b (mem_cons_of_mem a hb)) (g s a)

/-- A loop whose rounds all return, and keep what the next round needs, returns. -/
theorem foldlM_ok {f : σ → α → Outcome σ} (P : σ → Prop) (l : List α)
    (step : ∀ s a, a ∈ l → P s → ∃ s', f s a = .ok s' ∧ P s') {s : σ} (hs : P s) :
    ∃ t, l.foldlM f s = .ok t ∧ P t := by
  induction l generalizing s with
  | nil => exact ⟨s, rfl, hs⟩
  | cons a rest ih =>
    obtain ⟨s', hbody, hs'⟩ := step s a mem_cons_self hs
    rw [foldlM_cons, hbody]
    exact ih (fun s b hb => step s b (mem_cons_of_mem a hb)) hs'

theorem foldlM_keeps {f : σ → α → Except ε σ} (P : σ → Prop) {l : List α}
    (step : ∀ s a s', a ∈ l → P s → f s a = .ok s' → P s') {s t : σ} (hs : P s)
    (h : l.foldlM f s = .ok t) : P t := by
  induction l generalizing s with
  | nil =>
    cases pure_ok.mp h
    exact hs
  | cons a rest ih =>
    obtain ⟨s', hround, h⟩ := bind_ok.mp h
    refine ih (fun s b s' hb => step s b s' (mem_cons_of_mem a hb)) ?_ h
    exact step s a s' mem_cons_self hs hround

end Outcome

def quo (a b : Int) : Outcome Int := if b = 0 then throw .divideByZero else pure (a.tdiv b)

theorem quo_ok {a b c : Int} : quo a b = .ok c ↔ b ≠ 0 ∧ a.tdiv b = c := by
  unfold quo
  split
  case isTrue h => simp [Outcome.throw_ok, h]
  case isFalse h => simp [Outcome.pure_ok, h]

def index {α : Type} (l : List α) (i : Int) : Outcome α :=
  if i < 0 then throw .indexOutOfRange
  else match l[i.toNat]? with
    | some a => pure a
    | none => throw .indexOutOfRange

theorem index_error {α : Type} {l : List α} {i : Int} {p : Panic} (h : index l i = .error p) :
    p = .indexOutOfRange := by
  unfold index at h
  repeat' split at h
  all_goals
    cases h
    try rfl

theorem index_natCast {α : Type} {l : List α} {i : Nat} (h : i < l.length) : index l i = .ok l[i] := by
  simp only [index, Int.toNat_natCast, getElem?_eq_getElem h]
  rfl

end Go
