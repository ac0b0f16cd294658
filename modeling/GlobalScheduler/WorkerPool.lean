import Mathlib.Algebra.BigOperators.Group.Multiset.Defs
import Mathlib.Algebra.Ring.Nat
import Mathlib.Data.Multiset.Range
import GlobalScheduler.Go.Panic

/-! A pool of workers that share a queue of pieces.

The pieces are numbered and wait in a channel that is closed from the start. A worker
receives a piece, looks whether the work was stopped, and if not does the piece: a sequence of
atomic actions on what the workers share. It goes on until the channel is empty or it finds the
work stopped, in which case the piece it has just received is dropped. The actions of
different workers come in any order.

`Inevitably` says of a state that every order of the steps from it ends, and ends well.
`Discipline` is the proof rule: an invariant of the pieces that are finished, those in work
and the shared state, kept when a piece is begun and by each action of a worker. It
gives what holds when all workers have left, whatever the order (`Discipline.inevitably`). -/
namespace WorkerPool

open Go Multiset

/-! ### Runs that end -/

/-- Every sequence of steps from the state ends, and where it ends `P` holds. -/
inductive Inevitably {σ : Type} (step : σ → σ → Prop) (P : σ → Prop) : σ → Prop where
  | intro {s : σ} (ends : (∀ s', ¬ step s s') → P s)
      (next : ∀ s', step s s' → Inevitably step P s') : Inevitably step P s

theorem Inevitably.mono {σ : Type} {step : σ → σ → Prop} {P Q : σ → Prop} {s : σ}
    (h : Inevitably step P s) (weaker : ∀ s, P s → Q s) : Inevitably step Q s := by
  induction h with
  | intro ends _ ih => exact .intro (fun hstuck => weaker _ (ends hstuck)) ih

theorem inevitably_of_measure {σ : Type} {step : σ → σ → Prop} {P I : σ → Prop} (measure : σ → Nat)
    (kept : ∀ s s', I s → step s s' → I s') (lowers : ∀ s s', step s s' → measure s' < measure s)
    (ends : ∀ s, I s → (∀ s', ¬ step s s') → P s) {s : σ} (hs : I s) : Inevitably step P s := by
  induction hn : measure s using Nat.strongRecOn generalizing s with
  | ind n ih =>
    subst hn
    exact .intro (ends s hs) fun s' hstep => ih _ (lowers s s' hstep) (kept s s' hs hstep) rfl

/-! ### The pool -/

/-- What the workers do: when the work is stopped, where a piece starts, and one atomic action, after
which the piece is done (`none`) or goes on. A piece takes finitely many actions. -/
structure Program (σ L : Type) where
  stopped : σ → Bool
  start : Nat → L
  act : L → σ → Outcome (σ × Option L)
  size : L → Nat
  shrinks : ∀ l s s' l', act l s = .ok (s', some l') → size l' < size l

inductive Worker (L : Type) where
  | idle
  | holding (piece : Nat)
  | busy (piece : Nat) (l : L)
  | crashed
  | exited

structure State (σ L : Type) where
  queue : List Nat
  workers : Multiset (Worker L)
  shared : σ

/-- All pieces wait, for at most as many workers as there are pieces. -/
def initial {σ L : Type} (workers pieces : Nat) (s : σ) : State σ L where
  queue := List.range pieces
  workers := replicate (min workers pieces) .idle
  shared := s

variable {σ L : Type} (p : Program σ L)

/-- One worker goes on. -/
inductive Step : State σ L → State σ L → Prop where
  | receive {piece : Nat} {queue : List Nat} {others : Multiset (Worker L)} {s : σ} :
      Step ⟨piece :: queue, .idle ::ₘ others, s⟩ ⟨queue, .holding piece ::ₘ others, s⟩
  | drained {others : Multiset (Worker L)} {s : σ} :
      Step ⟨[], .idle ::ₘ others, s⟩ ⟨[], .exited ::ₘ others, s⟩
  | leave {piece : Nat} {queue : List Nat} {others : Multiset (Worker L)} {s : σ}
      (stop : p.stopped s = true) :
      Step ⟨queue, .holding piece ::ₘ others, s⟩ ⟨queue, .exited ::ₘ others, s⟩
  | begin {piece : Nat} {queue : List Nat} {others : Multiset (Worker L)} {s : σ}
      (goes : p.stopped s = false) :
      Step ⟨queue, .holding piece ::ₘ others, s⟩ ⟨queue, .busy piece (p.start piece) ::ₘ others, s⟩
  | act {piece : Nat} {queue : List Nat} {others : Multiset (Worker L)} {l l' : L} {s s' : σ}
      (does : p.act l s = .ok (s', some l')) :
      Step ⟨queue, .busy piece l ::ₘ others, s⟩ ⟨queue, .busy piece l' ::ₘ others, s'⟩
  | finish {piece : Nat} {queue : List Nat} {others : Multiset (Worker L)} {l : L} {s s' : σ}
      (does : p.act l s = .ok (s', none)) :
      Step ⟨queue, .busy piece l ::ₘ others, s⟩ ⟨queue, .idle ::ₘ others, s'⟩
  | crash {piece : Nat} {queue : List Nat} {others : Multiset (Worker L)} {l : L} {s : σ} {why : Panic}
      (does : p.act l s = .error why) :
      Step ⟨queue, .busy piece l ::ₘ others, s⟩ ⟨queue, .crashed ::ₘ others, s⟩

/-- The pool waits for every worker to leave. -/
def State.Finished (s : State σ L) : Prop := ∀ w ∈ s.workers, w = .exited

/-! ### Every run ends -/

def Worker.work : Worker L → Nat
  | .idle => 1
  | .holding piece => p.size (p.start piece) + 3
  | .busy _ l => p.size l + 2
  | .crashed => 0
  | .exited => 0

def State.work (s : State σ L) : Nat :=
  (s.queue.map fun piece => p.size (p.start piece) + 3).sum + (s.workers.map (Worker.work p)).sum

theorem Step.lowers {p : Program σ L} {s s' : State σ L} (h : Step p s s') : s'.work p < s.work p := by
  cases h with
  | receive =>
    simp only [State.work, Worker.work, List.map_cons, List.sum_cons, map_cons, sum_cons]
    omega
  | act does =>
    have hless := p.shrinks _ _ _ _ does
    simp only [State.work, Worker.work, map_cons, sum_cons]
    omega
  | drained | leave | begin | finish | crash =>
    simp only [State.work, Worker.work, map_cons, sum_cons]
    omega

theorem exists_step {p : Program σ L} {s : State σ L} {w : Worker L} (hw : w ∈ s.workers)
    (hleft : w ≠ .exited) (hcrash : w ≠ .crashed) : ∃ s', Step p s s' := by
  obtain ⟨queue, workers, shared⟩ := s
  obtain ⟨others, rfl⟩ := exists_cons_of_mem hw
  cases w with
  | idle =>
    cases queue with
    | nil => exact ⟨_, .drained⟩
    | cons piece queue => exact ⟨_, .receive⟩
  | holding piece =>
    cases hstop : p.stopped shared with
    | true => exact ⟨_, .leave hstop⟩
    | false => exact ⟨_, .begin hstop⟩
  | busy piece l =>
    cases hact : p.act l shared with
    | error why => exact ⟨_, .crash hact⟩
    | ok r =>
      obtain ⟨s', l'⟩ := r
      cases l' with
      | none => exact ⟨_, .finish hact⟩
      | some l' => exact ⟨_, .act hact⟩
  | crashed => exact absurd rfl hcrash
  | exited => exact absurd rfl hleft

/-! ### The proof rule -/

/-- The pieces that workers have received and not looked at yet. -/
def received (workers : Multiset (Worker L)) : Multiset Nat :=
  workers.filterMap fun
    | .holding piece => some piece
    | _ => none

def running (workers : Multiset (Worker L)) : Multiset (Nat × L) :=
  workers.filterMap fun
    | .busy piece l => some (piece, l)
    | _ => none

section Pieces
variable {piece : Nat} {l : L} {others : Multiset (Worker L)}

@[simp] theorem received_idle : received (.idle ::ₘ others) = received others :=
  filterMap_cons_none _ _ rfl

@[simp] theorem received_holding : received (.holding piece ::ₘ others) = piece ::ₘ received others :=
  filterMap_cons_some _ _ _ rfl

@[simp] theorem received_busy : received (.busy piece l ::ₘ others) = received others :=
  filterMap_cons_none _ _ rfl

@[simp] theorem received_exited : received (.exited ::ₘ others) = received others :=
  filterMap_cons_none _ _ rfl

@[simp] theorem running_idle : running (.idle ::ₘ others) = running others :=
  filterMap_cons_none _ _ rfl

@[simp] theorem running_holding : running (.holding piece ::ₘ others) = running others :=
  filterMap_cons_none _ _ rfl

@[simp] theorem running_busy : running (.busy piece l ::ₘ others) = (piece, l) ::ₘ running others :=
  filterMap_cons_some _ _ _ rfl

@[simp] theorem running_exited : running (.exited ::ₘ others) = running others :=
  filterMap_cons_none _ _ rfl

theorem pieces_of_same {workers : Multiset (Worker L)} {w : Worker L} (h : ∀ w' ∈ workers, w' = w)
    (hw : w = .idle ∨ w = .exited) : received workers = 0 ∧ running workers = 0 := by
  obtain ⟨k, rfl⟩ : ∃ k, workers = replicate k w := ⟨_, eq_replicate_card.mpr h⟩
  clear h
  induction k with
  | zero => exact ⟨rfl, rfl⟩
  | succ k ih =>
    cases hw with
    | inl hw | inr hw =>
      subst hw
      simpa using ih

end Pieces

/-- A piece in work is one of the pieces, and is not finished or in work elsewhere. -/
theorem fresh_of_le {finished others : Multiset Nat} {pieces piece : Nat}
    (h : finished + piece ::ₘ others ≤ range pieces) :
    piece < pieces ∧ piece ∉ finished ∧ piece ∉ others := by
  have hnodup : (finished + piece ::ₘ others).Nodup := nodup_of_le h (nodup_range pieces)
  have hmem : piece ∈ range pieces :=
    mem_of_le h (mem_add.mpr (Or.inr (mem_cons_self piece others)))
  rw [add_cons, nodup_cons, mem_add, not_or] at hnodup
  exact ⟨mem_range.mp hmem, hnodup.1⟩

/-- An invariant of the finished pieces, the pieces in work and the shared state. No action
crashes, none takes a stop back, and each keeps the invariant. -/
structure Discipline (pieces : Nat) (Inv : Multiset Nat → Multiset (Nat × L) → σ → Prop) : Prop where
  begins : ∀ finished running s piece, Inv finished running s →
    finished + piece ::ₘ running.map Prod.fst ≤ range pieces →
    Inv finished ((piece, p.start piece) ::ₘ running) s
  acts : ∀ finished running s piece l, Inv finished ((piece, l) ::ₘ running) s →
    finished + piece ::ₘ running.map Prod.fst ≤ range pieces →
    ∃ s' l', p.act l s = .ok (s', l') ∧ (p.stopped s = true → p.stopped s' = true) ∧
      match l' with
      | some l' => Inv finished ((piece, l') ::ₘ running) s'
      | none => Inv (piece ::ₘ finished) running s'

/-- Each piece is finished, dropped because of a stop, waiting, received, or in work. -/
structure Kept (pieces : Nat) (Inv : Multiset Nat → Multiset (Nat × L) → σ → Prop)
    (finished dropped : Multiset Nat) (s : State σ L) : Prop where
  all : finished + (running s.workers).map Prod.fst + (dropped + s.queue + received s.workers) =
    range pieces
  stop : dropped ≠ 0 → p.stopped s.shared = true
  left : .exited ∈ s.workers → s.queue = [] ∨ p.stopped s.shared = true
  whole : .crashed ∉ s.workers
  inv : Inv finished (running s.workers) s.shared

section Rule
variable {p} {pieces : Nat} {Inv : Multiset Nat → Multiset (Nat × L) → σ → Prop}

theorem Kept.init {s : σ} (hinv : Inv 0 0 s) (workers : Nat) :
    Kept p pieces Inv 0 0 (initial workers pieces s) := by
  have hidle : ∀ w ∈ (replicate (min workers pieces) .idle : Multiset (Worker L)), w = .idle :=
    fun w hw => eq_of_mem_replicate hw
  have hnone := pieces_of_same hidle (Or.inl rfl)
  refine ⟨?_, fun h => absurd rfl h, ?_, ?_, ?_⟩
  · simp only [initial, hnone.1, hnone.2, map_zero, Multiset.add_zero]
    rfl
  · intro hexited
    cases hidle _ hexited
  · intro hcrashed
    cases hidle _ hcrashed
  · simpa only [initial, hnone.2] using hinv

/-- **One step keeps the discipline.** -/
theorem Kept.step (h : Discipline p pieces Inv) {finished dropped : Multiset Nat} {s s' : State σ L}
    (hs : Kept p pieces Inv finished dropped s) (hstep : Step p s s') :
    ∃ finished' dropped', Kept p pieces Inv finished' dropped' s' := by
  obtain ⟨hall, hstop, hleft, hwhole, hinv⟩ := hs
  cases hstep with
  | @receive piece queue others s =>
    refine ⟨finished, dropped, ?_, hstop, ?_, ?_, ?_⟩
    · simpa [← cons_coe] using hall
    · intro hexited
      exact Or.inr ((hleft (by simpa using hexited)).resolve_left (by simp))
    · simpa using hwhole
    · simpa using hinv
  | @drained others s =>
    refine ⟨finished, dropped, ?_, hstop, fun _ => Or.inl rfl, ?_, ?_⟩
    · simpa using hall
    · simpa using hwhole
    · simpa using hinv
  | @leave piece queue others s stop =>
    refine ⟨finished, piece ::ₘ dropped, ?_, fun _ => stop, fun _ => Or.inr stop, ?_, ?_⟩
    · simpa using hall
    · simpa using hwhole
    · simpa using hinv
  | @begin piece queue others s goes =>
    simp only [received_holding, running_holding, add_cons] at hall hinv
    refine ⟨finished, dropped, ?_, hstop, ?_, ?_, ?_⟩
    · simpa using hall
    · intro hexited
      exact hleft (by simpa using hexited)
    · simpa using hwhole
    · rw [running_busy]
      refine h.begins _ _ _ _ hinv ?_
      rw [add_cons, ← hall]
      exact cons_le_cons _ (le_add_right _ _)
  | @act piece queue others l l' s s' does =>
    simp only [received_busy, running_busy, map_cons] at hall hinv
    obtain ⟨s₁, l₁, hact, hmono, hnext⟩ := h.acts _ _ _ _ _ hinv (hall ▸ le_add_right _ _)
    cases does.symm.trans hact
    refine ⟨finished, dropped, ?_, fun hd => hmono (hstop hd), ?_, ?_, ?_⟩
    · simpa using hall
    · intro hexited
      exact (hleft (by simpa using hexited)).imp id hmono
    · simpa using hwhole
    · simpa using hnext
  | @finish piece queue others l s s' does =>
    simp only [received_busy, running_busy, map_cons] at hall hinv
    obtain ⟨s₁, l₁, hact, hmono, hnext⟩ := h.acts _ _ _ _ _ hinv (hall ▸ le_add_right _ _)
    cases does.symm.trans hact
    refine ⟨piece ::ₘ finished, dropped, ?_, fun hd => hmono (hstop hd), ?_, ?_, ?_⟩
    · simpa using hall
    · intro hexited
      exact (hleft (by simpa using hexited)).imp id hmono
    · simpa using hwhole
    · simpa using hnext
  | @crash piece queue others l s why does =>
    simp only [received_busy, running_busy, map_cons] at hall hinv
    obtain ⟨s₁, l₁, hact, -⟩ := h.acts _ _ _ _ _ hinv (hall ▸ le_add_right _ _)
    cases does.symm.trans hact

theorem Step.card_workers {s s' : State σ L} (h : Step p s s') : s'.workers.card = s.workers.card := by
  cases h <;> simp

/-- **The rule.** Whatever the order of the steps, all workers leave; the invariant then holds
with no piece in work, and every piece is finished, or the work was stopped. -/
theorem Discipline.inevitably (h : Discipline p pieces Inv) {s : σ} (hinv : Inv 0 0 s) {workers : Nat}
    (hworkers : 0 < workers) :
    Inevitably (Step p) (fun t => t.Finished ∧ ∃ finished, Inv finished 0 t.shared ∧
      finished ≤ range pieces ∧ (finished = range pieces ∨ p.stopped t.shared = true))
      (initial workers pieces s) := by
  refine inevitably_of_measure (I := fun t => t.workers.card = min workers pieces ∧
    ∃ finished dropped, Kept p pieces Inv finished dropped t) (State.work p) ?_ (fun _ _ hstep => hstep.lowers)
    ?_ ⟨by simp [initial], 0, 0, Kept.init hinv workers⟩
  · intro t t' ⟨hcard, finished, dropped, hkept⟩ hstep
    exact ⟨hstep.card_workers.trans hcard, hkept.step h hstep⟩
  · intro t ⟨hcard, finished, dropped, hkept⟩ hstuck
    have hdone : t.Finished := by
      intro w hw
      by_contra hleft
      obtain ⟨t', hstep⟩ := exists_step hw hleft fun heq => hkept.whole (heq ▸ hw)
      exact hstuck t' hstep
    obtain ⟨hreceived, hrunning⟩ := pieces_of_same hdone (Or.inr rfl)
    have hall := hkept.all
    have hend := hkept.inv
    rw [hrunning, hreceived, map_zero, Multiset.add_zero, Multiset.add_zero] at hall
    rw [hrunning] at hend
    refine ⟨hdone, finished, hend, hall ▸ le_add_right _ _, ?_⟩
    by_cases hstop : p.stopped t.shared = true
    · exact Or.inr hstop
    · refine Or.inl ?_
      have hdropped : dropped = 0 := by
        by_contra hne
        exact hstop (hkept.stop hne)
      have hqueue : t.queue = [] := by
        by_cases hnone : pieces = 0
        · have hcount := congrArg card hall
          simp only [card_add, card_range, coe_card, hnone] at hcount
          exact List.length_eq_zero_iff.mp (by omega)
        · have hsome : 0 < t.workers.card := by omega
          obtain ⟨w, hw⟩ := card_pos_iff_exists_mem.mp hsome
          exact (hkept.left (hdone w hw ▸ hw)).resolve_right hstop
      rw [← hall, hdropped, hqueue]
      exact (Multiset.add_zero finished).symm

end Rule

end WorkerPool
