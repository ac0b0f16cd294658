import GlobalScheduler.WorkerPool

/-! A pool of workers that report errors.

A piece of work may fail. The worker then sends the error into a channel that has room for
one, without blocking, cancels the context that the workers look at before they begin a
piece, and goes on to the next piece; what it has done of the piece stays as it is.

A `Job` is what is done for a piece, and its `program` adds the way out with an error. The rule of
the pool is simpler for a job: pieces that failed may be taken as never finished, so that an
invariant has nothing to say about them. When all workers have left, either every piece is
finished and the channel is as new, or there is an error in it and some piece does
fail (`Job.Discipline.inevitably`). -/
namespace WorkerPool

open Go Outcome Multiset

/-! ### The channel -/

/-- A channel with room for one error, and whether the context is cancelled. -/
structure ErrorChannel (ε : Type) where
  err : Option ε := none
  cancelled : Bool := false
deriving DecidableEq

namespace ErrorChannel
variable {ε : Type}

variable (ch : ErrorChannel ε)

/-- `SendError`: without blocking, so a second error is lost. -/
def sendError (err : ε) : ErrorChannel ε := { ch with err := ch.err.or (some err) }

def cancel : ErrorChannel ε := { ch with cancelled := true }

theorem sendError_err (err : ε) : (ch.sendError err).err ≠ none := by
  cases herr : ch.err <;> simp [sendError, herr]

theorem eq_new {ch : ErrorChannel ε} (herr : ch.err = none) (h : ch.cancelled = true → ch.err ≠ none) :
    ch = {} := by
  have hcancelled : ch.cancelled = false := by
    by_contra hcancelled
    exact h (by simpa using hcancelled) herr
  cases ch
  cases herr
  cases hcancelled
  rfl

end ErrorChannel

/-! ### The job -/

/-- What an action comes to: the piece goes on, is done, or fails. -/
inductive Reply (ε σ L : Type) where
  | goes (s : σ) (l : L)
  | done (s : σ)
  | fails (err : ε)

/-- What is done for a piece, in finitely many actions. -/
structure Job (ε σ L : Type) where
  start : Nat → L
  act : L → σ → Outcome (Reply ε σ L)
  size : L → Nat
  shrinks : ∀ l s s' l', act l s = .ok (.goes s' l') → size l' < size l

/-- Where a worker is: at its job, or on the way out with an error. -/
inductive Stage (ε L : Type) where
  | job (l : L)
  | sendError (err : ε)
  | cancel

/-- What the workers share: the channel, and what the job is about. -/
structure Reporting (ε σ : Type) where
  errCh : ErrorChannel ε := {}
  state : σ

namespace Job
variable {ε σ L : Type} (job : Job ε σ L)

def stageAct : Stage ε L → Reporting ε σ → Outcome (Reporting ε σ × Option (Stage ε L))
  | .job l, s => do
    match ← job.act l s.state with
    | .goes state l => pure ({ s with state := state }, some (.job l))
    | .done state => pure ({ s with state := state }, none)
    | .fails err => pure (s, some (.sendError err))
  | .sendError err, s => pure ({ s with errCh := s.errCh.sendError err }, some .cancel)
  | .cancel, s => pure ({ s with errCh := s.errCh.cancel }, none)

def stageSize : Stage ε L → Nat
  | .job l => job.size l + 3
  | .sendError _ => 2
  | .cancel => 1

theorem stageAct_job {l : L} {s : Reporting ε σ} {reply : Reply ε σ L} (h : job.act l s.state = .ok reply) :
    job.stageAct (.job l) s = .ok (match reply with
      | .goes state l => ({ s with state := state }, some (.job l))
      | .done state => ({ s with state := state }, none)
      | .fails err => (s, some (.sendError err))) := by
  refine bind_ok.mpr ⟨reply, h, ?_⟩
  cases reply <;> rfl

theorem stageAct_shrinks (l : Stage ε L) (s s' : Reporting ε σ) (l' : Stage ε L)
    (h : job.stageAct l s = .ok (s', some l')) : job.stageSize l' < job.stageSize l := by
  cases l with
  | job l =>
    obtain ⟨reply, hact, h⟩ := bind_ok.mp h
    cases reply with
    | goes state l₁ =>
      cases h
      exact Nat.add_lt_add_right (job.shrinks _ _ _ _ hact) 3
    | done state => cases h
    | fails err =>
      cases h
      show 2 < job.size l + 3
      omega
  | sendError err =>
    cases h
    exact Nat.lt_succ_self 1
  | cancel => cases h

def program : Program (Reporting ε σ) (Stage ε L) where
  stopped := fun s => s.errCh.cancelled
  start := fun piece => .job (job.start piece)
  act := job.stageAct
  size := job.stageSize
  shrinks := job.stageAct_shrinks

/-! ### The proof rule -/

/-- An invariant of the finished pieces, the pieces in work and what the job is about. No action
crashes; a piece is done only if it is not one that fails, and fails only if it is. A piece
that fails counts as in work from then on, where it failed. -/
structure Discipline (pieces : Nat) (Fails : Nat → Prop)
    (Inv : Multiset Nat → Multiset (Nat × L) → σ → Prop) : Prop where
  begins : ∀ finished running s piece, Inv finished running s →
    finished + piece ::ₘ running.map Prod.fst ≤ range pieces →
    Inv finished ((piece, job.start piece) ::ₘ running) s
  acts : ∀ finished running s piece l, Inv finished ((piece, l) ::ₘ running) s →
    finished + piece ::ₘ running.map Prod.fst ≤ range pieces →
    ∃ reply, job.act l s = .ok reply ∧ match reply with
      | .goes s' l' => Inv finished ((piece, l') ::ₘ running) s'
      | .done s' => ¬ Fails piece ∧ Inv (piece ::ₘ finished) running s'
      | .fails _ => Fails piece

def live (running : Multiset (Nat × Stage ε L)) : Multiset (Nat × L) :=
  running.filterMap fun
    | (piece, .job l) => some (piece, l)
    | _ => none

section Live
variable {piece : Nat} {l : L} {err : ε} {running : Multiset (Nat × Stage ε L)}

@[simp] theorem live_job : live ((piece, .job l) ::ₘ running) = (piece, l) ::ₘ live running :=
  filterMap_cons_some _ _ _ rfl

@[simp] theorem live_sendError : live ((piece, .sendError err) ::ₘ running) = live running :=
  filterMap_cons_none _ _ rfl

@[simp] theorem live_cancel : live ((piece, .cancel) ::ₘ running) = live running :=
  filterMap_cons_none _ _ rfl

end Live

/-- A worker on the way out has a reason: its piece fails, and the error is sent before the context
is cancelled. -/
def Justified (pieces : Nat) (Fails : Nat → Prop) (ch : ErrorChannel ε) : Stage ε L → Prop
  | .job _ => True
  | .sendError _ => ∃ piece < pieces, Fails piece
  | .cancel => ch.err ≠ none

/-- The pool with a job: `finished` are the pieces that were done, and `failed` those that failed,
with where they did. -/
structure Tracked (pieces : Nat) (Fails : Nat → Prop)
    (Inv : Multiset Nat → Multiset (Nat × L) → σ → Prop) (finished : Multiset Nat)
    (failed : Multiset (Nat × L)) (ended : Multiset Nat) (running : Multiset (Nat × Stage ε L))
    (s : Reporting ε σ) : Prop where
  inv : Inv finished (live running + failed) s.state
  pieces_eq : finished + (live running + failed).map Prod.fst = ended + running.map Prod.fst
  right : ∀ piece ∈ finished, ¬ Fails piece
  justified : ∀ r ∈ running, Justified pieces Fails s.errCh r.2
  told : failed ≠ 0 → s.errCh.err ≠ none ∨ ∃ r ∈ running, ∃ err, r.2 = .sendError err
  cancelled : s.errCh.cancelled = true → s.errCh.err ≠ none
  genuine : s.errCh.err ≠ none → ∃ piece < pieces, Fails piece

section Rule
variable {job} {pieces : Nat} {Fails : Nat → Prop} {Inv : Multiset Nat → Multiset (Nat × L) → σ → Prop}
  {finished ended : Multiset Nat} {failed : Multiset (Nat × L)} {running : Multiset (Nat × Stage ε L)}
  {s : Reporting ε σ} {piece : Nat} {l : L}

theorem Justified.mono {ch ch' : ErrorChannel ε} {stage : Stage ε L} (h : Justified pieces Fails ch stage)
    (herr : ch.err ≠ none → ch'.err ≠ none) : Justified pieces Fails ch' stage := by
  cases stage with
  | job l => trivial
  | sendError err => exact h
  | cancel => exact herr h

section
variable (h : Tracked pieces Fails Inv finished failed ended ((piece, .job l) ::ₘ running) s)
include h

theorem Tracked.le (hle : ended + piece ::ₘ running.map Prod.fst ≤ range pieces) :
    finished + piece ::ₘ (live running + failed).map Prod.fst ≤ range pieces := by
  have heq := h.pieces_eq
  rw [live_job, cons_add, map_cons, map_cons] at heq
  exact heq ▸ hle

theorem Tracked.goes {l' : L} {state : σ}
    (hinv : Inv finished ((piece, l') ::ₘ (live running + failed)) state) :
    Tracked pieces Fails Inv finished failed ended ((piece, .job l') ::ₘ running)
      { s with state := state } where
  inv := by
    rw [live_job, cons_add]
    exact hinv
  pieces_eq := by simpa using h.pieces_eq
  right := h.right
  justified := by simpa [Justified] using h.justified
  told := by simpa using h.told
  cancelled := h.cancelled
  genuine := h.genuine

theorem Tracked.done {state : σ} (hright : ¬ Fails piece) (hinv : Inv (piece ::ₘ finished) (live running + failed) state) :
    Tracked pieces Fails Inv (piece ::ₘ finished) failed (piece ::ₘ ended) running
      { s with state := state } where
  inv := hinv
  pieces_eq := by simpa using h.pieces_eq
  right := by simpa using ⟨hright, h.right⟩
  justified := fun r hr => h.justified r (mem_cons_of_mem hr)
  told := by simpa using h.told
  cancelled := h.cancelled
  genuine := h.genuine

theorem Tracked.fails {err : ε} (hfails : ∃ piece < pieces, Fails piece) :
    Tracked pieces Fails Inv finished ((piece, l) ::ₘ failed) ended ((piece, .sendError err) ::ₘ running) s where
  inv := by
    have hinv := h.inv
    rw [live_job, cons_add] at hinv
    rw [live_sendError, add_cons]
    exact hinv
  pieces_eq := by simpa using h.pieces_eq
  right := h.right
  justified := by
    intro r hr
    cases mem_cons.mp hr with
    | inl heq => exact heq ▸ hfails
    | inr hold => exact h.justified r (mem_cons_of_mem hold)
  told := fun _ => Or.inr ⟨_, mem_cons_self _ _, err, rfl⟩
  cancelled := h.cancelled
  genuine := h.genuine

end

theorem Tracked.sendError {err : ε}
    (h : Tracked pieces Fails Inv finished failed ended ((piece, .sendError err) ::ₘ running) s) :
    Tracked pieces Fails Inv finished failed ended ((piece, .cancel) ::ₘ running)
      { s with errCh := s.errCh.sendError err } where
  inv := by simpa using h.inv
  pieces_eq := by simpa using h.pieces_eq
  right := h.right
  justified := by
    intro r hr
    cases mem_cons.mp hr with
    | inl heq => exact heq ▸ s.errCh.sendError_err err
    | inr hold =>
      exact (h.justified r (mem_cons_of_mem hold)).mono fun _ => s.errCh.sendError_err err
  told := fun _ => Or.inl (s.errCh.sendError_err err)
  cancelled := fun _ => s.errCh.sendError_err err
  genuine := fun _ => h.justified _ (mem_cons_self _ _)

theorem Tracked.cancel (h : Tracked pieces Fails Inv finished failed ended ((piece, .cancel) ::ₘ running) s) :
    Tracked pieces Fails Inv finished failed (piece ::ₘ ended) running
      { s with errCh := s.errCh.cancel } where
  inv := by simpa using h.inv
  pieces_eq := by simpa using h.pieces_eq
  right := h.right
  justified := fun r hr => (h.justified r (mem_cons_of_mem hr)).mono id
  told := fun _ => Or.inl (h.justified _ (mem_cons_self _ _))
  cancelled := fun _ => h.justified _ (mem_cons_self _ _)
  genuine := h.genuine

theorem Discipline.tracked (h : job.Discipline pieces Fails Inv) :
    WorkerPool.Discipline job.program pieces fun ended running s =>
      ∃ finished failed, Tracked pieces Fails Inv finished failed ended running s where
  begins := by
    intro ended running s piece ⟨finished, failed, hs⟩ hle
    refine ⟨finished, failed, ?_, ?_, hs.right, ?_, ?_, hs.cancelled, hs.genuine⟩
    · show Inv finished (live ((piece, .job (job.start piece)) ::ₘ running) + failed) s.state
      rw [live_job, cons_add]
      refine h.begins _ _ _ _ hs.inv ?_
      rw [add_cons, hs.pieces_eq, ← add_cons]
      exact hle
    · simpa [program] using hs.pieces_eq
    · simpa [program, Justified] using hs.justified
    · simpa [program] using hs.told
  acts := by
    intro ended running s piece stage ⟨finished, failed, hs⟩ hle
    cases stage with
    | job l =>
      have hinv := hs.inv
      rw [live_job, cons_add] at hinv
      obtain ⟨reply, hact, hreply⟩ := h.acts _ _ _ _ _ hinv (hs.le hle)
      refine ⟨_, _, job.stageAct_job hact, ?_⟩
      cases reply with
      | goes state l' => exact ⟨id, finished, failed, hs.goes hreply⟩
      | done state => exact ⟨id, _, failed, hs.done hreply.1 hreply.2⟩
      | fails err => exact ⟨id, finished, _, hs.fails ⟨piece, (fresh_of_le hle).1, hreply⟩⟩
    | sendError err => exact ⟨_, _, rfl, id, finished, failed, hs.sendError⟩
    | cancel => exact ⟨_, _, rfl, fun _ => rfl, finished, failed, hs.cancel⟩

/-- **The rule.** Whatever the order of the steps, all workers leave. Then either no piece fails, every
piece is finished and the channel is as new, or there is an error and some piece fails. -/
theorem Discipline.inevitably (h : job.Discipline pieces Fails Inv) {s : σ} (hinv : Inv 0 0 s)
    {workers : Nat} (hworkers : 0 < workers) :
    Inevitably (Step job.program) (fun t => t.Finished ∧
      ((∀ piece < pieces, ¬ Fails piece) ∧ t.shared.errCh = {} ∧ Inv (range pieces) 0 t.shared.state ∨
        (∃ piece < pieces, Fails piece) ∧ ∃ err, t.shared.errCh.err = some err))
      (initial workers pieces { state := s }) := by
  have hstart : Tracked pieces Fails Inv 0 0 0 (0 : Multiset (Nat × Stage ε L)) { state := s } := by
    refine ⟨?_, rfl, ?_, ?_, fun hne => absurd rfl hne, ?_, fun herr => absurd rfl herr⟩
    · exact hinv
    · exact fun piece hpiece => absurd hpiece (notMem_zero piece)
    · exact fun r hr => absurd hr (notMem_zero r)
    · intro hcancelled
      cases hcancelled
  refine (h.tracked.inevitably ⟨0, 0, hstart⟩ hworkers).mono ?_
  intro t ⟨hdone, ended, ⟨finished, failed, hs⟩, _, hend⟩
  refine ⟨hdone, ?_⟩
  cases herr : t.shared.errCh.err with
  | some err => exact Or.inr ⟨hs.genuine (by rw [herr]; exact Option.some_ne_none err), err, rfl⟩
  | none =>
    have hended : ended = range pieces :=
      hend.resolve_right fun hstop => hs.cancelled hstop herr
    have hfailed : failed = 0 := by
      by_contra hne
      cases hs.told hne with
      | inl hsome => exact hsome herr
      | inr hin =>
        obtain ⟨r, hr, _⟩ := hin
        exact notMem_zero r hr
    have hfinished : finished = range pieces := by
      have heq := hs.pieces_eq
      rw [hfailed, hended] at heq
      simpa [live] using heq
    refine Or.inl ⟨?_, ErrorChannel.eq_new herr hs.cancelled, ?_⟩
    · intro piece hpiece
      exact hs.right piece (hfinished ▸ mem_range.mpr hpiece)
    · have hinv := hs.inv
      rw [hfinished, hfailed] at hinv
      simpa [live] using hinv

end Rule

/-! ### Pieces that do not disturb each other -/

/-- How far a piece is. -/
inductive Position (L : Type) where
  | waiting
  | working (l : L)
  | finished

/-- What always holds, and what holds of each piece where it is. -/
structure Placed (Always : σ → Prop) (Holds : Nat → Position L → σ → Prop) (finished : Multiset Nat)
    (running : Multiset (Nat × L)) (s : σ) : Prop where
  always : Always s
  waiting : ∀ piece, piece ∉ finished → piece ∉ running.map Prod.fst → Holds piece .waiting s
  working : ∀ r ∈ running, Holds r.1 (.working r.2) s
  finished : ∀ piece ∈ finished, Holds piece .finished s

section Apart
variable {job} {pieces : Nat} {Fails : Nat → Prop} {Always : σ → Prop} {Holds : Nat → Position L → σ → Prop} {finished : Multiset Nat}
  {running : Multiset (Nat × L)} {s s' : σ} {piece : Nat} {l : L}

theorem Placed.init (hs : Always s) (h : ∀ piece, Holds piece .waiting s) : Placed Always Holds 0 0 s :=
  ⟨hs, fun piece _ _ => h piece, fun r hr => absurd hr (notMem_zero r),
    fun piece hpiece => absurd hpiece (notMem_zero piece)⟩

/-- What an action leaves of the others, before its own piece has a position again. -/
theorem Placed.others (h : Placed Always Holds finished ((piece, l) ::ₘ running) s)
    (hfinished : piece ∉ finished) (hrunning : piece ∉ running.map Prod.fst)
    (hothers : ∀ other ≠ piece, ∀ p, Holds other p s → Holds other p s') :
    (∀ other ≠ piece, other ∉ finished → other ∉ running.map Prod.fst → Holds other .waiting s') ∧
      (∀ r ∈ running, Holds r.1 (.working r.2) s') ∧ ∀ other ∈ finished, Holds other .finished s' := by
  refine ⟨fun other hne hnot hout => hothers other hne _ (h.waiting other hnot ?_), fun r hr => ?_, fun other hin => ?_⟩
  · rw [map_cons, mem_cons, not_or]
    exact ⟨hne, hout⟩
  · exact hothers r.1 (fun heq => hrunning (heq ▸ mem_map_of_mem Prod.fst hr)) _
      (h.working r (mem_cons_of_mem hr))
  · exact hothers other (fun heq => hfinished (heq ▸ hin)) _ (h.finished other hin)

/-- **A rule for pieces that do not disturb each other**: an action keeps what holds of the others, and
brings its own piece from one position to the next. -/
theorem Discipline.of_apart
    (start : ∀ piece s, Holds piece .waiting s → Holds piece (.working (job.start piece)) s)
    (acts : ∀ piece l s, piece < pieces → Always s → Holds piece (.working l) s →
      ∃ reply, job.act l s = .ok reply ∧ match reply with
        | .goes s' l' => Always s' ∧ Holds piece (.working l') s' ∧
            ∀ other ≠ piece, ∀ p, Holds other p s → Holds other p s'
        | .done s' => ¬ Fails piece ∧ Always s' ∧ Holds piece .finished s' ∧
            ∀ other ≠ piece, ∀ p, Holds other p s → Holds other p s'
        | .fails _ => Fails piece) :
    job.Discipline pieces Fails (Placed Always Holds) where
  begins := by
    intro finished running s piece h hle
    obtain ⟨_, hfinished, hrunning⟩ := fresh_of_le hle
    refine ⟨h.always, fun other hnot hout => h.waiting other hnot ?_, ?_, h.finished⟩
    · rw [map_cons, mem_cons, not_or] at hout
      exact hout.2
    · simpa using ⟨start piece s (h.waiting piece hfinished hrunning), fun a b => h.working (a, b)⟩
  acts := by
    intro finished running s piece l h hle
    obtain ⟨hlt, hfinished, hrunning⟩ := fresh_of_le hle
    obtain ⟨reply, hact, hreply⟩ := acts piece l s hlt h.always (h.working _ (mem_cons_self _ _))
    refine ⟨reply, hact, ?_⟩
    cases reply with
    | fails err => exact hreply
    | goes s' l' =>
      obtain ⟨halways, hknows, hothers⟩ := hreply
      obtain ⟨hwaiting, hworking, hdone⟩ := h.others hfinished hrunning hothers
      refine ⟨halways, fun other hnot hout => ?_, by simpa using ⟨hknows, fun a b => hworking (a, b)⟩, hdone⟩
      rw [map_cons, mem_cons, not_or] at hout
      exact hwaiting other hout.1 hnot hout.2
    | done s' =>
      obtain ⟨hright, halways, hknows, hothers⟩ := hreply
      obtain ⟨hwaiting, hworking, hdone⟩ := h.others hfinished hrunning hothers
      refine ⟨hright, halways, fun other hnot hout => ?_, hworking, by simpa using ⟨hknows, hdone⟩⟩
      rw [mem_cons, not_or] at hnot
      exact hwaiting other hnot.1 hnot.2 hout

end Apart
end Job

end WorkerPool
