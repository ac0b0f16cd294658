import GlobalScheduler.Scheduler.PrioritizeProofs

/-! What a scheduling cycle does.

The bind loops are reduced to a sequence of single binds (`Binds`): `bindSites_spec`
says that they bind to the slots the strategies handed out (`boundSlots`), one after the
other, up to the first bind that fails. What holds of one bind then holds of the loops by
induction over that sequence. -/
namespace GlobalScheduler.Schedule

open Go Outcome Framework Progress
open List hiding count

/-! ### One bind -/

variable {err : Option String} {fw : Framework} {p p' : Progress} {siteID : String} {stack : Stack}
  {state : CycleState} {alloc : Allocation} {prio : Prioritized} {snap : Snapshot} {sites : List SiteScore}

/-- **What one bind does**: it runs the binders on the record filed under the site and
files the record they leave. -/
theorem bindOne_ok (h : bindOne fw state stack siteID p = .ok (err, p')) :
    ∃ info status stack' info' hkeyed,
      p.snapshot.siteCacheInfoMap.lookup siteID = some info ∧
      fw.runBindPlugins p.bound.length state { stack with resources := p.resources } info =
        .ok (status, stack', info') ∧
      err = bindError status ∧
      p' = {
        snapshot := p.snapshot.put siteID info' hkeyed
        resources := stack'.resources
        bound := if status.isSuccess then p.bound ++ [stack'] else p.bound } := by
  unfold bindOne at h
  split at h
  · exact absurd h (by simp [throw_ok])
  case h_2 info hinfo =>
    split at h
    · cases h
    case h_2 status stack' info' hbind =>
      cases h
      exact ⟨info, status, stack', info', _, hinfo, hbind, rfl, rfl⟩

theorem bindError_eq_none {status : Status} : bindError status = none ↔ status.isSuccess = true := by
  unfold bindError
  split
  case isTrue h => simp [h]
  case isFalse h =>
    split <;> simp [h]

theorem bindOne_bound (h : bindOne fw state stack siteID p = .ok (none, p')) :
    ∃ stack', p'.bound = p.bound ++ [stack'] ∧ stack'.selected.siteID = siteID := by
  obtain ⟨info, status, stack', info', hkeyed, hinfo, hbind, herr, rfl⟩ := bindOne_ok h
  have hsucc := bindError_eq_none.mp herr.symm
  obtain ⟨site, hsite, hsel⟩ := runBindPlugins_selects hbind hsucc
  refine ⟨stack', by simp [hsucc], ?_⟩
  rw [hsel]
  exact p.snapshot.keyed siteID info site hinfo hsite

theorem bindOne_failed {e : String} (h : bindOne fw state stack siteID p = .ok (some e, p')) :
    p'.bound = p.bound := by
  obtain ⟨info, status, stack', info', hkeyed, _, _, herr, rfl⟩ := bindOne_ok h
  have hfail : ¬ status.isSuccess = true := by
    intro hsucc
    rw [bindError_eq_none.mpr hsucc] at herr
    cases herr
  simp [hfail]

/-! ### Sequences of binds -/

/-- Successful binds to the listed sites, one after the other. -/
inductive Binds (fw : Framework) (state : CycleState) (stack : Stack) :
    Progress → List String → Progress → Prop where
  | nil (p : Progress) : Binds fw state stack p [] p
  | cons {p p' p'' : Progress} {siteID : String} {rest : List String}
      (first : bindOne fw state stack siteID p = .ok (none, p'))
      (others : Binds fw state stack p' rest p'') : Binds fw state stack p (siteID :: rest) p''

section Binds
variable {fw : Framework} {state : CycleState} {stack : Stack} {p q : Progress} {ids : List String}

theorem Binds.append {r : Progress} {as bs : List String} (h : Binds fw state stack p as q)
    (h' : Binds fw state stack q bs r) : Binds fw state stack p (as ++ bs) r := by
  induction h with
  | nil => exact h'
  | cons first _ ih => exact .cons first (ih h')

theorem Binds.bound (h : Binds fw state stack p ids q) :
    ∃ new, q.bound = p.bound ++ new ∧ new.map (·.selected.siteID) = ids := by
  induction h with
  | nil => exact ⟨[], by simp, rfl⟩
  | cons first _ ih =>
    obtain ⟨stack', hone, hsel⟩ := bindOne_bound first
    obtain ⟨new, hnew, hids⟩ := ih
    exact ⟨stack' :: new, by simp [hnew, hone], by simp [hsel, hids]⟩

theorem Binds.count (h : Binds fw state stack p ids q) : q.count = p.count + ids.length := by
  obtain ⟨new, hnew, rfl⟩ := h.bound
  simp [count, hnew]

/-- **The induction over a bind loop**: what every bind keeps, the loop keeps. -/
theorem Binds.inv {P : Progress → Prop}
    (step : ∀ p siteID p', P p → bindOne fw state stack siteID p = .ok (none, p') → P p')
    (h : Binds fw state stack p ids q) (hp : P p) : P q := by
  induction h with
  | nil => exact hp
  | cons first _ ih => exact ih (step _ _ _ hp first)

end Binds

/-! ### The loops -/

section Loops
variable {ids : List String}

/-- How binding to the listed sites ended: all are bound, or a bind failed. -/
def Ended (fw : Framework) (state : CycleState) (stack : Stack) (ids : List String)
    (p : Progress) (err : Option String) (p' : Progress) : Prop :=
  ∃ done q, Binds fw state stack p done q ∧
    ((err = none ∧ ids = done ∧ p' = q) ∨
      ∃ e siteID rest, err = some e ∧ ids = done ++ siteID :: rest ∧
        bindOne fw state stack siteID q = .ok (some e, p'))

theorem Ended.nil (p : Progress) : Ended fw state stack [] p none p :=
  ⟨[], p, .nil p, Or.inl ⟨rfl, rfl, rfl⟩⟩

theorem Ended.count (h : Ended fw state stack ids p none p') : p'.count = p.count + ids.length := by
  obtain ⟨done, q, hbinds, ⟨-, rfl, rfl⟩ | ⟨e, _, _, herr, _⟩⟩ := h
  · exact hbinds.count
  · cases herr

theorem Ended.append {as bs : List String} {q : Progress} (h : Ended fw state stack as p none q)
    (h' : Ended fw state stack bs q err p') : Ended fw state stack (as ++ bs) p err p' := by
  obtain ⟨done, q, hbinds, ⟨-, rfl, rfl⟩ | ⟨e, _, _, herr, _⟩⟩ := h
  · obtain ⟨done', q', hbinds', hend⟩ := h'
    refine ⟨as ++ done', q', hbinds.append hbinds', hend.imp ?_ ?_⟩
    · rintro ⟨rfl, rfl, rfl⟩
      exact ⟨rfl, rfl, rfl⟩
    · rintro ⟨e, siteID, rest, rfl, rfl, hfail⟩
      exact ⟨e, siteID, rest, rfl, (append_assoc ..).symm, hfail⟩
  · cases herr

theorem Ended.failed {as : List String} {e : String} (h : Ended fw state stack as p (some e) p') (bs : List String) :
    Ended fw state stack (as ++ bs) p (some e) p' := by
  obtain ⟨done, q, hbinds, ⟨herr, _⟩ | ⟨e', siteID, rest, herr, rfl, hfail⟩⟩ := h
  · cases herr
  · exact ⟨done, q, hbinds, Or.inr ⟨e', siteID, rest ++ bs, herr, append_assoc .., hfail⟩⟩

theorem bindCopies_spec {n : Nat} (h : bindCopies fw state alloc siteID n p = .ok (err, p')) :
    Ended fw state alloc.stack ((replicate n siteID).take (max 1 (alloc.replicas - p.count).toNat)) p err p' := by
  induction n generalizing p with
  | zero =>
    cases h
    rw [replicate_zero, take_nil]
    exact .nil _
  | succ n ih =>
    obtain ⟨⟨err₁, p₁⟩, hone, h⟩ := bind_ok.mp h
    obtain ⟨k, hk⟩ : ∃ k, max 1 (alloc.replicas - p.count).toNat = k + 1 := ⟨_, (Nat.sub_add_cancel (le_max_left ..)).symm⟩
    rw [hk, replicate_succ, take_succ_cons]
    cases err₁ with
    | some e =>
      cases h
      exact ⟨[], p, .nil p, Or.inr ⟨e, siteID, _, rfl, rfl, hone⟩⟩
    | none =>
      have hfirst : Ended fw state alloc.stack [siteID] p none p₁ :=
        ⟨[siteID], p₁, .cons hone (.nil p₁), Or.inl ⟨rfl, rfl, rfl⟩⟩
      have hcount := hfirst.count
      rw [length_singleton] at hcount
      refine hfirst.append ?_
      dsimp only at h
      split at h
      case isTrue henough =>
        cases h
        rw [show k = 0 by omega]
        exact .nil _
      case isFalse hmore =>
        rw [show k = max 1 (alloc.replicas - p₁.count).toNat by omega]
        exact ih h

/-- The slots a strategy hands out: each site as often as its count. -/
def slots (siteCount : List SiteScore) : List String :=
  siteCount.flatMap fun value => replicate value.stackCount.toNat value.siteID

/-- The slots that are bound: as many as replicas are asked for. The loops count after
they bind, so a call for none still binds the first slot of the first site. -/
def boundSlots (replicas : Int) (sites : List SiteScore) : List String :=
  if 1 ≤ replicas then (slots sites).take replicas.toNat
  else (slots (sites.take 1)).take 1

/-- **The bind loop** binds to the slots in order, up to the first that fails. -/
theorem bindSites_spec (h : bindSites fw state alloc sites p = .ok (err, p')) :
    Ended fw state alloc.stack (boundSlots (alloc.replicas - p.count) sites) p err p' := by
  induction sites generalizing p with
  | nil =>
    cases h
    simpa [boundSlots, slots] using Ended.nil _
  | cons value rest ih =>
    obtain ⟨⟨err₁, p₁⟩, hcopies, h⟩ := bind_ok.mp h
    have hended := bindCopies_spec hcopies
    have hall : boundSlots (alloc.replicas - p.count) (value :: rest) =
        (replicate value.stackCount.toNat value.siteID).take (max 1 (alloc.replicas - p.count).toNat) ++
          if 1 ≤ alloc.replicas - p.count then
            (slots rest).take ((alloc.replicas - p.count).toNat - value.stackCount.toNat) else [] := by
      unfold boundSlots
      split
      · rw [max_eq_right (by omega), slots, flatMap_cons, take_append, length_replicate]
        rfl
      · rw [max_eq_left (by omega)]
        simp [slots]
    rw [hall]
    cases err₁ with
    | some e =>
      cases h
      exact hended.failed _
    | none =>
      have hcount := hended.count
      rw [length_take, length_replicate] at hcount
      refine hended.append ?_
      dsimp only at h
      split at h
      case isTrue henough =>
        cases h
        split
        · rw [show (alloc.replicas - p.count).toNat - value.stackCount.toNat = 0 by omega]
          exact .nil _
        · exact .nil _
      case isFalse hmore =>
        have hrest := ih h
        rw [boundSlots, if_pos (by omega)] at hrest
        rw [if_pos (by omega), show (alloc.replicas - p.count).toNat - value.stackCount.toNat =
          (alloc.replicas - p₁.count).toNat by omega]
        exact hrest

end Loops

/-! ### The end of a cycle -/

/-- Some strategy refuses the priority list the call arrives at. -/
def StrategyRefuses (fw : Framework) (ord : List String) (snap : Snapshot) (alloc : Allocation) :
    Prop :=
  ∃ prio sites status, prioritize fw ord snap alloc = .ok (.ok prio) ∧
    runStrategyPlugins prio.state (withSelector alloc) fw.strategyPlugins
      prio.priorityList = .ok (sites, status) ∧ status.isSuccess = false

/-- A call that got as far as binding: what the strategies handed out and how the bind
loop over it ended. -/
structure Placed (fw : Framework) (snap : Snapshot) (alloc : Allocation) (prio : Prioritized)
    (sites : List SiteScore) (err : Option String) (p : Progress) : Prop where
  strategies : ∃ status, runStrategyPlugins prio.state alloc fw.strategyPlugins
    prio.priorityList = .ok (sites, status) ∧ status.isSuccess = true
  loop : bindSites fw prio.state alloc sites ⟨snap, alloc.stack.resources, []⟩ = .ok (err, p)

theorem place_ok {r : Result} (h : place fw snap alloc prio = .ok r) :
    (∃ sites status, runStrategyPlugins prio.state alloc fw.strategyPlugins
        prio.priorityList = .ok (sites, status) ∧ status.isSuccess = false ∧
        r = { err := none, snapshot := snap }) ∨
      ∃ sites err p, Placed fw snap alloc prio sites err p ∧
        r = { stackList := shown p, snapshot := p.snapshot, bound := p.bound,
              err := err.or (if p.count < alloc.replicas then some "not find suit host" else none) } := by
  obtain ⟨⟨sites, status⟩, hstrat, h⟩ := bind_ok.mp h
  dsimp only at h
  split at h
  case isTrue hsucc =>
    obtain ⟨⟨err, p⟩, hloop, h⟩ := bind_ok.mp h
    refine Or.inr ⟨sites, err, p, ⟨⟨status, hstrat, hsucc⟩, hloop⟩, ?_⟩
    rw [← pure_ok.mp h]
    cases err with
    | none => rfl
    | some e => rfl
  case isFalse hfail =>
    exact Or.inl ⟨sites, status, hstrat, by simpa using hfail, (pure_ok.mp h).symm⟩

/-- **How a call can end**: before the strategies with an error, at the strategies
with a nil error and nothing bound, or after the bind loop. -/
theorem schedule_ok {ord : List String} {r : Result} (h : schedule fw ord snap alloc = .ok r) :
    (∃ e, prioritize fw ord snap alloc = .ok (.error e) ∧ r = { err := some e, snapshot := snap }) ∨
      (StrategyRefuses fw ord snap alloc ∧ r = { err := none, snapshot := snap }) ∨
      ∃ prio sites err p, prioritize fw ord snap alloc = .ok (.ok prio) ∧
        Placed fw snap (withSelector alloc) prio sites err p ∧
        r = { stackList := shown p, snapshot := p.snapshot, bound := p.bound,
              err := err.or (if p.count < alloc.replicas then some "not find suit host" else none) } := by
  obtain ⟨prioritized, hprio, h⟩ := bind_ok.mp h
  cases prioritized with
  | error e => exact Or.inl ⟨e, hprio, (pure_ok.mp h).symm⟩
  | ok prio =>
    rcases place_ok h with ⟨sites, status, hstrat, hfail, rfl⟩ | ⟨sites, err, p, hplaced, rfl⟩
    · exact Or.inr (Or.inl ⟨⟨prio, sites, status, hprio, hstrat, hfail⟩, rfl⟩)
    · exact Or.inr (Or.inr ⟨prio, sites, err, p, hprio, hplaced, rfl⟩)

theorem Placed.ended (h : Placed fw snap alloc prio sites err p) : Ended fw prio.state alloc.stack
    (boundSlots alloc.replicas sites) ⟨snap, alloc.stack.resources, []⟩ err p := by
  simpa [count] using bindSites_spec h.loop

theorem boundSlots_begins (replicas : Int) (sites : List SiteScore) :
    (boundSlots replicas sites).IsPrefix (slots sites) := by
  unfold boundSlots
  split
  · exact take_prefix _ _
  · refine (List.take_prefix _ _).trans ?_
    cases sites with
    | nil => exact nil_prefix
    | cons value rest => exact ⟨slots rest, by simp [slots]⟩

/-- The replicas bound name a prefix of the slots. -/
theorem Ended.bound {ids : List String} {rs : List Resource} (h : Ended fw state stack ids ⟨snap, rs, []⟩ err p) :
    (p.bound.map (·.selected.siteID)).IsPrefix ids := by
  obtain ⟨done, q, hbinds, hend⟩ := h
  obtain ⟨new, hnew, rfl⟩ := hbinds.bound
  rw [nil_append] at hnew
  rcases hend with ⟨_, rfl, rfl⟩ | ⟨_, _, _, _, rfl, hfail⟩
  · rw [hnew]
  · rw [bindOne_failed hfail, hnew]
    exact prefix_append _ _

theorem Placed.bound_begins (h : Placed fw snap alloc prio sites err p) :
    (p.bound.map (·.selected.siteID)).IsPrefix (slots sites) :=
  h.ended.bound.trans (boundSlots_begins _ _)

/-- No more are bound than were asked for. -/
theorem Placed.count_le (h : Placed fw snap alloc prio sites err p) (hR : 1 ≤ alloc.replicas) :
    p.count ≤ alloc.replicas := by
  have hle := h.ended.bound.length_le
  rw [boundSlots, if_pos hR, length_map, length_take] at hle
  rw [count]
  omega

theorem mem_slots (h : siteID ∈ slots sites) : siteID ∈ sites.map SiteScore.siteID := by
  obtain ⟨value, hvalue, hmem⟩ := mem_flatMap.mp h
  rw [eq_of_mem_replicate hmem]
  exact mem_map_of_mem hvalue

theorem Placed.passed {ord : List String} {asked : Allocation} (h : Placed fw snap alloc prio sites err p)
    (hsound : prio.Sound fw ord snap asked) :
    ∀ stack ∈ p.bound, ∃ site ∈ prio.passed, stack.selected.siteID = site.siteID := by
  intro stack hstack
  obtain ⟨status, hstrat, _⟩ := h.strategies
  have hslot := h.bound_begins.subset (mem_map_of_mem hstack)
  have hlist := (runStrategyPlugins_sublist hstrat).subset (mem_slots hslot)
  obtain ⟨site, hsite, hid⟩ := mem_map.mp (hsound.perm.subset hlist)
  exact ⟨site, hsite, hid.symm⟩

/-! ### Sites stay where they are -/

/-- The sites on record are the same. -/
def SameSites (snap snap' : Snapshot) : Prop :=
  ∀ key, (snap'.siteCacheInfoMap.lookup key).map (·.site) =
    (snap.siteCacheInfoMap.lookup key).map (·.site)

theorem SameSites.refl (snap : Snapshot) : SameSites snap snap := fun _ => rfl

theorem SameSites.trans {snap' snap'' : Snapshot} (h : SameSites snap snap')
    (h' : SameSites snap' snap'') : SameSites snap snap'' :=
  fun key => (h' key).trans (h key)

theorem SameSites.mem_iff {snap' : Snapshot} (h : SameSites snap snap') (key : String) :
    key ∈ snap'.siteCacheInfoMap ↔ key ∈ snap.siteCacheInfoMap := by
  have hkey := congrArg Option.isSome (h key)
  rw [Option.isSome_map, Option.isSome_map] at hkey
  rw [← AList.lookup_isSome, ← AList.lookup_isSome, hkey]

theorem bindOne_sameSites (h : bindOne fw state stack siteID p = .ok (err, p')) :
    SameSites p.snapshot p'.snapshot := by
  obtain ⟨info, status, stack', info', hkeyed, hinfo, hbind, _, rfl⟩ := bindOne_ok h
  intro key
  show ((p.snapshot.put siteID info' hkeyed).siteCacheInfoMap.lookup key).map _ = _
  by_cases hkey : key = siteID
  · subst hkey
    rw [Snapshot.put_lookup_self, hinfo, Option.map_some, Option.map_some, runBindPlugins_keepsSite hbind]
  · rw [Snapshot.put_lookup_ne _ _ _ hkey]

theorem Ended.sameSites {ids : List String} (h : Ended fw state stack ids p err p') :
    SameSites p.snapshot p'.snapshot := by
  obtain ⟨done, q, hbinds, hend⟩ := h
  have hq : SameSites p.snapshot q.snapshot := by
    refine hbinds.inv (P := fun q => SameSites p.snapshot q.snapshot) ?_ (SameSites.refl _)
    exact fun q siteID q' hq hone => hq.trans (bindOne_sameSites hone)
  rcases hend with ⟨_, _, rfl⟩ | ⟨_, _, _, _, _, hfail⟩
  · exact hq
  · exact hq.trans (bindOne_sameSites hfail)

/-- **A call neither adds nor removes a record, nor changes which site it is for.** -/
theorem schedule_sameSites {ord : List String} {r : Result} (h : schedule fw ord snap alloc = .ok r) :
    SameSites snap r.snapshot := by
  rcases schedule_ok h with ⟨e, _, rfl⟩ | ⟨_, rfl⟩ | ⟨prio, sites, err, p, _, hplaced, rfl⟩
  · exact SameSites.refl _
  · exact SameSites.refl _
  · exact hplaced.ended.sameSites

end GlobalScheduler.Schedule
