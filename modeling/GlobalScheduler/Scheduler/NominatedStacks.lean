import GlobalScheduler.Scheduler.SchedulingQueue

/-! The two maps of the nominated stacks.

One map lists the stacks nominated to run on each site, the other has the site of each
stack. Together they are one relation: a stack is on the list of its site once and on no
other, and a stack without a site is on none.

No stack has a nominated site of its own in the source, where `NominatedSiteID` returns an
empty string; what is said here holds for any such function. -/
namespace GlobalScheduler.SchedulingQueue.NominatedStackMap

open Go AList List

def stacksForSite (npm : NominatedStackMap) (siteID : String) : List PodStack :=
  (npm.nominatedStacks.lookup siteID).getD []

def listed (npm : NominatedStackMap) (siteID uid : String) : Nat :=
  (npm.stacksForSite siteID).countP (·.uid = uid)

/-- The two maps are one relation. -/
structure Consistent (npm : NominatedStackMap) : Prop where
  listed : ∀ siteID uid, npm.listed siteID uid = if npm.nominatedStackToSite.lookup uid = some siteID then 1 else 0
  nonempty : ∀ siteID, npm.nominatedStacks.lookup siteID ≠ some []
  named : ∀ uid, npm.nominatedStackToSite.lookup uid ≠ some ""

theorem consistent_new : Consistent {} := by
  refine ⟨fun siteID uid => ?_, fun siteID h => ?_, fun uid h => ?_⟩
  · rfl
  · cases h
  · cases h

/-! ### Delete -/

section
variable {npm : NominatedStackMap} {stack : PodStack} {siteID uid : String}

theorem site_delete (npm : NominatedStackMap) (stack : PodStack) (uid : String) :
    (npm.delete stack).nominatedStackToSite.lookup uid =
      if uid = stack.uid then none else npm.nominatedStackToSite.lookup uid := by
  unfold delete
  split
  · next hnone =>
    split
    · next huid => rw [huid, hnone]
    · rfl
  · split
    · next huid =>
      rw [huid]
      exact lookup_erase _ _
    · next huid => exact lookup_erase_ne huid

theorem stacksForSite_delete (npm : NominatedStackMap) (stack : PodStack) (siteID : String) :
    (npm.delete stack).stacksForSite siteID =
      if npm.nominatedStackToSite.lookup stack.uid = some siteID then
        (npm.stacksForSite siteID).eraseP (·.uid = stack.uid)
      else npm.stacksForSite siteID := by
  unfold delete stacksForSite
  cases hsite : npm.nominatedStackToSite.lookup stack.uid with
  | none => rfl
  | some site =>
    by_cases heq : site = siteID
    · subst heq
      rw [if_pos rfl]
      dsimp only
      split_ifs with hany hempty
      · rw [lookup_erase, hempty]
        rfl
      · rw [lookup_insert]
        rfl
      · rw [eraseP_of_forall_not]
        intro x hx hxuid
        exact hany (any_eq_true.mpr ⟨x, hx, hxuid⟩)
    · rw [if_neg (fun h => heq (Option.some.inj h))]
      dsimp only
      split_ifs
      · rw [lookup_erase_ne (Ne.symm heq)]
      · rw [lookup_insert_ne (Ne.symm heq)]
      · rfl

/-- Taking out one stack changes how often its UID is there, and no other. -/
theorem countP_eraseP_uid {l : List PodStack} {uid' : String} (hl : l.countP (·.uid = uid') = 1) :
    (l.eraseP (·.uid = uid')).countP (·.uid = uid) = if uid = uid' then 0 else l.countP (·.uid = uid) := by
  have hmem : ∃ x ∈ l, decide (x.uid = uid') = true := by
    rw [← countP_pos_iff, hl]
    exact Nat.one_pos
  obtain ⟨x, hx, hxuid⟩ := hmem
  obtain ⟨a, before, after, -, ha, hsplit, herase⟩ := exists_of_eraseP (p := (·.uid = uid')) hx hxuid
  rw [hsplit, countP_append, countP_cons, if_pos ha] at hl
  rw [herase, hsplit, countP_append, countP_append]
  split
  · next huid =>
    rw [huid]
    omega
  · next huid =>
    have hne : ¬ decide (a.uid = uid) = true := by
      rw [decide_eq_true_eq, of_decide_eq_true ha]
      exact Ne.symm huid
    rw [countP_cons, if_neg hne, Nat.add_zero]

theorem Consistent.listed_delete (h : Consistent npm) (stack : PodStack) (siteID uid : String) :
    (npm.delete stack).listed siteID uid = if uid = stack.uid then 0 else npm.listed siteID uid := by
  unfold NominatedStackMap.listed
  rw [stacksForSite_delete]
  have hstack := h.listed siteID stack.uid
  split
  · next hsite =>
    rw [if_pos hsite] at hstack
    exact countP_eraseP_uid hstack
  · next hsite =>
    rw [if_neg hsite] at hstack
    split
    · next huid => rw [huid, ← NominatedStackMap.listed, hstack]
    · rfl

theorem nonempty_delete (h : ∀ siteID, npm.nominatedStacks.lookup siteID ≠ some []) (stack : PodStack)
    (siteID : String) : (npm.delete stack).nominatedStacks.lookup siteID ≠ some [] := by
  unfold delete
  split
  · exact h siteID
  · next site hsite =>
    dsimp only
    split_ifs with hany hempty
    · by_cases heq : siteID = site
      · rw [heq, lookup_erase]
        exact Option.some_ne_none [] |>.symm
      · rw [lookup_erase_ne heq]
        exact h siteID
    · by_cases heq : siteID = site
      · rw [heq, lookup_insert]
        exact fun hsome => hempty (Option.some.inj hsome)
      · rw [lookup_insert_ne heq]
        exact h siteID
    · exact h siteID

theorem Consistent.delete (h : Consistent npm) (stack : PodStack) : Consistent (npm.delete stack) := by
  refine ⟨fun siteID uid => ?_, nonempty_delete h.nonempty stack, fun uid => ?_⟩
  · rw [h.listed_delete, site_delete]
    split
    · rfl
    · exact h.listed siteID uid
  · rw [site_delete]
    split
    · exact (Option.some_ne_none "").symm
    · exact h.named uid

/-! ### Add and update -/

theorem Consistent.file (h : Consistent npm) (hstack : npm.nominatedStackToSite.lookup stack.uid = none)
    (hsite : siteID ≠ "") :
    Consistent
      { nominatedStacks := npm.nominatedStacks.insert siteID (npm.stacksForSite siteID ++ [stack])
        nominatedStackToSite := npm.nominatedStackToSite.insert stack.uid siteID } := by
  refine ⟨fun site uid => ?_, fun site => ?_, fun uid => ?_⟩
  · have hlisted := h.listed site uid
    unfold NominatedStackMap.listed stacksForSite at hlisted ⊢
    by_cases huid : uid = stack.uid
    · rw [huid, hstack, if_neg (Option.some_ne_none site).symm] at hlisted
      rw [huid, lookup_insert]
      by_cases heq : site = siteID
      · rw [heq] at hlisted
        rw [heq, lookup_insert, Option.getD_some, countP_append, hlisted]
        simp
      · rw [lookup_insert_ne heq, hlisted, if_neg (fun hsome => heq (Option.some.inj hsome).symm)]
    · rw [lookup_insert_ne huid, ← hlisted]
      by_cases heq : site = siteID
      · rw [heq, lookup_insert, Option.getD_some, countP_append]
        simp [Ne.symm huid]
      · rw [lookup_insert_ne heq]
  · by_cases heq : site = siteID
    · rw [heq, lookup_insert]
      simp
    · rw [lookup_insert_ne heq]
      exact h.nonempty site
  · by_cases huid : uid = stack.uid
    · rw [huid, lookup_insert]
      exact fun hsome => hsite (Option.some.inj hsome)
    · rw [lookup_insert_ne huid]
      exact h.named uid

variable {nominatedSiteID : PodStack → String}

/-- A stack that is nominated goes to the end of the list of the site; it is on no list
before. -/
theorem Consistent.addWith_eq (h : Consistent npm) (stack : PodStack) (siteID : String) :
    npm.addWith nominatedSiteID stack siteID =
      let site := if siteID = "" then nominatedSiteID stack else siteID
      if site = "" then npm.delete stack
      else
        { nominatedStacks := (npm.delete stack).nominatedStacks.insert site ((npm.delete stack).stacksForSite site ++ [stack])
          nominatedStackToSite := (npm.delete stack).nominatedStackToSite.insert stack.uid site } := by
  unfold addWith
  have hnot : ¬ ((npm.delete stack).stacksForSite (if siteID = "" then nominatedSiteID stack else siteID)).any
      (·.uid = stack.uid) = true := by
    have hlisted := h.listed_delete stack (if siteID = "" then nominatedSiteID stack else siteID) stack.uid
    rw [if_pos rfl, NominatedStackMap.listed, countP_eq_zero] at hlisted
    rw [any_eq_true]
    intro hany
    obtain ⟨x, hx, hxuid⟩ := hany
    exact hlisted x hx hxuid
  unfold stacksForSite at hnot ⊢
  simp only [if_neg hnot]

theorem Consistent.addWith (h : Consistent npm) (stack : PodStack) (siteID : String) :
    Consistent (npm.addWith nominatedSiteID stack siteID) := by
  rw [h.addWith_eq]
  have hgone : (npm.delete stack).nominatedStackToSite.lookup stack.uid = none := by
    rw [site_delete, if_pos rfl]
  by_cases hsite : (if siteID = "" then nominatedSiteID stack else siteID) = ""
  · rw [if_pos hsite]
    exact h.delete stack
  · rw [if_neg hsite]
    exact (h.delete stack).file hgone hsite

theorem Consistent.updateWith (h : Consistent npm) (oldStack newStack : PodStack) :
    Consistent (npm.updateWith nominatedSiteID oldStack newStack) :=
  (h.delete oldStack).addWith newStack _

/-- **The site reserved for a stack stays reserved** when neither the old nor the new stack
names one. -/
theorem Consistent.updateWith_keeps (h : Consistent npm) {oldStack newStack : PodStack}
    (hold : nominatedSiteID oldStack = "") (hnew : nominatedSiteID newStack = "")
    (hsite : npm.nominatedStackToSite.lookup oldStack.uid = some siteID) :
    (npm.updateWith nominatedSiteID oldStack newStack).nominatedStackToSite.lookup newStack.uid = some siteID ∧
      newStack ∈ (npm.updateWith nominatedSiteID oldStack newStack).stacksForSite siteID := by
  have hname : siteID ≠ "" := by
    intro hempty
    rw [hempty] at hsite
    exact h.named _ hsite
  unfold NominatedStackMap.updateWith
  rw [if_pos ⟨hold, hnew⟩, hsite, Option.getD_some, (h.delete oldStack).addWith_eq]
  simp only [if_neg hname]
  constructor
  · exact lookup_insert _
  · unfold stacksForSite
    rw [lookup_insert, Option.getD_some]
    exact mem_append_right _ (mem_singleton_self _)

end

/-! ### Runs of calls -/

inductive Call where
  | add (stack : PodStack) (siteID : String)
  | delete (stack : PodStack)
  | update (oldStack newStack : PodStack)

def call (nominatedSiteID : PodStack → String) (npm : NominatedStackMap) : Call → NominatedStackMap
  | .add stack siteID => npm.addWith nominatedSiteID stack siteID
  | .delete stack => npm.delete stack
  | .update oldStack newStack => npm.updateWith nominatedSiteID oldStack newStack

theorem Consistent.call {npm : NominatedStackMap} (h : Consistent npm) (nominatedSiteID : PodStack → String)
    (c : Call) : Consistent (npm.call nominatedSiteID c) := by
  cases c with
  | add stack siteID => exact h.addWith stack siteID
  | delete stack => exact h.delete stack
  | update oldStack newStack => exact h.updateWith oldStack newStack

theorem consistent_calls (nominatedSiteID : PodStack → String) (calls : List Call) :
    Consistent (calls.foldl (call nominatedSiteID) {}) :=
  foldlRecOn calls _ consistent_new fun _ h c _ => h.call nominatedSiteID c

/-- **The two maps are one relation after any calls**, and an update without nominations
keeps what is reserved. -/
theorem nominations_after_calls (nominatedSiteID : PodStack → String) (calls : List Call) :
    (∀ uid siteID, (calls.foldl (call nominatedSiteID) {}).nominatedStackToSite.lookup uid = some siteID ↔
      (calls.foldl (call nominatedSiteID) {}).listed siteID uid = 1 ∧
        ∀ other ≠ siteID, (calls.foldl (call nominatedSiteID) {}).listed other uid = 0) ∧
    (∀ siteID, (calls.foldl (call nominatedSiteID) {}).nominatedStacks.lookup siteID ≠ some []) ∧
    ∀ oldStack newStack siteID, nominatedSiteID oldStack = "" → nominatedSiteID newStack = "" →
      (calls.foldl (call nominatedSiteID) {}).nominatedStackToSite.lookup oldStack.uid = some siteID →
      ((calls ++ [Call.update oldStack newStack]).foldl (call nominatedSiteID) {}).nominatedStackToSite.lookup
          newStack.uid = some siteID ∧
        newStack ∈ ((calls ++ [Call.update oldStack newStack]).foldl (call nominatedSiteID) {}).stacksForSite siteID := by
  have h := consistent_calls nominatedSiteID calls
  refine ⟨fun uid siteID => ?_, h.nonempty, fun oldStack newStack siteID hold hnew hsite => ?_⟩
  · rw [h.listed siteID uid]
    constructor
    · intro hsite
      refine ⟨if_pos hsite, fun other hother => ?_⟩
      rw [h.listed other uid, if_neg]
      rw [hsite]
      exact fun hsame => hother (Option.some.inj hsame).symm
    · intro hlisted
      by_contra hnot
      rw [if_neg hnot] at hlisted
      exact absurd hlisted.1 Nat.zero_ne_one
  · rw [foldl_append]
    exact h.updateWith_keeps hold hnew hsite

end GlobalScheduler.SchedulingQueue.NominatedStackMap
