import GlobalScheduler.Labels.RoundTrip

/-! The parser on any text.

The items of a text end with the token for its end, and have it nowhere else. The parser
looks at the next item without asking whether there is one. It always finds one: where it
comes upon the end of the text within a requirement, it stops with an error. -/
namespace GlobalScheduler.Labels

open List

/-- The last item is the end of the text, and no other. -/
def Ends : List ScannedItem → Prop
  | [] => False
  | item :: rest => if item.tok = .endOfStringToken then rest = [] else Ends rest

theorem scan_ends (l : List Char) : Ends (scan l) ∧ (scan l).length ≤ l.length + 1 := by
  fun_induction scan l with
  | case1 l hend => exact ⟨by rw [Ends, if_pos hend], Nat.le_add_left 1 _⟩
  | case2 l hend ih =>
    rw [Ends, if_neg hend]
    exact ⟨ih.1, Nat.succ_le_succ (ih.2.trans (lex_length l hend))⟩

/-! ### What a parser can do -/

/-- It reports an error, or its result and the items that are left are such. -/
def Safe {α : Type} (post : α → List ScannedItem → Prop) : Except ParseError (α × List ScannedItem) → Prop
  | .ok (a, items) => post a items
  | .error (.errorf _) => True
  | .error _ => False

section
variable {α β : Type} {items : List ScannedItem} {post post' : α → List ScannedItem → Prop}

theorem Safe.mono {x : Except ParseError (α × List ScannedItem)} (h : Safe post x)
    (weaker : ∀ a rest, post a rest → post' a rest) : Safe post' x := by
  rcases x with (_ | _ | _) | ⟨a, rest⟩
  · trivial
  · exact h
  · exact h
  · exact weaker a rest h

theorem safe_bind {x : Parser β} {f : β → Parser α} :
    Safe post ((x >>= f) items) ↔ Safe (fun b rest => Safe post (f b rest)) (x items) := by
  rw [bind_apply]
  rcases x items with (_ | _ | _) | _ <;> rfl

theorem safe_errorf {msg : String} : Safe post (errorf msg items) ↔ True := Iff.rfl

theorem safe_pure {a : α} : Safe post ((pure a : Parser α) items) ↔ post a items := Iff.rfl

theorem safe_ite {p : Prop} [Decidable p] {x y : Parser α} :
    Safe post ((if p then x else y) items) ↔ if p then Safe post (x items) else Safe post (y items) := by
  split <;> rfl

end

section
variable {items rest rest' : List ScannedItem} {item : ScannedItem} {context : ParserContext} {tok : Token}
  {post : Token × String → List ScannedItem → Prop}

/-- The end of the text and something before it are left. -/
def Left (items rest : List ScannedItem) : Prop := Ends rest ∧ rest.length < items.length

theorem Left.trans (h : Left items rest) (h' : Left rest rest') : Left items rest' := ⟨h'.1, h'.2.trans h.2⟩

theorem Ends.left (h : Ends (item :: rest)) (htok : item.tokIn context = tok) (hne : tok ≠ .endOfStringToken) :
    Left (item :: rest) rest := by
  have hend : item.tok ≠ .endOfStringToken := by
    intro hend
    apply hne
    cases context <;> simp [← htok, ScannedItem.tokIn, hend]
  rw [Ends, if_neg hend] at h
  exact ⟨h, Nat.lt_succ_self _⟩

theorem safe_lookahead (h : Ends items)
    (hpost : ∀ item rest, items = item :: rest → post (item.tokIn context, item.literal) items) :
    Safe post (lookahead context items) := by
  cases items with
  | nil => exact h.elim
  | cons item rest => exact hpost item rest rfl

/-- Only the end of the text is consumed with nothing left. -/
theorem safe_consume (h : Ends items)
    (hpost : ∀ tok lit rest, (tok ≠ .endOfStringToken → Left items rest) → post (tok, lit) rest) :
    Safe post (consume context items) := by
  cases items with
  | nil => exact h.elim
  | cons item rest => exact hpost _ _ rest (h.left rfl)

/-! ### A requirement -/

theorem parseKeyAndInferOperator_safe (h : Ends items) :
    Safe (fun _ => Left items) (parseKeyAndInferOperator items) := by
  simp only [parseKeyAndInferOperator, safe_bind, safe_ite, safe_errorf, safe_pure, ite_self]
  have hkey : ∀ tok lit rest, (tok ≠ Token.endOfStringToken → Left items rest) →
      if tok ≠ .identifierToken then True else if lit = "" then True
        else Safe (fun _ => Left items) (lookahead .values rest) := by
    intro tok lit rest hrest
    split_ifs with htok
    have hleft := hrest (by simp_all)
    exact safe_lookahead hleft.1 fun _ _ _ => hleft
  refine safe_consume h fun tok lit rest hrest => ?_
  split
  case isTrue hnot =>
    have hleft := hrest (by simp_all)
    exact safe_consume hleft.1 fun tok lit rest' hrest' => hkey _ _ _ fun hne => hleft.trans (hrest' hne)
  case isFalse => exact hkey _ _ _ hrest

theorem parseOperator_safe (h : Ends items) : Safe (fun _ => Left items) (parseOperator items) := by
  simp only [parseOperator, safe_bind]
  refine safe_consume h fun tok lit rest hrest => ?_
  cases tok <;> first | trivial | exact hrest (by decide)

theorem identifiersListLoop_safe (s : List String) (items : List ScannedItem) (h : Ends items) :
    Safe (fun _ => Left items) (identifiersListLoop s items) := by
  fun_induction identifiersListLoop s items with
  | case1 => exact h.elim
  | case2 s item htok | case3 s item htok => exact (h.left htok (by decide)).1
  | case4 | case7 | case11 => trivial
  | case5 s item next rest htok _ ih | case10 s item next rest htok _ _ _ ih =>
    have hleft := h.left htok (by decide)
    exact (ih hleft.1).mono fun _ _ => hleft.trans
  | case6 s item next rest htok | case8 s item next rest htok => exact h.left htok (by decide)
  | case9 s item next rest htok _ hnext ih =>
    have hleft := h.left htok (by decide)
    have hleft' := hleft.trans (hleft.1.left hnext (by decide))
    exact (ih hleft'.1).mono fun _ _ => hleft'.trans

theorem parseValues_safe (h : Ends items) : Safe (fun _ => Left items) (parseValues items) := by
  simp only [parseValues, safe_bind, safe_ite, safe_errorf]
  refine safe_consume h fun tok lit rest hrest => ?_
  split
  · trivial
  have hleft := hrest (by simp_all)
  refine safe_lookahead hleft.1 fun next rest' hnext => ?_
  cases htok : next.tokIn .values with
  | identifierToken | commaToken =>
    simp only [safe_bind, safe_ite, safe_errorf, safe_pure]
    refine (identifiersListLoop_safe [] rest hleft.1).mono fun s rest' hlist => ?_
    refine safe_consume hlist.1 fun t _ rest'' hrest' => ?_
    split
    · trivial
    · exact hleft.trans (hlist.trans (hrest' (by simp_all)))
  | closedParToken =>
    rw [hnext] at hleft ⊢
    exact hleft.trans (hleft.1.left htok (by decide))
  | _ => trivial

theorem parseExactValue_safe (h : Ends items) :
    Safe (fun _ rest => rest = items ∨ Left items rest) (parseExactValue items) := by
  simp only [parseExactValue, safe_bind, safe_ite, safe_errorf, safe_pure]
  refine safe_lookahead h fun _ _ _ => ?_
  split
  · exact Or.inl rfl
  · refine safe_consume h fun tok lit rest hrest => ?_
    split
    · exact Or.inr (hrest (by simp_all))
    · trivial

theorem parseRequirement_safe (h : Ends items) :
    Safe (fun r rest => Valid r ∧ Left items rest) (parseRequirement items) := by
  have hmade : ∀ key op vals rest, Left items rest →
      Safe (fun r rest => Valid r ∧ Left items rest) (makeRequirement key op vals rest) := by
    intro key op vals rest hleft
    unfold makeRequirement
    cases hr : newRequirement key op.text vals with
    | ok r => exact ⟨newRequirement_valid hr, hleft⟩
    | error err => trivial
  rw [parseRequirement, safe_bind]
  refine (parseKeyAndInferOperator_safe h).mono ?_
  rintro ⟨key, _ | op⟩ rest hleft
  · simp only [safe_bind]
    refine (parseOperator_safe hleft.1).mono fun op rest' hleft' => ?_
    have hboth := hleft.trans hleft'
    have hoperand : Safe (fun _ rest => rest = rest' ∨ Left rest' rest) (parseOperand op rest') := by
      cases op with
      | «in» | notIn => exact (parseValues_safe hboth.1).mono fun _ _ => Or.inr
      | _ => exact parseExactValue_safe hboth.1
    refine hoperand.mono fun vals rest'' hrest => hmade _ _ _ _ ?_
    rcases hrest with rfl | hrest
    · exact hboth
    · exact hboth.trans hrest
  · exact hmade _ _ _ _ hleft

theorem parseNext_safe (h : Ends items) : Safe (fun r rest => Valid r ∧ Left items rest) (parseNext items) := by
  have hsafe := parseRequirement_safe h
  unfold parseNext
  split
  · trivial
  · exact hsafe

/-! ### The text -/

/-- Every round but the last consumes an item, so the fuel does not run out. -/
theorem parseLoop_safe {reqs : List Requirement} (hreqs : ∀ r ∈ reqs, Valid r) {fuel : Nat}
    (hfuel : items.length ≤ fuel) (h : Ends items) :
    Safe (fun sel _ => ∀ r ∈ sel, Valid r) (parseLoop reqs fuel items) := by
  induction fuel generalizing reqs items with
  | zero =>
    rw [length_eq_zero_iff.mp (Nat.le_zero.mp hfuel)] at h
    exact h.elim
  | succ fuel ih =>
    rw [parseLoop, safe_bind]
    refine safe_lookahead h fun item _ _ => ?_
    cases item.tokIn .values with
    | identifierToken | doesNotExistToken =>
      simp only [safe_bind]
      refine (parseNext_safe h).mono ?_
      rintro r rest ⟨hr, hleft⟩
      have hall : ∀ r' ∈ reqs ++ [r], Valid r' := forall_mem_append.mpr ⟨hreqs, forall_mem_singleton.mpr hr⟩
      refine safe_consume hleft.1 fun t lit rest' hrest => ?_
      cases t with
      | endOfStringToken => exact hall
      | commaToken =>
        have hleft' := hleft.trans (hrest (by decide))
        simp only [safe_bind]
        refine safe_lookahead hleft'.1 fun _ _ _ => ?_
        simp only [safe_ite, safe_bind, safe_errorf]
        split
        · trivial
        · exact ih hall (Nat.le_of_lt_succ (hleft'.2.trans_le hfuel)) hleft'.1
      | _ => trivial
    | endOfStringToken => exact hreqs
    | _ => trivial

end

/-- **No text makes the parser panic or go on for ever**: it reports an error, or returns
requirements that are all valid. -/
theorem parse_reports_or_valid {sortByKey : List Requirement → List Requirement}
    (hsort : ∀ l, (sortByKey l).Perm l) (selector : String) :
    (∃ msg, parse sortByKey selector = .error (.errorf msg)) ∨
      ∃ sel, parse sortByKey selector = .ok sel ∧ sel ≠ [] ∧ ∀ r ∈ sel, Valid r := by
  obtain ⟨hends, hlength⟩ := scan_ends selector.toList
  have hsafe := parseLoop_safe (forall_mem_nil Valid) hlength hends
  rw [String.length_toList] at hsafe
  cases hloop : parseLoop [] (selector.length + 1) (scan selector.toList) with
  | error err =>
    rw [hloop] at hsafe
    cases err with
    | errorf msg => exact Or.inl ⟨msg, by rw [parse, hloop]; rfl⟩
    | panic | loops => exact hsafe.elim
  | ok p =>
    rw [hloop] at hsafe
    by_cases hnone : p.1 = []
    · exact Or.inl ⟨"parse failed", by rw [parse, hloop]; exact if_pos hnone⟩
    · refine Or.inr ⟨sortByKey p.1, by rw [parse, hloop]; exact if_neg hnone, ?_, ?_⟩
      · exact fun hempty => hnone (hempty ▸ hsort p.1).nil_eq.symm
      · exact fun r hr => hsafe r ((hsort p.1).mem_iff.mp hr)

/-- The list of values is not closed. -/
theorem parse_reports_unclosed : (parse id "a in (,b").isOk = false ∧
    ((∃ msg, parse id "a in (,b" = .error (.errorf msg)) ∨
      ∃ sel, parse id "a in (,b" = .ok sel ∧ sel ≠ [] ∧ ∀ r ∈ sel, Valid r) :=
  ⟨by with_unfolding_all rfl, parse_reports_or_valid (fun l => .refl l) "a in (,b"⟩

end GlobalScheduler.Labels
