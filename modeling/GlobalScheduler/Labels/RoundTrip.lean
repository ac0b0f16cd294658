import GlobalScheduler.Labels.Parser

/-! A selector is read back from its text.

A key or a value is a word of the text if it has no blank, no zero and no symbol. The lexer
takes words and symbols one by one, and the parser is followed over them from one comma
between requirements to the next. -/
namespace GlobalScheduler.Labels

open Go Requirement List

/-! ### Scanning -/

/-- No blank, no zero and no symbol. -/
def Plain (s : String) : Prop :=
  ∀ c ∈ s.toList, c ≠ '\x00' ∧ isSpecialSymbol c = false ∧ isWhitespace c = false

instance (s : String) : Decidable (Plain s) :=
  decidableBAll _ _

/-- A word that stands before this ends here. -/
def Delimited (l : List Char) : Prop := ∀ c ∈ l.head?, c ≠ '\x00' ∧ (isSpecialSymbol c || isWhitespace c) = true

/-- A symbol that stands before this ends here. -/
def Fresh (l : List Char) : Prop := ∀ c ∈ l.head?, c ≠ '\x00' ∧ c ≠ '='

section
variable {w : String} {l rest : List Char} {item : ScannedItem}

theorem scan_cons (hlex : lex l = (item, rest)) (hend : item.tok ≠ .endOfStringToken) :
    scan l = item :: scan rest := by
  rw [scan, hlex, dif_neg hend]

theorem scan_nil : scan [] = [⟨.endOfStringToken, ""⟩] := by
  rw [scan]
  rfl

theorem scan_blank (l : List Char) : scan (' ' :: l) = scan l := by
  have hlex : lex (' ' :: l) = lex l := rfl
  rw [scan, hlex, ← scan]

theorem identifierLoop_plain {w : List Char} (buffer : List Char) (hrest : Delimited rest)
    (hw : ∀ c ∈ w, c ≠ '\x00' ∧ isSpecialSymbol c = false ∧ isWhitespace c = false) :
    identifierLoop buffer (w ++ rest) = (buffer ++ w, rest) := by
  induction w generalizing buffer with
  | nil =>
    cases rest with
    | nil => simp [identifierLoop]
    | cons c l =>
      obtain ⟨hzero, hstop⟩ := hrest c rfl
      rw [nil_append, identifierLoop, if_neg hzero, if_pos hstop, append_nil]
  | cons c w ih =>
    obtain ⟨⟨hzero, hspecial, hblank⟩, hw⟩ := forall_mem_cons.mp hw
    rw [cons_append, identifierLoop, if_neg hzero, if_neg (by simp [hspecial, hblank]), ih _ hw,
      append_assoc, singleton_append]

def word (w : String) : ScannedItem := ⟨(string2token w).getD .identifierToken, w⟩

theorem string2token_plain (hw : Plain w) :
    string2token w = none ∨ string2token w = some .inToken ∨ string2token w = some .notInToken := by
  unfold string2token
  split
  case h_7 => exact Or.inr (Or.inl rfl)
  case h_10 => exact Or.inr (Or.inr rfl)
  case h_12 => exact Or.inl rfl
  all_goals
    obtain ⟨-, hspecial, -⟩ := hw _ (mem_cons_self ..)
    exact absurd hspecial (by decide)

theorem word_tokIn (hw : Plain w) : (word w).tokIn .values = .identifierToken := by
  unfold word ScannedItem.tokIn
  obtain h | h | h := string2token_plain hw <;> rw [h] <;> rfl

theorem scan_word (hw : Plain w) (hne : w ≠ "") (hrest : Delimited rest) :
    scan (w.toList ++ rest) = word w :: scan rest := by
  have hend : (word w).tok ≠ .endOfStringToken := by
    unfold word
    obtain h | h | h := string2token_plain hw <;> simp [h]
  refine scan_cons ?_ hend
  have hloop := identifierLoop_plain [] hrest hw
  obtain ⟨c, cs, hcs⟩ := exists_cons_of_ne_nil (mt String.toList_eq_nil_iff.mp hne)
  obtain ⟨hzero, hspecial, hblank⟩ := hw c (hcs ▸ mem_cons_self)
  have hskip : skipWhiteSpaces (w.toList ++ rest) = w.toList ++ rest := by
    rw [skipWhiteSpaces, hcs, cons_append, dropWhile_cons_of_neg (by simp [hblank])]
  unfold lex
  rw [hskip, hcs, cons_append]
  dsimp only
  rw [if_neg hzero, if_neg (by simp [hspecial]), ← cons_append, ← hcs, scanIDOrKeyword, hloop, nil_append]
  dsimp only
  rw [String.ofList_toList]
  unfold word
  cases string2token w <;> rfl

theorem specialSymbolLoop_stop (last : ScannedItem) {buffer : List Char} (hlast : last.tok ≠ .errorToken)
    (hrest : ∀ c ∈ rest.head?, c ≠ '\x00' ∧
      (isSpecialSymbol c = true → string2token (String.ofList (buffer ++ [c])) = none)) :
    ∃ buffer', specialSymbolLoop last buffer rest = (last, buffer', rest) := by
  cases rest with
  | nil => exact ⟨buffer, rfl⟩
  | cons c l =>
    obtain ⟨hzero, hnone⟩ := hrest c rfl
    unfold specialSymbolLoop
    rw [if_neg hzero]
    by_cases hspecial : isSpecialSymbol c = true
    · rw [if_pos hspecial, hnone hspecial]
      exact ⟨_, if_pos hlast⟩
    · exact ⟨_, if_neg hspecial⟩

def symbols : List (String × Token) :=
  [(")", .closedParToken), (",", .commaToken), ("!", .doesNotExistToken), ("==", .doubleEqualsToken),
    ("=", .equalsToken), (">", .greaterThanToken), ("<", .lessThanToken), ("!=", .notEqualsToken),
    ("(", .openParToken)]

/-- No symbol is the beginning of another, but for those that an equals sign makes longer. -/
theorem string2token_longer : ∀ p ∈ symbols, ∀ c ∈ ['!', '(', ')', ',', '>', '<'],
    string2token (String.ofList (p.1.toList ++ [c])) = none := by
  rw [symbols]
  simp only [forall_mem_cons, not_mem_nil, false_implies, implies_true, and_true]
  decide +kernel

theorem specialSymbolLoop_symbol : ∀ p ∈ symbols, p.2 ≠ .errorToken ∧ p.2 ≠ .endOfStringToken ∧ ∀ rest,
    lex (p.1.toList ++ rest) = scanSpecialSymbol (p.1.toList ++ rest) ∧
      specialSymbolLoop {} [] (p.1.toList ++ rest) = specialSymbolLoop ⟨p.2, p.1⟩ p.1.toList rest := by
  intro p hp
  simp only [symbols, mem_cons, not_mem_nil, or_false] at hp
  obtain rfl | rfl | rfl | rfl | rfl | rfl | rfl | rfl | rfl := hp
  all_goals exact ⟨by decide, by decide, fun rest => ⟨rfl, rfl⟩⟩

theorem scan_symbol {p : String × Token} (hp : p ∈ symbols) (hrest : Fresh rest) :
    scan (p.1.toList ++ rest) = ⟨p.2, p.1⟩ :: scan rest := by
  obtain ⟨herror, hend, hread⟩ := specialSymbolLoop_symbol p hp
  have hstop : ∀ c ∈ rest.head?, c ≠ '\x00' ∧
      (isSpecialSymbol c = true → string2token (String.ofList (p.1.toList ++ [c])) = none) := by
    intro c hc
    obtain ⟨hzero, heq⟩ := hrest c hc
    refine ⟨hzero, fun hspecial => string2token_longer p hp c ?_⟩
    have hmem : c ∈ ['=', '!', '(', ')', ',', '>', '<'] := of_decide_eq_true hspecial
    exact (mem_cons.mp hmem).resolve_left heq
  obtain ⟨buffer, hloop⟩ := specialSymbolLoop_stop ⟨p.2, p.1⟩ herror hstop
  refine scan_cons ?_ hend
  rw [(hread rest).1, scanSpecialSymbol, (hread rest).2, hloop]
  exact if_neg herror

end

/-! ### Parsing -/

section
variable {key w : String} {item next : ScannedItem} {items : List ScannedItem} {l rest : List Char}

theorem pure_apply {α : Type} (a : α) : (pure a : Parser α) items = .ok (a, items) := rfl

theorem bind_apply {α β : Type} (x : Parser α) (f : α → Parser β) :
    (x >>= f) items = (x items).bind fun p => f p.1 p.2 := rfl

theorem parser_bind {α β : Type} {x : Parser α} {a : α} {items' : List ScannedItem} (hx : x items = .ok (a, items'))
    (f : α → Parser β) : (x >>= f) items = f a items' := by
  rw [bind_apply, hx]
  rfl

/-- The item that is after a requirement. -/
def Separates (item : ScannedItem) : Prop := item.tok = .endOfStringToken ∨ item.tok = .commaToken

theorem Separates.tokIn (h : Separates item) :
    item.tokIn .values = .endOfStringToken ∨ item.tokIn .values = .commaToken := by
  unfold ScannedItem.tokIn
  obtain h | h := h <;> rw [h]
  · exact Or.inl rfl
  · exact Or.inr rfl

theorem parseKey_exists (hkey : Plain key) (hne : key ≠ "") (hnext : Separates next) :
    parseKeyAndInferOperator (word key :: next :: items) = .ok ((key, some .exists), next :: items) := by
  have hliteral : (word key).literal = key := rfl
  simp [parseKeyAndInferOperator, bind_apply, pure_apply, Except.bind, consume, lookahead,
    word_tokIn hkey, hliteral, hne, hnext.tokIn]

theorem parseKey_doesNotExist (hkey : Plain key) (hne : key ≠ "") :
    parseKeyAndInferOperator (⟨.doesNotExistToken, "!"⟩ :: word key :: next :: items) =
      .ok ((key, some .doesNotExist), next :: items) := by
  have hliteral : (word key).literal = key := rfl
  have hfirst : ScannedItem.tokIn ⟨.doesNotExistToken, "!"⟩ .values = .doesNotExistToken := rfl
  simp [parseKeyAndInferOperator, bind_apply, Except.bind, consume, word_tokIn hkey, hliteral, hne, hfirst]
  rfl

theorem parseKey_operator (hkey : Plain key) (hne : key ≠ "")
    (hnext : ¬ (next.tokIn .values = .endOfStringToken ∨ next.tokIn .values = .commaToken)) :
    parseKeyAndInferOperator (word key :: next :: items) = .ok ((key, none), next :: items) := by
  have hliteral : (word key).literal = key := rfl
  simp [parseKeyAndInferOperator, bind_apply, pure_apply, Except.bind, consume, lookahead,
    word_tokIn hkey, hliteral, hne, hnext]

/-- The text goes on with the next requirement, or ends. -/
def Follows (rest : List Char) : Prop := rest = [] ∨ ∃ l, rest = ",".toList ++ l ∧ Fresh l

theorem Follows.delimited (h : Follows rest) : Delimited rest := by
  obtain rfl | ⟨l, rfl, -⟩ := h
  · rintro c ⟨⟩
  · rintro c ⟨⟩
    decide

theorem Follows.fresh (h : Follows rest) : Fresh rest := by
  obtain rfl | ⟨l, rfl, -⟩ := h
  · rintro c ⟨⟩
  · rintro c ⟨⟩
    decide

theorem Follows.scan (h : Follows rest) : ∃ next items, scan rest = next :: items ∧ Separates next := by
  obtain rfl | ⟨l, rfl, hl⟩ := h
  · exact ⟨_, _, scan_nil, Or.inl rfl⟩
  · exact ⟨_, _, scan_symbol (p := (",", .commaToken)) (by decide) hl, Or.inr rfl⟩

theorem fresh_append (hw : Plain w) (hrest : w = "" → Fresh rest) : Fresh (w.toList ++ rest) := by
  cases hl : w.toList with
  | nil => exact hrest (String.toList_eq_nil_iff.mp hl)
  | cons c l =>
    rintro c ⟨⟩
    obtain ⟨hzero, hspecial, -⟩ := hw c (hl ▸ mem_cons_self)
    refine ⟨hzero, ?_⟩
    rintro rfl
    exact absurd hspecial (by decide)

theorem parseExactValue_text (hw : Plain w) (hrest : Follows rest) :
    parseExactValue (scan (w.toList ++ rest)) = .ok ([w], scan rest) := by
  obtain ⟨next, items, hscan, hnext⟩ := hrest.scan
  by_cases hne : w = ""
  · subst hne
    rw [String.toList_empty, nil_append, hscan]
    simp [parseExactValue, bind_apply, pure_apply, Except.bind, lookahead, hnext.tokIn]
  · have hliteral : (word w).literal = w := rfl
    rw [scan_word hw hne hrest.delimited]
    simp [parseExactValue, bind_apply, pure_apply, Except.bind, consume, lookahead, word_tokIn hw, hliteral]

/-- The text after the first value in parentheses. -/
def closing (rest : List Char) : List String → List Char
  | [] => ")".toList ++ rest
  | u :: us => ",".toList ++ (u.toList ++ closing rest us)

theorem intercalate_closing (w : String) (us : List String) (rest : List Char) :
    (",".intercalate (w :: us)).toList ++ (")".toList ++ rest) = w.toList ++ closing rest us := by
  induction us generalizing w with
  | nil => rw [String.intercalate_singleton, closing]
  | cons u us ih =>
    rw [String.intercalate_cons_cons, String.toList_append, String.toList_append, append_assoc, append_assoc,
      ih, closing]

theorem closing_delimited (us : List String) (rest : List Char) : Delimited (closing rest us) := by
  cases us <;> rintro c ⟨⟩ <;> decide

theorem scan_closing (hrest : Fresh rest) : scan (closing rest []) = ⟨.closedParToken, ")"⟩ :: scan rest :=
  scan_symbol (p := (")", .closedParToken)) (by decide) hrest

variable {us : List String}

theorem scan_closing_cons (hw : Plain w) (hne : w ≠ "") :
    scan (closing rest (w :: us)) = ⟨.commaToken, ","⟩ :: word w :: scan (closing rest us) := by
  have hfresh : Fresh (w.toList ++ closing rest us) := fresh_append hw fun h => absurd h hne
  rw [closing, scan_symbol (p := (",", .commaToken)) (by decide) hfresh, scan_word hw hne (closing_delimited us rest)]

theorem identifiersListLoop_comma (hw : Plain w) (s : List String) :
    identifiersListLoop s (⟨.commaToken, ","⟩ :: word w :: items) =
      identifiersListLoop (if s.length = 0 then s.insert "" else s) (word w :: items) := by
  have hcomma : ScannedItem.tokIn ⟨.commaToken, ","⟩ .values = .commaToken := rfl
  rw [identifiersListLoop, hcomma]
  rw [word_tokIn hw]

theorem identifiersListLoop_words (hus : ∀ u ∈ w :: us, Plain u ∧ u ≠ "") (hrest : Fresh rest)
    (s : List String) : ∃ s', identifiersListLoop s (word w :: scan (closing rest us)) =
      .ok (s', scan (closing rest [])) ∧ ∀ x, x ∈ s' ↔ x ∈ w :: us ∨ x ∈ s := by
  induction us generalizing w s with
  | nil =>
    obtain ⟨hw, -⟩ := hus w mem_cons_self
    refine ⟨s.insert w, ?_, fun x => by simp⟩
    rw [scan_closing hrest, identifiersListLoop, word_tokIn hw]
    rfl
  | cons u us ih =>
    obtain ⟨⟨hw, -⟩, hus⟩ := forall_mem_cons.mp hus
    obtain ⟨hu, hne⟩ := hus u mem_cons_self
    obtain ⟨s', hloop, hmem⟩ := ih hus (s.insert w)
    have hlength : ¬ (s.insert w).length = 0 := length_pos_of_mem (mem_insert_self ..) |>.ne'
    refine ⟨s', ?_, fun x => ?_⟩
    · rw [scan_closing_cons hu hne, identifiersListLoop, word_tokIn hw]
      show identifiersListLoop (s.insert w) _ = _
      rw [identifiersListLoop_comma hu, if_neg hlength, hloop]
    · simp only [hmem, mem_cons, mem_insert_iff]
      tauto

theorem parseValues_list {items' : List ScannedItem} {s : List String}
    (hitem : item.tokIn .values = .identifierToken ∨ item.tokIn .values = .commaToken)
    (hlist : identifiersListLoop [] (item :: items) = .ok (s, ⟨.closedParToken, ")"⟩ :: items')) :
    parseValues (⟨.openParToken, "("⟩ :: item :: items) = .ok (s, items') := by
  have hopen : ScannedItem.tokIn ⟨.openParToken, "("⟩ .values = .openParToken := rfl
  have hclosed : ScannedItem.tokIn ⟨.closedParToken, ")"⟩ .values = .closedParToken := rfl
  obtain hitem | hitem := hitem
  all_goals simp [parseValues, parseIdentifiersList, bind_apply, pure_apply, Except.bind,
    consume, lookahead, hopen, hitem, hlist, hclosed]

theorem parseValues_text (hw : Plain w) (hus : ∀ u ∈ us, Plain u ∧ u ≠ "") (hrest : Fresh rest) :
    ∃ s, parseValues (scan ("(".toList ++ (w.toList ++ closing rest us))) = .ok (s, scan rest) ∧
      ∀ x, x ∈ s ↔ x ∈ w :: us := by
  have hfresh : Fresh (w.toList ++ closing rest us) := by
    refine fresh_append hw fun _ => ?_
    cases us <;> rintro c ⟨⟩ <;> decide
  rw [scan_symbol (p := ("(", .openParToken)) (by decide) hfresh]
  by_cases hne : w = ""
  · subst hne
    rw [String.toList_empty, nil_append]
    cases us with
    | nil =>
      refine ⟨[""], ?_, fun x => Iff.rfl⟩
      rw [scan_closing hrest]
      rfl
    | cons u us =>
      obtain ⟨hu, hne⟩ := hus u mem_cons_self
      obtain ⟨s, hloop, hmem⟩ := identifiersListLoop_words hus hrest [""]
      rw [scan_closing hrest] at hloop
      refine ⟨s, ?_, fun x => by simp [hmem, or_comm]⟩
      rw [scan_closing_cons hu hne]
      exact parseValues_list (Or.inr rfl) ((identifiersListLoop_comma hu []).trans hloop)
  · obtain ⟨s, hloop, hmem⟩ := identifiersListLoop_words (forall_mem_cons.mpr ⟨⟨hw, hne⟩, hus⟩) hrest []
    rw [scan_closing hrest] at hloop
    refine ⟨s, ?_, fun x => by simp [hmem]⟩
    rw [scan_word hw hne (closing_delimited us rest)]
    exact parseValues_list (Or.inl (word_tokIn hw)) hloop

end

/-! ### Requirements -/

/-- What `NewRequirement` has checked. -/
structure Valid (r : Requirement) : Prop where
  key : r.key ≠ ""
  allowed : valuesAllowed r.operator r.strValues = .ok ()
  short : ∀ v ∈ r.strValues, v.utf8ByteSize ≤ labelValueMaxLength

theorem newRequirement_valid {key op : String} {vals : List String} {r : Requirement}
    (h : newRequirement key op vals = .ok r) : Valid r := by
  unfold newRequirement at h
  by_cases hkey : key = ""
  · rw [if_pos hkey] at h
    cases h
  rw [if_neg hkey] at h
  cases hop : Operator.ofString op with
  | none =>
    rw [hop] at h
    cases h
  | some operator =>
    rw [hop] at h
    cases hallowed : valuesAllowed operator vals with
    | error err =>
      simp only [hallowed] at h
      cases h
    | ok u =>
      simp only [hallowed] at h
      by_cases hlong : (vals.any fun v => labelValueMaxLength < v.utf8ByteSize) = true
      · simp only [hlong] at h
        cases h
      · simp only [hlong] at h
        cases h
        exact ⟨hkey, hallowed, by simpa using hlong⟩

theorem makeRequirement_valid {r : Requirement} (hr : Valid r) (items : List ScannedItem) :
    makeRequirement r.key r.operator r.strValues items = .ok (r, items) := by
  have hop : Operator.ofString r.operator.text = some r.operator := by cases r.operator <;> rfl
  have hshort : r.strValues.any (fun v => labelValueMaxLength < v.utf8ByteSize) = false := by
    simpa using hr.short
  have hnew : newRequirement r.key r.operator.text r.strValues = .ok r := by
    unfold newRequirement
    rw [if_neg hr.key, hop]
    simp [hr.allowed, hshort]
  rw [makeRequirement, hnew]
  rfl

theorem safeSort_perm (l : List String) : (safeSort l).Perm l := by
  unfold safeSort
  split
  · exact List.Perm.refl l
  · exact mergeSort_perm l _

theorem safeSort_pairwise (l : List String) : (safeSort l).Pairwise (· ≤ ·) := by
  unfold safeSort
  split
  case isTrue h => exact h
  case isFalse => exact sortedLE_mergeSort.pairwise

theorem values_eq (r : Requirement) : r.values = ",".intercalate (safeSort r.strValues) := by
  unfold values
  split
  case h_1 value h => rw [h, safeSort, if_pos (pairwise_singleton _ _), String.intercalate_singleton]
  case h_2 => rfl

theorem safeSort_tail {l : List String} (hl : l.Nodup) {w : String} {us : List String}
    (hsort : safeSort l = w :: us) : ∀ u ∈ us, u ≠ "" := by
  rintro u hu rfl
  have hpairwise := safeSort_pairwise l
  have hnodup := (safeSort_perm l).nodup_iff.mpr hl
  rw [hsort] at hpairwise hnodup
  have hle := rel_of_pairwise_cons hpairwise hu
  have hw : w = "" := by
    rw [String.le_iff_toList_le] at hle
    cases hlist : w.toList with
    | nil => exact String.toList_eq_nil_iff.mp hlist
    | cons c l =>
      rw [hlist] at hle
      exact absurd hle (not_le_of_gt List.Lex.nil)
  exact (nodup_cons.mp hnodup).1 (hw ▸ hu)

section
variable {key : String} {op : Operator} {vals : List String} {rest : List Char} {r : Requirement}

/-- Valid, and made of words. -/
structure Worded (r : Requirement) : Prop extends Valid r where
  plainKey : Plain r.key
  plainValues : ∀ v ∈ r.strValues, Plain v
  nodup : r.strValues.Nodup

variable {items items' : List ScannedItem} {item : ScannedItem} {sel : List Requirement}

theorem parseRequirement_operator {next : ScannedItem} {s : List String} (hkey : Plain key) (hne : key ≠ "")
    (hnext : ¬ (next.tokIn .values = .endOfStringToken ∨ next.tokIn .values = .commaToken))
    (hop : parseOperator (next :: items) = .ok (op, items)) (hoperand : parseOperand op items = .ok (s, items')) :
    parseRequirement (word key :: next :: items) = makeRequirement key op (sortedList s) items' := by
  unfold parseRequirement
  rw [parser_bind (parseKey_operator hkey hne hnext)]
  dsimp only
  rw [parser_bind hop, parser_bind hoperand]

/-- The operators with one value, and their symbols. -/
def exactOperators : List (Operator × String × Token) :=
  [(.equals, "=", .equalsToken), (.doubleEquals, "==", .doubleEqualsToken), (.notEquals, "!=", .notEqualsToken),
    (.greaterThan, ">", .greaterThanToken), (.lessThan, "<", .lessThanToken)]

theorem valuesAllowed_length : ∀ p ∈ exactOperators, ∀ vals, valuesAllowed p.1 vals = .ok () → vals.length = 1 := by
  intro p hp vals hallowed
  by_contra hlength
  simp only [exactOperators, mem_cons, not_mem_nil, or_false] at hp
  obtain rfl | rfl | rfl | rfl | rfl := hp <;> simp [valuesAllowed, hlength] at hallowed

theorem exactOperators_read : ∀ p ∈ exactOperators, p.2 ∈ symbols ∧
    (∀ items, parseOperator (⟨p.2.2, p.2.1⟩ :: items) = .ok (p.1, items)) ∧
      parseOperand p.1 = parseExactValue ∧ (∀ l, Delimited (p.2.1.toList ++ l)) ∧
      ¬ (ScannedItem.tokIn ⟨p.2.2, p.2.1⟩ .values = .endOfStringToken ∨
        ScannedItem.tokIn ⟨p.2.2, p.2.1⟩ .values = .commaToken) := by
  intro p hp
  simp only [exactOperators, mem_cons, not_mem_nil, or_false] at hp
  obtain rfl | rfl | rfl | rfl | rfl := hp
  all_goals
    refine ⟨by decide, fun _ => rfl, rfl, fun l => ?_, by decide⟩
    rintro c ⟨⟩
    decide

theorem parseRequirement_exact {p : Operator × String × Token} (hp : p ∈ exactOperators)
    (hr : Worded ⟨key, p.1, vals⟩) (hrest : Follows rest) :
    parseRequirement (scan ((key ++ p.2.1 ++ (mk key p.1 vals).values).toList ++ rest)) =
      .ok (⟨key, p.1, vals⟩, scan rest) := by
  obtain ⟨hsymbol, hop, hoperand, hdelimited, hnext⟩ := exactOperators_read p hp
  obtain ⟨v, rfl⟩ := length_eq_one_iff.mp (valuesAllowed_length p hp vals hr.allowed)
  have hv : Plain v := hr.plainValues v (mem_singleton_self v)
  have hvalue : (mk key p.1 [v]).values = v := rfl
  rw [hvalue, String.toList_append, String.toList_append, append_assoc, append_assoc,
    scan_word hr.plainKey hr.key (hdelimited _), scan_symbol hsymbol (fresh_append hv fun _ => hrest.fresh),
    parseRequirement_operator hr.plainKey hr.key hnext (hop _) (hoperand ▸ parseExactValue_text hv hrest),
    sortedList, mergeSort_singleton]
  exact makeRequirement_valid hr.toValid _

theorem parseRequirement_set (w pad : String) (hpad : pad.toList = ' ' :: (w.toList ++ [' '])) (hw : Plain w)
    (hne : w ≠ "") (hr : Worded ⟨key, op, vals⟩) (hop : ∀ items, parseOperator (word w :: items) = .ok (op, items))
    (hoperand : parseOperand op = parseValues) (hallowed : ∀ vs ≠ [], valuesAllowed op vs = .ok ())
    (hvals : vals ≠ []) (hrest : Follows rest) :
    ∃ vals', parseRequirement (scan ((key ++ pad ++ "(" ++ (mk key op vals).values ++ ")").toList ++ rest)) =
      .ok (⟨key, op, vals'⟩, scan rest) ∧ ∀ x, x ∈ vals' ↔ x ∈ vals := by
  have hperm := safeSort_perm vals
  cases hsort : safeSort vals with
  | nil => exact absurd (hsort ▸ hperm).nil_eq.symm hvals
  | cons v us =>
    rw [hsort] at hperm
    have hplain : ∀ u ∈ v :: us, Plain u := fun u hu => hr.plainValues u (hperm.mem_iff.mp hu)
    obtain ⟨s, hparse, hmem⟩ := parseValues_text (hplain v mem_cons_self)
      (fun u hu => ⟨hplain u (mem_cons_of_mem _ hu), safeSort_tail hr.nodup hsort u hu⟩) hrest.fresh
    have hsame : ∀ x, x ∈ sortedList s ↔ x ∈ vals := fun x => by
      rw [sortedList, mem_mergeSort, hmem, hperm.mem_iff]
    refine ⟨sortedList s, ?_, hsame⟩
    have hvalid : Valid ⟨key, op, sortedList s⟩ := by
      refine ⟨hr.key, hallowed _ ?_, fun u hu => hr.short u ((hsame u).mp hu)⟩
      obtain ⟨x, hx⟩ := exists_mem_of_ne_nil _ hvals
      exact ne_nil_of_mem ((hsame x).mpr hx)
    have hblank : ∀ l, Delimited (' ' :: l) := by
      rintro l c ⟨⟩
      decide
    simp only [String.toList_append, append_assoc, hpad, cons_append, nil_append, values_eq, hsort,
      intercalate_closing]
    rw [scan_word hr.plainKey hr.key (hblank _), scan_blank, scan_word hw hne (hblank _), scan_blank,
      parseRequirement_operator hr.plainKey hr.key (by simp [word_tokIn hw]) (hop _) (hoperand ▸ hparse)]
    exact makeRequirement_valid hvalid _

theorem valuesAllowed_nil (hop : op = .exists ∨ op = .doesNotExist) (hallowed : valuesAllowed op vals = .ok ()) :
    vals = [] := by
  by_contra hne
  obtain rfl | rfl := hop <;> simp [valuesAllowed, hne] at hallowed

theorem isMatch_congr (hop : op = .in ∨ op = .notIn) {vals' : List String} (hmem : ∀ x, x ∈ vals' ↔ x ∈ vals)
    (ls : Map String String) : (mk key op vals').isMatch ls = (mk key op vals).isMatch ls := by
  unfold isMatch
  obtain rfl | rfl := hop <;> cases ls.lookup key <;> simp [hmem]

/-- **A requirement is read back from its text, up to the next comma.** -/
theorem parseRequirement_text (hr : Worded r) (hrest : Follows rest) :
    ∃ r', parseRequirement (scan (r.string.toList ++ rest)) = .ok (r', scan rest) ∧
      ∀ ls, r'.isMatch ls = r.isMatch ls := by
  obtain ⟨key, op, vals⟩ := r
  obtain ⟨next, items, hscan, hnext⟩ := hrest.scan
  cases op with
  | equals => exact ⟨_, parseRequirement_exact (p := (.equals, "=", .equalsToken)) (by decide) hr hrest, fun _ => rfl⟩
  | doubleEquals =>
    exact ⟨_, parseRequirement_exact (p := (.doubleEquals, "==", .doubleEqualsToken)) (by decide) hr hrest, fun _ => rfl⟩
  | notEquals =>
    exact ⟨_, parseRequirement_exact (p := (.notEquals, "!=", .notEqualsToken)) (by decide) hr hrest, fun _ => rfl⟩
  | greaterThan =>
    exact ⟨_, parseRequirement_exact (p := (.greaterThan, ">", .greaterThanToken)) (by decide) hr hrest, fun _ => rfl⟩
  | lessThan =>
    exact ⟨_, parseRequirement_exact (p := (.lessThan, "<", .lessThanToken)) (by decide) hr hrest, fun _ => rfl⟩
  | «in» =>
    have hvals : vals ≠ [] := by
      rintro rfl
      cases hr.allowed
    obtain ⟨vals', hparse, hmem⟩ := parseRequirement_set "in" " in " rfl (by decide) (by decide) hr
      (fun _ => rfl) rfl (fun vs hvs => if_neg hvs) hvals hrest
    exact ⟨_, hparse, isMatch_congr (Or.inl rfl) hmem⟩
  | notIn =>
    have hvals : vals ≠ [] := by
      rintro rfl
      cases hr.allowed
    obtain ⟨vals', hparse, hmem⟩ := parseRequirement_set "notin" " notin " rfl (by decide) (by decide)
      hr (fun _ => rfl) rfl (fun vs hvs => if_neg hvs) hvals hrest
    exact ⟨_, hparse, isMatch_congr (Or.inr rfl) hmem⟩
  | «exists» =>
    cases valuesAllowed_nil (Or.inl rfl) hr.allowed
    refine ⟨⟨key, .exists, []⟩, ?_, fun _ => rfl⟩
    have hkey : parseKeyAndInferOperator (word key :: scan rest) = .ok ((key, some .exists), scan rest) := by
      rw [hscan]
      exact parseKey_exists hr.plainKey hr.key hnext
    show parseRequirement (scan (key.toList ++ rest)) = _
    rw [scan_word hr.plainKey hr.key hrest.delimited, parseRequirement, parser_bind hkey]
    exact makeRequirement_valid hr.toValid _
  | doesNotExist =>
    cases valuesAllowed_nil (Or.inr rfl) hr.allowed
    refine ⟨⟨key, .doesNotExist, []⟩, ?_, fun _ => rfl⟩
    have hkey : parseKeyAndInferOperator (⟨.doesNotExistToken, "!"⟩ :: word key :: scan rest) =
        .ok ((key, some .doesNotExist), scan rest) := by
      rw [hscan]
      exact parseKey_doesNotExist hr.plainKey hr.key
    show parseRequirement (scan (("!" ++ key).toList ++ rest)) = _
    rw [String.toList_append, append_assoc, scan_symbol (p := ("!", .doesNotExistToken)) (by decide)
      (fresh_append hr.plainKey fun h => absurd h hr.key), scan_word hr.plainKey hr.key hrest.delimited,
      parseRequirement, parser_bind hkey]
    exact makeRequirement_valid hr.toValid _

/-! ### Selectors -/

theorem string_fresh (hr : Worded r) : Fresh (r.string.toList ++ rest) := by
  have hfirst : (∃ t, r.string = r.key ++ t) ∨ r.string = "!" ++ r.key := by
    unfold string
    cases r.operator
    case doesNotExist => exact Or.inr rfl
    case «exists» => exact Or.inl ⟨"", (String.append_empty).symm⟩
    all_goals
      simp only [String.append_assoc]
      exact Or.inl ⟨_, rfl⟩
  obtain ⟨t, ht⟩ | ht := hfirst
  · rw [ht, String.toList_append, append_assoc]
    exact fresh_append hr.plainKey fun h => absurd h hr.key
  · rw [ht, String.toList_append]
    rintro c ⟨⟩
    decide

theorem parseRequirement_head (hparse : parseRequirement (item :: items) = .ok (r, items')) :
    item.tokIn .values = .identifierToken ∨ item.tokIn .values = .doesNotExistToken := by
  by_contra hnot
  obtain ⟨hidentifier, hnot⟩ := not_or.mp hnot
  simp [parseRequirement, parseKeyAndInferOperator, bind_apply, Except.bind, consume, hidentifier, hnot,
    errorf, throw, throwThe, MonadExceptOf.throw, StateT.lift] at hparse

theorem scan_ne_nil (l : List Char) : scan l ≠ [] := by
  rw [scan]
  split <;> exact cons_ne_nil _ _

theorem parseLoop_last (reqs : List Requirement) (fuel : Nat)
    (hparse : parseRequirement (item :: items) = .ok (r, [⟨.endOfStringToken, ""⟩])) :
    parseLoop reqs (fuel + 1) (item :: items) = .ok (reqs ++ [r], []) := by
  have hend : ScannedItem.tokIn ⟨.endOfStringToken, ""⟩ .values = .endOfStringToken := rfl
  obtain hitem | hitem := parseRequirement_head hparse
  all_goals simp [parseLoop, bind_apply, pure_apply, Except.bind, lookahead, consume,
    parseNext, hparse, hitem, hend]

theorem parseLoop_comma {next : ScannedItem} (reqs : List Requirement)
    (fuel : Nat) (hparse : parseRequirement (item :: items) = .ok (r, ⟨.commaToken, ","⟩ :: next :: items'))
    (hnext : next.tokIn .values = .identifierToken ∨ next.tokIn .values = .doesNotExistToken) :
    parseLoop reqs (fuel + 1) (item :: items) = parseLoop (reqs ++ [r]) fuel (next :: items') := by
  have hcomma : ScannedItem.tokIn ⟨.commaToken, ","⟩ .values = .commaToken := rfl
  obtain hitem | hitem := parseRequirement_head hparse
  all_goals obtain hnext | hnext := hnext
  all_goals simp [parseLoop, bind_apply, Except.bind, lookahead, consume, parseNext, hparse, hitem, hcomma,
    hnext]

theorem selectorString_cons (r r' : Requirement) (sel : List Requirement) :
    selectorString (r :: r' :: sel) = r.string ++ "," ++ selectorString (r' :: sel) :=
  String.intercalate_cons_cons

theorem length_le_selectorString (sel : List Requirement) : sel.length ≤ (selectorString sel).length + 1 := by
  induction sel with
  | nil => simp
  | cons r sel ih =>
    cases sel with
    | nil => simp
    | cons r' sel =>
      have hcomma : ",".length = 1 := rfl
      rw [selectorString_cons, String.length_append, String.length_append, hcomma, length_cons]
      omega

theorem selectorString_fresh (hr : Worded r) : Fresh (selectorString (r :: sel)).toList := by
  cases sel with
  | nil =>
    have hfresh : Fresh (r.string.toList ++ []) := string_fresh hr
    rwa [append_nil] at hfresh
  | cons r' sel =>
    rw [selectorString_cons, String.toList_append, String.toList_append, append_assoc]
    exact string_fresh hr

/-- After its first requirement a selector goes on with the next, or ends. -/
theorem selectorString_follows (hsel : ∀ r' ∈ sel, Worded r') :
    ∃ rest, (selectorString (r :: sel)).toList = r.string.toList ++ rest ∧ Follows rest := by
  cases sel with
  | nil => exact ⟨[], (append_nil _).symm, Or.inl rfl⟩
  | cons r' sel =>
    refine ⟨",".toList ++ (selectorString (r' :: sel)).toList, ?_, Or.inr ⟨_, rfl, ?_⟩⟩
    · rw [selectorString_cons, String.toList_append, String.toList_append, append_assoc]
    · exact selectorString_fresh (hsel r' mem_cons_self)

theorem parseLoop_text (hsel : ∀ r' ∈ r :: sel, Worded r') (reqs : List Requirement)
    {fuel : Nat} (hfuel : sel.length < fuel) :
    ∃ sel', parseLoop reqs fuel (scan (selectorString (r :: sel)).toList) = .ok (reqs ++ sel', []) ∧ sel' ≠ [] ∧
      ∀ ls, selectorMatches sel' ls = selectorMatches (r :: sel) ls := by
  induction sel generalizing r reqs fuel with
  | nil =>
    obtain ⟨n, rfl⟩ := Nat.exists_eq_succ_of_ne_zero hfuel.ne'
    obtain ⟨r', hparse, hmatch⟩ := parseRequirement_text (hsel r mem_cons_self) (Or.inl rfl : Follows [])
    obtain ⟨item, items, hscan⟩ := exists_cons_of_ne_nil (scan_ne_nil (r.string.toList ++ []))
    refine ⟨[r'], ?_, cons_ne_nil _ _, fun ls => by simp [selectorMatches, hmatch]⟩
    rw [append_nil] at hparse hscan
    rw [hscan, scan_nil] at hparse
    show parseLoop reqs (n + 1) (scan r.string.toList) = _
    rw [hscan, parseLoop_last reqs n hparse]
  | cons r₂ sel ih =>
    obtain ⟨n, rfl⟩ := Nat.exists_eq_succ_of_ne_zero (Nat.ne_zero_of_lt hfuel)
    obtain ⟨hr, hsel⟩ := forall_mem_cons.mp hsel
    have hr₂ := hsel r₂ mem_cons_self
    have hfresh : Fresh (selectorString (r₂ :: sel)).toList := selectorString_fresh hr₂
    obtain ⟨r', hparse, hmatch⟩ := parseRequirement_text hr (Or.inr ⟨_, rfl, hfresh⟩)
    obtain ⟨sel', hloop, -, hmatches⟩ := ih hsel (reqs ++ [r']) (Nat.lt_of_succ_lt_succ hfuel)
    obtain ⟨item, items, hscan⟩ := exists_cons_of_ne_nil
      (scan_ne_nil (r.string.toList ++ (",".toList ++ (selectorString (r₂ :: sel)).toList)))
    obtain ⟨next, items', hscan'⟩ := exists_cons_of_ne_nil (scan_ne_nil (selectorString (r₂ :: sel)).toList)
    have hnext : next.tokIn .values = .identifierToken ∨ next.tokIn .values = .doesNotExistToken := by
      obtain ⟨l, htext, hl⟩ := selectorString_follows (forall_mem_cons.mp hsel).2
      obtain ⟨r₂', hparse₂, -⟩ := parseRequirement_text hr₂ hl
      rw [← htext, hscan'] at hparse₂
      exact parseRequirement_head hparse₂
    refine ⟨r' :: sel', ?_, cons_ne_nil _ _, fun ls => ?_⟩
    · rw [hscan, scan_symbol (p := (",", .commaToken)) (by decide) hfresh, hscan'] at hparse
      rw [selectorString_cons, String.toList_append, String.toList_append, append_assoc, hscan,
        parseLoop_comma reqs n hparse hnext, ← hscan', hloop, append_assoc, singleton_append]
    · have hrest := hmatches ls
      unfold selectorMatches at hrest ⊢
      rw [all_cons, all_cons, hmatch, hrest]

end

/-- **A selector is read back from its text**, whatever the order that the sort gives to
requirements with one key. -/
theorem parse_string_matches {sortByKey : List Requirement → List Requirement} (hsort : ∀ l, (sortByKey l).Perm l)
    {sel : List Requirement} (hne : sel ≠ []) (hnew : ∀ r ∈ sel, ∃ op, newRequirement r.key op r.strValues = .ok r)
    (hnodup : ∀ r ∈ sel, r.strValues.Nodup) (hplain : ∀ r ∈ sel, Plain r.key ∧ ∀ v ∈ r.strValues, Plain v) :
    ∃ sel', parse sortByKey (selectorString sel) = .ok sel' ∧
      ∀ ls, selectorMatches sel' ls = selectorMatches sel ls := by
  have hworded : ∀ r ∈ sel, Worded r := fun r hr =>
    ⟨newRequirement_valid (hnew r hr).choose_spec, (hplain r hr).1, (hplain r hr).2, hnodup r hr⟩
  obtain ⟨r, rest, rfl⟩ := exists_cons_of_ne_nil hne
  obtain ⟨sel', hloop, hne', hmatches⟩ := parseLoop_text hworded [] (length_le_selectorString (r :: rest))
  refine ⟨sortByKey sel', ?_, fun ls => ?_⟩
  · rw [parse, hloop]
    exact if_neg hne'
  · rw [← hmatches]
    exact (hsort sel').all_eq

theorem parse_keyword_matches : ∃ sel',
    parse id (selectorString [⟨"in", .in, ["notin", ""]⟩, ⟨"a", .equals, [""]⟩, ⟨"notin", .doesNotExist, []⟩]) = .ok sel' ∧
      ∀ ls, selectorMatches sel' ls =
        selectorMatches [⟨"in", .in, ["notin", ""]⟩, ⟨"a", .equals, [""]⟩, ⟨"notin", .doesNotExist, []⟩] ls := by
  refine parse_string_matches (fun l => .refl l) (by decide) ?_ (by decide) (by decide)
  simp only [forall_mem_cons]
  exact ⟨⟨"in", rfl⟩, ⟨"=", rfl⟩, ⟨"!", rfl⟩, fun r hr => by cases hr⟩

end GlobalScheduler.Labels
