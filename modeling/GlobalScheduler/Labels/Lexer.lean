import GlobalScheduler.Labels

/-! The lexer of selectors.

The state is what is left to read. A character with a code above 127 is several bytes in the
source; none of them is zero, blank or a symbol, so it is taken whole. -/
namespace GlobalScheduler.Labels

inductive Token where
  | errorToken
  | endOfStringToken
  | closedParToken
  | commaToken
  | doesNotExistToken
  | doubleEqualsToken
  | equalsToken
  | greaterThanToken
  | identifierToken
  | inToken
  | lessThanToken
  | notEqualsToken
  | notInToken
  | openParToken
deriving DecidableEq, Repr

def string2token : String → Option Token
  | ")" => some .closedParToken
  | "," => some .commaToken
  | "!" => some .doesNotExistToken
  | "==" => some .doubleEqualsToken
  | "=" => some .equalsToken
  | ">" => some .greaterThanToken
  | "in" => some .inToken
  | "<" => some .lessThanToken
  | "!=" => some .notEqualsToken
  | "notin" => some .notInToken
  | "(" => some .openParToken
  | _ => none

structure ScannedItem where
  tok : Token := .errorToken
  literal : String := ""
deriving DecidableEq, Repr

def isWhitespace (ch : Char) : Bool := ch = ' ' || ch = '\t' || ch = '\r' || ch = '\n'

def isSpecialSymbol (ch : Char) : Bool := ch ∈ ['=', '!', '(', ')', ',', '>', '<']

/-- The loop of `scanIDOrKeyword`. -/
def identifierLoop (buffer : List Char) : List Char → List Char × List Char
  | [] => (buffer, [])
  | ch :: rest =>
    if ch = '\x00' then (buffer, rest)
    else if isSpecialSymbol ch || isWhitespace ch then (buffer, ch :: rest)
    else identifierLoop (buffer ++ [ch]) rest

def scanIDOrKeyword (l : List Char) : ScannedItem × List Char :=
  let (buffer, rest) := identifierLoop [] l
  let s := String.ofList buffer
  match string2token s with
  | some val => (⟨val, s⟩, rest)
  | none => (⟨.identifierToken, s⟩, rest)

/-- The loop of `scanSpecialSymbol`. -/
def specialSymbolLoop (lastScannedItem : ScannedItem) (buffer : List Char) :
    List Char → ScannedItem × List Char × List Char
  | [] => (lastScannedItem, buffer, [])
  | ch :: rest =>
    if ch = '\x00' then (lastScannedItem, buffer, rest)
    else if isSpecialSymbol ch then
      match string2token (String.ofList (buffer ++ [ch])) with
      | some token => specialSymbolLoop ⟨token, String.ofList (buffer ++ [ch])⟩ (buffer ++ [ch]) rest
      | none =>
        if lastScannedItem.tok ≠ .errorToken then (lastScannedItem, buffer ++ [ch], ch :: rest)
        else specialSymbolLoop lastScannedItem (buffer ++ [ch]) rest
    else (lastScannedItem, buffer, ch :: rest)

def scanSpecialSymbol (l : List Char) : ScannedItem × List Char :=
  let (lastScannedItem, buffer, rest) := specialSymbolLoop {} [] l
  if lastScannedItem.tok = .errorToken then
    (⟨.errorToken, "error expected: keyword found '" ++ String.ofList buffer ++ "'"⟩, rest)
  else (lastScannedItem, rest)

def skipWhiteSpaces (l : List Char) : List Char := l.dropWhile isWhitespace

def lex (l : List Char) : ScannedItem × List Char :=
  match skipWhiteSpaces l with
  | [] => (⟨.endOfStringToken, ""⟩, [])
  | ch :: rest =>
    if ch = '\x00' then (⟨.endOfStringToken, ""⟩, rest)
    else if isSpecialSymbol ch then scanSpecialSymbol (ch :: rest)
    else scanIDOrKeyword (ch :: rest)

/-! ### Every item is read from at least one character -/

theorem identifierLoop_length (buffer l : List Char) : (identifierLoop buffer l).2.length ≤ l.length := by
  fun_induction identifierLoop buffer l with
  | case1 => rfl
  | case2 => simp
  | case3 => rfl
  | case4 buffer ch rest _ _ ih => exact ih.trans (Nat.le_succ _)

theorem specialSymbolLoop_length (last : ScannedItem) (buffer l : List Char) :
    (specialSymbolLoop last buffer l).2.2.length ≤ l.length := by
  fun_induction specialSymbolLoop last buffer l with
  | case1 => rfl
  | case2 => simp
  | case3 last buffer ch rest _ _ token htoken ih => exact ih.trans (Nat.le_succ _)
  | case4 => rfl
  | case5 last buffer ch rest _ _ hnone _ ih => exact ih.trans (Nat.le_succ _)
  | case6 => rfl

theorem scanIDOrKeyword_rest (l : List Char) : (scanIDOrKeyword l).2 = (identifierLoop [] l).2 := by
  unfold scanIDOrKeyword
  dsimp only
  split <;> rfl

theorem scanSpecialSymbol_rest (l : List Char) : (scanSpecialSymbol l).2 = (specialSymbolLoop {} [] l).2.2 := by
  unfold scanSpecialSymbol
  dsimp only
  split <;> rfl

theorem lex_length (l : List Char) (hend : (lex l).1.tok ≠ .endOfStringToken) : (lex l).2.length < l.length := by
  have hskip : (skipWhiteSpaces l).length ≤ l.length := (List.dropWhile_sublist _).length_le
  unfold lex at hend ⊢
  cases hl : skipWhiteSpaces l with
  | nil => simp [hl] at hend
  | cons ch rest =>
    simp only [hl, List.length_cons] at hend hskip ⊢
    have hfirst : isWhitespace ch = false := by
      have := List.head?_dropWhile_not isWhitespace l
      unfold skipWhiteSpaces at hl
      simpa [hl] using this
    by_cases hzero : ch = '\x00'
    · simp [hzero] at hend
    by_cases hspecial : isSpecialSymbol ch = true
    · rw [if_neg hzero, if_pos hspecial, scanSpecialSymbol_rest, specialSymbolLoop, if_neg hzero, if_pos hspecial]
      refine Nat.lt_of_le_of_lt ?_ hskip
      split
      · exact specialSymbolLoop_length ..
      · exact specialSymbolLoop_length ..
    · rw [if_neg hzero, if_neg hspecial, scanIDOrKeyword_rest, identifierLoop, if_neg hzero, if_neg (by simp [hspecial, hfirst])]
      exact Nat.lt_of_le_of_lt (identifierLoop_length ..) hskip

def scan (l : List Char) : List ScannedItem :=
  if _ : (lex l).1.tok = .endOfStringToken then [(lex l).1] else (lex l).1 :: scan (lex l).2
termination_by l.length
decreasing_by exact lex_length l ‹_›

end GlobalScheduler.Labels
