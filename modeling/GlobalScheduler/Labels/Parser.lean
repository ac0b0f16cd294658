import GlobalScheduler.Labels.Lexer
import Mathlib.Data.List.Sort
import Mathlib.Data.String.Basic

/-! The text of a selector, and its parser.

The state of the parser is the scanned items that it has not consumed. -/
namespace GlobalScheduler.Labels

open Go

/-! ### The text -/

def safeSort (l : List String) : List String :=
  if l.Pairwise (· ≤ ·) then l else l.mergeSort (· ≤ ·)

def Operator.text : Operator → String
  | .in => "in"
  | .notIn => "notin"
  | .equals => "="
  | .doubleEquals => "=="
  | .notEquals => "!="
  | .exists => "exists"
  | .doesNotExist => "!"
  | .greaterThan => "gt"
  | .lessThan => "lt"

def Requirement.values (r : Requirement) : String :=
  match r.strValues with
  | [value] => value
  | values => ",".intercalate (safeSort values)

/-- `Requirement.String`. -/
def Requirement.string (r : Requirement) : String :=
  match r.operator with
  | .equals => r.key ++ "=" ++ r.values
  | .doubleEquals => r.key ++ "==" ++ r.values
  | .notEquals => r.key ++ "!=" ++ r.values
  | .in => r.key ++ " in " ++ "(" ++ r.values ++ ")"
  | .notIn => r.key ++ " notin " ++ "(" ++ r.values ++ ")"
  | .greaterThan => r.key ++ ">" ++ r.values
  | .lessThan => r.key ++ "<" ++ r.values
  | .exists => r.key
  | .doesNotExist => "!" ++ r.key

/-- `Selector.String`. -/
def selectorString (sel : List Requirement) : String := ",".intercalate (sel.map Requirement.string)

/-! ### The parser -/

inductive ParserContext where
  | keyAndOperator
  | values
deriving DecidableEq

inductive ParseError where
  | errorf (msg : String)
  /-- An index past the last item. -/
  | panic
  /-- The loop over the requirements goes round more often than there are characters. -/
  | loops
deriving DecidableEq, Repr

abbrev Parser := StateT (List ScannedItem) (Except ParseError)

/-- The token in a context: among values, the keywords are identifiers. -/
def ScannedItem.tokIn (item : ScannedItem) (context : ParserContext) : Token :=
  match context, item.tok with
  | .values, .inToken | .values, .notInToken => .identifierToken
  | _, tok => tok

def lookahead (context : ParserContext) : Parser (Token × String)
  | [] => .error .panic
  | item :: rest => .ok ((item.tokIn context, item.literal), item :: rest)

def consume (context : ParserContext) : Parser (Token × String)
  | [] => .error .panic
  | item :: rest => .ok ((item.tokIn context, item.literal), rest)

def errorf {α : Type} (msg : String) : Parser α := throw (.errorf msg)

/-- `NewRequirement`, called by the parser. -/
def makeRequirement (key : String) (operator : Operator) (values : List String) : Parser Requirement :=
  match newRequirement key operator.text values with
  | .ok r => pure r
  | .error err => errorf err

def parseKeyAndInferOperator : Parser (String × Option Operator) := do
  let mut operator : Option Operator := none
  let mut (tok, literal) ← consume .values
  if tok = .doesNotExistToken then
    operator := some .doesNotExist
    (tok, literal) ← consume .values
  if tok ≠ .identifierToken then errorf ("found '" ++ literal ++ "', expected: identifier")
  if literal = "" then errorf ("invalid label key " ++ literal)
  let (t, _) ← lookahead .values
  if t = .endOfStringToken ∨ t = .commaToken then
    if operator ≠ some .doesNotExist then operator := some .exists
  return (literal, operator)

def parseOperator : Parser Operator := do
  let (tok, lit) ← consume .keyAndOperator
  match tok with
  | .inToken => return .in
  | .equalsToken => return .equals
  | .doubleEqualsToken => return .doubleEquals
  | .greaterThanToken => return .greaterThan
  | .lessThanToken => return .lessThan
  | .notInToken => return .notIn
  | .notEqualsToken => return .notEquals
  | _ => errorf ("found '" ++ lit ++ "', expected: '=', '!=', '==', 'in', notin'")

/-- The loop of `parseIdentifiersList`, with the set of the values. It looks one item ahead of
the one that it consumes. -/
def identifiersListLoop (s : List String) : Parser (List String)
  | [] => .error .panic
  | [item] =>
    match item.tokIn .values with
    | .identifierToken | .commaToken => .error .panic
    | _ => .error (.errorf ("found '" ++ item.literal ++ "', expected: ',', or identifier"))
  | item :: next :: rest =>
    match item.tokIn .values with
    | .identifierToken =>
      match next.tokIn .values with
      | .commaToken => identifiersListLoop (s.insert item.literal) (next :: rest)
      | .closedParToken => .ok (s.insert item.literal, next :: rest)
      | _ => .error (.errorf ("found '" ++ next.literal ++ "', expected: ',' or ')'"))
    | .commaToken =>
      let s := if s.length = 0 then s.insert "" else s
      match next.tokIn .values with
      | .closedParToken => .ok (s.insert "", next :: rest)
      | .commaToken => identifiersListLoop (s.insert "") rest
      | _ => identifiersListLoop s (next :: rest)
    | _ => .error (.errorf ("found '" ++ item.literal ++ "', expected: ',', or identifier"))

def parseIdentifiersList : Parser (List String) := identifiersListLoop []

def parseValues : Parser (List String) := do
  let (tok, lit) ← consume .values
  if tok ≠ .openParToken then errorf ("found '" ++ lit ++ "' expected: '('")
  let (tok, lit) ← lookahead .values
  match tok with
  | .identifierToken | .commaToken =>
    let s ← parseIdentifiersList
    let (tok, _) ← consume .values
    if tok ≠ .closedParToken then errorf ("found '" ++ lit ++ "', expected: ')'")
    return s
  | .closedParToken =>
    let _ ← consume .values
    return [""]
  | _ => errorf ("found '" ++ lit ++ "', expected: ',', ')' or identifier")

def parseExactValue : Parser (List String) := do
  let (tok, _) ← lookahead .values
  if tok = .endOfStringToken ∨ tok = .commaToken then return [""]
  let (tok, lit) ← consume .values
  if tok = .identifierToken then return [lit]
  errorf ("found '" ++ lit ++ "', expected: identifier")

/-- `sets.String.List`. -/
def sortedList (s : List String) : List String := s.mergeSort (· ≤ ·)

def parseOperand : Operator → Parser (List String)
  | .in | .notIn => parseValues
  | _ => parseExactValue

def parseRequirement : Parser Requirement := do
  match ← parseKeyAndInferOperator with
  | (key, some operator) => makeRequirement key operator []
  | (key, none) =>
    let operator ← parseOperator
    let values ← parseOperand operator
    makeRequirement key operator (sortedList values)

/-- The error of a requirement, as the loop over them returns it. -/
def parseNext : Parser Requirement := fun items =>
  match parseRequirement items with
  | .error (.errorf err) => .error (.errorf ("unable to parse requirement: " ++ err))
  | result => result

/-- The loop of `Parser.parse`. A round consumes at least one item, which was read from at
least one character. -/
def parseLoop (requirements : List Requirement) : Nat → Parser (List Requirement)
  | 0 => throw .loops
  | fuel + 1 => do
    let (tok, lit) ← lookahead .values
    match tok with
    | .identifierToken | .doesNotExistToken =>
      let r ← parseNext
      let requirements := requirements ++ [r]
      let (t, l) ← consume .values
      match t with
      | .endOfStringToken => return requirements
      | .commaToken =>
        let (t2, l2) ← lookahead .values
        if t2 ≠ .identifierToken ∧ t2 ≠ .doesNotExistToken then
          errorf ("found '" ++ l2 ++ "', expected: identifier after ','")
        parseLoop requirements fuel
      | _ => errorf ("found '" ++ l ++ "', expected: ',' or 'end of string'")
    | .endOfStringToken => return requirements
    | _ => errorf ("found '" ++ lit ++ "', expected: !, identifier, or 'end of string'")

/-- `Parse`, with the sort that `sort.Sort(ByKey(…))` does. -/
def parse (sortByKey : List Requirement → List Requirement) (selector : String) :
    Except ParseError (List Requirement) := do
  let (requirements, _) ← parseLoop [] (selector.length + 1) (scan selector.toList)
  if requirements = [] then throw (.errorf "parse failed")
  return sortByKey requirements

end GlobalScheduler.Labels
