import GlobalScheduler.Types

/-! Label requirements.

A selector is a list of requirements on the labels of a stack, and matches the
label sets that meet them all. -/
namespace GlobalScheduler.Labels

open Go

inductive Operator where
  | in
  | notIn
  | equals
  | doubleEquals
  | notEquals
  | exists
  | doesNotExist
  | greaterThan
  | lessThan
deriving DecidableEq, Repr

def Operator.ofString : String → Option Operator
  | "in" => some .in
  | "notin" => some .notIn
  | "=" => some .equals
  | "==" => some .doubleEquals
  | "!=" => some .notEquals
  | "exists" => some .exists
  | "!" => some .doesNotExist
  | "gt" => some .greaterThan
  | "lt" => some .lessThan
  | _ => none

structure Requirement where
  key : String
  operator : Operator
  strValues : List String
deriving DecidableEq, Repr

def labelValueMaxLength : Nat := 63

/-- What the operator asks of the number and form of the values. -/
def valuesAllowed (op : Operator) (vals : List String) : Except String Unit :=
  match op with
  | .in | .notIn =>
    if vals = [] then .error "for 'in', 'notin' operators, values set can't be empty" else .ok ()
  | .equals | .doubleEquals | .notEquals =>
    if vals.length ≠ 1 then .error "exact-match compatibility requires one single value"
    else .ok ()
  | .exists | .doesNotExist =>
    if vals ≠ [] then .error "values set must be empty for exists and does not exist" else .ok ()
  | .greaterThan | .lessThan =>
    if vals.length ≠ 1 then .error "for 'Gt', 'Lt' operators, exactly one value is required"
    else if vals.any fun v => (parseInt v).isNone then
      .error "for 'Gt', 'Lt' operators, the value must be an integer"
    else .ok ()

def newRequirement (key op : String) (vals : List String) : Except String Requirement := do
  if key = "" then throw ("invalid label key " ++ key)
  match Operator.ofString op with
  | none => throw ("operator '" ++ op ++ "' is not recognized")
  | some operator =>
    valuesAllowed operator vals
    if vals.any fun v => labelValueMaxLength < v.utf8ByteSize then
      throw "must be no more than 63 characters"
    pure ⟨key, operator, vals⟩

/-- A label compared as a number with the one value of the requirement. -/
def Requirement.compareWith (r : Requirement) (less : Int → Int → Bool) (v : String) : Bool :=
  match parseInt v, r.strValues with
  | some lsValue, [one] => ((parseInt one).map (less lsValue)).getD false
  | _, _ => false

/-- `Requirement.Matches`. -/
def Requirement.isMatch (r : Requirement) (ls : Map String String) : Bool :=
  match r.operator, ls.lookup r.key with
  | .in, some v | .equals, some v | .doubleEquals, some v => v ∈ r.strValues
  | .in, none | .equals, none | .doubleEquals, none => false
  | .notIn, some v | .notEquals, some v => v ∉ r.strValues
  | .notIn, none | .notEquals, none => true
  | .exists, v => v.isSome
  | .doesNotExist, v => v.isNone
  | .greaterThan, none | .lessThan, none => false
  | .greaterThan, some v => r.compareWith (fun lsValue rValue => lsValue > rValue) v
  | .lessThan, some v => r.compareWith (fun lsValue rValue => lsValue < rValue) v

/-- `Selector.Matches`. -/
def selectorMatches (sel : List Requirement) (ls : Map String String) : Bool :=
  sel.all (·.isMatch ls)

def selectorOf (reqs : List LabelRequirement) : Except String (List Requirement) :=
  reqs.mapM fun r => newRequirement r.key r.operator r.strValues

end GlobalScheduler.Labels
