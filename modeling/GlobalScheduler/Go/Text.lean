import Mathlib.Algebra.Ring.Int.Defs
import Mathlib.Data.List.Basic

/-! The string functions of Go's standard library that programs lean on.

They work on the characters of the string, by structural recursion, so that a
closed call evaluates. Separators and affixes here are not empty. -/
namespace Go

open List

/-- A string as its bytes, for programs that compare strings: Go does so byte by byte. -/
abbrev GoString := List (Fin 256)

/-- Cut at every occurrence of `sep`, left to right; `skip` characters of the last
occurrence are still to be passed over and `piece` is the current piece, reversed. -/
def splitAux (sep : List Char) : Nat → List Char → List Char → List (List Char)
  | _, piece, [] => [piece.reverse]
  | skip + 1, piece, _ :: rest => splitAux sep skip piece rest
  | 0, piece, c :: rest =>
    if sep.isPrefixOf (c :: rest) then piece.reverse :: splitAux sep (sep.length - 1) [] rest
    else splitAux sep 0 (c :: piece) rest

/-- `strings.Split`. -/
def split (s sep : String) : List String :=
  (splitAux sep.toList 0 [] s.toList).map String.ofList

example : split "a--b----c" "--" = ["a", "b", "", "c"] := by decide

theorem split_ne_nil (s sep : String) : split s sep ≠ [] := by
  have haux : ∀ skip piece l, splitAux sep.toList skip piece l ≠ [] := by
    intro skip piece l
    induction l generalizing skip piece with
    | nil => simp [splitAux]
    | cons c rest ih =>
      cases skip with
      | zero =>
        rw [splitAux]
        split
        · simp
        · exact ih 0 (c :: piece)
      | succ skip => exact ih skip piece
  rw [split, Ne, map_eq_nil_iff]
  exact haux 0 [] s.toList

theorem splitAux_head? {sep piece a b : List Char} (hsep : sep ≠ [])
    (hfirst : ∀ before c after, a = before ++ c :: after → ¬ sep <+: c :: after ++ (sep ++ b)) :
    (splitAux sep 0 piece (a ++ (sep ++ b))).head? = some (piece.reverse ++ a) := by
  induction a generalizing piece with
  | nil =>
    cases sep with
    | nil => exact absurd rfl hsep
    | cons c rest =>
      show (splitAux (c :: rest) 0 piece (c :: (rest ++ b))).head? = _
      have hbegins : (c :: rest).isPrefixOf (c :: (rest ++ b)) = true :=
        isPrefixOf_iff_prefix.mpr (prefix_append (c :: rest) b)
      rw [splitAux, if_pos hbegins, head?_cons, append_nil]
  | cons c a ih =>
    have hnot : ¬ sep.isPrefixOf (c :: (a ++ (sep ++ b))) = true := by
      rw [List.isPrefixOf_iff_prefix]
      exact hfirst [] c a rfl
    rw [cons_append, splitAux, if_neg hnot, ih, reverse_cons, append_assoc]
    · rfl
    · intro before d after hsplit
      exact hfirst (c :: before) d after (by rw [hsplit, cons_append])

theorem split_headD {s sep a b : String} (hs : s = a ++ sep ++ b) (hsep : sep ≠ "")
    (hfirst : ∀ before c after, a.toList = before ++ c :: after →
      ¬ sep.toList <+: c :: after ++ (sep.toList ++ b.toList)) :
    (split s sep).headD "" = a := by
  have hpieces : (splitAux sep.toList 0 [] (a.toList ++ (sep.toList ++ b.toList))).head? = _ :=
    splitAux_head? (fun h => hsep (String.toList_eq_nil_iff.mp h)) hfirst
  unfold split
  rw [hs, String.toList_append, String.toList_append, append_assoc, headD_eq_head?_getD, head?_map, hpieces]
  simp

theorem append_cons_inj {α : Type} {sep : α} {a a' b b' : List α} (ha : sep ∉ a) (ha' : sep ∉ a') :
    a ++ sep :: b = a' ++ sep :: b' ↔ a = a' ∧ b = b' := by
  induction a generalizing a' with
  | nil =>
    cases a' with
    | nil => simp
    | cons c a' =>
      have hc : sep ≠ c := fun heq => ha' (heq ▸ mem_cons_self)
      simp [hc]
  | cons c a ih =>
    have hc : c ≠ sep := fun heq => ha (heq ▸ mem_cons_self)
    cases a' with
    | nil => simp [hc]
    | cons c' a' =>
      have hrest := ih (fun h => ha (mem_cons_of_mem c h)) fun h => ha' (mem_cons_of_mem c' h)
      simp [hrest, and_assoc]

/-- `strings.HasPrefix`. -/
def hasPrefix (s affix : String) : Bool := affix.toList.isPrefixOf s.toList

/-- `strings.HasSuffix`. -/
def hasSuffix (s affix : String) : Bool := affix.toList.isSuffixOf s.toList

/-- The value of a digit string, most significant digit first. -/
def digits (acc : Nat) : List Char → Option Nat
  | [] => some acc
  | c :: rest => if c.isDigit then digits (10 * acc + (c.toNat - '0'.toNat)) rest else none

/-- `strconv.ParseInt(s, 10, 64)`, without the reason for a failure. -/
def parseInt (s : String) : Option Int :=
  let inRange := fun n : Int => if -2 ^ 63 ≤ n ∧ n < 2 ^ 63 then some n else none
  match s.toList with
  | [] | ['-'] | ['+'] => none
  | '-' :: ds => (digits 0 ds).bind fun n => inRange (-n)
  | '+' :: ds => (digits 0 ds).bind fun n => inRange n
  | ds => (digits 0 ds).bind fun n => inRange n

example : (parseInt "16", parseInt "-3", parseInt "4x", parseInt "") =
    (some 16, some (-3), none, none) := by decide

end Go
