import GlobalScheduler.Go.Heap
import GlobalScheduler.Go.Map
import GlobalScheduler.Go.Sort

/-! The package `consistenthashing`.

Elements are put on a circle of hashes, each at many places, and a member belongs to the
element at the first place after its own hash. The places are kept twice, as the keys of a
map and as a sorted slice, and so are the members, by their names and by their owners. -/
namespace GlobalScheduler.ConsistentHashing

open Go

abbrev Uint32 := Fin 4294967296

def virtualNodeNumber : Nat := 131072

/-- `fnv32Hash`, the hash FNV-1 of 32 bits. -/
def fnv32Hash (key : String) : Uint32 :=
  key.toUTF8.toList.foldl (fun hash byte => hash * 16777619 ^^^ Fin.ofNat _ byte.toNat) 2166136261

example : fnv32Hash "a" = 84696446 := by decide +kernel

structure ConsistentHash where
  hashCircle : Map Uint32 String := ∅
  sortedHashes : List Uint32 := []
  numberOfVirtualNodes : Nat
  members : Map String String := ∅
  results : Map String (List String) := ∅
deriving DecidableEq

/-- A ring with no entries, for which the number of virtual nodes was set. -/
def newWith (n : Nat) : ConsistentHash := { numberOfVirtualNodes := n }

/-- `New`. -/
def new : ConsistentHash := newWith virtualNodeNumber

def generateKey (elt : String) (idx : Nat) : String := elt ++ "#" ++ toString idx

/-- The element, or the first one if it is not there, changes places with the last, which
is cut off. -/
def removeFromArray {α : Type} [DecidableEq α] (array : List α) (ele : α) : Outcome (List α) :=
  let idx := if ele ∈ array then array.idxOf ele else 0
  if array = [] then throw .indexOutOfRange
  else pure (Heap.swap idx (array.length - 1) array).dropLast

def removeElementFromArray : List String → String → Outcome (List String) := removeFromArray

def removeKeyFromSortedHashedFromArray : List Uint32 → Uint32 → Outcome (List Uint32) := removeFromArray

namespace ConsistentHash

def addToSortedHashes (elt : List Uint32) (ch : ConsistentHash) : ConsistentHash :=
  { ch with sortedHashes := (ch.sortedHashes ++ elt).insertionSort (· ≤ ·) }

def deleteFromSortedHashes (elt : List Uint32) (ch : ConsistentHash) : Outcome ConsistentHash := do
  let hashes ← elt.foldlM removeKeyFromSortedHashedFromArray ch.sortedHashes
  pure { ch with sortedHashes := hashes.insertionSort (· ≤ ·) }

/-- `ch.SortedHashes[x] > key`. -/
def isAfter (hashes : List Uint32) (key : Uint32) (x : Nat) : Bool := hashes[x]?.any fun hash => decide (key < hash)

def search (key : Uint32) (ch : ConsistentHash) : Nat :=
  let idx := Go.search ch.sortedHashes.length (isAfter ch.sortedHashes key)
  if idx < ch.sortedHashes.length then idx else 0

section
variable (hash : String → Uint32)

def virtualNodes (elt : String) (ch : ConsistentHash) : List Uint32 :=
  (List.range ch.numberOfVirtualNodes).map fun i => hash (generateKey elt i)

/-- The virtual nodes of some elements, each with its element. -/
def nodesOf (elts : List String) (ch : ConsistentHash) : List (Uint32 × String) :=
  elts.flatMap fun v => (ch.virtualNodes hash v).map (·, v)

variable (ch : ConsistentHash)

/-- A round of `Insert` on a circle that is not empty. -/
def place (v : String) : Outcome ConsistentHash :=
  match ch.sortedHashes[ch.search (hash v)]? with
  | none => throw .indexOutOfRange
  | some point =>
    let owner := (ch.hashCircle.lookup point).getD ""
    pure { ch with
      members := ch.members.insert v owner
      results := ch.results.insert owner ((ch.results.lookup owner).getD [] ++ [v]) }

/-- `Insert`; the error is always nil. -/
def insert (names : List String) (ch : ConsistentHash) : Outcome ConsistentHash :=
  if ch.hashCircle.keys = [] then
    pure { ch with members := names.foldl (fun members v => members.insert v "nil") ch.members }
  else names.foldlM (place hash) ch

variable (ord : List String)

/-- The names are in the order of the loop over the members. -/
def rebalance : Outcome ConsistentHash :=
  insert hash ((Map.entriesBy ord ch.members).map Prod.fst) { ch with results := ∅ }

/-- The end of `add` and `remove`. -/
def rebalanceMembers : Outcome ConsistentHash :=
  if ch.members.keys = [] then pure ch else ch.rebalance hash ord

/-- The start of `add`. -/
def addNodes (elt : List String) (ch : ConsistentHash) : ConsistentHash :=
  let nodes := ch.nodesOf hash elt
  let hashCircle := nodes.foldl (fun circle node => circle.insert node.1 node.2) ch.hashCircle
  { ch with hashCircle := hashCircle }.addToSortedHashes (nodes.map Prod.fst)

def add (elt : List String) (ch : ConsistentHash) : Outcome ConsistentHash :=
  (ch.addNodes hash elt).rebalanceMembers hash ord

/-- The start of `remove`. -/
def removeNodes (elt : String) (ch : ConsistentHash) : Outcome ConsistentHash :=
  let eltHash := ch.virtualNodes hash elt
  let hashCircle := eltHash.foldl (fun circle key => circle.erase key) ch.hashCircle
  { ch with hashCircle := hashCircle }.deleteFromSortedHashes eltHash

def remove (elt : String) (ch : ConsistentHash) : Outcome ConsistentHash := do
  let ch ← ch.removeNodes hash elt
  ch.rebalanceMembers hash ord

end

def delete (elt : String) (ch : ConsistentHash) : Outcome ConsistentHash :=
  match ch.members.lookup elt with
  | none => pure ch
  | some res => do
    let ids ← removeElementFromArray ((ch.results.lookup res).getD []) elt
    pure { ch with results := ch.results.insert res ids, members := ch.members.erase elt }

def getIdList (name : String) (ch : ConsistentHash) : List String := (ch.results.lookup name).getD []

end ConsistentHash

/-- A call, with the order of the loop over the members. -/
inductive Call where
  | add (ord elt : List String)
  | remove (ord : List String) (elt : String)
  | insert (names : List String)
  | delete (elt : String)

def call (hash : String → Uint32) (ch : ConsistentHash) : Call → Outcome ConsistentHash
  | .add ord elt => ch.add hash ord elt
  | .remove ord elt => ch.remove hash ord elt
  | .insert names => ch.insert hash names
  | .delete elt => ch.delete elt

end GlobalScheduler.ConsistentHashing
