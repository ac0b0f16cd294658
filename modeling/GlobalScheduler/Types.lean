import GlobalScheduler.Go.Float
import GlobalScheduler.Go.RefMap
import GlobalScheduler.Go.Text

/-! The scheduler's data.

What a caller asks for (`Allocation`, with its `Stack` of resources and its
`Selector`), what a site is (`Site`), and what the scheduler knows about a site
(`SiteCacheInfo`). The fields are those the scheduler reads or writes; a Go `int`
or `int64` is an `Int`. -/
namespace GlobalScheduler

open Go Outcome

/-! ### What is asked for -/

structure GeoLocation where
  country : String := ""
  area : String := ""
  province : String := ""
  city : String := ""
deriving DecidableEq, Repr

/-- A region a caller selects, with the zones wanted in it. -/
structure CloudRegion where
  region : String
  availabilityZone : List String := []
deriving DecidableEq, Repr

structure RegionAzMap where
  region : String := ""
  availabilityZone : String := ""
deriving DecidableEq, Repr

structure Strategy where
  locationStrategy : String := ""
  regionStrategy : String := ""
deriving DecidableEq, Repr

structure Spot where
  spotDurationHours : Int := 0
  spotDurationCount : Int := 0
  interruptionPolicy : String := ""
deriving DecidableEq, Repr

/-- A flavor a caller names; `spot` is nil for an ordinary machine. -/
structure Flavor where
  flavorID : String
  spot : Option Spot := none
deriving DecidableEq, Repr

/-- One kind of machine of a stack: `count` of them, each of one of `flavors`. -/
structure Resource where
  flavors : List Flavor := []
  storage : Map String Int := ∅
  needEip : Bool := false
  count : Int := 0
  flavorIDSelected : String := ""
deriving DecidableEq

structure LabelRequirement where
  key : String
  operator : String
  strValues : List String := []
deriving DecidableEq, Repr

structure Selector where
  geoLocation : GeoLocation := {}
  regions : List CloudRegion := []
  operator : String := ""
  siteID : String := ""
  strategy : Strategy := {}
  stackAffinity : List LabelRequirement := []
  stackAntiAffinity : List LabelRequirement := []
deriving DecidableEq, Repr

/-- Where a bound stack went. -/
structure Selected where
  siteID : String := ""
  region : String := ""
  availabilityZone : String := ""
  clusterName : String := ""
  clusterNamespace : String := ""
deriving DecidableEq, Repr

structure Stack where
  podName : String := ""
  labels : Map String String := ∅
  resources : List Resource := []
  selector : Selector := {}
  selected : Selected := {}
deriving DecidableEq

/-- A stack with what names its pod. -/
structure PodStack extends Stack where
  uid : String := ""
  tenant : String := ""
  podNamespace : String := ""
deriving DecidableEq

structure Allocation where
  id : String := ""
  stack : Stack := {}
  selector : Selector := {}
  replicas : Int
deriving DecidableEq

/-! ### What a site is -/

/-- Spot capacity of one kind: without a time limit, and per number of hours. -/
structure PreemptibleResource where
  infinite : Fp := .fin 0
  finite : Map String Fp := ∅
deriving DecidableEq

structure SpotResource where
  cpuBlockDelayResource : PreemptibleResource := {}
  memoryBlockDelayResource : PreemptibleResource := {}
  cpuBlockImmediateResource : PreemptibleResource := {}
  memoryBlockImmediateResource : PreemptibleResource := {}
deriving DecidableEq

structure SiteAttribute where
  key : String
  value : String
deriving DecidableEq, Repr

structure Host where
  resourceType : String
deriving DecidableEq, Repr

structure Site where
  siteID : String
  clusterName : String := ""
  clusterNamespace : String := ""
  geoLocation : GeoLocation := {}
  regionAzMap : RegionAzMap := {}
  operator : String := ""
  status : String := ""
  siteAttribute : List SiteAttribute := []
  hosts : List Host := []
deriving DecidableEq, Repr

/-- A flavor as the provider describes it; `resourceType` is that of its extra specs. -/
structure RegionFlavor where
  id : String
  region : String := ""
  vcpus : String
  ram : Int
  resourceType : String := ""
deriving DecidableEq, Repr

structure CPUAndMemory where
  vcpu : Int
  memory : Int
deriving DecidableEq, Repr

namespace CPUAndMemory

def zero : CPUAndMemory := ⟨0, 0⟩

def add (a b : CPUAndMemory) : CPUAndMemory := ⟨a.vcpu + b.vcpu, a.memory + b.memory⟩

end CPUAndMemory

/-- The two things a machine takes. -/
inductive Dimension where
  | vcpu
  | memory
deriving DecidableEq, Repr

namespace CPUAndMemory

def amount (c : CPUAndMemory) : Dimension → Int
  | .vcpu => c.vcpu
  | .memory => c.memory

@[simp] theorem add_amount (a b : CPUAndMemory) (d : Dimension) :
    (a.add b).amount d = a.amount d + b.amount d := by
  cases d <;> rfl

@[simp] theorem zero_amount (d : Dimension) : zero.amount d = 0 := by
  cases d <;> rfl

theorem eq_iff_amount {a b : CPUAndMemory} : a = b ↔ ∀ d, a.amount d = b.amount d := by
  constructor
  · exact fun h _ => h ▸ rfl
  · intro h
    cases a
    cases b
    exact congrArg₂ CPUAndMemory.mk (h .vcpu) (h .memory)

end CPUAndMemory

/-- What binding one stack takes from its site, per resource type and volume type. -/
structure AllResInfo where
  cpuAndMem : Map String CPUAndMemory := ∅
  storage : Map String Fp := ∅
deriving DecidableEq

/-- What the scheduler knows about a site. The record of a site whose totals were
pushed before its cluster event has no `site`. -/
structure SiteCacheInfo where
  site : Option Site := none
  requestedResources : RefMap String CPUAndMemory := .empty
  totalResources : Map String CPUAndMemory := ∅
  requestedStorage : Map String Fp := ∅
  totalStorage : Map String Fp := ∅
  requestedFlavor : Map String Int := ∅
  allocatableFlavor : Map String Int := ∅
  allocatableSpotFlavor : Map String SpotResource := ∅
  stackList : List Stack := []
deriving DecidableEq

namespace SiteCacheInfo

/-- `GetSite()`, dereferenced. -/
def getSite (n : SiteCacheInfo) : Outcome Site :=
  match n.site with
  | none => throw .nilPointer
  | some site => pure site

theorem getSite_ok {n : SiteCacheInfo} {site : Site} : n.getSite = .ok site ↔ n.site = some site := by
  unfold getSite
  cases n.site with
  | none => simp [throw_ok]
  | some s => simp [pure_ok]

end SiteCacheInfo

/-! ### Constants -/

def flavorDelimiter : String := "||"

def siteDelimiter : String := "--"

/-- The resource type of a flavor that names none. -/
def defaultResourceType : String := "vm"

def getRegionName (siteID : String) : String :=
  if siteID = "" then "" else (split siteID siteDelimiter).headD ""

end GlobalScheduler
