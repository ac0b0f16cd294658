import GlobalScheduler.Types

/-! What users ask the API server for.

An allocation is a group of machines to be placed together; a pod is one machine. Both
say where they may run in a selector of their own. -/
namespace GlobalScheduler

/-! ### Allocations -/

namespace Allocv1

structure GeoLocation where
  city : String := ""
  province : String := ""
  area : String := ""
  country : String := ""
deriving DecidableEq, Repr

structure Region where
  region : String
  availabilityZone : List String := []
deriving DecidableEq, Repr

structure Selector where
  geoLocation : GeoLocation := {}
  regions : List Region := []
  operator : String := ""
  /-- `Strategy.LocationStrategy`. -/
  locationStrategy : String := ""
deriving DecidableEq, Repr

/-- A machine of an allocation: the cluster it is for, and its ID there once it is made. -/
structure ClusterInstance where
  clusterName : String
  instanceId : String := ""
deriving DecidableEq, Repr

structure VirtualMachine where
  image : String := ""
  securityGroupId : String := ""
  nicName : String := ""
  clusterInstances : List ClusterInstance := []
deriving DecidableEq, Repr

/-- One kind of machine; `flavors` has the IDs of the flavors that will do. -/
structure Resources where
  name : String := ""
  resourceType : String := ""
  flavors : List String := []
  needEip : Bool := false
  virtualMachine : VirtualMachine := {}
deriving DecidableEq, Repr

/-- How far an allocation has come; a new one has no phase. -/
inductive AllocationPhase where
  | unset
  | assigned
  | bound
  | scheduled
  | failed
  | notScheduled
deriving DecidableEq, Repr

structure AllocationSpec where
  /-- `ResourceGroup.Resources`. -/
  resources : List Resources := []
  selector : Selector := {}
  replicas : Int := 1
deriving DecidableEq, Repr

structure AllocationStatus where
  phase : AllocationPhase := .unset
  dispatcherName : String := ""
  clusterNames : List String := []
deriving DecidableEq, Repr

structure Allocation where
  uid : String := ""
  spec : AllocationSpec := {}
  status : AllocationStatus := {}
deriving DecidableEq, Repr

end Allocv1

/-! ### Pods -/

namespace Podv1

structure ResourceGeoLocation where
  country : String := ""
  area : String := ""
  province : String := ""
  city : String := ""
deriving DecidableEq, Repr

structure ResourceRegion where
  region : String
  availablityZone : List String := []
deriving DecidableEq, Repr

structure ResourceSelector where
  geoLocation : ResourceGeoLocation := {}
  regions : List ResourceRegion := []
  operator : String := ""
  /-- `Strategy.LocalStrategy`. -/
  localStrategy : String := ""
deriving DecidableEq, Repr

end Podv1

end GlobalScheduler
