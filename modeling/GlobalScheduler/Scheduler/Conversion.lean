import GlobalScheduler.Requests

/-! From a user's request to a stack.

The scheduler works on stacks. The selector of a pod or an allocation becomes the
selector of its stack, in which the regions are written twice: as a list, and once more
as one site ID, that of the last region and its first zone. -/
namespace GlobalScheduler

namespace Conversion

/-- The site ID of a region and its first zone; without one it ends in the delimiter. -/
def siteIDOf (region : String) (availabilityZone : List String) : String :=
  match availabilityZone with
  | [] => region ++ siteDelimiter
  | az :: _ => region ++ siteDelimiter ++ az

/-- The loop over the regions: each of them sets the site ID. -/
def lastSiteID (regions : List CloudRegion) : String :=
  regions.foldl (fun _ region => siteIDOf region.region region.availabilityZone) ""

def withSiteID (geoLocation : GeoLocation) (regions : List CloudRegion)
    (operator locationStrategy : String) : Selector where
  geoLocation := geoLocation
  regions := regions
  operator := operator
  siteID := lastSiteID regions
  strategy := { locationStrategy := locationStrategy }

end Conversion

open Conversion

/-- `getStackSelector`, for pods. -/
def getStackSelector (selector : Podv1.ResourceSelector) : Selector :=
  withSiteID
    ⟨selector.geoLocation.country, selector.geoLocation.area, selector.geoLocation.province,
      selector.geoLocation.city⟩
    (selector.regions.map fun value => ⟨value.region, value.availablityZone⟩)
    selector.operator selector.localStrategy

def getStackSelectorFromAllocation (selector : Allocv1.Selector) : Selector :=
  withSiteID
    ⟨selector.geoLocation.country, selector.geoLocation.area, selector.geoLocation.province,
      selector.geoLocation.city⟩
    (selector.regions.map fun region => ⟨region.region, region.availabilityZone⟩)
    selector.operator selector.locationStrategy

def getStackResourcesFromAllocationResource (allocRes : Allocv1.Resources) : List Resource :=
  [{ flavors := allocRes.flavors.map fun flavor => { flavorID := flavor }
     needEip := allocRes.needEip
     count := 1 }]

end GlobalScheduler
