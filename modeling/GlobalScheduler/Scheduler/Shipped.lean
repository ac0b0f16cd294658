import GlobalScheduler.Plugins.Binder
import GlobalScheduler.Plugins.Filters
import GlobalScheduler.Plugins.Flavor
import GlobalScheduler.Plugins.Score
import GlobalScheduler.Plugins.Strategy
import GlobalScheduler.Scheduler.Schedule

/-! The shipped policy.

The plugins of the policy file in their order, closed over the snapshot they read
and over the runtime's map orders. -/
namespace GlobalScheduler

open Go Filters FlavorPlugin

/-- The runtime's choices in one scheduling cycle. -/
structure MapOrders where
  sites : List String := []
  regions : List String := []
  volumes : List String := []
  filterFlavors : SiteCacheInfo → Nat → FlavorPlugin.Orders := fun _ _ => {}
  scoreFlavors : SiteCacheInfo → Nat → FlavorPlugin.Orders := fun _ _ => {}
  deduct : Nat → DeductOrders := fun _ => {}

/-- The settings the plugins read, and the domain of the caller. -/
structure Settings where
  flavorMap : Map String RegionFlavor := ∅
  spotFake : Bool := false
  domainID : String := ""

def shipped (settings : Settings) (ord : MapOrders) (snap : Snapshot) : Framework where
  preFilterPlugins := [preFilterPlugin]
  filterPlugins := [
    siteAvailabilityPlugin,
    locationAndOperatorPlugin,
    regionAndAzPlugin,
    filterPlugin settings.spotFake ord.filterFlavors,
    volumePlugin ord.volumes,
    eipAvailabilityPlugin,
    exclusiveSitePlugin settings.domainID]
  scorePlugins := [
    Score.stackAffinityPlugin,
    scorePlugin settings.spotFake ord.scoreFlavors,
    Score.leastAllocatedPlugin snap]
  strategyPlugins := [RegionAndAz.plugin ord.regions snap, LocationAndOperator.plugin]
  bindPlugins := [DefaultBinder.plugin ord.deduct snap]

/-- `UpdateFlavor`: the flavors of the configuration. -/
def Snapshot.updateFlavor (snap : Snapshot) (settings : Settings) : Snapshot :=
  { snap with flavorMap := settings.flavorMap }

/-- `Scheduler.Schedule` under the shipped policy. -/
def scheduleShipped (settings : Settings) (ord : MapOrders) (snap : Snapshot)
    (alloc : Allocation) : Outcome Schedule.Result :=
  let snap := snap.updateFlavor settings
  schedule (shipped settings ord snap) ord.sites snap alloc

/-! ### Small inputs -/

/-- A site of region `r` with room for `n` machines of flavor `f`, nothing pushed for it
and nothing booked on it. -/
def freshSite (az : String) (n : Int) : SiteCacheInfo where
  site := some { siteID := "r--" ++ az, regionAzMap := ⟨"r", az⟩, status := "Normal" }
  allocatableFlavor := AList.singleton "f" n

def freshSites : List (String × Int) → Snapshot
  | [] => .empty
  | (az, n) :: rest => (freshSites rest).put ("r--" ++ az) (freshSite az n) (by simp [freshSite])

/-- A request for `replicas` copies of a stack of one machine of flavor `f`. -/
def request (replicas : Int) : Allocation where
  stack := { resources := [{ flavors := [{ flavorID := "f" }], count := 1 }] }
  replicas := replicas

end GlobalScheduler
