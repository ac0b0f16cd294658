import GlobalScheduler.Labels.NoPanic
import GlobalScheduler.Framework.SelectorState
import GlobalScheduler.Plugins.SpotCapacity
import GlobalScheduler.Service.Allocations
import GlobalScheduler.Plugins.LeastAllocated
import GlobalScheduler.Plugins.StrategyProofs
import GlobalScheduler.Scheduler.NilError
import GlobalScheduler.Scheduler.Overbooking
import GlobalScheduler.Scheduler.ParallelFilterProofs
import GlobalScheduler.Scheduler.ParallelScoreProofs
import GlobalScheduler.Scheduler.SelectedFlavors
import GlobalScheduler.RequestedTotals
import GlobalScheduler.Scheduler.RecordContents
import GlobalScheduler.Scheduler.ScheduleAllocation
import GlobalScheduler.Scheduler.Selectors
import GlobalScheduler.Scheduler.SiteNames
import GlobalScheduler.Scheduler.ExclusiveDomains
import GlobalScheduler.Controllers.HashMembers
import GlobalScheduler.Controllers.ClusterDeletion
import GlobalScheduler.Controllers.Dispatcher
import GlobalScheduler.Controllers.ClusterUnionGaps
import GlobalScheduler.Controllers.DistributorController
import GlobalScheduler.Controllers.DistributorProcess
import GlobalScheduler.Controllers.DispatcherDeletion
import GlobalScheduler.Controllers.DispatcherLatency
import GlobalScheduler.Cache.FlavorCounts
import GlobalScheduler.Cache.AddStackLock
import GlobalScheduler.Cache.StackList
import GlobalScheduler.Cache.RegionIndex
import GlobalScheduler.Cache.LinkedCache
import GlobalScheduler.Scheduler.ScheduleOne
import GlobalScheduler.Scheduler.IndexedHeap
import GlobalScheduler.Scheduler.NominatedStacks
import GlobalScheduler.Scheduler.PodWorker
import GlobalScheduler.Scheduler.BackoffFlush
import GlobalScheduler.Scheduler.StackBackoff
import GlobalScheduler.Collector.SyncProofs
