import PD.Core.RegionStorage
import PD.Server.GcSafePoint
import PD.Server.IdAlloc
import PD.Server.TsoOrder
import PD.Server.HeartbeatEpochs
import PD.Server.HeartbeatEviction
import PD.Server.PersistedRegions
import PD.Server.RejectedHeartbeat
import PD.Server.StoreStates
import PD.Server.StoreAddresses
import PD.Server.FailedStoreUpdates
import PD.Server.ScanRegions
import PD.Server.ClusterLock
import PD.Schedule.OperatorRemoval
import PD.Schedule.WaitingOperators
import PD.Schedule.OperatorProgress
import PD.Server.SchedulerConfigs
import PD.Schedulers.RespectRules
import PD.Checker.MergeTarget
import PD.Schedule.RuleRange
import PD.Plugin.MoveTargets
import PD.Syncer.RegionSyncer
import PD.Client.TimestampOrder
import PD.Client.CloseAnswers
import PD.Server.TransferTargets
import PD.Schedule.InfluenceEffects
import PD.Checker.ReplicaProgress
import PD.Schedule.ScatterIsolation
import PD.Plugin.StoreLabels
import PD.Plugin.LeaderTargets
import PD.Statistics.RegionStats
import PD.Checker.PatrolRounds
import PD.Server.StoreBurial
import PD.Schedule.LimitListing
import PD.Schedule.NotifierQueue
import PD.Statistics.RegionStatus
import PD.Statistics.IsolationLevel
import PD.Schedulers.AdjacentRegion
import PD.Schedulers.ScatterRange
import PD.Server.SyncTimestamp
import PD.Table.NamespacePartition
import PD.Server.TopRegions
import PD.Placement.Parser
import PD.Cache.TwoQueue
