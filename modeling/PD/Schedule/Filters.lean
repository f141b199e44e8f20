import PD.Core.StoreMeta

/-! # Store filters -/

namespace PD

structure StoreView where
  getMeta : StoreProto
  blocked : Bool
  overloaded : Bool
  isBusy : Bool
  downTime : Int
  pendingPeerCount : Nat
  sendingSnapCount : Nat
  receivingSnapCount : Nat
  applyingSnapCount : Nat
  lowSpace : Bool
  leaderScore : Option Int
  regionScore : Option Int
  deriving DecidableEq

namespace StoreView
variable (s : StoreView)

def getID : Nat := s.getMeta.id
def isUp : Bool := s.getMeta.state == .up
def isOffline : Bool := s.getMeta.state == .offline
def isTombstone : Bool := s.getMeta.state == .tombstone
def isDisconnected : Bool := decide (20000000000 < s.downTime)

end StoreView

structure ScheduleOptions where
  maxSnapshotCount : Nat
  maxPendingPeerCount : Nat
  maxStoreDownTime : Int
  locationLabels : List String
  isRaftLearnerEnabled : Bool
  rejectLeader : List StoreLabel

namespace ScheduleOptions
variable (opt : ScheduleOptions)

def checkRejectLeader (labels : List StoreLabel) : Bool :=
  opt.rejectLeader.any fun cfg => labels.any fun l => l.key == cfg.key && l.value == cfg.value

def tooManyPending (s : StoreView) : Bool :=
  opt.maxPendingPeerCount != 0 && decide (Words.wrap opt.maxPendingPeerCount < s.pendingPeerCount)

def tooManySnapshots (s : StoreView) : Bool :=
  decide (opt.maxSnapshotCount < s.sendingSnapCount) || decide (opt.maxSnapshotCount < s.receivingSnapCount) ||
    decide (opt.maxSnapshotCount < s.applyingSnapCount)

end ScheduleOptions

inductive StoreFilter where
  | excluded (sources targets : List Nat)
  | overload
  | state
  | health
  | pendingPeerCount
  | snapshotCount
  | cache (stores : List Nat)
  | storageThreshold
  | distinctScore (score : StoreView → Nat) (safeScore : Nat)
  | namespace (storeNamespace : Nat → String) (ns : String)
  | blacklistSource (stores : List Nat)
  | blacklistTarget (stores : List Nat)
  | storeState (transferLeader moveRegion : Bool)

namespace StoreFilter
variable (opt : ScheduleOptions)
variable (s : StoreView)

def unhealthy : Bool := s.isBusy || decide (opt.maxStoreDownTime < s.downTime)
def filterMoveRegion : Bool := s.isBusy || s.overloaded || opt.tooManySnapshots s

def source : StoreFilter → Bool
  | excluded sources _ => sources.contains s.getID
  | overload => s.overloaded
  | state => s.isTombstone
  | health => unhealthy opt s
  | pendingPeerCount => opt.tooManyPending s
  | snapshotCount => opt.tooManySnapshots s
  | cache stores => stores.contains s.getID
  | storageThreshold => false
  | distinctScore _ _ => false
  | .namespace storeNamespace ns => storeNamespace s.getID != ns
  | blacklistSource stores => stores.contains s.getID
  | blacklistTarget _ => false
  | storeState transferLeader moveRegion =>
    s.isTombstone || decide (opt.maxStoreDownTime < s.downTime) ||
      (transferLeader && (s.isDisconnected || s.blocked)) || (moveRegion && filterMoveRegion opt s)

def target : StoreFilter → Bool
  | excluded _ targets => targets.contains s.getID
  | overload => s.overloaded
  | state => !s.isUp
  | health => unhealthy opt s
  | pendingPeerCount => opt.tooManyPending s
  | snapshotCount => opt.tooManySnapshots s
  | cache _ => false
  | storageThreshold => s.lowSpace
  | distinctScore score safeScore => decide (score s < safeScore)
  | .namespace storeNamespace ns => storeNamespace s.getID != ns
  | blacklistSource _ => false
  | blacklistTarget stores => stores.contains s.getID
  | storeState transferLeader moveRegion =>
    s.isTombstone || s.isOffline || decide (opt.maxStoreDownTime < s.downTime) ||
      (transferLeader && (s.isDisconnected || s.blocked || s.isBusy || opt.checkRejectLeader s.getMeta.labels)) ||
      (moveRegion && (opt.tooManyPending s || filterMoveRegion opt s))

end StoreFilter

def filterSource (opt : ScheduleOptions) (store : Option StoreView) (filters : List StoreFilter) : Option Bool :=
  store.map fun s => filters.any fun f => f.source opt s

def filterTarget (opt : ScheduleOptions) (store : Option StoreView) (filters : List StoreFilter) : Option Bool :=
  store.map fun s => filters.any fun f => f.target opt s

end PD
