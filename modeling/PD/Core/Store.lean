import PD.Core.Region

/-! # Stores -/

namespace PD

inductive StoreState where
  | up
  | offline
  | tombstone
  deriving DecidableEq

structure StoreInfo where
  id : Nat
  state : StoreState
  leaderCount : Nat
  regionCount : Nat
  pendingPeerCount : Nat
  leaderSize : Int
  regionSize : Int
  deriving DecidableEq

def StoreInfo.isOffline (s : StoreInfo) : Bool := s.state == .offline
abbrev StoresInfo := SortedMap Nat StoreInfo

def StoresInfo.updateStoreStatusLocked (s : StoresInfo) (storeID leaderCount regionCount
  pendingPeerCount : Nat) (leaderSize regionSize : Int) : StoresInfo :=
  match s.lookup storeID with
  | none => s
  | some store => s.insert store.id { store with
      leaderCount := leaderCount
      regionCount := regionCount
      pendingPeerCount := pendingPeerCount
      leaderSize := leaderSize
      regionSize := regionSize }

end PD
