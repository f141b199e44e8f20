import PD.Lib.Runs
import PD.Server.Etcd

/-! # The timestamp oracle: campaign, `syncTimestamp`, `updateTimestamp`, `getRespTS` -/

namespace PD
open Function
open TxnStore
namespace Tso

def millisecond : Int := 10^6
def updateTimestampGuard : Int := millisecond
def maxLogical : Int := 2^18
def maxRetryCount : Nat := 100
def zeroTime : Int := -62135596800 * 10^9
def unixNano (t : Int) : Int := Words.wrap t
def subTimeByWallClock (after before : Int) : Int := Words.wrap (unixNano after - unixNano before)
def timestampBytes (ts : Int) : Bytes := uint64ToBytes (unixNano ts % 2^64).toNat
def parseTimestamp (data : Bytes) : Option Int := (bytesToUint64 data).map fun (nano : Nat) => Words.wrap nano

def loadTimestamp : Option Bytes → Option Int
  | none => some zeroTime
  | some [] => some zeroTime
  | some data => parseTimestamp data

def saveTimestampTxn (memberValue : Bytes) (ts : Int) : EtcdTxn :=
  leaderTxn memberValue [] [.put .timestamp (timestampBytes ts)]

def campaignTxn (memberValue : Bytes) : EtcdTxn := ⟨[.absent .leader], [.put .leader memberValue]⟩

def syncNext (last now : Int) : Int :=
  if subTimeByWallClock now last < updateTimestampGuard then last + updateTimestampGuard else now

def updateNext (prevPhysical prevLogical now : Int) : Option Int :=
  if updateTimestampGuard < subTimeByWallClock now prevPhysical then some now
  else if maxLogical / 2 < prevLogical then some (prevPhysical + millisecond)
  else none

def needSave (lastSavedTime next : Int) : Bool := decide (subTimeByWallClock lastSavedTime next ≤ updateTimestampGuard)
def physicalMs (physical : Int) : Int := (unixNano physical).tdiv millisecond

structure AtomicObject where
  physical : Int
  logical : Int
  requests : Nat

inductive Pc where
  | idle
  | campaign (res : Option Bool)
  | elected
  | syncLoad (res : Option (Option Bytes))
  | syncClock (last : Int)
  | syncSave (last next save : Int) (res : Option Bool)
  | syncStore (next : Int)
  | leading
  | updDecide (prev : Nat) (now : Int)
  | updSave (next save : Int) (res : Option Bool)
  | updStore (next : Int)

structure Server where
  pc : Pc
  lastSavedTime : Int
  ts : Option Nat

structure Call where
  srv : Nat
  count : Nat
  attempt : Nat
  current : Option Nat

inductive Event where
  | start (c srv : Nat)
  | ret (c srv count : Nat) (physical logical : Int)
  deriving DecidableEq

structure Config where
  memberValue : Bytes
  tsoSaveInterval : Int

structure State where
  etcd : Etcd
  srv : Nat → Server
  heap : Nat → AtomicObject
  size : Nat
  calls : Nat → Option Call
  ncalls : Nat
  hist : List Event

def Server.new : Server := ⟨.idle, zeroTime, none⟩
def init : State := ⟨fun _ => none, fun _ => .new, fun _ => ⟨zeroTime, 0, 0⟩, 0, fun _ => none, 0, []⟩

inductive Label where
  | campaign (i : Nat)
  | sync (i : Nat)
  | apply (i : Nat)
  | reply (i : Nat)
  | fail (i : Nat)
  | clock (i : Nat) (now : Int)
  | tick (i : Nat) (now : Int)
  | decide (i : Nat)
  | store (i : Nat)
  | stepDown (i : Nat)
  | crash (i : Nat)
  | expire
  | call (i count : Nat)
  | load (c : Nat)
  | add (c : Nat)

variable (s : State)

def State.setSrv (i : Nat) (v : Server) : State := { s with srv := update s.srv i v }
def State.setPc (i : Nat) (pc : Pc) : State := s.setSrv i { s.srv i with pc := pc }

def State.storeTs (i : Nat) (physical : Int) (pc : Pc) : State :=
  { s.setSrv i { s.srv i with ts := some s.size, pc := pc } with
    heap := update s.heap s.size ⟨physical, 0, 0⟩
    size := s.size + 1 }

def State.setCall (c : Nat) (v : Option Call) : State := { s with calls := update s.calls c v }

def Call.retry (v : Call) : Option Call :=
  if v.attempt + 1 < maxRetryCount then some { v with attempt := v.attempt + 1, current := none }
  else none

def State.synced (i : Nat) : Option Nat := (s.srv i).ts.filter fun o => (s.heap o).physical != zeroTime

section
variable (cfg : Nat → Config)
variable (s : State)
variable (i : Nat)

def stepApply : Option State :=
  match (s.srv i).pc with
  | .campaign none =>
    let txn := campaignTxn (cfg i).memberValue
    some { s.setPc i (.campaign (some (txn.succeeds s.etcd))) with etcd := txn.commit s.etcd }
  | .syncLoad none => some (s.setPc i (.syncLoad (some (s.etcd .timestamp))))
  | .syncSave last next save none =>
    let txn := saveTimestampTxn (cfg i).memberValue save
    some { s.setPc i (.syncSave last next save (some (txn.succeeds s.etcd))) with
      etcd := txn.commit s.etcd }
  | .updSave next save none =>
    let txn := saveTimestampTxn (cfg i).memberValue save
    some { s.setPc i (.updSave next save (some (txn.succeeds s.etcd))) with
      etcd := txn.commit s.etcd }
  | _ => none

def stepReply : Option State :=
  match (s.srv i).pc with
  | .campaign (some true) => some (s.setPc i .elected)
  | .campaign (some false) => some (s.setPc i .idle)
  | .syncLoad (some data) =>
    match loadTimestamp data with
    | none => some (s.setPc i .idle)
    | some last => some (s.setPc i (.syncClock last))
  | .syncSave _ next save (some true) =>
    some (s.setSrv i { s.srv i with lastSavedTime := save, pc := .syncStore next })
  | .syncSave _ _ _ (some false) => some (s.setPc i .idle)
  | .updSave next save (some true) =>
    some (s.setSrv i { s.srv i with lastSavedTime := save, pc := .updStore next })
  | .updSave _ _ (some false) => some (s.storeTs i zeroTime .idle)
  | _ => none

def stepFail : Option State :=
  match (s.srv i).pc with
  | .campaign _ => some (s.setPc i .idle)
  | .elected => some (s.setPc i .idle)
  | .syncLoad _ => some (s.setPc i .idle)
  | .syncSave _ _ _ _ => some (s.setPc i .idle)
  | .updSave _ _ _ => some (s.storeTs i zeroTime .idle)
  | _ => none

def stepDecide : Option State :=
  match (s.srv i).pc with
  | .updDecide prev now =>
    match updateNext (s.heap prev).physical (s.heap prev).logical now with
    | none => some (s.setPc i .leading)
    | some next =>
      if needSave (s.srv i).lastSavedTime next then
        some (s.setPc i (.updSave next (next + (cfg i).tsoSaveInterval) none))
      else some (s.setPc i (.updStore next))
  | _ => none

def stepStore : Option State :=
  match (s.srv i).pc with
  | .syncStore next => some (s.storeTs i next .leading)
  | .updStore next => some (s.storeTs i next .leading)
  | _ => none

def stepLoad (c : Nat) : Option State :=
  match s.calls c with
  | some v =>
    match v.current with
    | none =>
      match s.synced v.srv with
      | none => some (s.setCall c v.retry)
      | some o => some (s.setCall c (some { v with current := some o }))
    | some _ => none
  | none => none

def stepAdd (c : Nat) : Option State :=
  match s.calls c with
  | some v =>
    match v.current with
    | none => none
    | some o =>
      let logical := Words.wrap ((s.heap o).logical + v.count)
      let heap := update s.heap o
        ⟨(s.heap o).physical, logical, (s.heap o).requests + 1⟩
      if maxLogical ≤ logical then some { s.setCall c v.retry with heap := heap }
      else some { s.setCall c none with
        heap := heap
        hist := s.hist ++ [.ret c v.srv v.count (physicalMs (s.heap o).physical) logical] }
  | none => none

def step : Label → Option State
  | .campaign i =>
    match (s.srv i).pc with
    | .idle => some (s.setPc i (.campaign none))
    | _ => none
  | .sync i =>
    match (s.srv i).pc with
    | .elected => some (s.setPc i (.syncLoad none))
    | _ => none
  | .apply i => stepApply cfg s i
  | .reply i => stepReply s i
  | .fail i => stepFail s i
  | .clock i now =>
    match (s.srv i).pc with
    | .syncClock last =>
      some (s.setPc i (.syncSave last (syncNext last now) (syncNext last now + (cfg i).tsoSaveInterval) none))
    | _ => none
  | .tick i now =>
    match (s.srv i).pc, (s.srv i).ts with
    | .leading, some prev => some (s.setPc i (.updDecide prev now))
    | _, _ => none
  | .decide i => stepDecide cfg s i
  | .store i => stepStore s i
  | .stepDown i =>
    match (s.srv i).pc with
    | .leading => some (s.storeTs i zeroTime .idle)
    | _ => none
  | .crash i => some { s.setSrv i .new with calls := fun c => (s.calls c).filter fun v => v.srv != i }
  | .expire => some { s with etcd := update s.etcd .leader none }
  | .call i count =>
    if count = 0 then some s
    else if count < 2^32 then
      some { s.setCall s.ncalls (some ⟨i, count, 0, none⟩) with
        ncalls := s.ncalls + 1
        hist := s.hist ++ [.start s.ncalls i] }
    else none
  | .load c => stepLoad s c
  | .add c => stepAdd s c

end

def year2041 : Int := 2240611200 * 10^9
def ClockOk (now : Int) : Prop := 0 ≤ now ∧ now < year2041

def EnvOk : Label → Prop
  | .clock _ now => ClockOk now
  | .tick _ now => ClockOk now
  | .add c => ∀ v ∈ s.calls c, ∀ o ∈ v.current, (s.heap o).requests + 1 < 2^31
  | _ => True

def savedBy (cfg : Nat → Config) (s : State) : Label → Option Int
  | .clock i now =>
    match (s.srv i).pc with
    | .syncClock last => some (syncNext last now + (cfg i).tsoSaveInterval)
    | _ => none
  | .decide i =>
    match (s.srv i).pc with
    | .updDecide prev now =>
      (updateNext (s.heap prev).physical (s.heap prev).logical now).bind fun next =>
        if needSave (s.srv i).lastSavedTime next then some (next + (cfg i).tsoSaveInterval)
        else none
    | _ => none
  | _ => none

def SavesFit (cfg : Nat → Config) (s : State) (l : Label) : Prop := ∀ save ∈ savedBy cfg s l, save < 2^63
instance (now : Int) : Decidable (ClockOk now) := inferInstanceAs (Decidable (_ ∧ _))

instance (s : State) : ∀ l, Decidable (EnvOk s l)
  | .clock _ now => inferInstanceAs (Decidable (ClockOk now))
  | .tick _ now => inferInstanceAs (Decidable (ClockOk now))
  | .add c => inferInstanceAs
      (Decidable (∀ v ∈ s.calls c, ∀ o ∈ v.current, (s.heap o).requests + 1 < 2^31))
  | .campaign _ => .isTrue trivial
  | .sync _ => .isTrue trivial
  | .apply _ => .isTrue trivial
  | .reply _ => .isTrue trivial
  | .fail _ => .isTrue trivial
  | .decide _ => .isTrue trivial
  | .store _ => .isTrue trivial
  | .stepDown _ => .isTrue trivial
  | .crash _ => .isTrue trivial
  | .expire => .isTrue trivial
  | .call _ _ => .isTrue trivial
  | .load _ => .isTrue trivial

instance (cfg : Nat → Config) (s : State) (l : Label) : Decidable (SavesFit cfg s l) :=
  inferInstanceAs (Decidable (∀ save ∈ savedBy cfg s l, save < 2^63))

end Tso
end PD
