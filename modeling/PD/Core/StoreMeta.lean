import PD.Core.Store
import PD.Lib.Heap
import Mathlib.Data.List.Nodup

/-! # Stores whose metas are shared -/

namespace PD
open List

instance storeStateInhabited : Inhabited StoreState := ⟨.up⟩

structure StoreLabel where
  key : String
  value : String
  deriving DecidableEq, Inhabited

structure StoreProto where
  id : Nat
  address : String
  state : StoreState
  labels : List StoreLabel
  version : String
  deriving DecidableEq

namespace Shared

structure StoreMeta where
  id : Nat
  address : String
  state : StoreState
  labels : List Nat
  version : String
  deriving DecidableEq, Inhabited

structure Objects where
  metas : Heap StoreMeta
  labels : Heap StoreLabel
  deriving DecidableEq

structure StoreStats where
  storeId : Nat
  capacity : Nat
  available : Nat
  usedSize : Nat
  sendingSnapCount : Nat
  receivingSnapCount : Nat
  applyingSnapCount : Nat
  isBusy : Bool
  deriving DecidableEq, Inhabited

structure StoreInfo where
  metaRef : Nat
  stats : StoreStats
  blocked : Bool
  leaderCount : Nat
  regionCount : Nat
  leaderSize : Int
  regionSize : Int
  pendingPeerCount : Nat
  lastHeartbeatTS : Int
  leaderWeight : UInt64
  regionWeight : UInt64
  overloaded : Option Nat
  deriving DecidableEq

namespace Objects
variable (o : Objects)
variable (s : StoreInfo)

def getMeta : StoreMeta := o.metas.get s.metaRef
def getID : Nat := (o.getMeta s).id
def getAddress : String := (o.getMeta s).address
def getState : StoreState := (o.getMeta s).state
def isUp : Bool := o.getState s == .up
def isOffline : Bool := o.getState s == .offline
def isTombstone : Bool := o.getState s == .tombstone
def value (m : StoreMeta) : StoreProto := ⟨m.id, m.address, m.state, m.labels.map o.labels.get, m.version⟩
def view : StoreProto := o.value (o.getMeta s)

def receive (store : StoreProto) : Objects × Nat :=
  let labels := o.labels.allocAll store.labels
  let metas := o.metas.alloc ⟨store.id, store.address, store.state, labels.2, store.version⟩
  (⟨metas.1, labels.1⟩, metas.2)

end Objects

abbrev StoreCreateOption := Objects × StoreInfo → Objects × StoreInfo

def setMeta (f : StoreMeta → StoreMeta) : StoreCreateOption := fun p =>
  (⟨p.1.metas.modify p.2.metaRef f, p.1.labels⟩, p.2)

def setStoreAddress (address : String) : StoreCreateOption := setMeta fun m => { m with address := address }
def setStoreLabels (labels : List Nat) : StoreCreateOption := setMeta fun m => { m with labels := labels }
def setStoreVersion (version : String) : StoreCreateOption := setMeta fun m => { m with version := version }
def setStoreState (state : StoreState) : StoreCreateOption := setMeta fun m => { m with state := state }
def setInfo (f : StoreInfo → StoreInfo) : StoreCreateOption := fun p => (p.1, f p.2)
def setStoreBlock : StoreCreateOption := setInfo fun s => { s with blocked := true }
def setStoreUnBlock : StoreCreateOption := setInfo fun s => { s with blocked := false }
def setLeaderCount (leaderCount : Nat) : StoreCreateOption := setInfo fun s => { s with leaderCount := leaderCount }
def setRegionCount (regionCount : Nat) : StoreCreateOption := setInfo fun s => { s with regionCount := regionCount }

def setPendingPeerCount (pendingPeerCount : Nat) : StoreCreateOption :=
  setInfo fun s => { s with pendingPeerCount := pendingPeerCount }

def setLeaderSize (leaderSize : Int) : StoreCreateOption := setInfo fun s => { s with leaderSize := leaderSize }
def setRegionSize (regionSize : Int) : StoreCreateOption := setInfo fun s => { s with regionSize := regionSize }

def setLastHeartbeatTS (lastHeartbeatTS : Int) : StoreCreateOption :=
  setInfo fun s => { s with lastHeartbeatTS := lastHeartbeatTS }

def setStoreStats (stats : StoreStats) : StoreCreateOption := setInfo fun s => { s with stats := stats }
def setOverloadStatus (f : Nat) : StoreCreateOption := setInfo fun s => { s with overloaded := some f }

def setLeaderWeight (leaderWeight : UInt64) : StoreCreateOption := fun p =>
  (p.1, { p.2 with leaderWeight := leaderWeight })

def setRegionWeight (regionWeight : UInt64) : StoreCreateOption := fun p =>
  (p.1, { p.2 with regionWeight := regionWeight })

def defaultWeight : UInt64 := 0x3FF0000000000000

def newStoreInfo (o : Objects) (store : Nat) (opts : List StoreCreateOption) : Objects × StoreInfo :=
  opts.foldl (fun p opt => opt p) (o, {
    metaRef := store
    stats := default
    blocked := false
    leaderCount := 0
    regionCount := 0
    leaderSize := 0
    regionSize := 0
    pendingPeerCount := 0
    lastHeartbeatTS := 0
    leaderWeight := defaultWeight
    regionWeight := defaultWeight
    overloaded := none })

def clone (o : Objects) (s : StoreInfo) (opts : List StoreCreateOption) : Objects × StoreInfo :=
  opts.foldl (fun p opt => opt p) (o, s)

section
variable (equalFold : String → String → Bool)

def mergeLabels (h : Heap StoreLabel) (storeLabels : List Nat) : List Nat → Heap StoreLabel × List Nat
  | [] => (h, storeLabels)
  | newLabel :: rest =>
    match storeLabels.find? fun label => equalFold (h.get label).key (h.get newLabel).key with
    | some label => mergeLabels (h.modify label fun l => { l with value := (h.get newLabel).value })
        storeLabels rest
    | none => mergeLabels h (storeLabels ++ [newLabel]) rest

def labelValue (labels : List StoreLabel) (key : String) : String :=
  ((labels.find? fun label => equalFold label.key key).map StoreLabel.value).getD ""

def labelIndex (labels : List StoreLabel) (key : String) : Option Nat :=
  labels.findIdx? fun label => equalFold label.key key

def mergeValues (old : List StoreLabel) : List StoreLabel → List StoreLabel
  | [] => old
  | n :: rest =>
    match labelIndex equalFold old n.key with
    | some i => mergeValues (old.modify i fun l => { l with value := n.value }) rest
    | none => mergeValues (old ++ [n]) rest

def keepsLabels (old : List StoreLabel) : List StoreLabel → Bool
  | [] => true
  | n :: rest =>
    (match labelIndex equalFold old n.key with
    | some i => decide ((old.map StoreLabel.value)[i]? = some n.value) ||
        rest.any fun n' => decide (labelIndex equalFold old n'.key = some i)
    | none => false) && keepsLabels old rest

end

section
variable {equalFold : String → String → Bool}
variable {i : Nat} {cur old : List StoreLabel}

lemma labelIndex_lt {labels : List StoreLabel} {key : String}
  (h : labelIndex equalFold labels key = some i) : i < labels.length :=
  (List.findIdx?_eq_some_iff_findIdx_eq.mp h).1

lemma length_le_mergeValues (equalFold : String → String → Bool) (old new : List StoreLabel) :
  old.length ≤ (mergeValues equalFold old new).length := by
  induction new generalizing old with
  | nil => exact le_refl _
  | cons n _ ih =>
    unfold mergeValues
    cases labelIndex equalFold old n.key with
    | some => exact le_trans (length_modify ..).ge (ih _)
    | none =>
      refine le_trans ?_ (ih _)
      rw [length_append]
      omega

lemma labelIndex_congr (h : cur.map StoreLabel.key = old.map StoreLabel.key) (key : String) :
  labelIndex equalFold cur key = labelIndex equalFold old key := by
  have hkeys : ∀ labels : List StoreLabel, labelIndex equalFold labels key =
      (labels.map StoreLabel.key).findIdx? fun k => equalFold k key := fun labels => by
    rw [List.findIdx?_map]
    rfl
  rw [hkeys, hkeys, h]

lemma map_key_modify (labels : List StoreLabel) (i : Nat) (v : String) :
  (labels.modify i fun l => { l with value := v }).map StoreLabel.key = labels.map StoreLabel.key := by
  induction labels generalizing i with
  | nil => rw [modify_nil]
  | cons l _ ih =>
    cases i with
    | zero => rfl
    | succ => rw [modify_succ_cons, map_cons, map_cons, ih]

lemma length_eq_of_keys (h : cur.map StoreLabel.key = old.map StoreLabel.key) : cur.length = old.length := by
  rw [← length_map StoreLabel.key, h, length_map]

lemma getElem?_modify_iff (hk : cur.map StoreLabel.key = old.map StoreLabel.key) (hi : i < old.length) (v : String) :
  (cur.modify i fun l => { l with value := v })[i]? = old[i]? ↔ (old.map StoreLabel.value)[i]? = some v := by
  induction cur generalizing old i with
  | nil =>
    rw [← length_eq_of_keys hk] at hi
    exact absurd hi (Nat.not_lt_zero i)
  | cons c _ ih =>
    cases old with
    | nil => cases hk
    | cons o =>
      obtain ⟨hkey, hkeys⟩ := List.cons.inj hk
      cases i with
      | zero =>
        show some (StoreLabel.mk c.key v) = some o ↔ some o.value = some v
        rw [Option.some.injEq, Option.some.injEq, hkey]
        constructor <;> exact fun e => e ▸ rfl
      | succ => exact ih hkeys (Nat.lt_of_succ_lt_succ hi)

lemma mergeValues_eq_iff (hk : cur.map StoreLabel.key = old.map StoreLabel.key) (new : List StoreLabel) :
  mergeValues equalFold cur new = old ↔ keepsLabels equalFold old new = true ∧
    ∀ i, cur[i]? = old[i]? ∨ ∃ n ∈ new, labelIndex equalFold old n.key = some i := by
  induction new generalizing cur with
  | nil =>
    simp only [mergeValues, keepsLabels, true_and, not_mem_nil, false_and, exists_false, or_false]
    exact List.ext_getElem?_iff
  | cons n rest ih =>
    unfold mergeValues keepsLabels
    rw [labelIndex_congr hk]
    cases hi : labelIndex equalFold old n.key with
    | none =>
      have hlt : old.length < (mergeValues equalFold (cur ++ [n]) rest).length := by
        have hle := length_le_mergeValues equalFold (cur ++ [n]) rest
        rw [length_append, length_eq_of_keys hk] at hle
        exact hle
      constructor
      · intro e
        have e' : mergeValues equalFold (cur ++ [n]) rest = old := e
        rw [e'] at hlt
        exact absurd hlt (lt_irrefl _)
      · exact fun h => absurd h.1 (by simp)
    | some i =>
      have hself := getElem?_modify_iff hk (labelIndex_lt hi) n.value
      have hother : ∀ j, i ≠ j → (cur.modify i fun l => { l with value := n.value })[j]? = cur[j]? :=
        fun j hj => List.getElem?_modify_ne _ _ hj
      rw [ih ((map_key_modify ..).trans hk)]
      simp only [Bool.and_eq_true, Bool.or_eq_true, decide_eq_true_eq, List.any_eq_true, mem_cons]
      constructor
      · rintro ⟨hkeep, hall⟩
        refine ⟨⟨(hall i).imp hself.mp id, hkeep⟩, fun j => ?_⟩
        by_cases hj : i = j
        · exact .inr ⟨n, .inl rfl, hj ▸ hi⟩
        refine (hall j).imp (fun e => (hother j hj).symm.trans e) ?_
        exact fun ⟨n', hn', e⟩ => ⟨n', .inr hn', e⟩
      rintro ⟨⟨hval, hkeep⟩, hall⟩
      refine ⟨hkeep, fun j => ?_⟩
      by_cases hj : i = j
      · subst hj
        exact hval.imp hself.mpr id
      rcases hall j with e | ⟨n', rfl | hn', e⟩
      · exact .inl ((hother j hj).trans e)
      · exact absurd (Option.some.inj (hi.symm.trans e)) hj
      · exact .inr ⟨n', hn', e⟩

lemma mergeValues_eq_self (old new : List StoreLabel) :
  mergeValues equalFold old new = old ↔ keepsLabels equalFold old new = true := by
  rw [mergeValues_eq_iff rfl]
  exact and_iff_left fun i => .inl rfl

end

section
variable {equalFold : String → String → Bool}

lemma map_get_modify {h : Heap StoreLabel} {refs : List Nat} (hnd : refs.Nodup)
  (hlive : ∀ r ∈ refs, r < h.next) {i r : Nat} (hi : refs[i]? = some r) (f : StoreLabel → StoreLabel) :
  refs.map (h.modify r f).get = (refs.map h.get).modify i f := by
  obtain ⟨hlt, hr⟩ := List.getElem?_eq_some_iff.mp hi
  refine List.ext_getElem? fun j => ?_
  rw [List.getElem?_modify, List.getElem?_map, List.getElem?_map]
  cases hj : refs[j]? with
  | none => rfl
  | some s =>
    have hs : s = r ↔ i = j := by
      obtain ⟨hjlt, hs⟩ := List.getElem?_eq_some_iff.mp hj
      rw [← hr, ← hs, List.Nodup.getElem_inj_iff hnd]
      exact eq_comm
    show some ((h.modify r f).get s) = some (if i = j then f (h.get s) else h.get s)
    rw [Heap.get_modify (hlive r (List.mem_of_getElem? hi))]
    by_cases e : i = j
    · rw [if_pos e, if_pos (hs.mpr e), hs.mpr e]
    · rw [if_neg e, if_neg fun h' => e (hs.mp h')]

lemma find?_label (h : Heap StoreLabel) (refs : List Nat) (key : String) :
  (refs.find? fun r => equalFold (h.get r).key key) =
    (labelIndex equalFold (refs.map h.get) key).bind fun i => refs[i]? := by
  unfold labelIndex
  rw [List.findIdx?_map, List.find?_eq_bind_findIdx?_getElem?]
  rfl

lemma mergeLabels_spec {h h' : Heap StoreLabel} {refs new refs' : List Nat}
  (hm : mergeLabels equalFold h refs new = (h', refs')) (hnd : (refs ++ new).Nodup)
  (hlive : ∀ r ∈ refs ++ new, r < h.next) : refs'.map h'.get = mergeValues equalFold (refs.map h.get) (new.map h.get) ∧
    h'.next = h.next ∧ (∀ r, r ∉ refs ++ new → h'.get r = h.get r) ∧ refs'.Sublist (refs ++ new) := by
  induction new generalizing h refs with
  | nil =>
    cases hm
    rw [append_nil]
    exact ⟨rfl, rfl, fun _ _ => rfl, List.Sublist.refl _⟩
  | cons n rest ih =>
    unfold mergeLabels at hm
    rw [find?_label] at hm
    rw [map_cons, mergeValues]
    cases hi : labelIndex equalFold (refs.map h.get) (h.get n).key with
    | none =>
      rw [hi] at hm
      have e : refs ++ n :: rest = refs ++ [n] ++ rest := by rw [append_assoc]; rfl
      rw [e] at hnd hlive ⊢
      obtain ⟨hval, hnext, hframe, hsub⟩ := ih hm hnd hlive
      rw [map_append] at hval
      exact ⟨hval, hnext, hframe, hsub⟩
    | some i =>
      have hlt : i < refs.length := by
        have hlt := labelIndex_lt hi
        rwa [length_map] at hlt
      have hget : refs[i]? = some refs[i] := List.getElem?_eq_getElem hlt
      rw [hi, Option.bind_some, hget] at hm
      have hmem : refs[i] ∈ refs := getElem_mem hlt
      have hsub : (refs ++ rest).Sublist (refs ++ n :: rest) :=
        List.Sublist.append (List.Sublist.refl _) (sublist_cons_self ..)
      obtain ⟨hval, hnext, hframe, hsub'⟩ := ih hm (hnd.sublist hsub) fun r hr => by
        rw [Heap.next_modify]
        exact hlive r (hsub.subset hr)
      have hrest : rest.map (h.modify refs[i] fun l => { l with value := (h.get n).value }).get =
          rest.map h.get := map_congr_left fun r hr => Heap.get_modify_of_ne fun e =>
        (nodup_append.mp hnd).2.2 refs[i] hmem r (mem_cons_of_mem _ hr) e.symm
      rw [hrest, map_get_modify (nodup_append.mp hnd).1 (fun r hr => hlive r (mem_append_left _ hr)) hget] at hval
      refine ⟨hval, hnext.trans Heap.next_modify, fun r hr => ?_, hsub'.trans hsub⟩
      rw [hframe r fun hr' => hr (hsub.subset hr')]
      exact Heap.get_modify_of_ne fun e => hr (mem_append_left _ (e ▸ hmem))

end
end Shared
end PD
