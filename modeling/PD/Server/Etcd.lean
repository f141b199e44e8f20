import PD.Lib.TxnStore
import PD.Lib.Words

/-! # The etcd keys of a PD cluster and the leader transactions -/

namespace PD
open List
open TxnStore

abbrev Bytes := List UInt8
def uint64ToBytes (v : Nat) : Bytes := (Words.digits 256 8 v).map Nat.toUInt8

def bytesToUint64 (b : Bytes) : Option Nat :=
  if b.length = 8 then some (Words.value 256 (b.map UInt8.toNat)) else none

lemma toNat_toUInt8 (ds : List Nat) (h : ∀ d ∈ ds, d < 256) : (ds.map Nat.toUInt8).map UInt8.toNat = ds := by
  induction ds with
  | nil => rfl
  | cons d _ ih =>
    rw [map_cons, map_cons, ih (fun x hx => h x (mem_cons_of_mem _ hx))]
    congr 1
    exact Nat.mod_eq_of_lt (h d mem_cons_self)

lemma bytesToUint64_uint64ToBytes (v : Nat) (h : v < 2^64) : bytesToUint64 (uint64ToBytes v) = some v := by
  unfold bytesToUint64 uint64ToBytes
  rw [if_pos (by rw [length_map, Words.digits_length]),
    toNat_toUInt8 _ (Words.digits_bound 256 8 v (by norm_num)), Words.value_digits,
    Nat.mod_eq_of_lt (lt_of_lt_of_le h (by norm_num))]

inductive EtcdKey where
  | leader
  | timestamp
  | allocID
  deriving DecidableEq

abbrev Etcd := Store EtcdKey Bytes
abbrev EtcdTxn := Txn EtcdKey Bytes
def leaderCmp (memberValue : Bytes) : Cmp EtcdKey Bytes := .valueEq .leader memberValue

def leaderTxn (memberValue : Bytes) (cs : List (Cmp EtcdKey Bytes))
    (ops : List (Op EtcdKey Bytes)) : EtcdTxn := ⟨cs ++ [leaderCmp memberValue], ops⟩

lemma leaderTxn_succeeds {m : Bytes} {cs : List (Cmp EtcdKey Bytes)} {ops : List (Op EtcdKey Bytes)} {e : Etcd} :
  (leaderTxn m cs ops).succeeds e = true ↔ (∀ c ∈ cs, c.holds e = true) ∧ e .leader = some m := by
  rw [succeeds_iff]
  constructor
  · intro h
    exact ⟨fun c hc => h c (mem_append_left _ hc), holds_valueEq.mp (h _ (mem_append_right _ (mem_singleton.mpr rfl)))⟩
  rintro ⟨h1, h2⟩ c hc
  rcases mem_append.mp hc with hc | hc
  · exact h1 c hc
  rw [mem_singleton.mp hc]
  exact holds_valueEq.mpr h2

end PD
