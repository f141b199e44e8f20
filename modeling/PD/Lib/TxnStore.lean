import Mathlib.Data.Option.Basic

/-! # A linearizable key-value store with guarded transactions -/

set_option linter.unusedSectionVars false

namespace TxnStore

section
variable {κ ν : Type*}

abbrev Store (κ ν : Type*) := κ → Option ν

inductive Cmp (κ ν : Type*) where
  | absent (k : κ)
  | valueEq (k : κ) (v : ν)
  deriving DecidableEq

inductive Op (κ ν : Type*) where
  | put (k : κ) (v : ν)
  | delete (k : κ)
  deriving DecidableEq

structure Txn (κ ν : Type*) where
  cmps : List (Cmp κ ν)
  thens : List (Op κ ν)
  deriving DecidableEq

variable [DecidableEq κ] [DecidableEq ν]
variable {s : Store κ ν} {k : κ} {t : Txn κ ν}

def Cmp.holds (s : Store κ ν) : Cmp κ ν → Bool
  | .absent k => (s k).isNone
  | .valueEq k v => decide (s k = some v)

def Op.run (s : Store κ ν) : Op κ ν → Store κ ν
  | .put k v => Function.update s k (some v)
  | .delete k => Function.update s k none

def Txn.succeeds (t : Txn κ ν) (s : Store κ ν) : Bool := t.cmps.all (Cmp.holds s)

def Txn.commit (t : Txn κ ν) (s : Store κ ν) : Store κ ν :=
  if t.succeeds s then t.thens.foldl Op.run s else s

lemma succeeds_iff (t : Txn κ ν) (s : Store κ ν) : t.succeeds s = true ↔ ∀ c ∈ t.cmps, c.holds s = true := by
  exact List.all_eq_true

lemma holds_absent : (Cmp.absent k).holds s = true ↔ s k = none := by exact Option.isNone_iff_eq_none
lemma holds_valueEq {v : ν} : (Cmp.valueEq k v).holds s = true ↔ s k = some v := by exact decide_eq_true_iff
lemma commit_of_succeeds (h : t.succeeds s = true) : t.commit s = t.thens.foldl Op.run s := if_pos h

lemma commit_of_not (h : t.succeeds s = false) : t.commit s = s := by
  unfold Txn.commit
  rw [h]
  rfl

end
end TxnStore
