import Mathlib.Data.List.DropRight

/-! # A ring of slots with a head and a tail -/

structure RingBuffer (α : Type) where
  slots : List α
  head : Nat
  tail : Nat
  head_lt : head < slots.length
  tail_lt : tail < slots.length

namespace RingBuffer
open List
variable {α : Type}

lemma after_eq {size i k : Nat} (hi : i < size) (hk : k ≤ size) :
  (i + k) % size = if i + k < size then i + k else i + k - size := by
  split
  next h => exact Nat.mod_eq_of_lt h
  next h =>
    rw [Nat.mod_eq_sub_mod (Nat.le_of_not_lt h)]
    exact Nat.mod_eq_of_lt (by omega)

lemma after_ne {size i k l : Nat} (hi : i < size) (hk : k < l) (hl : l < size) : (i + k) % size ≠ (i + l) % size := by
  rw [after_eq hi (by omega), after_eq hi (by omega)]
  split <;> split <;> omega

variable (r : RingBuffer α)

def size : Nat := r.slots.length
def distance (pos : Nat) : Nat := if r.tail < pos then r.tail + r.size - pos else r.tail - pos
def len : Nat := r.distance r.head

lemma distance_lt {pos : Nat} (h : pos < r.size) : r.distance pos < r.size := by
  have htail : r.tail < r.size := r.tail_lt
  unfold distance
  split <;> omega

lemma len_lt : r.len < r.size := r.distance_lt r.head_lt

lemma distance_eq {pos k : Nat} (hpos : pos < r.size) (hk : k < r.size) (h : (pos + k) % r.size = r.tail) :
  r.distance pos = k := by
  rw [after_eq hpos (Nat.le_of_lt hk)] at h
  unfold distance
  split at h <;> split <;> omega

lemma after_distance {pos : Nat} (hpos : pos < r.size) : (pos + r.distance pos) % r.size = r.tail := by
  have htail : r.tail < r.size := r.tail_lt
  rw [after_eq hpos (Nat.le_of_lt (r.distance_lt hpos))]
  unfold distance
  split <;> split <;> omega

lemma tail_eq : r.tail = (r.head + r.len) % r.size := (r.after_distance r.head_lt).symm

lemma distance_after {pos k : Nat} (hpos : pos < r.size) (hk : k ≤ r.distance pos) :
  r.distance ((pos + k) % r.size) = r.distance pos - k := by
  have hlt := r.distance_lt hpos
  refine r.distance_eq (Nat.mod_lt _ (by omega)) (by omega) ?_
  rw [Nat.mod_add_mod, Nat.add_assoc, Nat.add_sub_cancel' hk, r.after_distance hpos]

def loop : Nat → Nat → List α
  | 0, _ => []
  | fuel + 1, i => if i = r.tail then [] else r.slots[i]?.toList ++ loop fuel ((i+1) % r.size)

lemma loop_getElem? {fuel pos : Nat} (hpos : pos < r.size) (hfuel : r.distance pos ≤ fuel) (k : Nat) :
  (r.loop fuel pos)[k]? = if k < r.distance pos then r.slots[(pos + k) % r.size]? else none := by
  induction fuel generalizing pos k with
  | zero =>
    rw [if_neg (by omega)]
    rfl
  | succ fuel ih =>
    rw [loop]
    by_cases hend : pos = r.tail
    · have hzero : r.distance pos = 0 := by
        unfold distance
        split <;> omega
      rw [if_pos hend, if_neg (by omega)]
      rfl
    have hone : 1 ≤ r.distance pos := by
      unfold distance
      split <;> omega
    have hnext := r.distance_after hpos hone
    have hlt : (pos+1) % r.size < r.size := Nat.mod_lt _ (by omega)
    obtain ⟨x, hx⟩ : ∃ x, r.slots[pos]? = some x := ⟨_, getElem?_eq_getElem hpos⟩
    rw [if_neg hend, hx]
    cases k with
    | zero =>
      have hself : (pos+0) % r.size = pos := Nat.mod_eq_of_lt hpos
      rw [if_pos (by omega), hself, hx]
      rfl
    | succ k =>
      show (r.loop fuel ((pos+1) % r.size))[k]? = _
      rw [ih hlt (by omega), hnext, Nat.mod_add_mod, Nat.add_assoc, Nat.add_comm 1 k]
      by_cases hk : k < r.distance pos - 1
      · rw [if_pos hk, if_pos (by omega)]
      · rw [if_neg hk, if_neg (by omega)]

def contents : List α := r.loop r.size r.head

lemma contents_getElem? (k : Nat) : r.contents[k]? = if k < r.len then r.slots[(r.head + k) % r.size]? else none :=
  r.loop_getElem? r.head_lt (Nat.le_of_lt r.len_lt) k

lemma contents_length : r.contents.length = r.len := by
  refine le_antisymm (getElem?_eq_none_iff.mp ?_) ?_
  · rw [contents_getElem?, if_neg (lt_irrefl _)]
  by_contra hlt
  have hnone : r.contents[r.contents.length]? = none := getElem?_eq_none le_rfl
  have hpos : (r.head + r.contents.length) % r.size < r.slots.length :=
    Nat.mod_lt _ (Nat.lt_of_le_of_lt (Nat.zero_le _) r.head_lt)
  rw [contents_getElem?, if_pos (by omega), getElem?_eq_getElem hpos] at hnone
  cases hnone

lemma contents_eq_nil (h : r.head = r.tail) : r.contents = [] := by
  refine eq_nil_of_length_eq_zero ?_
  rw [contents_length]
  unfold len distance
  split <;> omega

lemma contents_drop {k : Nat} (hk : k ≤ r.len) : r.loop r.size ((r.head + k) % r.size) = r.contents.drop k := by
  have hsize : 0 < r.size := Nat.lt_of_le_of_lt (Nat.zero_le _) r.head_lt
  have hpos : (r.head + k) % r.size < r.size := Nat.mod_lt _ hsize
  have hdist : r.distance ((r.head + k) % r.size) = r.len - k := r.distance_after r.head_lt hk
  refine ext_getElem? fun i => ?_
  rw [r.loop_getElem? hpos (Nat.le_of_lt (r.distance_lt hpos)), getElem?_drop, contents_getElem?, hdist,
    Nat.mod_add_mod, Nat.add_assoc]
  by_cases hi : i < r.len - k
  · rw [if_pos hi, if_pos (by omega)]
  · rw [if_neg hi, if_neg (by omega)]

variable (x : α)

def push : RingBuffer α where
  slots := r.slots.set r.tail x
  head := if (r.tail + 1) % r.size = r.head then (r.head + 1) % r.size else r.head
  tail := (r.tail + 1) % r.size
  head_lt := by
    rw [length_set]
    split
    · exact Nat.mod_lt _ (Nat.lt_of_le_of_lt (Nat.zero_le _) r.head_lt)
    · exact r.head_lt
  tail_lt := by
    rw [length_set]
    exact Nat.mod_lt _ (Nat.lt_of_le_of_lt (Nat.zero_le _) r.tail_lt)

lemma push_size : (r.push x).size = r.size := length_set

lemma wraps_iff : (r.tail + 1) % r.size = r.head ↔ r.len + 1 = r.size := by
  have hhead : r.head < r.size := r.head_lt
  have hlen : r.len + 1 ≤ r.size := r.len_lt
  rw [tail_eq, Nat.mod_add_mod, Nat.add_assoc, after_eq hhead hlen]
  split <;> omega

lemma push_head : (r.push x).head = (r.head + (r.len + 1 - (r.size - 1))) % r.size := by
  have hhead : r.head < r.size := r.head_lt
  have hlen := r.len_lt
  show (if (r.tail + 1) % r.size = r.head then (r.head + 1) % r.size else r.head) = _
  by_cases hwrap : (r.tail + 1) % r.size = r.head
  · have hfull := (r.wraps_iff).mp hwrap
    have hone : r.len + 1 - (r.size - 1) = 1 := by omega
    rw [if_pos hwrap, hone]
  have hroom : r.len + 1 ≠ r.size := fun hfull => hwrap ((r.wraps_iff).mpr hfull)
  have hzero : r.len + 1 - (r.size - 1) = 0 := by omega
  rw [if_neg hwrap, hzero]
  exact (Nat.mod_eq_of_lt hhead).symm

lemma push_len : (r.push x).len = min (r.len + 1) (r.size - 1) := by
  have hlen := r.len_lt
  refine (r.push x).distance_eq (r.push x).head_lt (by rw [push_size]; omega) ?_
  have hsum : r.len + 1 - (r.size - 1) + min (r.len + 1) (r.size - 1) = r.len + 1 := by omega
  show _ = (r.tail + 1) % r.size
  rw [push_size, push_head, tail_eq, Nat.mod_add_mod, Nat.mod_add_mod, Nat.add_assoc, hsum, Nat.add_assoc]

lemma push_slot {k : Nat} (hk : k < min (r.len + 1) (r.size - 1)) :
  (r.push x).slots[((r.push x).head + k) % r.size]? = (r.contents ++ [x])[r.len + 1 - (r.size - 1) + k]? := by
  have hlen := r.len_lt
  show (r.slots.set r.tail x)[((r.push x).head + k) % r.size]? = _
  rw [push_head, Nat.mod_add_mod, Nat.add_assoc]
  generalize hj : r.len + 1 - (r.size - 1) + k = j
  rcases Nat.lt_or_ge j r.len with hlt | hge
  · have hne : r.tail ≠ (r.head + j) % r.size := by
      rw [tail_eq]
      exact (after_ne r.head_lt hlt hlen).symm
    rw [getElem?_set_ne hne, getElem?_append_left (by rw [contents_length]; exact hlt), contents_getElem?,
      if_pos hlt]
  obtain rfl : j = r.len := by omega
  rw [← tail_eq, getElem?_set_self r.tail_lt]
  exact (getElem?_concat_length).symm.trans (by rw [contents_length])

lemma contents_push : (r.push x).contents = (r.contents ++ [x]).rtake (r.size - 1) := by
  refine ext_getElem? fun k => ?_
  rw [contents_getElem?, push_len, push_size, rtake, getElem?_drop, length_append, contents_length,
    length_singleton]
  by_cases hk : k < min (r.len + 1) (r.size - 1)
  · rw [if_pos hk, push_slot r x hk]
  rw [if_neg hk, getElem?_eq_none]
  rw [length_append, contents_length, length_singleton]
  omega

end RingBuffer
