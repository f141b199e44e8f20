import Mathlib.Data.List.GetD
import Mathlib.Data.List.Range

/-! # Heaps of mutable objects -/

set_option linter.unusedSectionVars false

structure Heap (α : Type*) where
  cells : List α
  deriving DecidableEq

namespace Heap
open List

section
variable {α : Type*} [Inhabited α]

def empty : Heap α := ⟨[]⟩
def next (h : Heap α) : Nat := h.cells.length
def get (h : Heap α) (r : Nat) : α := h.cells.getD r default
def set (h : Heap α) (r : Nat) (v : α) : Heap α := ⟨h.cells.set r v⟩
def modify (h : Heap α) (r : Nat) (f : α → α) : Heap α := h.set r (f (h.get r))
def alloc (h : Heap α) (v : α) : Heap α × Nat := (⟨h.cells ++ [v]⟩, h.next)
def allocAll (h : Heap α) (vs : List α) : Heap α × List Nat := (⟨h.cells ++ vs⟩, List.range' h.next vs.length)

end

section
variable {α : Type*} [Inhabited α] {h : Heap α} {r s : Nat} {v : α} {f : α → α}

lemma next_set : (h.set r v).next = h.next := length_set
lemma next_modify : (h.modify r f).next = h.next := next_set

lemma get_set_self (hr : r < h.next) : (h.set r v).get r = v := by
  unfold get set
  rw [getD_eq_getElem _ _ (by rw [length_set]; exact hr), getElem_set_self]

lemma get_set_of_ne (hs : s ≠ r) : (h.set r v).get s = h.get s := by
  unfold get set
  rw [List.getD_eq_getElem?_getD, List.getD_eq_getElem?_getD, List.getElem?_set_ne (Ne.symm hs)]

lemma get_modify_self (hr : r < h.next) : (h.modify r f).get r = f (h.get r) := get_set_self hr
lemma get_modify_of_ne (hs : s ≠ r) : (h.modify r f).get s = h.get s := get_set_of_ne hs

lemma get_modify (hr : r < h.next) : (h.modify r f).get s = if s = r then f (h.get r) else h.get s := by
  split
  next hs => rw [hs, get_modify_self hr]
  next hs => exact get_modify_of_ne hs

lemma apply_get_modify {β : Type*} (g : α → β) (hf : ∀ x, g (f x) = g x) : g ((h.modify r f).get s) = g (h.get s) := by
  by_cases hr : r < h.next
  · rw [get_modify hr]
    split
    next hs => rw [hs, hf]
    · rfl
  have hset : h.cells.set r (f (h.get r)) = h.cells := set_eq_of_length_le (not_lt.mp hr)
  unfold modify set
  rw [hset]

lemma get_modify_cases (h : Heap α) (r s : Nat) (f : α → α) :
  (h.modify r f).get s = h.get s ∨ s = r ∧ (h.modify r f).get s = f (h.get s) := by
  by_cases hs : s = r
  · by_cases hr : r < h.next
    · exact .inr ⟨hs, by rw [hs, get_modify_self hr]⟩
    refine .inl ?_
    rw [modify, set, set_eq_of_length_le (not_lt.mp hr)]
  · exact .inl (get_modify_of_ne hs)

lemma get_modify_of_default (hf : f default = default) : (h.modify r f).get r = f (h.get r) := by
  by_cases hr : r < h.next
  · exact get_modify_self hr
  have hdefault : ∀ h' : Heap α, h'.next = h.next → h'.get r = default := fun h' hn =>
    getD_eq_default _ _ (by rw [← next, hn]; exact not_lt.mp hr)
  rw [hdefault h rfl, hdefault _ next_modify, hf]

lemma modify_modify (f g : α → α) (hr : r < h.next) : (h.modify r f).modify r g = h.modify r fun x => g (f x) := by
  unfold modify
  rw [get_set_self hr]
  show (⟨(h.cells.set r _).set r _⟩ : Heap α) = ⟨h.cells.set r _⟩
  rw [set_set]

lemma next_alloc : (h.alloc v).1.next = h.next + 1 := by simp [alloc, next]
lemma get_alloc_self : (h.alloc v).1.get h.next = v := by simp [get, alloc, next]

lemma get_alloc_of_lt (hr : r < h.next) : (h.alloc v).1.get r = h.get r := by
  unfold get alloc
  rw [getD_append _ _ _ _ hr]

variable (vs : List α)

lemma next_allocAll : (h.allocAll vs).1.next = h.next + vs.length := by simp [allocAll, next]

lemma get_allocAll_of_lt (hr : r < h.next) : (h.allocAll vs).1.get r = h.get r := by
  unfold get allocAll
  rw [getD_append _ _ _ _ hr]

lemma mem_allocAll {vs : List α} : r ∈ (h.allocAll vs).2 ↔ h.next ≤ r ∧ r < h.next + vs.length := by
  unfold allocAll
  rw [mem_range'_1]

lemma nodup_allocAll : (h.allocAll vs).2.Nodup := nodup_range'

lemma map_get_allocAll : (h.allocAll vs).2.map (h.allocAll vs).1.get = vs := by
  refine ext_getElem (by simp [allocAll]) fun i hi hi' => ?_
  simp only [allocAll, get, next, getElem_map, getElem_range', Nat.one_mul]
  rw [getD_append_right _ _ _ _ (Nat.le_add_right ..), Nat.add_sub_cancel_left, getD_eq_getElem _ _ hi']

end
end Heap
