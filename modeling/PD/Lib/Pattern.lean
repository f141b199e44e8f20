import Mathlib.Data.List.TakeWhile

/-! # Patterns of classes with greedy repetition -/

namespace Pattern
open List
variable {α : Type}

inductive Item (α : Type) where
  | one (p : α → Bool)
  | many (p : α → Bool) (least : Nat) (captured : Bool)

def attempt {β : Type} (f : Nat → Option β) (least : Nat) : Nat → Option β
  | 0 => if least = 0 then f 0 else none
  | n + 1 => if least ≤ n + 1 then (f (n+1)).or (attempt f least n) else none

def matchItems : List (Item α) → List α → Option (List (List α))
  | [], s => if s.isEmpty then some [] else none
  | .one _ :: _, [] => none
  | .one p :: items, c :: s => if p c then matchItems items s else none
  | .many p least captured :: items, s =>
    attempt (fun n => (matchItems items (s.drop n)).map fun caps => if captured then s.take n :: caps else caps) least
      (s.takeWhile p).length

section
variable {β : Type} {f : Nat → Option β} {least n k : Nat}

lemma attempt_top {r : β} (hleast : least ≤ n) (h : f n = some r) : attempt f least n = some r := by
  cases n with
  | zero => rw [attempt, if_pos (Nat.le_zero.mp hleast), h]
  | succ => rw [attempt, if_pos hleast, h, Option.some_or]

lemma attempt_none (h : ∀ j ≤ n, f j = none) : attempt f least n = none := by
  induction n with
  | zero => rw [attempt, h 0 le_rfl, ite_self]
  | succ n ih => rw [attempt, h _ le_rfl, ih fun j hj => h j (by omega), Option.or_none, ite_self]

lemma attempt_only (hleast : least ≤ k) (hk : k ≤ n) (h : ∀ j, j ≠ k → f j = none) : attempt f least n = f k := by
  induction n with
  | zero =>
    obtain rfl := Nat.le_zero.mp hk
    exact if_pos (Nat.le_zero.mp hleast)
  | succ n ih =>
    rw [attempt, if_pos (hleast.trans hk)]
    by_cases hkn : k = n + 1
    · rw [attempt_none fun j hj => h j (by omega), hkn, Option.or_none]
    · rw [h (n+1) (Ne.symm hkn), Option.none_or, ih (by omega)]

end

variable {p : α → Bool} {items : List (Item α)} {u w : List α} {least : Nat} {caps : List (List α)}

lemma matchItems_class (captured : Bool) (hu : ∀ c ∈ u, p c = true) (hw : ∀ c ∈ w.head?, p c = false)
  (hleast : least ≤ u.length) (h : matchItems items w = some caps) :
  matchItems (.many p least captured :: items) (u ++ w) = some (if captured then u :: caps else caps) := by
  have hstop : w.takeWhile p = [] := by
    cases w with
    | nil => rfl
    | cons c => exact takeWhile_cons_of_neg (by simp [hw c rfl])
  have hlong : (u ++ w).takeWhile p = u := by rw [takeWhile_append_of_pos hu, hstop, append_nil]
  rw [matchItems, hlong]
  refine attempt_top hleast ?_
  rw [drop_left, take_left, h]
  rfl

lemma matchItems_delim [DecidableEq α] {d : α} (hu : ∀ c ∈ u, p c = true) (hdu : d ∉ u) (hdw : d ∉ w)
  (hleast : least ≤ u.length) :
  matchItems (.many p least true :: .one (· == d) :: items) (u ++ d :: w) = (matchItems items w).map (u :: ·) := by
  have hone (s : List α) (hs : s.head? ≠ some d) : matchItems (.one (· == d) :: items) s = none := by
    cases s with
    | nil => rfl
    | cons => exact if_neg fun e => hs (congrArg some (beq_iff_eq.mp e))
  have hlong : u.length ≤ ((u ++ d :: w).takeWhile p).length := by
    rw [takeWhile_append_of_pos hu, length_append]
    omega
  rw [matchItems, attempt_only hleast hlong]
  · rw [drop_left, take_left, matchItems, if_pos (beq_self_eq_true d)]
    rfl
  intro j hj
  rw [hone, Option.map_none]
  rw [head?_drop]
  intro hd
  rcases lt_or_gt_of_ne hj with hlt | hgt
  · rw [getElem?_append_left hlt] at hd
    exact hdu (mem_of_getElem? hd)
  rw [getElem?_append_right hgt.le, show j - u.length = j - u.length - 1 + 1 by omega, getElem?_cons_succ] at hd
  exact hdw (mem_of_getElem? hd)

end Pattern
