import Mathlib.Algebra.BigOperators.Ring.List
import Mathlib.Algebra.Order.BigOperators.Group.List
import Mathlib.Tactic.Linarith
import Mathlib.Tactic.Ring

/-! # Sums over the pairs of a list -/

namespace PairSums
open List

section
variable {α β : Type*} (d : α → α → Nat)

def pairSum : List α → Nat
  | [] => 0
  | a :: l => (l.map (d a)).sum + pairSum l

lemma pairSum_cons (a : α) (l : List α) : pairSum d (a :: l) = (l.map (d a)).sum + pairSum d l := rfl

variable {d}

lemma pairSum_perm (hd : ∀ a b, d a b = d b a) {l l' : List α} (h : l.Perm l') : pairSum d l = pairSum d l' := by
  induction h with
  | nil => rfl
  | cons a h ih => rw [pairSum_cons, pairSum_cons, ih, (h.map (d a)).sum_eq]
  | swap a b =>
    simp only [pairSum_cons, map_cons, sum_cons]
    rw [hd a b]
    ring
  | trans _ _ ih ih' => exact ih.trans ih'

section
variable (hd : ∀ a b, d a b = d b a) {l l' rest : List α} {a b : α} (h : l.Perm (a :: rest)) (h' : l'.Perm (b :: rest))
include hd h h'

lemma pairSum_replace_lt (hlt : (rest.map (d a)).sum < (rest.map (d b)).sum) : pairSum d l < pairSum d l' := by
  rw [pairSum_perm hd h, pairSum_perm hd h', pairSum_cons, pairSum_cons]
  omega

end

lemma pairSum_le {n : Nat} (hd : ∀ a b, d a b ≤ n) (l : List α) : pairSum d l ≤ l.length * l.length * n := by
  induction l with
  | nil => simp [pairSum]
  | cons a l ih =>
    have hsum : (l.map (d a)).sum ≤ l.length * n := by
      have h := sum_le_card_nsmul (l.map (d a)) n fun x hx => by
        obtain ⟨b, -, rfl⟩ := mem_map.mp hx
        exact hd a b
      simpa using h
    calc pairSum d (a :: l) ≤ l.length * n + l.length * l.length * n := Nat.add_le_add hsum ih
      _ = l.length * (l.length + 1) * n := by ring
      _ ≤ (l.length + 1) * (l.length + 1) * n := by gcongr; omega

lemma pairSum_congr {R : α → β → Prop} {e : β → β → Nat} (hR : ∀ a a' b b', R a a' → R b b' → d a b = e a' b')
  {l : List α} {l' : List β} (h : Forall₂ R l l') : pairSum d l = pairSum e l' := by
  induction h with
  | nil => rfl
  | @cons a a' l l' ha hl ih =>
    have hmap : l.map (d a) = l'.map (e a') := by
      clear ih
      induction hl with
      | nil => rfl
      | cons hb _ ih' => rw [map_cons, map_cons, hR _ _ _ _ ha hb, ih']
    rw [pairSum_cons, pairSum_cons, ih, hmap]

variable (d)

variable {d}

end
end PairSums
