import Mathlib.Data.List.Lex
import Mathlib.Order.Lattice

/-! # Encoding a string by padded groups -/

namespace GroupCode
open List

section compare
variable {α β : Type*} [LinearOrder α] [LinearOrder β]

def threeWay (a b : α) : Int := if a < b then -1 else if a = b then 0 else 1

lemma threeWay_congr {a b : α} {c d : β} (hlt : a < b → c < d) (heq : a = b → c = d)
  (hgt : b < a → d < c) : threeWay c d = threeWay a b := by
  unfold threeWay
  rcases lt_trichotomy a b with h | h | h
  · rw [if_pos h, if_pos (hlt h)]
  · rw [heq h, h, if_neg (lt_irrefl _), if_neg (lt_irrefl _), if_pos rfl, if_pos rfl]
  have hdc := hgt h
  rw [if_neg (not_lt_of_gt h), if_neg (not_lt_of_gt hdc), if_neg (ne_of_gt h), if_neg (ne_of_gt hdc)]

end compare

section strings
variable {α : Type*} [LinearOrder α]

lemma append_lt_append {l l' : List α} (hlen : l.length = l'.length) {r r' : List α}
  (h : l < l' ∨ l = l' ∧ r < r') : l ++ r < l' ++ r' := by
  induction l generalizing l' with
  | nil =>
    have hl' : l' = [] := length_eq_zero_iff.mp hlen.symm
    subst hl'
    rcases h with h | h
    · exact absurd h (not_lt_nil _)
    · exact h.2
  | cons x l ih =>
    cases l' with
    | nil => exact absurd hlen (by simp)
    | cons y l' =>
      have hlen' : l.length = l'.length := by simpa using hlen
      rw [cons_append, cons_append, cons_lt_cons_iff]
      rcases h with h | ⟨h, hr⟩
      · rcases cons_lt_cons_iff.mp h with h | ⟨hxy, h⟩
        · exact .inl h
        · exact .inr ⟨hxy, ih hlen' (.inl h)⟩
      injection h with hxy hl
      exact .inr ⟨hxy, ih hlen' (.inr ⟨hl, hr⟩)⟩

end strings

section groups
variable {α : Type*}
variable (g : Nat)
variable (pad : α)

def pack (d : List α) : List α := d.take g ++ List.replicate (g - d.length) pad

lemma pack_length (d : List α) : (pack g pad d).length = g := by
  unfold pack
  rw [length_append, length_take, length_replicate]
  omega

lemma pack_nil : pack (g+1) pad [] = pad :: pack g pad [] := by simp [pack, replicate_succ]
lemma pack_cons (pad x : α) (d : List α) : pack (g+1) pad (x :: d) = x :: pack g pad d := by simp [pack]

lemma pack_of_le {g : Nat} {d : List α} (pad : α) (h : g ≤ d.length) : pack g pad d = d.take g := by
  unfold pack
  rw [Nat.sub_eq_zero_of_le h, replicate_zero, append_nil]

def group (mark : Nat → α) (d : List α) (idx : Nat) : List α :=
  pack g pad (d.drop idx) ++ [mark (min g (d.length - idx))]

def encode (mark : Nat → α) (d : List α) : List α :=
  (List.range (d.length / g + 1)).flatMap fun i => group g pad mark d (i * g)

lemma encode_eq {g : Nat} (hg : 0 < g) (pad : α) (mark : Nat → α) (d : List α) :
  encode g pad mark d = pack g pad d ++ mark (min g d.length) ::
    if g ≤ d.length then encode g pad mark (d.drop g) else [] := by
  have hfirst : group g pad mark d (0 * g) = pack g pad d ++ [mark (min g d.length)] := by simp [group]
  unfold encode
  rw [range_succ_eq_map, flatMap_cons, hfirst, flatMap_map, append_assoc, singleton_append]
  congr 2
  split
  next h =>
    -- the later groups are those of the rest, one round earlier
    have hn : (d.drop g).length / g + 1 = d.length / g := by rw [length_drop, ← Nat.div_eq_sub_div hg h]
    rw [hn]
    refine flatMap_congr fun i _ => ?_
    unfold group
    rw [Nat.succ_mul, drop_drop, length_drop, Nat.add_comm g, Nat.sub_sub, Nat.add_comm g]
  next h => rw [Nat.div_eq_of_lt (by omega), range_zero, flatMap_nil]

end groups

section order
variable {α : Type*} [LinearOrder α] {pad : α}

lemma pack_cases (hpad : ∀ x, pad ≤ x) (g : Nat) {a b : List α} (h : a < b) :
  pack g pad a < pack g pad b ∨ pack g pad a = pack g pad b ∧
    (min g a.length < min g b.length ∨ g ≤ a.length ∧ g ≤ b.length ∧ a.drop g < b.drop g) := by
  induction g generalizing a b with
  | zero => exact .inr ⟨by simp [pack], .inr ⟨Nat.zero_le _, Nat.zero_le _, by simpa using h⟩⟩
  | succ g ih =>
    cases b with
    | nil => exact absurd h (not_lt_nil _)
    | cons y b =>
      cases a with
      | nil =>
        rw [pack_nil, pack_cons, cons_lt_cons_iff]
        rcases lt_or_eq_of_le (hpad y) with hy | rfl
        · exact .inl (.inl hy)
        -- a prefix: the groups may agree, and the marker tells them apart
        have hmin : min (g+1) ([] : List α).length < min (g+1) (pad :: b).length := by simp
        have hle : pack g pad [] ≤ pack g pad b := by
          cases b with
          | nil => exact le_refl _
          | cons z b =>
            rcases ih (nil_lt_cons z b) with h' | h'
            · exact le_of_lt h'
            · exact le_of_eq h'.1
        rcases lt_or_eq_of_le hle with h' | h'
        · exact .inl (.inr ⟨rfl, h'⟩)
        · exact .inr ⟨by rw [h'], .inl hmin⟩
      | cons =>
        rw [pack_cons, pack_cons, cons_lt_cons_iff]
        rcases cons_lt_cons_iff.mp h with hxy | ⟨rfl, hab⟩
        · exact .inl (.inl hxy)
        rcases ih hab with h' | ⟨h', hrest⟩
        · exact .inl (.inr ⟨rfl, h'⟩)
        refine .inr ⟨by rw [h'], ?_⟩
        simp only [length_cons, drop_succ_cons]
        rcases hrest with hmin | ⟨ha, hb, hd⟩
        · exact .inl (by omega)
        · exact .inr ⟨by omega, by omega, hd⟩

lemma encode_lt {g : Nat} (hg : 0 < g) (hpad : ∀ x, pad ≤ x) {mark : Nat → α}
  (hmark : ∀ m n, m < n → n ≤ g → mark m < mark n) (a b : List α) (h : a < b) :
  encode g pad mark a < encode g pad mark b := by
  -- by the length of the smaller string, a group shorter in each round
  induction hn : a.length using Nat.strong_induction_on generalizing a b with
  | h n ih =>
    rw [encode_eq hg pad mark a, encode_eq hg pad mark b]
    refine append_lt_append (by rw [pack_length, pack_length]) ?_
    rcases pack_cases hpad g h with h' | ⟨h', hm | ⟨ha, hb, hd⟩⟩
    · exact .inl h'
    · exact .inr ⟨h', cons_lt_cons_iff.mpr (.inl (hmark _ _ hm (min_le_left _ _)))⟩
    refine .inr ⟨h', cons_lt_cons_iff.mpr (.inr ⟨?_, ?_⟩)⟩
    · rw [min_eq_left ha, min_eq_left hb]
    rw [if_pos ha, if_pos hb]
    have hlen : (a.drop g).length < n := by rw [length_drop]; omega
    exact ih _ hlen _ _ hd rfl

end order
end GroupCode
