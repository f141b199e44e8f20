import Mathlib.Data.Nat.Digits.Defs
import Mathlib.Data.List.Lex

/-! # Machine words: wrap-around, fixed-width and variable-width numerals -/

namespace Words
open List

def wrap (x : Int) : Int := Int.bmod x (2^64)

lemma wrap_eq {x : Int} (h1 : -2^63 ≤ x) (h2 : x < 2^63) : wrap x = x := by
  apply Int.bmod_eq_of_le_mul_two
  · push_cast; omega
  · push_cast; omega

lemma wrap_zero : wrap 0 = 0 := wrap_eq (by norm_num) (by norm_num)

variable (x y : Int)

lemma wrap_wrap_add : wrap (wrap x + y) = wrap (x + y) := Int.bmod_add_bmod
lemma wrap_wrap_sub : wrap (wrap x - y) = wrap (x - y) := Int.bmod_sub_bmod
lemma wrap_sub_wrap : wrap (x - wrap y) = wrap (x - y) := Int.sub_bmod_bmod

lemma wrap_add_mul (x k : Int) : wrap (x + 2^64 * k) = wrap x := by
  have h := Int.add_mul_bmod_self_left x (2^64) k
  push_cast at h
  exact h

lemma wrap_add_wrap : wrap (x + wrap y) = wrap (x + y) := by rw [add_comm, wrap_wrap_add, add_comm]

lemma wrap_emod (x : Int) : wrap (x % 2^64) = wrap x := by
  have h := Int.emod_bmod x (2^64)
  push_cast at h
  exact h

lemma wrap_emod_cast (x : Int) : wrap ((x % 2^64).toNat : Int) = wrap x := by
  rw [Int.toNat_of_nonneg (Int.emod_nonneg _ (by norm_num)), wrap_emod]

def digits (b : Nat) : Nat → Nat → List Nat
  | 0, _ => []
  | w+1, n => n / b^w % b :: digits b w n

def value (b : Nat) (ds : List Nat) : Nat := ds.foldl (fun acc d => acc * b + d) 0

lemma digits_length (b w n : Nat) : (digits b w n).length = w := by
  induction w with
  | zero => rfl
  | succ w ih => rw [digits, length_cons, ih]

lemma digits_bound (b w n : Nat) (hb : 0 < b) : ∀ d ∈ digits b w n, d < b := by
  induction w with
  | zero => intro d hd; exact absurd hd (by simp [digits])
  | succ w ih =>
    intro d hd
    rcases mem_cons.mp hd with rfl | hd
    · exact Nat.mod_lt _ hb
    · exact ih d hd

lemma value_foldl (b : Nat) (ds : List Nat) (acc : Nat) :
  ds.foldl (fun acc d => acc * b + d) acc = acc * b^ds.length + value b ds := by
  unfold value
  induction ds generalizing acc with
  | nil => simp
  | cons d _ ih =>
    rw [foldl_cons, ih, foldl_cons, ih (0 * b + d), length_cons, pow_succ]
    ring

lemma value_cons (b d : Nat) (ds : List Nat) : value b (d :: ds) = d * b^ds.length + value b ds := by
  have h := value_foldl b ds (0 * b + d)
  rw [Nat.zero_mul, Nat.zero_add] at h
  show List.foldl (fun acc d => acc * b + d) (0 * b + d) ds = _
  rw [Nat.zero_mul, Nat.zero_add, h]

lemma value_digits (b w n : Nat) : value b (digits b w n) = n % b^w := by
  induction w with
  | zero => simp [digits, value, Nat.mod_one]
  | succ w ih =>
    rw [digits, value_cons, digits_length, ih, pow_succ, Nat.mod_mul]
    ring

lemma digits_mod (b w k : Nat) : digits b w k = digits b w (k % b^w) := by
  induction w generalizing k with
  | zero => rfl
  | succ w ih =>
    rw [digits, digits, ih k, ih (k % b^(w+1)), Nat.mod_mod_of_dvd k (pow_dvd_pow b w.le_succ)]
    congr 1
    rw [pow_succ, Nat.mod_mul_right_div_self, Nat.mod_mod]

lemma digits_lt (b w n m : Nat) (hnm : n < m) (hm : m < b^w) : digits b w n < digits b w m := by
  induction w generalizing n m with
  | zero => rw [pow_zero] at hm; omega
  | succ w ih =>
    have hpos : 0 < b^w := by
      rcases Nat.eq_zero_or_pos (b^w) with h | h
      · rw [pow_succ, h, Nat.zero_mul] at hm; omega
      · exact h
    have hq : m / b^w < b := by rw [Nat.div_lt_iff_lt_mul hpos, Nat.mul_comm, ← pow_succ]; exact hm
    have hle : n / b^w ≤ m / b^w := Nat.div_le_div_right hnm.le
    rw [digits, digits, Nat.mod_eq_of_lt hq, Nat.mod_eq_of_lt (lt_of_le_of_lt hle hq), cons_lt_cons_iff]
    rcases Nat.lt_or_eq_of_le hle with h | h
    · exact .inl h
    refine .inr ⟨h, ?_⟩
    have hmod : n % b^w < m % b^w := by
      have e1 := Nat.div_add_mod n (b^w)
      have e2 := Nat.div_add_mod m (b^w)
      rw [h] at e1
      omega
    rw [digits_mod b w n, digits_mod b w m]
    exact ih _ _ hmod (Nat.mod_lt _ hpos)

lemma map_lt_map {α β : Type*} [LinearOrder α] [LinearOrder β] (f : α → β) (P : α → Prop)
  (hf : ∀ x y, P x → P y → x < y → f x < f y) {l l' : List α} (hl : ∀ x ∈ l, P x)
  (hl' : ∀ x ∈ l', P x) (h : l < l') : l.map f < l'.map f := by
  induction l generalizing l' with
  | nil =>
    cases l' with
    | nil => exact absurd h (not_lt_nil _)
    | cons => exact nil_lt_cons _ _
  | cons x l ih =>
    cases l' with
    | nil => exact absurd h (not_lt_nil _)
    | cons y =>
      rw [map_cons, map_cons, cons_lt_cons_iff]
      rcases cons_lt_cons_iff.mp h with h | ⟨rfl, h'⟩
      · exact .inl (hf x y (hl x mem_cons_self) (hl' y mem_cons_self) h)
      · exact .inr ⟨rfl, ih (fun z hz => hl z (mem_cons_of_mem _ hz)) (fun z hz => hl' z (mem_cons_of_mem _ hz)) h'⟩

variable (b n : Nat)

def numeral : List Nat := if n = 0 then [0] else (Nat.digits b n).reverse

lemma value_reverse (b : Nat) (ds : List Nat) : value b ds.reverse = Nat.ofDigits b ds := by
  induction ds with
  | nil => rfl
  | cons d ds ih =>
    rw [reverse_cons, value, foldl_append, foldl_cons, foldl_nil]
    change value b ds.reverse * b + d = _
    rw [ih, Nat.ofDigits_cons]
    ring

lemma value_numeral : value b (numeral b n) = n := by
  unfold numeral
  split
  next h => rw [h]; simp [value]
  · rw [value_reverse, Nat.ofDigits_digits]

lemma numeral_bound (hb : 1 < b) : ∀ d ∈ numeral b n, d < b := by
  intro d hd
  unfold numeral at hd
  split at hd
  · rw [mem_singleton.mp hd]; omega
  · exact Nat.digits_lt_base hb (mem_reverse.mp hd)

lemma numeral_ne_nil : numeral b n ≠ [] := by
  unfold numeral
  split
  · simp
  next h =>
    intro he
    exact h (Nat.digits_eq_nil_iff_eq_zero.mp (reverse_eq_nil_iff.mp he))

instance uint8LinearOrder : LinearOrder UInt8 where
  le_refl := fun a => UInt8.le_iff_toNat_le.mpr (le_refl a.toNat)
  le_trans := fun _ _ _ h h' => UInt8.le_iff_toNat_le.mpr
    (le_trans (UInt8.le_iff_toNat_le.mp h) (UInt8.le_iff_toNat_le.mp h'))
  le_antisymm := fun _ _ h h' => UInt8.toNat_inj.mp
    (le_antisymm (UInt8.le_iff_toNat_le.mp h) (UInt8.le_iff_toNat_le.mp h'))
  le_total := fun a b => (le_total a.toNat b.toNat).imp UInt8.le_iff_toNat_le.mpr
    UInt8.le_iff_toNat_le.mpr
  lt_iff_le_not_ge := fun a b => by
    rw [UInt8.lt_iff_toNat_lt, UInt8.le_iff_toNat_le, UInt8.le_iff_toNat_le]
    exact lt_iff_le_not_ge
  toDecidableLE := inferInstance

end Words
