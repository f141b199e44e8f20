import Mathlib.Order.WithBot
import PD.Lib.SortedMap

/-! # Maps of disjoint intervals -/

structure Ival (κ : Type*) where
  lo : κ
  hi : WithTop κ

namespace Ival

section
variable {κ : Type*} [LinearOrder κ]
variable {a b : Ival κ}

def Nonempty (a : Ival κ) : Prop := (a.lo : WithTop κ) < a.hi
def Contains (a : Ival κ) (k : κ) : Prop := a.lo ≤ k ∧ (k : WithTop κ) < a.hi
def Overlaps (a b : Ival κ) : Prop := (a.lo : WithTop κ) < b.hi ∧ (b.lo : WithTop κ) < a.hi
instance (a : Ival κ) : Decidable a.Nonempty := inferInstanceAs (Decidable (_ < _))
instance (a : Ival κ) (k : κ) : Decidable (a.Contains k) := inferInstanceAs (Decidable (_ ∧ _))
instance (a b : Ival κ) : Decidable (a.Overlaps b) := inferInstanceAs (Decidable (_ ∧ _))
lemma Overlaps.symm (h : a.Overlaps b) : b.Overlaps a := ⟨h.2, h.1⟩

lemma overlaps_iff (ha : a.Nonempty) (hb : b.Nonempty) : a.Overlaps b ↔ ∃ k, a.Contains k ∧ b.Contains k := by
  constructor
  · rintro ⟨h1, h2⟩
    rcases le_total a.lo b.lo with h | h
    · exact ⟨b.lo, ⟨h, h2⟩, le_refl _, hb⟩
    · exact ⟨a.lo, ⟨le_refl _, ha⟩, h, h1⟩
  rintro ⟨k, ⟨h1, h2⟩, h3, h4⟩
  exact ⟨lt_of_le_of_lt (WithTop.coe_le_coe.mpr h1) h4, lt_of_le_of_lt (WithTop.coe_le_coe.mpr h3) h2⟩

lemma hi_le_of_lt (hb : b.Nonempty) (hlt : a.lo < b.lo) (h : ¬ a.Overlaps b) : a.hi ≤ b.lo := by
  by_contra hn
  exact h ⟨lt_trans (WithTop.coe_lt_coe.mpr hlt) hb, not_le.mp hn⟩

end
end Ival

section
variable {κ ν : Type*} [LinearOrder κ] (span : ν → Ival κ)

structure Tiles (m : SortedMap κ ν) : Prop where
  keyed : ∀ k v, m.lookup k = some v → (span v).lo = k
  nonempty : ∀ k v, m.lookup k = some v → (span v).Nonempty
  disjoint : ∀ k v k' v', m.lookup k = some v → m.lookup k' = some v' → k ≠ k' → ¬ (span v).Overlaps (span v')

end

namespace Tiles

section
variable {κ ν : Type*} [LinearOrder κ] {span : ν → Ival κ} {m : SortedMap κ ν}

lemma empty : Tiles span (SortedMap.empty : SortedMap κ ν) where
  keyed := fun _ _ h => by cases h
  nonempty := fun _ _ h => by cases h
  disjoint := fun _ _ _ _ h => by cases h

lemma erase (h : Tiles span m) (k : κ) : Tiles span (m.erase k) := by
  have hsub : ∀ k' v, (m.erase k).lookup k' = some v → m.lookup k' = some v := by
    intro k' v hv
    rw [SortedMap.lookup_erase] at hv
    split at hv
    · cases hv
    · exact hv
  exact {
    keyed := fun k' v hv => h.keyed k' v (hsub k' v hv)
    nonempty := fun k' v hv => h.nonempty k' v (hsub k' v hv)
    disjoint := fun k1 v1 k2 v2 h1 h2 => h.disjoint k1 v1 k2 v2 (hsub k1 v1 h1) (hsub k2 v2 h2) }

lemma insert (h : Tiles span m) {v : ν} (hv : (span v).Nonempty)
  (hd : ∀ k w, k ≠ (span v).lo → m.lookup k = some w → ¬ (span v).Overlaps (span w)) :
  Tiles span (m.insert (span v).lo v) := by
  have hcases : ∀ k w, (m.insert (span v).lo v).lookup k = some w →
      (k = (span v).lo ∧ w = v) ∨ (k ≠ (span v).lo ∧ m.lookup k = some w) :=
    fun _ _ => SortedMap.lookup_insert_some.mp
  exact {
    keyed := SortedMap.forall_insert (P := fun k w => (span w).lo = k) rfl h.keyed
    nonempty := SortedMap.forall_insert (P := fun _ w => (span w).Nonempty) hv h.nonempty
    disjoint := by
      intro k w k' w' hw hw' hne
      rcases hcases k w hw with ⟨rfl, rfl⟩ | ⟨hk, hm⟩
      · rcases hcases k' w' hw' with ⟨rfl, rfl⟩ | ⟨hk', hm'⟩
        · exact absurd rfl hne
        · exact hd k' w' hk' hm'
      rcases hcases k' w' hw' with ⟨rfl, rfl⟩ | ⟨_, hm'⟩
      · exact fun ho => hd k w hk hm ho.symm
      · exact h.disjoint k w k' w' hm hm' hne }

lemma eq_of_contains (h : Tiles span m) {k k' x : κ} {v v' : ν} (hv : m.lookup k = some v)
  (hv' : m.lookup k' = some v') (hx : (span v).Contains x) (hx' : (span v').Contains x) : k = k' := by
  by_contra hne
  exact h.disjoint k v k' v' hv hv' hne ((Ival.overlaps_iff (h.nonempty k v hv)
    (h.nonempty k' v' hv')).mpr ⟨x, hx, hx'⟩)

lemma hi_le (h : Tiles span m) {k k' : κ} {v v' : ν} (hv : m.lookup k = some v) (hv' : m.lookup k' = some v')
  (hlt : k < k') : (span v).hi ≤ k' := by
  have hk' := h.keyed k' v' hv'
  have hcut := Ival.hi_le_of_lt (h.nonempty k' v' hv') (by rw [h.keyed k v hv, hk']; exact hlt)
    (h.disjoint k v k' v' hv hv' (ne_of_lt hlt))
  rwa [hk'] at hcut

lemma floor_eq (h : Tiles span m) {k x : κ} {v : ν} (hv : m.lookup k = some v)
  (hx : (span v).Contains x) : m.floor x = some (k, v) := by
  have hk := h.keyed k v hv
  have hmem : (k, v) ∈ m.entries := SortedMap.mem_entries.mpr hv
  cases hf : m.floor x with
  | none =>
    have hlt := SortedMap.floor_none hf hmem
    exact absurd hx.1 (not_le.mpr (hk ▸ hlt))
  | some f =>
    obtain ⟨hf1, hf2, hf3⟩ := SortedMap.floor_some hf
    have hle : k ≤ f.1 := hf3 (k, v) hmem (hk ▸ hx.1)
    rcases lt_or_eq_of_le hle with hlt | heq
    · -- a later start would cut the interval off before `x`
      have hcut := h.hi_le hv (SortedMap.mem_entries.mp hf1) hlt
      exact absurd (lt_of_lt_of_le hx.2 hcut) (not_lt.mpr (WithTop.coe_le_coe.mpr hf2))
    · rw [SortedMap.eq_of_mem hf1 hmem heq.symm]

def start (span : ν → Ival κ) (m : SortedMap κ ν) (a : Ival κ) : κ :=
  match m.floor a.lo with
  | none => a.lo
  | some f => if (span f.2).Contains a.lo then f.1 else a.lo

lemma start_le (h : Tiles span m) (a : Ival κ) {k : κ} {v : ν} (hv : m.lookup k = some v) :
  start span m a ≤ k ↔ (a.lo : WithTop κ) < (span v).hi := by
  have hk := h.keyed k v hv
  have hne := h.nonempty k v hv
  unfold Ival.Nonempty at hne
  rw [hk] at hne
  -- if no interval contains the lower end of `a`, the search starts there
  have hout : (∀ k' v', m.lookup k' = some v' → ¬ (span v').Contains a.lo) →
      (a.lo ≤ k ↔ (a.lo : WithTop κ) < (span v).hi) := by
    intro hno
    constructor
    · exact fun hle => lt_of_le_of_lt (WithTop.coe_le_coe.mpr hle) hne
    intro hlt
    by_contra hn
    exact hno k v hv ⟨by rw [hk]; exact le_of_lt (not_le.mp hn), hlt⟩
  unfold start
  cases hf : m.floor a.lo with
  | none =>
    refine hout fun k' v' hv' hc => ?_
    rw [h.floor_eq hv' hc] at hf
    cases hf
  | some f =>
    obtain ⟨hf1, hf2, hf3⟩ := SortedMap.floor_some hf
    have hf' : m.lookup f.1 = some f.2 := SortedMap.mem_entries.mp hf1
    show (if (span f.2).Contains a.lo then f.1 else a.lo) ≤ k ↔ _
    split
    next hc =>
      rcases lt_trichotomy f.1 k with hlt | heq | hgt
      · exact ⟨fun _ => lt_trans (lt_of_lt_of_le hc.2 (h.hi_le hf' hv hlt)) hne, fun _ => le_of_lt hlt⟩
      · subst heq
        have e : f.2 = v := Option.some.inj (hf'.symm.trans hv)
        exact ⟨fun _ => e ▸ hc.2, fun _ => le_refl _⟩
      refine ⟨fun hle => absurd hle (not_le.mpr hgt), fun hlt => ?_⟩
      exact absurd (lt_of_lt_of_le hlt (h.hi_le hv hf' hgt)) (not_lt.mpr (WithTop.coe_le_coe.mpr hf2))
    next hc =>
      refine hout fun k' v' hv' hc' => ?_
      have e := Option.some.inj ((h.floor_eq hv' hc').symm.trans hf)
      rw [← e] at hc
      exact hc hc'

lemma query (h : Tiles span m) (a : Ival κ) {p : κ × ν → Bool}
  (hp : ∀ e ∈ m.entries, p e = true ↔ (e.1 : WithTop κ) < a.hi) :
  (m.ascend (start span m a)).takeWhile p = m.entries.filter fun e => decide (a.Overlaps (span e.2)) := by
  unfold SortedMap.ascend
  rw [SortedMap.takeWhile_eq_filter (m.sorted.filter _), List.filter_filter]
  · apply List.filter_congr
    intro e he
    have hv : m.lookup e.1 = some e.2 := SortedMap.mem_entries.mp he
    rw [Bool.eq_iff_iff, Bool.and_eq_true, decide_eq_true_eq, decide_eq_true_eq, hp e he, h.start_le a hv]
    unfold Ival.Overlaps
    rw [h.keyed e.1 e.2 hv]
    exact and_comm
  intro x hx y hy hlt hpy
  have hx' := (List.mem_filter.mp hx).1
  have hy' := (hp y (List.mem_filter.mp hy).1).mp hpy
  exact (hp x hx').mpr (lt_trans (WithTop.coe_lt_coe.mpr hlt) hy')

end
end Tiles
