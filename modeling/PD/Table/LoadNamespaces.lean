import Mathlib.Data.List.TakeWhile
import PD.Core.Storage
import PD.Table.NamespaceClassifier

/-! # Loading the namespaces from the storage -/

namespace PD
open List SortedMap Words

def namespacePrefix : Key := [110, 97, 109, 101, 115, 112, 97, 99, 101, 47]

def blank : List Nat → Key
  | 0 :: d :: ds => 32 :: blank (d :: ds)
  | ds => ds.map fun d => (48 + d).toUInt8

def namespacePath (nsID : Nat) : Key := namespacePrefix ++ blank (digits 10 20 nsID)

lemma blank_lt {l l' : List Nat} (hlen : l.length = l'.length) (hl : ∀ d ∈ l, d < 10) (hl' : ∀ d ∈ l', d < 10)
  (h : l < l') : blank l < blank l' := by
  have hmap : l.map (fun d => (48 + d).toUInt8) < l'.map fun d => (48 + d).toUInt8 :=
    map_lt_map _ (fun d => d < 10) (fun x y _ hy hxy => digit_lt x y hy hxy) hl hl' h
  induction l generalizing l' with
  | nil => cases l' with
    | nil => exact absurd h (not_lt_nil _)
    | cons => simp at hlen
  | cons x xs ih =>
    cases l' with
    | nil => simp at hlen
    | cons y ys =>
      have hlen' : xs.length = ys.length := by simpa using hlen
      cases xs with
      | nil =>
        obtain rfl : ys = [] := length_eq_zero_iff.mp hlen'.symm
        cases x <;> cases y <;> exact hmap
      | cons a as =>
        cases ys with
        | nil => simp at hlen'
        | cons b bs =>
          have htail : ∀ d ∈ a :: as, d < 10 := fun d hd => hl d (mem_cons_of_mem _ hd)
          have htail' : ∀ d ∈ b :: bs, d < 10 := fun d hd => hl' d (mem_cons_of_mem _ hd)
          rcases cons_lt_cons_iff.mp h with hxy | ⟨rfl, hrest⟩
          · cases y with
            | zero => omega
            | succ y =>
              cases x with
              | zero =>
                refine cons_lt_cons_iff.mpr (.inl ?_)
                have hy := hl' (y+1) mem_cons_self
                rw [UInt8.lt_iff_toNat_lt]
                show 32 < (48 + (y+1)) % 256
                omega
              | succ => exact hmap
          cases x with
          | succ => exact hmap
          | zero =>
            refine cons_lt_cons_iff.mpr (.inr ⟨rfl, ih hlen' htail htail' hrest ?_⟩)
            exact map_lt_map _ (fun d => d < 10) (fun x y _ hy hxy => digit_lt x y hy hxy) htail htail' hrest

lemma namespacePath_lt {a b : Nat} (h : a < b) (hb : b < 10^20) : namespacePath a < namespacePath b := by
  have hlt := blank_lt (by rw [digits_length, digits_length]) (digits_bound 10 20 a (by omega))
    (digits_bound 10 20 b (by omega)) (digits_lt 10 20 a b h hb)
  unfold namespacePath namespacePrefix
  simpa [cons_lt_cons_iff] using hlt

lemma namespacePath_le_iff {a b : Nat} (ha : a < 10^20) (hb : b < 10^20) :
  namespacePath a ≤ namespacePath b ↔ a ≤ b := by
  constructor
  · exact fun h => not_lt.mp fun hlt => absurd h (not_le.mpr (namespacePath_lt hlt ha))
  intro h
  rcases Nat.lt_or_eq_of_le h with hlt | rfl
  · exact le_of_lt (namespacePath_lt hlt hb)
  · exact le_refl _

abbrev Namespaces := SortedMap String Namespace
def kvRangeLimit : Nat := 1000

def loadNamespace (s : Nat × Namespaces) (ns : Namespace) : Nat × Namespaces :=
  ((ns.id + 1) % 2^64, s.2.insert ns.name ns)

def loadFrom (kv : Kv Namespace) (rangeLimit : Nat) : Nat → Nat × Namespaces → Option Namespaces
  | 0, _ => none
  | fuel + 1, s =>
    let res := Kv.loadRange kv (namespacePath s.1) (namespacePath maxUint64) rangeLimit
    let s' := res.foldl loadNamespace s
    if res.length < rangeLimit then some s'.2 else loadFrom kv rangeLimit fuel s'

def namespacePairs (kv : SortedMap Nat Namespace) : Kv Namespace :=
  SortedMap.empty.insertAll (kv.entries.map fun e => (namespacePath e.1, e.2))

def loadNamespaces (kv : SortedMap Nat Namespace) (fuel : Nat) : Option Namespaces :=
  loadFrom (namespacePairs kv) kvRangeLimit fuel (0, .empty)

section
variable {kv : SortedMap Nat Namespace} (hids : ∀ id ns, kv.lookup id = some ns → ns.id = id ∧ id < maxUint64)
include hids

lemma entries_namespacePairs : (namespacePairs kv).entries = kv.entries.map fun e => (namespacePath e.1, e.2) := by
  have hmax : maxUint64 < 10^20 := by decide
  have hsorted : (kv.entries.map fun e => (namespacePath e.1, e.2)).Pairwise fun a b => a.1 < b.1 := by
    refine pairwise_map.mpr (kv.sorted.imp_of_mem fun {a b} _ hb hab => ?_)
    exact namespacePath_lt hab (lt_trans (hids b.1 b.2 (mem_entries.mp hb)).2 hmax)
  refine sorted_ext (namespacePairs kv).sorted hsorted fun e => ?_
  rw [show e = (e.1, e.2) from rfl, mem_entries]
  exact lookup_insertAll_empty (pairwise_map.mpr (hsorted.imp fun hlt => ne_of_lt hlt))

lemma loadRange_namespacePairs {n : Nat} (hn : n ≤ maxUint64) (limit : Nat) :
  Kv.loadRange (namespacePairs kv) (namespacePath n) (namespacePath maxUint64) limit =
    ((kv.ascend n).take limit).map Prod.snd := by
  have hmax : maxUint64 < 10^20 := by decide
  have hasc : (namespacePairs kv).ascend (namespacePath n) = (kv.ascend n).map fun e => (namespacePath e.1, e.2) := by
    unfold ascend
    rw [entries_namespacePairs hids, filter_map]
    congr 1
    refine filter_congr fun e he => ?_
    have hlt := (hids e.1 e.2 (mem_entries.mp he)).2
    exact decide_eq_decide.mpr (namespacePath_le_iff (by omega) (by omega))
  have hall : ∀ e ∈ (kv.ascend n).map fun e => (namespacePath e.1, e.2), decide (e.1 < namespacePath maxUint64) := by
    intro e he
    obtain ⟨e, hmem, rfl⟩ := List.mem_map.mp he
    have hlt := (hids e.1 e.2 (mem_entries.mp (mem_ascend.mp hmem).1)).2
    exact decide_eq_true (namespacePath_lt hlt hmax)
  unfold Kv.loadRange
  rw [hasc, takeWhile_eq_self_iff.mpr hall, ← map_take, List.map_map]
  rfl

omit hids in
lemma ascend_rest {n : Nat} {front back : List (Nat × Namespace)} {last : Nat × Namespace}
  (h : kv.ascend n = front ++ last :: back) : kv.ascend (last.1 + 1) = back := by
  have hlast := (mem_ascend.mp (h ▸ mem_append_right front mem_cons_self : last ∈ kv.ascend n)).2
  have hsub : kv.ascend (last.1 + 1) = (kv.ascend n).filter fun e => last.1 + 1 ≤ e.1 := by
    unfold ascend
    rw [filter_filter]
    refine filter_congr fun e _ => ?_
    rw [← Bool.decide_and]
    exact decide_eq_decide.mpr (by omega)
  have hsorted : (front ++ last :: back).Pairwise fun a b => a.1 < b.1 := h ▸ kv.sorted.filter _
  obtain ⟨-, hback, hfront⟩ := pairwise_append.mp hsorted
  rw [hsub, h, filter_append, filter_eq_nil_iff.mpr, nil_append, filter_cons_of_neg (by simp)]
  · refine filter_eq_self.mpr fun e he => decide_eq_true ((pairwise_cons.mp hback).1 e he)
  intro e he
  have hlt := hfront e he last mem_cons_self
  simp
  omega

lemma loadFrom_eq {limit fuel n : Nat} (hlimit : 0 < limit) (hn : n ≤ maxUint64) (hfuel : (kv.ascend n).length < fuel)
  (m : Namespaces) : loadFrom (namespacePairs kv) limit fuel (n, m) =
    some (m.insertAll ((kv.ascend n).map fun e => (e.2.name, e.2))) := by
  have hfold : ∀ (l : List (Nat × Namespace)) (s : Nat × Namespaces),
      ((l.map Prod.snd).foldl loadNamespace s).2 = s.2.insertAll (l.map fun e => (e.2.name, e.2)) := by
    intro l
    induction l with
    | nil => exact fun _ => rfl
    | cons e l ih => exact fun s => ih (loadNamespace s e.2)
  induction fuel generalizing n m with
  | zero => omega
  | succ _ ih =>
    rw [loadFrom, loadRange_namespacePairs hids hn]
    show (if ((List.take limit _).map Prod.snd).length < limit then _ else _) = _
    rw [length_map, length_take]
    split
    next _ => rw [take_of_length_le (by omega), hfold]
    next hge =>
      obtain ⟨front, last, hfront⟩ := eq_nil_or_concat ((kv.ascend n).take limit) |>.resolve_left (by
        intro hnil
        rcases take_eq_nil_iff.mp hnil with hzero | hempty
        · omega
        rw [hempty] at hge
        simp at hge
        omega)
      rw [concat_eq_append] at hfront
      have hsplit : kv.ascend n = front ++ last :: (kv.ascend n).drop limit := by
        conv_lhs => rw [← take_append_drop limit (kv.ascend n), hfront]
        simp
      have hmem : last ∈ kv.ascend n := by rw [hsplit]; simp
      obtain ⟨hid, hlt⟩ := hids last.1 last.2 (mem_entries.mp (mem_ascend.mp hmem).1)
      have hmax : maxUint64 = 2^64 - 1 := rfl
      have hnext : ((((kv.ascend n).take limit).map Prod.snd).foldl loadNamespace (n, m)).1 = last.1 + 1 := by
        rw [hfront, map_append, foldl_append]
        show (last.2.id + 1) % 2^64 = _
        rw [hid, Nat.mod_eq_of_lt (by omega)]
      have hrest := ascend_rest hsplit
      rw [← Prod.eta (foldl _ _ _), hnext, hfold]
      have hlen := congrArg List.length hsplit
      rw [length_append, length_cons] at hlen
      rw [ih (by omega) (by rw [hrest]; omega), hrest]
      show some (foldl _ (foldl _ _ _) _) = some (foldl _ _ _)
      rw [← foldl_append, ← map_append, take_append_drop]

lemma loadNamespaces_eq {fuel : Nat} (hfuel : kv.size < fuel) :
  loadNamespaces kv fuel = some (SortedMap.empty.insertAll (kv.entries.map fun e => (e.2.name, e.2))) := by
  have hall : kv.ascend 0 = kv.entries := filter_eq_self.mpr fun e _ => decide_eq_true (Nat.zero_le _)
  unfold loadNamespaces
  rw [loadFrom_eq hids (by decide) (Nat.zero_le _) (by rw [hall]; exact hfuel), hall]

end
end PD
