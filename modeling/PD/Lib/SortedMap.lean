import Mathlib.Order.Lattice
import Mathlib.Data.List.Pairwise
import Mathlib.Algebra.BigOperators.Group.List.Basic
import Mathlib.Algebra.GroupWithZero.Nat
import Mathlib.Algebra.Ring.Int.Defs

/-! # Ordered maps -/

structure SortedMap (κ ν : Type*) [LinearOrder κ] where
  entries : List (κ × ν)
  sorted : entries.Pairwise fun a b => a.1 < b.1

namespace SortedMap
open List Option

section
variable {κ ν μ : Type*} [LinearOrder κ]

def empty : SortedMap κ ν := ⟨[], List.Pairwise.nil⟩
instance : Inhabited (SortedMap κ ν) := ⟨empty⟩

instance [DecidableEq ν] : DecidableEq (SortedMap κ ν) := fun a b =>
  decidable_of_iff (a.entries = b.entries)
    ⟨fun h => by cases a; cases b; cases h; rfl, fun h => by rw [h]⟩

variable (m : SortedMap κ ν)
variable (k : κ)

def lookup : Option ν := (m.entries.find? fun e => decide (e.1 = k)).map Prod.snd
def size : Nat := m.entries.length
def keys : List κ := m.entries.map Prod.fst
def values : List ν := m.entries.map Prod.snd

def insert (v : ν) : SortedMap κ ν where
  entries := m.entries.filter (fun e => e.1 < k) ++ (k, v) :: m.entries.filter fun e => k < e.1
  sorted := by
    refine pairwise_append.mpr ⟨m.sorted.filter _, pairwise_cons.mpr
      ⟨fun e he => ?_, m.sorted.filter _⟩, fun a ha b hb => ?_⟩
    · exact of_decide_eq_true (mem_filter.mp he).2
    have ha' : a.1 < k := of_decide_eq_true (mem_filter.mp ha).2
    rcases mem_cons.mp hb with rfl | hb
    · exact ha'
    · exact lt_trans ha' (of_decide_eq_true (mem_filter.mp hb).2)

def erase : SortedMap κ ν where
  entries := m.entries.filter fun e => e.1 ≠ k
  sorted := m.sorted.filter _

def ascend : List (κ × ν) := m.entries.filter fun e => k ≤ e.1
def floor : Option (κ × ν) := (m.entries.filter fun e => e.1 ≤ k).getLast?

def mapVal (f : ν → μ) (m : SortedMap κ ν) : SortedMap κ μ where
  entries := m.entries.map fun e => (e.1, f e.2)
  sorted := pairwise_map.mpr m.sorted

def keep (p : ν → Bool) (m : SortedMap κ ν) : SortedMap κ ν where
  entries := m.entries.filter fun e => p e.2
  sorted := m.sorted.filter _

def total (f : ν → Int) (m : SortedMap κ ν) : Int := (m.values.map f).sum
def bump (m : SortedMap κ Nat) (k : κ) : SortedMap κ Nat := m.insert k ((m.lookup k).getD 0 + 1)
def tally (l : List κ) : SortedMap κ Nat := l.foldl bump empty
def sumKeys (p : κ → Bool) (m : SortedMap κ Nat) : Nat := ((m.entries.filter fun e => p e.1).map Prod.snd).sum
def insertAll (es : List (κ × ν)) : SortedMap κ ν := es.foldl (fun m e => m.insert e.1 e.2) m

end

section
variable {κ ν μ : Type*} [LinearOrder κ] {m m' : SortedMap κ ν}
variable {k k' : κ} {v : ν} {o : Option ν} {l es : List (κ × ν)} {e : κ × ν}

lemma entries_inj (h : m.entries = m'.entries) : m = m' := by cases m; cases m'; cases h; rfl

lemma eq_of_mem {a b : κ × ν} (ha : a ∈ m.entries) (hb : b ∈ m.entries) (h : a.1 = b.1) : a = b := by
  by_contra hne
  rcases List.Pairwise.forall_of_forall_of_flip (R := fun a b : κ × ν => a.1 = b.1 → a = b)
    (fun _ _ _ => rfl) (m.sorted.imp fun hlt he => absurd he (ne_of_lt hlt))
    (m.sorted.imp fun hlt he => absurd he.symm (ne_of_lt hlt)) ha hb h with rfl
  exact hne rfl

lemma mem_entries : (k, v) ∈ m.entries ↔ m.lookup k = some v := by
  constructor
  · intro h
    unfold lookup
    cases hf : m.entries.find? fun e => decide (e.1 = k) with
    | none => exact absurd (List.find?_eq_none.mp hf _ h) (by simp)
    | some e =>
      have hk : e.1 = k := of_decide_eq_true (List.find?_some (p := fun e : κ × ν => decide (e.1 = k)) hf)
      rw [eq_of_mem (List.mem_of_find?_eq_some hf) h hk]
      rfl
  intro h
  obtain ⟨e, he, rfl⟩ := map_eq_some_iff.mp h
  have hk : e.1 = k := of_decide_eq_true (List.find?_some (p := fun e : κ × ν => decide (e.1 = k)) he)
  rw [← hk]
  exact List.mem_of_find?_eq_some he

lemma lookup_eq_of_mem_iff (h : ∀ v, (k, v) ∈ m.entries ↔ o = some v) : m.lookup k = o := by
  apply Option.ext
  intro v
  rw [← mem_entries]
  exact h v

lemma sorted_ext {l' : List (κ × ν)} (hl : l.Pairwise fun a b => a.1 < b.1)
  (hl' : l'.Pairwise fun a b => a.1 < b.1) (h : ∀ e, e ∈ l ↔ e ∈ l') : l = l' := by
  have hn : l.Nodup := hl.imp fun hlt he => absurd (congrArg Prod.fst he) (ne_of_lt hlt)
  have hn' : l'.Nodup := hl'.imp fun hlt he => absurd (congrArg Prod.fst he) (ne_of_lt hlt)
  refine List.Perm.eq_of_pairwise (fun a b _ _ hab hba => absurd hba (lt_asymm hab)) hl hl' ?_
  exact (perm_ext_iff_of_nodup hn hn').mpr h

lemma ext_lookup (h : ∀ k, m.lookup k = m'.lookup k) : m = m' := by
  refine entries_inj (sorted_ext m.sorted m'.sorted fun e => ?_)
  rw [show e = (e.1, e.2) from rfl, mem_entries, mem_entries, h]

lemma mem_insert : e ∈ (m.insert k v).entries ↔ e = (k, v) ∨ (e.1 ≠ k ∧ e ∈ m.entries) := by
  show e ∈ _ ++ _ ↔ _
  rw [mem_append, mem_cons, mem_filter, mem_filter, decide_eq_true_eq, decide_eq_true_eq]
  constructor
  · rintro (⟨h, hlt⟩ | h | ⟨h, hlt⟩)
    · exact .inr ⟨ne_of_lt hlt, h⟩
    · exact .inl h
    · exact .inr ⟨ne_of_gt hlt, h⟩
  rintro (h | ⟨hne, h⟩)
  · exact .inr (.inl h)
  rcases lt_or_gt_of_ne hne with hlt | hlt
  · exact .inl ⟨h, hlt⟩
  · exact .inr (.inr ⟨h, hlt⟩)

lemma mem_erase : e ∈ (m.erase k).entries ↔ e.1 ≠ k ∧ e ∈ m.entries := by
  show e ∈ List.filter _ _ ↔ _
  rw [mem_filter, decide_eq_true_eq]
  exact and_comm

lemma lookup_insert_self (m : SortedMap κ ν) (k : κ) (v : ν) : (m.insert k v).lookup k = some v :=
  mem_entries.mp (mem_insert.mpr (.inl rfl))

lemma lookup_insert_of_ne (m : SortedMap κ ν) (v : ν) (h : k' ≠ k) : (m.insert k v).lookup k' = m.lookup k' := by
  apply lookup_eq_of_mem_iff
  intro w
  rw [mem_insert, ← mem_entries]
  constructor
  · rintro (he | ⟨_, he⟩)
    · exact absurd (congrArg Prod.fst he) h
    · exact he
  intro he
  exact .inr ⟨h, he⟩

lemma lookup_insert (m : SortedMap κ ν) (k k' : κ) (v : ν) :
  (m.insert k v).lookup k' = if k' = k then some v else m.lookup k' := by
  split
  next h => subst h; exact lookup_insert_self m k' v
  next h => exact lookup_insert_of_ne m v h

lemma lookup_insert_some {w : ν} :
  (m.insert k v).lookup k' = some w ↔ (k' = k ∧ w = v) ∨ (k' ≠ k ∧ m.lookup k' = some w) := by
  rw [lookup_insert]
  split
  next e => simp [e, eq_comm]
  next e => simp [e]

lemma forall_insert {P : κ → ν → Prop} (hv : P k v) (hm : ∀ k' w, m.lookup k' = some w → P k' w) :
  ∀ k' w, (m.insert k v).lookup k' = some w → P k' w := by
  intro k' w h
  rcases lookup_insert_some.mp h with ⟨rfl, rfl⟩ | ⟨_, h⟩
  · exact hv
  · exact hm k' w h

lemma lookup_erase_self (m : SortedMap κ ν) (k : κ) : (m.erase k).lookup k = none := by
  apply lookup_eq_of_mem_iff
  intro w
  rw [mem_erase]
  exact ⟨fun h => absurd rfl h.1, nofun⟩

lemma lookup_erase_of_ne (m : SortedMap κ ν) (h : k' ≠ k) : (m.erase k).lookup k' = m.lookup k' := by
  apply lookup_eq_of_mem_iff
  intro w
  rw [mem_erase, ← mem_entries]
  exact ⟨And.right, fun he => ⟨h, he⟩⟩

lemma lookup_erase (m : SortedMap κ ν) (k k' : κ) : (m.erase k).lookup k' = if k' = k then none else m.lookup k' := by
  split
  next h => subst h; exact lookup_erase_self m k'
  next h => exact lookup_erase_of_ne m h

lemma lookup_foldl_erase {ι : Type*} (key : ι → κ) (items : List ι) (m : SortedMap κ ν) (k : κ) :
  (items.foldl (fun m i => m.erase (key i)) m).lookup k = if ∃ i ∈ items, key i = k then none else m.lookup k := by
  induction items generalizing m with
  | nil => rw [if_neg (by simp)]; rfl
  | cons i items ih =>
    rw [foldl_cons, ih, lookup_erase]
    by_cases h : ∃ x ∈ items, key x = k
    · rw [if_pos h, if_pos]
      obtain ⟨x, hx, e⟩ := h
      exact ⟨x, mem_cons_of_mem _ hx, e⟩
    rw [if_neg h]
    by_cases e : k = key i
    · rw [if_pos e, if_pos ⟨i, mem_cons_self, e.symm⟩]
    rw [if_neg e, if_neg]
    rintro ⟨x, hx, ex⟩
    rcases mem_cons.mp hx with rfl | hx
    · exact e ex.symm
    · exact h ⟨x, hx, ex⟩

lemma lookup_erase_some : (m.erase k).lookup k' = some v ↔ k' ≠ k ∧ m.lookup k' = some v := by
  rw [← mem_entries, mem_erase, mem_entries]

variable (f : ν → μ)

lemma lookup_mapVal (m : SortedMap κ ν) (k : κ) : (m.mapVal f).lookup k = (m.lookup k).map f := by
  apply lookup_eq_of_mem_iff
  intro w
  rw [map_eq_some_iff]
  show (k, w) ∈ List.map _ _ ↔ _
  rw [List.mem_map]
  constructor
  · rintro ⟨e, he, heq⟩
    obtain ⟨rfl, rfl⟩ := Prod.mk.inj heq
    exact ⟨e.2, mem_entries.mp he, rfl⟩
  rintro ⟨v, hv, rfl⟩
  exact ⟨(k, v), mem_entries.mpr hv, rfl⟩

variable (p : ν → Bool)

lemma lookup_keep (m : SortedMap κ ν) (k : κ) : (m.keep p).lookup k = (m.lookup k).filter p := by
  apply lookup_eq_of_mem_iff
  intro w
  show (k, w) ∈ List.filter _ _ ↔ _
  rw [mem_filter, mem_entries, filter_eq_some_iff]

lemma mem_values : v ∈ m.values ↔ ∃ k, m.lookup k = some v := by
  unfold values
  rw [List.mem_map]
  constructor
  · rintro ⟨e, he, rfl⟩
    exact ⟨e.1, mem_entries.mp he⟩
  rintro ⟨k, hk⟩
  exact ⟨(k, v), mem_entries.mpr hk, rfl⟩

lemma mem_keys : k ∈ m.keys ↔ ∃ v, m.lookup k = some v := by
  unfold keys
  rw [List.mem_map]
  constructor
  · rintro ⟨e, he, rfl⟩
    exact ⟨e.2, mem_entries.mp he⟩
  rintro ⟨v, hv⟩
  exact ⟨(k, v), mem_entries.mpr hv, rfl⟩

lemma keys_nodup (m : SortedMap κ ν) : m.keys.Nodup := pairwise_map.mpr (m.sorted.imp fun h => ne_of_lt h)

lemma mapVal_insert (m : SortedMap κ ν) (k : κ) (v : ν) : (m.insert k v).mapVal f = (m.mapVal f).insert k (f v) := by
  apply ext_lookup
  intro k'
  rw [lookup_mapVal, lookup_insert, lookup_insert, lookup_mapVal]
  split <;> rfl

lemma mapVal_erase (m : SortedMap κ ν) (k : κ) : (m.erase k).mapVal f = (m.mapVal f).erase k := by
  apply ext_lookup
  intro k'
  rw [lookup_mapVal, lookup_erase, lookup_erase, lookup_mapVal]
  split <;> rfl

lemma erase_of_lookup_none (h : m.lookup k = none) : m.erase k = m := by
  apply ext_lookup
  intro k'
  rw [lookup_erase]
  split
  next e => rw [e, h]
  · rfl

lemma insert_of_lookup (h : m.lookup k = some v) : m.insert k v = m := by
  apply ext_lookup
  intro k'
  rw [lookup_insert]
  split
  next e => rw [e, h]
  · rfl

lemma insert_erase (m : SortedMap κ ν) (k : κ) (v : ν) : (m.erase k).insert k v = m.insert k v := by
  apply ext_lookup
  intro k'
  rw [lookup_insert, lookup_insert]
  split
  · rfl
  next h => exact lookup_erase_of_ne m h

lemma insert_insert (m : SortedMap κ ν) (k : κ) (v w : ν) : (m.insert k v).insert k w = m.insert k w := by
  apply ext_lookup
  intro k'
  by_cases h : k' = k
  · rw [h, lookup_insert_self, lookup_insert_self]
  · rw [lookup_insert_of_ne _ _ h, lookup_insert_of_ne _ _ h, lookup_insert_of_ne _ _ h]

lemma erase_insert (m : SortedMap κ ν) (k : κ) (v : ν) : (m.insert k v).erase k = m.erase k := by
  apply ext_lookup
  intro k'
  rw [lookup_erase, lookup_erase]
  split
  · rfl
  next h => exact lookup_insert_of_ne m v h

lemma erase_erase_self (m : SortedMap κ ν) (k : κ) : (m.erase k).erase k = m.erase k :=
  erase_of_lookup_none (lookup_erase_self m k)

lemma insert_insert_self (m : SortedMap κ ν) (k : κ) (v : ν) :
    (m.insert k v).insert k v = m.insert k v := insert_of_lookup (lookup_insert_self m k v)

lemma keep_erase (m : SortedMap κ ν) (k : κ) : (m.erase k).keep p = (m.keep p).erase k := by
  apply ext_lookup
  intro k'
  rw [lookup_keep, lookup_erase, lookup_erase, lookup_keep]
  split <;> rfl

lemma keep_erase_of_not (hv : m.lookup k = some v) (hp : p v = false) : (m.erase k).keep p = m.keep p := by
  rw [keep_erase]
  refine erase_of_lookup_none ?_
  rw [lookup_keep, hv, filter_some, if_neg (by rw [hp]; exact Bool.false_ne_true)]

lemma keep_insert (m : SortedMap κ ν) (v : ν) (hk : m.lookup k = none) :
  (m.insert k v).keep p = if p v then (m.keep p).insert k v else m.keep p := by
  apply ext_lookup
  intro k'
  rw [lookup_keep, lookup_insert]
  by_cases e : k' = k
  · subst e
    rw [if_pos rfl, filter_some]
    split
    · rw [lookup_insert_self]
    · rw [lookup_keep, hk]; rfl
  rw [if_neg e]
  split
  · rw [lookup_insert_of_ne _ _ e, lookup_keep]
  · rw [lookup_keep]

lemma lookup_insertAll (m : SortedMap κ ν) (n : SortedMap κ ν) (k : κ) :
  (m.insertAll n.entries).lookup k = (n.lookup k).or (m.lookup k) := by
  obtain ⟨es, hs⟩ := n
  show (m.insertAll es).lookup k = ((es.find? fun e => decide (e.1 = k)).map Prod.snd).or (m.lookup k)
  induction es generalizing m with
  | nil => rfl
  | cons e es ih =>
    obtain ⟨he, hs'⟩ := pairwise_cons.mp hs
    show ((m.insert e.1 e.2).insertAll es).lookup k = _
    rw [ih (m.insert e.1 e.2) hs', lookup_insert, List.find?_cons]
    by_cases h : e.1 = k
    · -- no later entry has the key of the first one
      have hnone : (es.find? fun e => decide (e.1 = k)) = none := by
        refine List.find?_eq_none.mpr fun x hx hk => ?_
        exact absurd (h.trans (of_decide_eq_true hk).symm) (ne_of_lt (he x hx))
      rw [hnone, if_pos h.symm, decide_eq_true h]
      rfl
    · rw [if_neg (fun h' => h h'.symm), decide_eq_false h]

lemma lookup_insertAll_of_not_mem (m : SortedMap κ ν)
  (h : k ∉ es.map Prod.fst) : (m.insertAll es).lookup k = m.lookup k := by
  induction es generalizing m with
  | nil => rfl
  | cons e _ ih =>
    obtain ⟨hne, hes⟩ := not_or.mp (fun h' => h (mem_cons.mpr h'))
    exact (ih (m.insert e.1 e.2) hes).trans (lookup_insert_of_ne m e.2 hne)

lemma lookup_insertAll_of_mem (m : SortedMap κ ν) (hes : (es.map Prod.fst).Nodup)
  (h : (k, v) ∈ es) : (m.insertAll es).lookup k = some v := by
  induction es generalizing m with
  | nil => cases h
  | cons e _ ih =>
    obtain ⟨he, hes⟩ := nodup_cons.mp hes
    rcases mem_cons.mp h with rfl | h
    · exact (lookup_insertAll_of_not_mem (m.insert k v) he).trans (lookup_insert_self m k v)
    · exact ih (m.insert e.1 e.2) hes h

lemma lookup_insertAll_iff (m : SortedMap κ ν) (hes : (es.map Prod.fst).Nodup)
  (h : ∀ v, (k, v) ∈ es ↔ o = some v) : (m.insertAll es).lookup k = o.or (m.lookup k) := by
  cases o with
  | some v => exact lookup_insertAll_of_mem m hes ((h v).mpr rfl)
  | none =>
    refine lookup_insertAll_of_not_mem m fun hk => ?_
    obtain ⟨⟨_, v⟩, hv, rfl⟩ := List.mem_map.mp hk
    cases (h v).mp hv

lemma lookup_insertAll_empty (hes : (es.map Prod.fst).Nodup) :
  ((empty : SortedMap κ ν).insertAll es).lookup k = some v ↔ (k, v) ∈ es := by
  constructor
  · intro h
    by_cases hk : k ∈ es.map Prod.fst
    · obtain ⟨⟨_, w⟩, hw, rfl⟩ := List.mem_map.mp hk
      rw [lookup_insertAll_of_mem _ hes hw] at h
      exact some.inj h ▸ hw
    rw [lookup_insertAll_of_not_mem _ hk] at h
    cases h
  · exact lookup_insertAll_of_mem _ hes

lemma entries_nodup (m : SortedMap κ ν) : m.entries.Nodup :=
  m.sorted.imp fun hlt he => absurd (congrArg Prod.fst he) (ne_of_lt hlt)

lemma perm_insert (m : SortedMap κ ν) (k : κ) (v : ν) :
  (m.insert k v).entries.Perm ((k, v) :: (m.erase k).entries) := by
  refine (perm_ext_iff_of_nodup (entries_nodup _)
    (nodup_cons.mpr ⟨fun h => (mem_erase.mp h).1 rfl, entries_nodup _⟩)).mpr fun e => ?_
  rw [mem_insert, mem_cons, mem_erase]

lemma perm_erase (h : m.lookup k = some v) : m.entries.Perm ((k, v) :: (m.erase k).entries) := by
  have hp := perm_insert m k v
  rw [insert_of_lookup h] at hp
  exact hp

lemma total_of_perm (f : ν → Int) (h : m.entries.Perm l) : m.total f = (l.map fun e => f e.2).sum := by
  have hp : (m.values.map f).Perm (l.map fun e => f e.2) := by
    unfold values
    rw [List.map_map]
    exact h.map _
  exact hp.sum_eq

lemma total_insert (f : ν → Int) (m : SortedMap κ ν) (k : κ) (v : ν) :
  (m.insert k v).total f = f v + (m.erase k).total f := by
  rw [total_of_perm f (perm_insert m k v), map_cons, sum_cons]
  congr 1
  unfold total values
  rw [List.map_map]
  rfl

lemma total_erase (f : ν → Int) (h : m.lookup k = some v) : m.total f = f v + (m.erase k).total f := by
  rw [← total_insert, insert_of_lookup h]

lemma size_insert (m : SortedMap κ ν) (k : κ) (v : ν) :
    (m.insert k v).size = (m.erase k).size + 1 := (perm_insert m k v).length_eq

lemma size_erase (h : m.lookup k = some v) : m.size = (m.erase k).size + 1 := (perm_erase h).length_eq
lemma size_erase_le (m : SortedMap κ ν) (k : κ) : (m.erase k).size ≤ m.size := length_filter_le _ _

lemma sumKeys_of_perm (p : κ → Bool) {m m' : SortedMap κ Nat} {v : Nat} (h : m.entries.Perm ((k, v) :: m'.entries)) :
  m.sumKeys p = (if p k then v else 0) + m'.sumKeys p := by
  rw [sumKeys, ((h.filter _).map _).sum_eq, filter_cons]
  split
  · exact sum_cons
  · exact (Nat.zero_add _).symm

lemma sumKeys_bump (p : κ → Bool) (m : SortedMap κ Nat) (k : κ) :
  (m.bump k).sumKeys p = m.sumKeys p + if p k then 1 else 0 := by
  have hold : m.sumKeys p = (if p k then (m.lookup k).getD 0 else 0) + (m.erase k).sumKeys p := by
    cases hk : m.lookup k with
    | none =>
      rw [erase_of_lookup_none hk]
      simp
    | some => exact sumKeys_of_perm p (perm_erase hk)
  rw [bump, sumKeys_of_perm p (perm_insert m k _), hold]
  split
  · omega
  · rfl

lemma sumKeys_tally (p : κ → Bool) (l : List κ) : (tally l).sumKeys p = l.countP p := by
  have hfold : ∀ (l : List κ) (m : SortedMap κ Nat), (l.foldl bump m).sumKeys p = m.sumKeys p + l.countP p := by
    intro l
    induction l with
    | nil => exact fun m => rfl
    | cons k l ih =>
      intro m
      rw [foldl_cons, ih, sumKeys_bump, countP_cons]
      omega
  exact (hfold l empty).trans (Nat.zero_add _)

lemma lookup_foldl_update {β : Type*} (f : Option ν → β → ν) (l : List (κ × β)) (m : SortedMap κ ν) (k : κ) :
  (l.foldl (fun m e => m.insert e.1 (f (m.lookup e.1) e.2)) m).lookup k =
    ((l.filter fun e => decide (e.1 = k)).map Prod.snd).foldl (fun o b => some (f o b)) (m.lookup k) := by
  induction l generalizing m with
  | nil => rfl
  | cons e l ih =>
    rw [foldl_cons, ih, lookup_insert]
    by_cases hk : e.1 = k
    · rw [filter_cons_of_pos (by simpa using hk), map_cons, foldl_cons, if_pos hk.symm, hk]
    · rw [filter_cons_of_neg (by simpa using hk), if_neg fun h => hk h.symm]

lemma lookup_insertAll_last (m : SortedMap κ ν) (es : List (κ × ν)) (k : κ) : (m.insertAll es).lookup k =
  ((es.filter fun e => decide (e.1 = k)).map Prod.snd).getLast?.or (m.lookup k) := by
  refine (lookup_foldl_update (fun _ v => v) es m k).trans ?_
  generalize (es.filter fun e => decide (e.1 = k)).map Prod.snd = vs
  induction vs generalizing m with
  | nil => rfl
  | cons v vs ih =>
    rw [foldl_cons, List.getLast?_cons]
    cases vs with
    | nil => rfl
    | cons => exact (ih (m.insert k v) ▸ by rw [lookup_insert_self])

lemma values_nodup_of_keyed (f : ν → κ) (h : ∀ k v, m.lookup k = some v → f v = k) : m.values.Nodup := by
  refine pairwise_map.mpr (m.sorted.imp_of_mem fun {a b} ha hb hlt e => ?_)
  have h1 := h a.1 a.2 (mem_entries.mp ha)
  have h2 := h b.1 b.2 (mem_entries.mp hb)
  rw [← h1, ← h2, e] at hlt
  exact lt_irrefl _ hlt

lemma values_keep (m : SortedMap κ ν) : (m.keep p).values = m.values.filter p := by
  unfold values
  rw [List.filter_map]
  rfl

lemma size_eq (m : SortedMap κ ν) : m.size = m.values.length := (length_map ..).symm
lemma size_mapVal (m : SortedMap κ ν) : (m.mapVal f).size = m.size := length_map ..

lemma mem_ascend : e ∈ m.ascend k ↔ e ∈ m.entries ∧ k ≤ e.1 := by
  unfold ascend
  rw [mem_filter, decide_eq_true_eq]

lemma floor_none (h : m.floor k = none) (he : e ∈ m.entries) : k < e.1 := by
  have hnil := List.getLast?_eq_none_iff.mp h
  by_contra hlt
  have hmem : e ∈ m.entries.filter fun e => e.1 ≤ k := mem_filter.mpr ⟨he, decide_eq_true (not_lt.mp hlt)⟩
  rw [hnil] at hmem
  exact absurd hmem not_mem_nil

lemma floor_some {f : κ × ν} (h : m.floor k = some f) :
  f ∈ m.entries ∧ f.1 ≤ k ∧ ∀ e ∈ m.entries, e.1 ≤ k → e.1 ≤ f.1 := by
  obtain ⟨ys, hys⟩ := List.getLast?_eq_some_iff.mp h
  have hf : f ∈ m.entries.filter fun e => e.1 ≤ k := by rw [hys]; simp
  refine ⟨(mem_filter.mp hf).1, of_decide_eq_true (mem_filter.mp hf).2, ?_⟩
  intro e he hle
  have hmem : e ∈ ys ++ [f] := by
    rw [← hys]
    exact mem_filter.mpr ⟨he, decide_eq_true hle⟩
  have hs : (ys ++ [f]).Pairwise fun a b : κ × ν => a.1 < b.1 := hys ▸ m.sorted.filter _
  rcases mem_append.mp hmem with hmem | hmem
  · exact le_of_lt ((pairwise_append.mp hs).2.2 e hmem f (mem_singleton.mpr rfl))
  · rw [mem_singleton.mp hmem]

lemma head?_filter_of_min {α : Type*} {key : α → κ} {l : List α} {p : α → Bool} {a : α}
  (hl : l.Pairwise fun x y => key x < key y) (ha : a ∈ l) (hp : p a = true)
  (hmin : ∀ x ∈ l, p x = true → key a ≤ key x) : (l.filter p).head? = some a := by
  have hmem : a ∈ l.filter p := mem_filter.mpr ⟨ha, hp⟩
  have hsorted := hl.filter p
  cases hhead : (l.filter p).head? with
  | none =>
    rw [List.head?_eq_none_iff.mp hhead] at hmem
    cases hmem
  | some z =>
    obtain ⟨hz, hpz⟩ := mem_filter.mp (List.mem_of_head? hhead)
    obtain ⟨ys, hys⟩ := List.head?_eq_some_iff.mp hhead
    rw [hys] at hmem hsorted
    rcases mem_cons.mp hmem with rfl | hmem
    · rfl
    have hlt := (pairwise_cons.mp hsorted).1 a hmem
    exact absurd hlt (not_lt.mpr (hmin z hz hpz))

lemma getLast?_filter_of_max {α : Type*} {key : α → κ} {l : List α} {p : α → Bool} {a : α}
  (hl : l.Pairwise fun x y => key x < key y) (ha : a ∈ l) (hp : p a = true)
  (hmax : ∀ x ∈ l, p x = true → key x ≤ key a) : (l.filter p).getLast? = some a := by
  rw [← head?_reverse, ← filter_reverse]
  exact head?_filter_of_min (κ := κᵒᵈ) (pairwise_reverse.mpr hl) (mem_reverse.mpr ha) hp
    fun x hx => hmax x (mem_reverse.mp hx)

lemma takeWhile_eq_filter {α : Type*} {key : α → κ} {l : List α} (hl : l.Pairwise fun a b => key a < key b)
  {p : α → Bool} (hp : ∀ a ∈ l, ∀ b ∈ l, key a < key b → p b = true → p a = true) : l.takeWhile p = l.filter p := by
  induction l with
  | nil => rfl
  | cons a l ih =>
    obtain ⟨ha, hl⟩ := pairwise_cons.mp hl
    have ih' := ih hl fun x hx y hy => hp x (mem_cons_of_mem _ hx) y (mem_cons_of_mem _ hy)
    cases hpa : p a with
    | true => rw [takeWhile_cons_of_pos hpa, filter_cons_of_pos hpa, ih']
    | false =>
      have hna : ¬ p a = true := by rw [hpa]; exact Bool.false_ne_true
      rw [takeWhile_cons_of_neg hna, filter_cons_of_neg hna]
      refine (filter_eq_nil_iff.mpr fun b hb hpb => ?_).symm
      exact hna (hp a mem_cons_self b (mem_cons_of_mem _ hb) (ha b hb) hpb)

end
end SortedMap
