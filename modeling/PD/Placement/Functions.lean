import Mathlib.Data.Finset.Card
import PD.Core.StoreMeta

/-! # The functions of placement constraints -/

namespace PD.Placement
open List

structure Filter where
  key : String
  value : String
  deriving DecidableEq

structure Constraint where
  function : String
  filters : List Filter
  labels : List String
  op : String
  value : Int
  deriving DecidableEq

def validateLabelString (s : String) : Bool :=
  s.toList.head?.any Char.isAlphanum && s.toList.getLast?.any Char.isAlphanum &&
    s.toList.all fun c => c.isAlphanum || "-_./".toList.contains c

def validateLabels (labels : List StoreLabel) : Bool :=
  labels.all fun l => validateLabelString l.key && validateLabelString l.value

section
variable (equalFold : String → String → Bool) (c : Constraint)

def getLabelValue (store : StoreProto) (key : String) : String :=
  ((store.labels.find? fun l => equalFold l.key key).map StoreLabel.value).getD ""

def matchStore (store : StoreProto) : Bool := c.filters.all fun f => getLabelValue equalFold store f.key == f.value
def filterStores (stores : List StoreProto) : List StoreProto := stores.filter (matchStore equalFold c)

def labelValues (labels : List String) (store : StoreProto) : String :=
  labels.foldl (fun str label => str ++ getLabelValue equalFold store label ++ "/") ""

def countLabelValues (stores : List StoreProto) (labels : List String) : Nat :=
  if labels.isEmpty then 0 else (stores.map (labelValues equalFold labels)).dedup.length

def evalLabelValues (regionStores : List StoreProto) : Nat :=
  countLabelValues equalFold (filterStores equalFold c regionStores) c.labels

def evalIsolationLevel (regionStores : List StoreProto) : Nat :=
  let stores := filterStores equalFold c regionStores
  let found := (range c.labels.length).find? fun i =>
    countLabelValues equalFold stores (c.labels.take (i+1)) == stores.length
  (found.map (c.labels.length - ·)).getD 0

def tuple (labels : List String) (store : StoreProto) : List String := labels.map (getLabelValue equalFold store)

end

def IsLevel (q : Nat → Prop) (n level : Nat) : Prop :=
  (∃ i < n, q i ∧ (∀ j < i, ¬ q j) ∧ level = n - i) ∨ (∀ i < n, ¬ q i) ∧ level = 0

lemma isLevel_find_iff {q : Nat → Prop} {p : Nat → Bool} (h : ∀ i, p i = true → q i) (n : Nat) :
  IsLevel q n ((((range n).find? p).map (n - ·)).getD 0) ↔ ∀ i < n, q i → (∀ j < i, ¬ q j) → p i = true := by
  -- where the least index with `q` has `p`, none without `p` before has `q`
  have hbelow {m : Nat} (hm : m ≤ n) (hp : ∀ i < m, (!p i) = true)
      (hleast : ∀ i < n, q i → (∀ j < i, ¬ q j) → p i = true) (i : Nat) (hi : i < m) : ¬ q i := by
    induction i using Nat.strongRecOn with
    | ind i ih =>
      intro hq
      have hpi := hleast i (by omega) hq fun j hj => ih j hj (by omega)
      exact absurd hpi (by simpa using hp i hi)
  cases hf : (range n).find? p with
  | none =>
    constructor
    · rintro (⟨i, hi, -, -, hlevel⟩ | ⟨hq, -⟩)
      · simp at hlevel
        omega
      · exact fun i hi hqi => absurd hqi (hq i hi)
    · exact fun hleast => .inr ⟨hbelow le_rfl (find?_range_eq_none.mp hf) hleast, rfl⟩
  | some i =>
    obtain ⟨hp, hi, hbefore⟩ := find?_range_eq_some.mp hf
    rw [mem_range] at hi
    constructor
    · rintro (⟨k, hk, hqk, hmin, hlevel⟩ | ⟨hq, -⟩)
      · intro m hm hqm hminm
        simp at hlevel
        obtain rfl : m = i := by
          have hmk := mt (hmin m) (not_not.mpr hqm)
          have hkm := mt (hminm k) (not_not.mpr hqk)
          omega
        exact hp
      · exact absurd (h i hp) (hq i hi)
    · exact fun hleast => .inl ⟨i, hi, h i hp, hbelow hi.le hbefore hleast, rfl⟩

lemma length_dedup_iff {α : Type} [DecidableEq α] {l : List α} : l.dedup.length = l.length ↔ l.Nodup := by
  rw [← dedup_eq_self]
  exact ⟨(dedup_sublist l).eq_of_length, congrArg length⟩

def joined (values : List String) : String := values.foldl (fun str v => str ++ v ++ "/") ""

lemma joined_toList (values : List String) : (joined values).toList = values.flatMap fun v => v.toList ++ ['/'] := by
  suffices hall : ∀ str : String, (values.foldl (fun str v => str ++ v ++ "/") str).toList =
      str.toList ++ values.flatMap fun v => v.toList ++ ['/'] from hall ""
  induction values with
  | nil => simp
  | cons v _ ih =>
    intro str
    rw [foldl_cons, ih]
    simp

lemma takeWhile_ne_append {α : Type} [DecidableEq α] {a : α} {x u : List α} (hx : a ∉ x) :
  (x ++ a :: u).takeWhile (· ≠ a) = x := by
  rw [takeWhile_append_of_pos fun b hb => by simpa using ne_of_mem_of_not_mem hb hx]
  simp

lemma joined_inj {vs ws : List String} (hlen : vs.length = ws.length) (hvs : ∀ v ∈ vs, '/' ∉ v.toList)
  (hws : ∀ w ∈ ws, '/' ∉ w.toList) (h : joined vs = joined ws) : vs = ws := by
  have hchars := congrArg String.toList h
  rw [joined_toList, joined_toList] at hchars
  clear h
  induction vs generalizing ws with
  | nil => exact (eq_nil_of_length_eq_zero hlen.symm).symm
  | cons v _ ih =>
    cases ws with
    | nil => cases hlen
    | cons w =>
      simp only [flatMap_cons, append_assoc, singleton_append] at hchars
      have hv := congrArg (takeWhile (· ≠ '/')) hchars
      rw [takeWhile_ne_append (hvs v mem_cons_self), takeWhile_ne_append (hws w mem_cons_self)] at hv
      rw [hv] at hchars
      have hrest := (cons.inj (append_cancel_left hchars)).2
      rw [String.toList_injective hv, ih (Nat.succ.inj hlen) (fun x hx => hvs x (mem_cons_of_mem _ hx))
        (fun x hx => hws x (mem_cons_of_mem _ hx)) hrest]

section
variable {equalFold : String → String → Bool} {labels : List String} {stores : List StoreProto}

lemma labelValues_eq (store : StoreProto) :
  labelValues equalFold labels store = joined (tuple equalFold labels store) := by
  unfold joined tuple
  rw [foldl_map]
  rfl

lemma map_labelValues : stores.map (labelValues equalFold labels) =
  (stores.map (tuple equalFold labels)).map joined := by
  rw [map_map]
  exact map_congr_left fun s _ => labelValues_eq s

lemma countLabelValues_iff (hlabels : labels ≠ []) :
  countLabelValues equalFold stores labels = (stores.map (tuple equalFold labels)).dedup.length ↔
    Set.InjOn joined {v | v ∈ stores.map (tuple equalFold labels)} := by
  unfold countLabelValues
  rw [if_neg (by simpa using hlabels), map_labelValues, ← card_toFinset, ← card_toFinset]
  generalize stores.map (tuple equalFold labels) = tuples
  rw [show (tuples.map joined).toFinset = tuples.toFinset.image joined by ext; simp, Finset.card_image_iff]
  simp [Set.InjOn]

lemma injOn_of_noSlash (h : ∀ s ∈ stores, ∀ l ∈ s.labels, '/' ∉ l.value.toList) :
  Set.InjOn joined {v | v ∈ stores.map (tuple equalFold labels)} := by
  have hvalue (s : StoreProto) (hs : s ∈ stores) : ∀ v ∈ tuple equalFold labels s, '/' ∉ v.toList := by
    intro v hv
    obtain ⟨key, -, rfl⟩ := mem_map.mp hv
    unfold getLabelValue
    cases hf : s.labels.find? fun l => equalFold l.key key with
    | none => simp
    | some l => exact h s hs l (mem_of_find?_eq_some hf)
  rintro _ hv _ hw e
  obtain ⟨s, hs, rfl⟩ := mem_map.mp hv
  obtain ⟨t, ht, rfl⟩ := mem_map.mp hw
  exact joined_inj (by simp [tuple]) (hvalue s hs) (hvalue t ht) e

end

section
variable (equalFold : String → String → Bool) (c : Constraint) (stores : List StoreProto)

def Apart (i : Nat) : Prop := ((filterStores equalFold c stores).map (tuple equalFold (c.labels.take (i+1)))).Nodup

/-- **Label counting** is right where joining the values keeps them apart. -/
theorem label_counting_iff (hlabels : c.labels ≠ []) :
  (countLabelValues equalFold stores c.labels = (stores.map (tuple equalFold c.labels)).dedup.length ↔
    Set.InjOn joined {v | v ∈ stores.map (tuple equalFold c.labels)}) ∧
  (IsLevel (Apart equalFold c stores) c.labels.length (evalIsolationLevel equalFold c stores) ↔
    ∀ i < c.labels.length, Apart equalFold c stores i → (∀ j < i, ¬ Apart equalFold c stores j) →
      ((filterStores equalFold c stores).map (labelValues equalFold (c.labels.take (i+1)))).Nodup) ∧
  ((∀ s ∈ stores, ∀ l ∈ s.labels, '/' ∉ l.value.toList) →
    countLabelValues equalFold stores c.labels = (stores.map (tuple equalFold c.labels)).dedup.length ∧
    IsLevel (Apart equalFold c stores) c.labels.length (evalIsolationLevel equalFold c stores)) := by
  have hcount (i : Nat) : (countLabelValues equalFold (filterStores equalFold c stores) (c.labels.take (i+1)) ==
      (filterStores equalFold c stores).length) = true ↔
      ((filterStores equalFold c stores).map (labelValues equalFold (c.labels.take (i+1)))).Nodup := by
    have hne : (c.labels.take (i+1)).isEmpty = false := by simpa using hlabels
    unfold countLabelValues
    rw [beq_iff_eq, hne, if_neg Bool.false_ne_true, ← length_dedup_iff, length_map]
  have hlevel : IsLevel (Apart equalFold c stores) c.labels.length (evalIsolationLevel equalFold c stores) ↔ _ :=
    isLevel_find_iff (fun i hi => by
      have hjoined := (hcount i).mp hi
      rw [map_labelValues] at hjoined
      exact hjoined.of_map _) _
  simp only [hcount] at hlevel
  refine ⟨countLabelValues_iff hlabels, hlevel, fun hslash => ⟨(countLabelValues_iff hlabels).mpr ?_, hlevel.mpr ?_⟩⟩
  · exact injOn_of_noSlash hslash
  intro i _ hapart _
  rw [map_labelValues]
  exact hapart.map_on (injOn_of_noSlash fun s hs => hslash s (mem_filter.mp hs).1)

end

def twoLabels (zone rack : String) : StoreProto := ⟨1, "", .up, [⟨"zone", zone⟩, ⟨"rack", rack⟩], ""⟩
def zoneRack : Constraint := ⟨"isolation_level", [], ["zone", "rack"], ">=", 1⟩

theorem label_counting_iff_plain : countLabelValues (· == ·) [twoLabels "a" "b", twoLabels "a" "c"] zoneRack.labels =
  ([twoLabels "a" "b", twoLabels "a" "c"].map (tuple (· == ·) zoneRack.labels)).dedup.length :=
  ((label_counting_iff (· == ·) zoneRack _ (by decide)).2.2 (by decide +kernel)).1

theorem slash_values_joined :
    let stores := [twoLabels "a/b" "c", twoLabels "a" "b/c", twoLabels "a" "z"]
    (stores.all fun s => validateLabels s.labels) = true ∧ countLabelValues (· == ·) stores zoneRack.labels = 2 ∧
      (stores.map (tuple (· == ·) zoneRack.labels)).dedup.length = 3 ∧
      evalIsolationLevel (· == ·) zoneRack stores = 0 ∧
      ¬ Apart (· == ·) zoneRack stores 0 ∧ Apart (· == ·) zoneRack stores 1 := by
  unfold Apart
  decide +kernel

end PD.Placement
