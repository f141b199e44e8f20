import Mathlib.Data.List.DropRight
import Mathlib.Tactic.IntervalCases
import PD.Lib.Pattern
import PD.Placement.Functions

/-! # The parser of placement constraints -/

namespace PD.Placement
open List Pattern

def functionList : List String := ["count", "label_values", "count_leader", "isolation_level"]
def opList : List String := ["<", "<=", "=", ">=", ">"]

def isSpace (c : Char) : Bool :=
  let n := c.toNat
  (9 ≤ n && n ≤ 13) || (8192 ≤ n && n ≤ 8202) || [32, 133, 160, 5760, 8232, 8233, 8239, 8287, 12288].contains n

def trimSpace (s : List Char) : List Char := (s.dropWhile isSpace).rdropWhile isSpace
def reSpace (c : Char) : Bool := ['\t', '\n', '\x0c', '\r', ' '].contains c
def argChar (c : Char) : Bool := c.isAlphanum || ['_', '-', '.'].contains c
def opChar (c : Char) : Bool := ['<', '>', '='].contains c
def valueChar (c : Char) : Bool := c.isDigit || ['+', '-'].contains c

def constraintPattern : List (Item Char) :=
  [.many (· != '\n') 1 true, .one (· == '('), .many (· != '\n') 0 true, .one (· == ')'), .many reSpace 0 false,
    .many opChar 1 true, .many reSpace 0 false, .many valueChar 1 true, .many reSpace 0 false]

def parserFunctionName (str : List Char) : Except String String :=
  let str := String.ofList (trimSpace str)
  if functionList.contains str then .ok str else .error s!"unexpected function name '{str}'"

def parseArgument (str : List Char) : Except String String :=
  let str := trimSpace str
  if !str.isEmpty && str.all argChar then .ok (String.ofList str)
  else .error s!"invalid argument '{String.ofList str}'"

def addArgument (acc : List Filter × List String) (sub : List Char) : Except String (List Filter × List String) :=
  if sub.contains ':' then do
    let key ← parseArgument (sub.takeWhile (· ≠ ':'))
    let value ← parseArgument (sub.dropWhile (· ≠ ':')).tail
    return (acc.1 ++ [⟨key, value⟩], acc.2)
  else do
    let label ← parseArgument sub
    return (acc.1, acc.2 ++ [label])

def parseArguments (str : List Char) : Except String (List Filter × List String) :=
  let str := trimSpace str
  if str.isEmpty then .ok ([], []) else (str.splitOn ',').foldlM addArgument ([], [])

def parseOp (str : List Char) : Except String String :=
  let str := String.ofList (trimSpace str)
  if opList.contains str then .ok str
  else .error ("expect one of \"<\", \"<=\", \"=\", \">=\", \">\", but got '" ++ str ++ "'")

def atoi (s : List Char) : Option Int :=
  let neg := s.head? == some '-'
  let ds := if neg || s.head? == some '+' then s.tail else s
  let n := Words.value 10 (ds.map fun c => c.toNat - 48)
  if ds.isEmpty || !ds.all Char.isDigit then none
  else if neg then if n ≤ 2^63 then some (-n) else none
  else if n < 2^63 then some n else none

def parseValue (str : List Char) : Except String Int :=
  match atoi (trimSpace str) with
  | some n => .ok n
  | none => .error s!"expected integer, but got '{String.ofList str}'"

def parseConstraint (str : List Char) : Except String Constraint :=
  match matchItems constraintPattern str with
  | some [m1, m2, m3, m4] => do
    let function ← parserFunctionName m1
    let (filters, labels) ← parseArguments m2
    let op ← parseOp m3
    let value ← parseValue m4
    return ⟨function, filters, labels, op, value⟩
  | _ => .error s!"bad format constraint '{String.ofList str}'"

def addConstraint (config : List Constraint) (sub : List Char) : Except String (List Constraint) :=
  if sub.isEmpty then .ok config
  else do
    let c ← parseConstraint sub
    return config ++ [c]

def parseConfig (str : String) : Except String (List Constraint) := (str.toList.splitOn ';').foldlM addConstraint []
def blank (c : Char) : Bool := c == ' ' || c == '\t'
def Pads (s t : List Char) : Prop := ∃ x y, (∀ c ∈ x, blank c = true) ∧ (∀ c ∈ y, blank c = true) ∧ t = x ++ (s ++ y)
def digitChar (d : Nat) : Char := Char.ofNat (48 + d)

def printInt (v : Int) : List Char :=
  let ds := (Words.numeral 10 v.natAbs).map digitChar
  if v < 0 then '-' :: ds else ds

def PrintsArgument : Filter ⊕ String → List Char → Prop
  | .inl f, t => ∃ k v, Pads f.key.toList k ∧ Pads f.value.toList v ∧ t = k ++ ':' :: v
  | .inr label, t => Pads label.toList t

def Constraint.arguments (c : Constraint) : List (Filter ⊕ String) := c.filters.map .inl ++ c.labels.map .inr
def Trimmed (s : List Char) : Prop := (∀ c ∈ s.head?, isSpace c = false) ∧ ∀ c ∈ s.getLast?, isSpace c = false

def PrintsArguments (args : List (Filter ⊕ String)) (t : List Char) : Prop :=
  ∃ subs, Forall₂ PrintsArgument args subs ∧ Trimmed ([','].intercalate subs) ∧ Pads ([','].intercalate subs) t

def PrintsConstraint (c : Constraint) (t : List Char) : Prop :=
  ∃ name args op value, Pads c.function.toList name ∧ PrintsArguments c.arguments args ∧ Pads c.op.toList op ∧
    Pads (printInt c.value) value ∧ t = name ++ '(' :: (args ++ ')' :: (op ++ value))

def PrintsConfig (config : List Constraint) (t : List Char) : Prop :=
  ∃ subs, Forall₂ PrintsConstraint config subs ∧ t = [';'].intercalate subs

def IsWord (s : String) : Prop := s.toList ≠ [] ∧ ∀ c ∈ s.toList, argChar c = true

structure WellFormed (c : Constraint) : Prop where
  function : c.function ∈ functionList
  filters : ∀ f ∈ c.filters, IsWord f.key ∧ IsWord f.value
  labels : ∀ l ∈ c.labels, IsWord l
  op : c.op ∈ opList
  value : -2^63 ≤ c.value ∧ c.value < 2^63

def solid (c : Char) : Bool := !isSpace c && !(['(', ')', ',', ':', ';'].contains c)

lemma solid_of_argChar {c : Char} (h : argChar c = true) : solid c = true := by
  have hascii : c.toNat < 128 := by
    change (decide (c.val ≥ 65 ∧ c.val ≤ 90) || (c.val ≥ 97 && c.val ≤ 122) || (c.val ≥ 48 && c.val ≤ 57) || _) = true
      at h
    simp only [Bool.or_eq_true, Bool.and_eq_true, decide_eq_true_eq, UInt32.le_iff_toNat_le, ge_iff_le,
      contains_iff_mem, mem_cons, not_mem_nil, or_false] at h
    rcases h with h | rfl | rfl | rfl
    · have hval : c.toNat = c.val.toNat := rfl
      simp at h
      omega
    all_goals decide
  have hall : ∀ n < 128, argChar (Char.ofNat n) = true → solid (Char.ofNat n) = true := by decide +kernel
  rw [← Char.ofNat_toNat c] at h ⊢
  exact hall _ hascii h

lemma blank_cases {c : Char} (h : blank c = true) : c = ' ' ∨ c = '\t' := by simpa [blank] using h

lemma space_of_blank {c : Char} (h : blank c = true) : isSpace c = true := by
  rcases blank_cases h with rfl | rfl <;> decide

lemma not_space_of_solid {c : Char} (h : solid c = true) : isSpace c = false := by
  simp [solid] at h
  exact h.1

lemma ne_of_printed {c d : Char} (hd : d ∈ ['(', ')', ',', ':', ';', '\n']) (h : solid c = true ∨ blank c = true) :
  c ≠ d := by
  rintro rfl
  simp at hd
  rcases hd with rfl | rfl | rfl | rfl | rfl | rfl <;> revert h <;> decide

lemma delimiters_sub : ∀ d ∈ ['(', ')', ';', '\n'], d ∈ ['(', ')', ',', ':', ';', '\n'] := by simp

section
variable {s t x y : List Char}

lemma Pads.forall {P : Char → Prop} (h : Pads s t) (hs : ∀ c ∈ s, P c) (hb : ∀ c, blank c = true → P c) :
  ∀ c ∈ t, P c := by
  obtain ⟨x, y, hx, hy, rfl⟩ := h
  intro c hc
  simp only [mem_append] at hc
  rcases hc with hc | hc | hc
  · exact hb c (hx c hc)
  · exact hs c hc
  · exact hb c (hy c hc)

lemma dropWhile_blank (hx : ∀ c ∈ x, blank c = true) (hs : ∀ c ∈ s.head?, isSpace c = false) :
  (x ++ s).dropWhile isSpace = s := by
  rw [dropWhile_append_of_pos fun c hc => space_of_blank (hx c hc)]
  cases s with
  | nil => rfl
  | cons a => exact dropWhile_cons_of_neg (by simp [hs a rfl])

lemma trimSpace_pads (h : Pads s t) (hs : Trimmed s) : trimSpace t = s := by
  obtain ⟨x, y, hx, hy, rfl⟩ := h
  have hy' : ∀ c ∈ y.reverse, blank c = true := by simpa using hy
  have hright : (s ++ y).rdropWhile isSpace = s := by
    unfold List.rdropWhile
    rw [reverse_append, dropWhile_blank hy' (by simpa using hs.2), reverse_reverse]
  unfold trimSpace
  cases s with
  | nil =>
    rw [dropWhile_append_of_pos fun c hc => space_of_blank (hx c hc), nil_append, ← append_nil y,
      dropWhile_blank hy (by simp)]
    rfl
  | cons a s => rw [dropWhile_blank (s := a :: s ++ y) hx hs.1, hright]

lemma trimmed_of_solid (hs : ∀ c ∈ s, solid c = true) : Trimmed s :=
  ⟨fun c hc => not_space_of_solid (hs c (mem_of_mem_head? hc)),
    fun c hc => not_space_of_solid (hs c (mem_of_mem_getLast? hc))⟩

end

section
variable {str : String} {t : List Char} {a : Filter ⊕ String} {args : List (Filter ⊕ String)} {subs : List (List Char)}

lemma IsWord.solid (h : IsWord str) : ∀ c ∈ str.toList, solid c = true := fun c hc => solid_of_argChar (h.2 c hc)

lemma parseArgument_pads (h : IsWord str) (ht : Pads str.toList t) : parseArgument t = .ok str := by
  unfold parseArgument
  rw [trimSpace_pads ht (trimmed_of_solid h.solid)]
  have hne : str.toList.isEmpty = false := by simpa using h.1
  have hall : str.toList.all argChar = true := all_eq_true.mpr h.2
  simp only [hne, hall, Bool.not_false, Bool.and_true, if_true, String.ofList_toList]

def Legal : Filter ⊕ String → Prop
  | .inl f => IsWord f.key ∧ IsWord f.value
  | .inr label => IsWord label

lemma Pads.printed (h : Pads str.toList t) (hw : IsWord str) : ∀ c ∈ t, Placement.solid c = true ∨ blank c = true :=
  h.forall (fun c hc => .inl (hw.solid c hc)) fun _ => .inr

lemma PrintsArgument.printed (h : PrintsArgument a t) (ha : Legal a) :
  ∀ c ∈ t, c = ':' ∨ solid c = true ∨ blank c = true := by
  cases a with
  | inl =>
    obtain ⟨k, v, hk, hv, rfl⟩ := h
    intro c hc
    simp only [mem_append, mem_cons] at hc
    rcases hc with hc | rfl | hc
    · exact .inr (hk.printed ha.1 c hc)
    · exact .inl rfl
    · exact .inr (hv.printed ha.2 c hc)
  | inr => exact fun c hc => .inr (Pads.printed h ha c hc)

def addTo (acc : List Filter × List String) : Filter ⊕ String → List Filter × List String
  | .inl f => (acc.1 ++ [f], acc.2)
  | .inr label => (acc.1, acc.2 ++ [label])

lemma addArgument_prints (h : PrintsArgument a t) (ha : Legal a) (acc : List Filter × List String) :
  addArgument acc t = .ok (addTo acc a) := by
  cases a with
  | inl =>
    obtain ⟨k, v, hk, hv, rfl⟩ := h
    have hcolon : ':' ∉ k := fun hc => ne_of_printed (by simp) (hk.printed ha.1 _ hc) rfl
    have hdrop : (k ++ ':' :: v).dropWhile (· ≠ ':') = ':' :: v := by
      rw [dropWhile_append_of_pos fun c hc => by simpa using ne_of_mem_of_not_mem hc hcolon]
      rfl
    unfold addArgument
    rw [if_pos (by simp), takeWhile_ne_append hcolon, hdrop, tail_cons, parseArgument_pads ha.1 hk,
      parseArgument_pads ha.2 hv]
    rfl
  | inr =>
    have hcolon : t.contains ':' = false := by
      refine Bool.eq_false_iff.mpr fun hc => ?_
      exact ne_of_printed (by simp) (Pads.printed h ha _ (contains_iff_mem.mp hc)) rfl
    unfold addArgument
    rw [hcolon, if_neg Bool.false_ne_true, parseArgument_pads ha h]
    rfl

lemma foldlM_addArgument (h : Forall₂ PrintsArgument args subs) (hargs : ∀ a ∈ args, Legal a)
  (acc : List Filter × List String) : subs.foldlM addArgument acc = .ok (args.foldl addTo acc) := by
  induction h generalizing acc with
  | nil => rfl
  | cons ha _ ih =>
    rw [foldlM_cons, addArgument_prints ha (hargs _ mem_cons_self)]
    exact ih (fun a ha => hargs a (mem_cons_of_mem _ ha)) _

lemma foldl_arguments (c : Constraint) : c.arguments.foldl addTo ([], []) = (c.filters, c.labels) := by
  have hfilters (fs gs : List Filter) (ls : List String) : (fs.map Sum.inl).foldl addTo (gs, ls) = (gs ++ fs, ls) := by
    induction fs generalizing gs with
    | nil => simp
    | cons f _ ih => simp [addTo, ih]
  have hlabels (ks ls : List String) (gs : List Filter) : (ks.map Sum.inr).foldl addTo (gs, ls) = (gs, ls ++ ks) := by
    induction ks generalizing ls with
    | nil => simp
    | cons k _ ih => simp [addTo, ih]
  rw [Constraint.arguments, foldl_append, hfilters, hlabels]
  rfl

lemma mem_intercalate {α : Type} {sep : List α} {ls : List (List α)} {a : α} (h : a ∈ sep.intercalate ls) :
  a ∈ sep ∨ ∃ l ∈ ls, a ∈ l := by
  induction ls with
  | nil => simp at h
  | cons l ls ih =>
    cases ls with
    | nil => exact .inr ⟨l, by simp, by simpa using h⟩
    | cons =>
      simp only [intercalate_cons_cons, mem_append] at h
      rcases h with (h | h) | h
      · exact .inr ⟨l, by simp, h⟩
      · exact .inl h
      refine (ih h).imp_right fun hmem => ?_
      obtain ⟨k, hk, ha⟩ := hmem
      exact ⟨k, mem_cons_of_mem _ hk, ha⟩

lemma exists_mem_of_forall₂ {α β : Type} {R : α → β → Prop} {as : List α} {bs : List β} (h : Forall₂ R as bs) :
  ∀ b ∈ bs, ∃ a ∈ as, R a b := by
  induction h with
  | nil => exact fun _ => nofun
  | cons hab _ ih =>
    intro b hb
    rcases mem_cons.mp hb with rfl | hb
    · exact ⟨_, mem_cons_self, hab⟩
    obtain ⟨a, ha, hr⟩ := ih b hb
    exact ⟨a, mem_cons_of_mem _ ha, hr⟩

lemma PrintsArgument.ne_nil (h : PrintsArgument a t) (ha : Legal a) : t ≠ [] := by
  cases a with
  | inl =>
    obtain ⟨k, v, -, -, rfl⟩ := h
    simp
  | inr =>
    rintro rfl
    exact ha.1 (trimSpace_pads h (trimmed_of_solid ha.solid)).symm

lemma parseArguments_prints (h : PrintsArguments args t) (hargs : ∀ a ∈ args, Legal a) :
  parseArguments t = .ok (args.foldl addTo ([], [])) := by
  obtain ⟨subs, hsubs, htrimmed, hpads⟩ := h
  unfold parseArguments
  rw [trimSpace_pads hpads htrimmed]
  cases hsubs with
  | nil => rfl
  | @cons a sub _ subs ha hrest =>
    have hsubs := Forall₂.cons ha hrest
    have hcomma : ∀ s ∈ sub :: subs, ',' ∉ s := by
      intro s hs hc
      obtain ⟨a, ha, hprints⟩ := exists_mem_of_forall₂ hsubs s hs
      rcases hprints.printed (hargs a ha) _ hc with e | hc
      · cases e
      · exact ne_of_printed (by simp) hc rfl
    have hempty : ([','].intercalate (sub :: subs)).isEmpty = false := by
      have hne := ha.ne_nil (hargs a mem_cons_self)
      cases subs <;> simp [hne]
    simp only [hempty, Bool.false_eq_true, if_false]
    rw [splitOn_intercalate ',' hcomma (by simp), foldlM_addArgument hsubs hargs]

lemma PrintsArguments.notMem (h : PrintsArguments args t) (hargs : ∀ a ∈ args, Legal a) :
  ∀ d ∈ ['(', ')', ';', '\n'], d ∉ t := by
  obtain ⟨subs, hsubs, -, hpads⟩ := h
  intro d hd hmem
  have hd' := delimiters_sub d hd
  refine hpads.forall (P := (· ≠ d)) (fun c hc => ?_) (fun c hc => ne_of_printed hd' (.inr hc)) d hmem rfl
  rintro rfl
  rcases mem_intercalate hc with hc | ⟨sub, hsub, hc⟩
  · obtain rfl := mem_singleton.mp hc
    simp at hd
  obtain ⟨a, ha, hprints⟩ := exists_mem_of_forall₂ hsubs sub hsub
  rcases hprints.printed (hargs a ha) c hc with rfl | hc
  · simp at hd
  · exact ne_of_printed hd' hc rfl

end

lemma op_spec : ∀ op ∈ opList, op.toList ≠ [] ∧
  ∀ c ∈ op.toList, solid c = true ∧ opChar c = true ∧ reSpace c = false := by
  have hall : opList.all (fun op => !op.toList.isEmpty && op.toList.all fun c => solid c && opChar c && !reSpace c) =
      true := by decide
  simpa [and_assoc] using hall

lemma function_spec : ∀ f ∈ functionList, f.toList ≠ [] ∧ ∀ c ∈ f.toList, solid c = true := by
  have hall : functionList.all (fun f => !f.toList.isEmpty && f.toList.all solid) = true := by decide
  simpa using hall

lemma blank_spec {c : Char} (h : blank c = true) : reSpace c = true ∧ opChar c = false ∧ valueChar c = false := by
  rcases blank_cases h with rfl | rfl <;> decide

structure IsDigitChar (c : Char) : Prop where
  solid : solid c = true
  digit : c.isDigit = true
  value : valueChar c = true
  apart : reSpace c = false ∧ opChar c = false
  unsigned : c ≠ '-' ∧ c ≠ '+'

lemma digitChar_spec : ∀ d < 10, IsDigitChar (digitChar d) ∧ (digitChar d).toNat - 48 = d := by
  intro d hd
  interval_cases d <;> exact ⟨⟨by decide, by decide, by decide, by decide, by decide⟩, by decide⟩

lemma numeral_chars (n : Nat) : ∀ c ∈ (Words.numeral 10 n).map digitChar, IsDigitChar c := by
  intro c hc
  obtain ⟨d, hd, rfl⟩ := mem_map.mp hc
  exact (digitChar_spec d (Words.numeral_bound 10 n (by decide) d hd)).1

lemma value_numeral_chars (n : Nat) :
  Words.value 10 (((Words.numeral 10 n).map digitChar).map fun c => c.toNat - 48) = n := by
  have hdigits : ((Words.numeral 10 n).map digitChar).map (fun c => c.toNat - 48) = Words.numeral 10 n := by
    rw [map_map]
    refine (map_congr_left fun d hd => ?_).trans (map_id _)
    exact (digitChar_spec d (Words.numeral_bound 10 n (by decide) d hd)).2
  rw [hdigits, Words.value_numeral]

lemma printInt_spec (v : Int) : printInt v ≠ [] ∧
  ∀ c ∈ printInt v, solid c = true ∧ valueChar c = true ∧ reSpace c = false ∧ opChar c = false := by
  have hne : (Words.numeral 10 v.natAbs).map digitChar ≠ [] := by simpa using Words.numeral_ne_nil 10 v.natAbs
  have hall : ∀ c ∈ (Words.numeral 10 v.natAbs).map digitChar,
      solid c = true ∧ valueChar c = true ∧ reSpace c = false ∧ opChar c = false := by
    intro c hc
    have hd := numeral_chars _ c hc
    exact ⟨hd.solid, hd.value, hd.apart⟩
  unfold printInt
  split
  · refine ⟨by simp, fun c hc => ?_⟩
    rcases mem_cons.mp hc with rfl | hc
    · decide
    · exact hall c hc
  · exact ⟨hne, hall⟩

lemma atoi_printInt {v : Int} (h1 : -2^63 ≤ v) (h2 : v < 2^63) : atoi (printInt v) = some v := by
  have hvalue := value_numeral_chars v.natAbs
  have hne : (Words.numeral 10 v.natAbs).map digitChar ≠ [] := by simpa using Words.numeral_ne_nil 10 v.natAbs
  have hdigits : ((Words.numeral 10 v.natAbs).map digitChar).all Char.isDigit = true :=
    all_eq_true.mpr fun c hc => (numeral_chars _ c hc).digit
  have hsign : ∀ c ∈ ((Words.numeral 10 v.natAbs).map digitChar).head?, c ≠ '-' ∧ c ≠ '+' :=
    fun c hc => (numeral_chars _ c (mem_of_mem_head? hc)).unsigned
  unfold printInt
  generalize (Words.numeral 10 v.natAbs).map digitChar = ds at *
  cases ds with
  | nil => exact absurd rfl hne
  | cons a =>
    obtain ⟨hminus, hplus⟩ := hsign a rfl
    rw [map_cons] at hvalue
    by_cases hneg : v < 0
    · have habs := abs_of_neg hneg
      simp [atoi, hneg, hvalue, hdigits]
      omega
    simp [atoi, hneg, hvalue, hdigits, hminus, hplus]
    omega

section
variable {c : Constraint} {t name args op value : List Char}

lemma WellFormed.legal (hc : WellFormed c) : ∀ a ∈ c.arguments, Legal a := by
  intro a ha
  rcases mem_append.mp ha with ha | ha
  · obtain ⟨f, hf, rfl⟩ := mem_map.mp ha
    exact hc.filters f hf
  obtain ⟨l, hl, rfl⟩ := mem_map.mp ha
  exact hc.labels l hl

lemma matchItems_opValue {o i : List Char} (hop : Pads o op) (hvalue : Pads i value) (ho : o ≠ []) (hi : i ≠ [])
  (hoc : ∀ c ∈ o, solid c = true ∧ opChar c = true ∧ reSpace c = false)
  (hic : ∀ c ∈ i, solid c = true ∧ valueChar c = true ∧ reSpace c = false ∧ opChar c = false) :
  matchItems [.many reSpace 0 false, .many opChar 1 true, .many reSpace 0 false, .many valueChar 1 true,
    .many reSpace 0 false] (op ++ value) = some [o, i] := by
  obtain ⟨x, y, hx, hy, rfl⟩ := hop
  obtain ⟨x', y', hx', hy', rfl⟩ := hvalue
  have hhead {s w : List Char} (hs : s ≠ []) (c : Char) (hc : c ∈ (s ++ w).head?) : c ∈ s := by
    rw [head?_append_of_ne_nil _ hs] at hc
    exact mem_of_mem_head? hc
  have hgap : ∀ c ∈ y ++ x', blank c = true := forall_mem_append.mpr ⟨hy, hx'⟩
  have hend : ∀ c ∈ (y' ++ []).head?, valueChar c = false := by
    rw [append_nil]
    exact fun c hc => (blank_spec (hy' c (mem_of_mem_head? hc))).2.2
  have hbetween : ∀ c ∈ ((y ++ x') ++ (i ++ (y' ++ []))).head?, opChar c = false := by
    intro c hc
    by_cases hempty : y ++ x' = []
    · rw [hempty] at hc
      exact (hic c (hhead hi c hc)).2.2.2
    · exact (blank_spec (hgap c (hhead hempty c hc))).2.1
  have hsplit : x ++ (o ++ y) ++ (x' ++ (i ++ y')) = x ++ (o ++ ((y ++ x') ++ (i ++ (y' ++ [])))) := by simp
  rw [hsplit]
  have h5 : matchItems [.many reSpace 0 false] (y' ++ []) = some [] :=
    matchItems_class false (fun c hc => (blank_spec (hy' c hc)).1) (by simp) (Nat.zero_le _) rfl
  have h4 := matchItems_class true (fun c hc => (hic c hc).2.1) hend (length_pos_of_ne_nil hi) h5
  have h3 := matchItems_class false (fun c hc => (blank_spec (hgap c hc)).1)
    (fun c hc => (hic c (hhead hi c hc)).2.2.1) (Nat.zero_le _) h4
  have h2 := matchItems_class true (fun c hc => (hoc c hc).2.1) hbetween (length_pos_of_ne_nil ho) h3
  exact matchItems_class false (fun c hc => (blank_spec (hx c hc)).1)
    (fun c hc => (hoc c (hhead ho c hc)).2.2) (Nat.zero_le _) h2

lemma Pads.notMem {s : List Char} (h : Pads s t) (hs : ∀ c ∈ s, solid c = true) :
  ∀ d ∈ ['(', ')', ';', '\n'], d ∉ t := by
  intro d hd hmem
  have hprinted := h.forall (P := fun c => solid c = true ∨ blank c = true) (fun c hc => .inl (hs c hc)) fun _ => .inr
  exact ne_of_printed (delimiters_sub d hd) (hprinted d hmem) rfl

structure Parts (c : Constraint) (n a o v : List Char) : Prop where
  name : Pads c.function.toList n
  args : PrintsArguments c.arguments a
  op : Pads c.op.toList o
  value : Pads (printInt c.value) v
  free : ∀ d ∈ ['(', ')', ';', '\n'], d ∉ n ∧ d ∉ a ∧ d ∉ o ++ v

lemma PrintsConstraint.parts (h : PrintsConstraint c t) (hc : WellFormed c) :
  ∃ name args op value, Parts c name args op value ∧ t = name ++ '(' :: (args ++ ')' :: (op ++ value)) := by
  obtain ⟨name, args, op, value, hname, hargs, hop, hvalue, rfl⟩ := h
  refine ⟨name, args, op, value, ⟨hname, hargs, hop, hvalue, fun d hd => ⟨?_, ?_, ?_⟩⟩, rfl⟩
  · exact hname.notMem (function_spec _ hc.function).2 d hd
  · exact hargs.notMem hc.legal d hd
  rw [mem_append, not_or]
  exact ⟨hop.notMem (fun c hmem => ((op_spec _ hc.op).2 c hmem).1) d hd,
    hvalue.notMem (fun c hmem => ((printInt_spec _).2 c hmem).1) d hd⟩

lemma matchItems_constraint (hc : WellFormed c) (h : Parts c name args op value) :
  matchItems constraintPattern (name ++ '(' :: (args ++ ')' :: (op ++ value))) =
    some [name, args, c.op.toList, printInt c.value] := by
  obtain ⟨hone, hoc⟩ := op_spec c.op hc.op
  obtain ⟨hine, hic⟩ := printInt_spec c.value
  have hlen : 1 ≤ name.length := by
    obtain ⟨x, y, -, -, rfl⟩ := h.name
    have hpos := length_pos_of_ne_nil (function_spec c.function hc.function).1
    simp only [length_append]
    omega
  have hdot {s : List Char} (hs : '\n' ∉ s) : ∀ c ∈ s, (c != '\n') = true := by
    intro c hmem
    simpa using ne_of_mem_of_not_mem hmem hs
  obtain ⟨hopen, hopen', hopen''⟩ := h.free '(' (by simp)
  obtain ⟨-, hclose, hclose'⟩ := h.free ')' (by simp)
  obtain ⟨hline, hline', -⟩ := h.free '\n' (by simp)
  have hafter : '(' ∉ args ++ ')' :: (op ++ value) := by
    simp only [mem_append, mem_cons, not_or] at hopen'' ⊢
    exact ⟨hopen', by decide, hopen''⟩
  unfold constraintPattern
  rw [matchItems_delim (hdot hline) hopen hafter hlen, matchItems_delim (hdot hline') hclose hclose' (Nat.zero_le _),
    matchItems_opValue h.op h.value hone hine hoc hic]
  rfl

lemma parseConstraint_prints (hc : WellFormed c) (h : PrintsConstraint c t) : parseConstraint t = .ok c := by
  obtain ⟨name, args, op, value, hparts, rfl⟩ := h.parts hc
  have hpads (s : List Char) : Pads s s := ⟨[], [], by simp, by simp, by simp⟩
  have hname : parserFunctionName name = .ok c.function := by
    unfold parserFunctionName
    rw [trimSpace_pads hparts.name (trimmed_of_solid (function_spec _ hc.function).2), String.ofList_toList]
    exact if_pos (contains_iff_mem.mpr hc.function)
  have hop : parseOp c.op.toList = .ok c.op := by
    unfold parseOp
    rw [trimSpace_pads (hpads _) (trimmed_of_solid fun c hmem => ((op_spec _ hc.op).2 c hmem).1), String.ofList_toList]
    exact if_pos (contains_iff_mem.mpr hc.op)
  have hvalue : parseValue (printInt c.value) = .ok c.value := by
    unfold parseValue
    rw [trimSpace_pads (hpads _) (trimmed_of_solid fun c hmem => ((printInt_spec _).2 c hmem).1),
      atoi_printInt hc.value.1 hc.value.2]
  unfold parseConstraint
  rw [matchItems_constraint hc hparts]
  simp only [hname, hop, hvalue, parseArguments_prints hparts.args hc.legal, foldl_arguments]
  rfl

lemma foldlM_addConstraint {config done : List Constraint} {subs : List (List Char)}
  (h : Forall₂ PrintsConstraint config subs) (hconfig : ∀ c ∈ config, WellFormed c) :
  subs.foldlM addConstraint done = .ok (done ++ config) := by
  induction h generalizing done with
  | nil => rw [append_nil]; rfl
  | @cons c sub _ _ hc _ ih =>
    have hwf := hconfig c mem_cons_self
    have hempty : sub.isEmpty = false := by
      obtain ⟨name, args, op, value, -, rfl⟩ := hc.parts hwf
      simp
    have hadd : addConstraint done sub = .ok (done ++ [c]) := by
      unfold addConstraint
      rw [hempty, if_neg Bool.false_ne_true, parseConstraint_prints hwf hc]
      rfl
    rw [foldlM_cons, hadd]
    refine (ih fun c hc => hconfig c (mem_cons_of_mem _ hc)).trans ?_
    rw [append_assoc, singleton_append]

end

/-- **Parsing inverts printing.**  For every list of constraints and every placement of blanks. -/
theorem parseConfig_prints (config : List Constraint) (hconfig : ∀ c ∈ config, WellFormed c) (str : String)
  (h : PrintsConfig config str.toList) : parseConfig str = .ok config := by
  obtain ⟨subs, hsubs, hstr⟩ := h
  unfold parseConfig
  rw [hstr]
  cases config with
  | nil =>
    cases hsubs
    rfl
  | cons c =>
    have hsemi : ∀ sub ∈ subs, ';' ∉ sub := by
      intro sub hsub
      obtain ⟨c, hc, hprints⟩ := exists_mem_of_forall₂ hsubs sub hsub
      obtain ⟨name, args, op, value, hparts, rfl⟩ := hprints.parts (hconfig c hc)
      obtain ⟨hname, hargs, hrest⟩ := hparts.free ';' (by simp)
      simp only [mem_append, mem_cons, not_or] at hrest ⊢
      exact ⟨hname, by decide, hargs, by decide, hrest⟩
    have hne : subs ≠ [] := by
      rintro rfl
      cases hsubs
    rw [splitOn_intercalate ';' hsemi hne, foldlM_addConstraint hsubs hconfig, nil_append]

theorem parseConfig_prints_two : parseConfig "label_values(zone:z1, host)>=2;count( )<5" =
    .ok [⟨"label_values", [⟨"zone", "z1"⟩], ["host"], ">=", 2⟩, ⟨"count", [], [], "<", 5⟩] := by
  have hword (s : String) (h : (s.toList != [] && s.toList.all argChar) = true) : IsWord s := by
    rw [Bool.and_eq_true, bne_iff_ne, all_eq_true] at h
    exact h
  have hpads (s : String) : Pads s.toList s.toList := ⟨[], [], by simp, by simp, by simp⟩
  refine parseConfig_prints _ (fun c hc => ?_) _
    ⟨["label_values(zone:z1, host)>=2".toList, "count( )<5".toList], .cons ?_ (.cons ?_ .nil), rfl⟩
  · rcases mem_pair.mp hc with rfl | rfl
    · refine ⟨by decide, fun f hf => ?_, fun l hl => ?_, by decide, by decide⟩
      · rw [mem_singleton.mp hf]
        exact ⟨hword _ (by decide), hword _ (by decide)⟩
      rw [mem_singleton.mp hl]
      exact hword _ (by decide)
    · exact ⟨by decide, by simp, by simp, by decide, by decide⟩
  · refine ⟨"label_values".toList, "zone:z1, host".toList, ">=".toList, "2".toList, hpads _, ?_, hpads _, ?_, rfl⟩
    · refine ⟨["zone:z1".toList, " host".toList], .cons ⟨_, _, hpads "zone", hpads "z1", rfl⟩ (.cons ?_ .nil), ?_,
        hpads _⟩
      · exact ⟨[' '], [], by simp [blank], by simp, rfl⟩
      · exact ⟨fun c hc => Option.some.inj hc ▸ rfl, fun c hc => Option.some.inj hc ▸ rfl⟩
    · exact ⟨[], [], by simp, by simp, by simp [printInt, Words.numeral, digitChar]⟩
  refine ⟨"count".toList, " ".toList, "<".toList, "5".toList, hpads _, ?_, hpads _, ?_, rfl⟩
  · exact ⟨[], .nil, by simp [Trimmed], [' '], [], by simp [blank], by simp, rfl⟩
  · exact ⟨[], [], by simp, by simp, by simp [printInt, Words.numeral, digitChar]⟩

end PD.Placement
