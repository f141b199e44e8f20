import Mathlib.Data.String.Basic
import PD.Lib.Runs
import PD.Table.Codec

/-! # The table classifier of namespaces -/

namespace PD

def defaultNamespace : String := "global"

structure Namespace where
  id : Nat
  name : String
  tableIDs : List Int64
  storeIDs : List Nat
  isMeta : Bool
  deriving DecidableEq

def newNamespace (id : Nat) (name : String) : Namespace := ⟨id, name, [], [], false⟩

structure TableClassifier where
  namespaces : SortedMap String Namespace
  storage : Option (SortedMap Nat Namespace)

namespace TableClassifier
variable (c : TableClassifier)

def isTableIDExist (tableID : Int64) : Bool := c.namespaces.values.any fun ns => ns.tableIDs.contains tableID
def isStoreIDExist (storeID : Nat) : Bool := c.namespaces.values.any fun ns => ns.storeIDs.contains storeID
def isMetaExist : Bool := c.namespaces.values.any Namespace.isMeta

variable (saveErr : Option String)

def putNamespaceLocked (ns : Namespace) : TableClassifier × Option String :=
  match c.storage, saveErr with
  | none, _ => ({ c with namespaces := c.namespaces.insert ns.name ns }, none)
  | some _, some err => (c, some err)
  | some kv, none => (⟨c.namespaces.insert ns.name ns, some (kv.insert ns.id ns)⟩, none)

def isWord (ch : Char) : Bool := ch.isAlphanum || ch == '_'

def createNamespace (alloc : Except String Nat) (saveErr : Option String) (name : String) :
  TableClassifier × Option String :=
  if !(name != "" && name.toList.all isWord) then (c, some "Name should be 0-9, a-z or A-Z")
  else if name = defaultNamespace then (c, some s!"{name} is reserved as default namespace")
  else if (c.namespaces.lookup name).isSome then (c, some "Duplicate namespace Name")
  else
    match alloc with
    | .error err => (c, some err)
    | .ok id => c.putNamespaceLocked saveErr (newNamespace id name)

variable (name : String)

def update (check : Namespace → Option String) (f : Namespace → Namespace) : TableClassifier × Option String :=
  match c.namespaces.lookup name with
  | none => (c, some s!"invalid namespace Name {name}, not found")
  | some n =>
    match check n with
    | some err => (c, some err)
    | none => { c with namespaces := c.namespaces.insert name (f n) }.putNamespaceLocked saveErr (f n)

def addNamespaceTableID (tableID : Int64) : TableClassifier × Option String := c.update saveErr name
    (fun _ => if c.isTableIDExist tableID then some "Table ID already exists in this cluster" else none)
    fun n => { n with tableIDs := n.tableIDs ++ [tableID] }

def removeNamespaceTableID (tableID : Int64) : TableClassifier × Option String := c.update saveErr name
    (fun n => if n.tableIDs.contains tableID then none else some s!"Table ID {tableID} is not belong to {name}")
    fun n => { n with tableIDs := n.tableIDs.filter (· ≠ tableID) }

def addMetaToNamespace : TableClassifier × Option String :=
  c.update saveErr name (fun _ => if c.isMetaExist then some "meta is already set" else none)
    fun n => { n with isMeta := true }

def removeMeta : TableClassifier × Option String :=
  c.update saveErr name (fun n => if n.isMeta then none else some s!"meta is not belong to {name}")
    fun n => { n with isMeta := false }

def addNamespaceStoreID (storeID : Nat) : TableClassifier × Option String := c.update saveErr name
    (fun _ => if c.isStoreIDExist storeID then some "Store ID already exists in this namespace" else none)
    fun n => { n with storeIDs := n.storeIDs ++ [storeID] }

def removeNamespaceStoreID (storeID : Nat) : TableClassifier × Option String := c.update saveErr name
    (fun n => if n.storeIDs.contains storeID then none else some s!"Store ID {storeID} is not belong to {name}")
    fun n => { n with storeIDs := n.storeIDs.filter (· ≠ storeID) }

end TableClassifier

abbrev KeyKind := Bool × Int64
def Namespace.claims (ns : Namespace) (k : KeyKind) : Bool := ns.tableIDs.contains k.2 || (k.1 && ns.isMeta)

variable (order : List (String × Namespace))

def namespaceOf (k : KeyKind) : String :=
  if k.2 = 0 ∧ k.1 = false then defaultNamespace
  else ((order.find? fun e => e.2.claims k).map Prod.fst).getD defaultNamespace

def getRegionNamespace (region : RegionInfo) : String := namespaceOf order (Key.metaOrTable region.getMeta.startKey)

def allowMerge (one other : RegionInfo) : Bool :=
  decide (Key.tableID one.getMeta.startKey = Key.tableID other.getMeta.startKey)

section
variable (m : SortedMap String Namespace)

def claimants (k : KeyKind) : Set String := {name | ∃ ns, m.lookup name = some ns ∧ ns.claims k = true}

def AlwaysSame (k k' : KeyKind) : Prop :=
  ∀ order order' : List (String × Namespace), order.Perm m.entries → order'.Perm m.entries →
    namespaceOf order k = namespaceOf order' k'

def OneNamespace (k k' : KeyKind) : Prop :=
  if k = k' then k = (false, 0) ∨ (claimants m k).Subsingleton else claimants m (true, 0) ⊆ {defaultNamespace}

variable {m} {k k' : KeyKind} {order : List (String × Namespace)} {name : String}

lemma namespaceOf_cases (hord : order.Perm m.entries) (hk : k ≠ (false, 0)) :
  namespaceOf order k ∈ claimants m k ∨ claimants m k = ∅ ∧ namespaceOf order k = defaultNamespace := by
  have hne : ¬ (k.2 = 0 ∧ k.1 = false) := fun h => hk (Prod.ext h.2 h.1)
  unfold namespaceOf
  rw [if_neg hne]
  cases hf : order.find? fun e => e.2.claims k with
  | none =>
    refine .inr ⟨Set.eq_empty_iff_forall_notMem.mpr ?_, rfl⟩
    rintro name ⟨ns, hns, hclaims⟩
    have hin : (name, ns) ∈ order := hord.mem_iff.mpr (SortedMap.mem_entries.mpr hns)
    exact List.find?_eq_none.mp hf _ hin hclaims
  | some e =>
    have hin := hord.mem_iff.mp (List.mem_of_find?_eq_some hf)
    exact .inl ⟨e.2, SortedMap.mem_entries.mp hin, by simpa using List.find?_some hf⟩

lemma namespaceOf_neither : namespaceOf order (false, 0) = defaultNamespace := rfl

lemma exists_order (hk : k ≠ (false, 0)) (h : name ∈ claimants m k) :
  ∃ order, order.Perm m.entries ∧ namespaceOf order k = name := by
  have hne : ¬ (k.2 = 0 ∧ k.1 = false) := fun h => hk (Prod.ext h.2 h.1)
  obtain ⟨ns, hns, hclaims⟩ := h
  have hin : (name, ns) ∈ m.entries := SortedMap.mem_entries.mpr hns
  obtain ⟨as, bs, hsplit⟩ := List.append_of_mem hin
  refine ⟨(name, ns) :: (as ++ bs), ?_, ?_⟩
  · rw [hsplit]
    exact List.perm_middle.symm
  unfold namespaceOf
  rw [if_neg hne]
  simp [hclaims]

lemma alwaysSame_self : AlwaysSame m k k ↔ k = (false, 0) ∨ (claimants m k).Subsingleton := by
  constructor
  · intro h
    refine or_iff_not_imp_left.mpr fun hk name hname name' hname' => ?_
    obtain ⟨order, hord, rfl⟩ := exists_order hk hname
    obtain ⟨order', hord', rfl⟩ := exists_order hk hname'
    exact h order order' hord hord'
  rintro h order order' hord hord'
  by_cases hk : k = (false, 0)
  · rw [hk, namespaceOf_neither, namespaceOf_neither]
  have hone := h.resolve_left hk
  rcases namespaceOf_cases hord hk with hin | ⟨hempty, hdef⟩
  · rcases namespaceOf_cases hord' hk with hin' | ⟨hempty, -⟩
    · exact hone hin hin'
    rw [hempty] at hin
    exact absurd hin (Set.notMem_empty _)
  rcases namespaceOf_cases hord' hk with hin' | ⟨-, hdef'⟩
  · rw [hempty] at hin'
    exact absurd hin' (Set.notMem_empty _)
  · rw [hdef, hdef']

lemma alwaysSame_meta : AlwaysSame m (true, 0) (false, 0) ↔ claimants m (true, 0) ⊆ {defaultNamespace} := by
  have hk : ((true, 0) : KeyKind) ≠ (false, 0) := by simp
  constructor
  · intro h name hname
    obtain ⟨order, hord, rfl⟩ := exists_order hk hname
    exact h order m.entries hord (List.Perm.refl _)
  intro h order order' hord hord'
  rw [namespaceOf_neither]
  rcases namespaceOf_cases hord hk with hin | ⟨-, hdef⟩
  · exact h hin
  · exact hdef

lemma AlwaysSame.symm (h : AlwaysSame m k k') : AlwaysSame m k' k :=
  fun order order' hord hord' => (h order' order hord' hord).symm

lemma tableID_of_meta {key : Key} (h : (Key.metaOrTable key).1 = true) : (Key.metaOrTable key).2 = 0 := by
  unfold Key.metaOrTable at *
  split at h
  · simp at h
  split at h
  next hmeta => simp only [if_pos hmeta]
  · split at h
    · split at h <;> simp at h
    · simp at h

lemma alwaysSame_iff {a b : Key} (h : Key.tableID a = Key.tableID b) :
  AlwaysSame m (Key.metaOrTable a) (Key.metaOrTable b) ↔ OneNamespace m (Key.metaOrTable a) (Key.metaOrTable b) := by
  rw [tableID_eq_metaOrTable, tableID_eq_metaOrTable] at h
  have ha : (Key.metaOrTable a).1 = true → (Key.metaOrTable a).2 = 0 := tableID_of_meta
  have hb : (Key.metaOrTable b).1 = true → (Key.metaOrTable b).2 = 0 := tableID_of_meta
  unfold OneNamespace
  generalize Key.metaOrTable a = k at *
  generalize Key.metaOrTable b = k' at *
  obtain ⟨ma, ta⟩ := k
  obtain ⟨mb, tb⟩ := k'
  simp only at h ha hb
  subst h
  cases ma with
  | false =>
    cases mb with
    | false => rw [if_pos rfl]; exact alwaysSame_self
    | true =>
      rw [hb rfl, if_neg (by simp)]
      exact ⟨fun h => alwaysSame_meta.mp h.symm, fun h => (alwaysSame_meta.mpr h).symm⟩
  | true =>
    cases mb with
    | false => rw [ha rfl, if_neg (by simp)]; exact alwaysSame_meta
    | true => rw [if_pos rfl]; exact alwaysSame_self

end

/-- **Merging and namespaces.** -/
theorem allowMerge_same_iff (m : SortedMap String Namespace) (a b : RegionInfo) :
  (allowMerge a b = true → ∀ order order' : List (String × Namespace), order.Perm m.entries →
      order'.Perm m.entries → getRegionNamespace order a = getRegionNamespace order' b) ↔ (allowMerge a b = true →
      OneNamespace m (Key.metaOrTable a.getMeta.startKey) (Key.metaOrTable b.getMeta.startKey)) := by
  refine forall_congr' fun h => ?_
  exact alwaysSame_iff (of_decide_eq_true h)

def regionAt (id : Nat) (startKey : Key) : RegionInfo := newRegionInfo ⟨id, startKey, [], none, []⟩ none
lemma metaOrTable_metaPrefix : Key.metaOrTable (encodeBytes metaPrefix) = (true, 0) := by decide +kernel

theorem merge_across_namespaces :
    let c := (TableClassifier.createNamespace ⟨.empty, some .empty⟩ (.ok 1) none "ns1").1
    let c' := (c.addMetaToNamespace none "ns1").1
    let a := regionAt 2 (encodeBytes metaPrefix)
    let b := regionAt 1 []
    allowMerge a b = true ∧ getRegionNamespace c'.namespaces.entries a = "ns1" ∧
      getRegionNamespace c'.namespaces.entries b = "global" := by
  decide +kernel

end PD
