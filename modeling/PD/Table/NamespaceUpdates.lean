import PD.Table.NamespaceClassifier

/-! # Updates of namespaces that fail -/

namespace PD.TableClassifier
open SortedMap

inductive Call where
  | createNamespace (alloc : Except String Nat) (name : String)
  | addNamespaceTableID (name : String) (tableID : Int64)
  | removeNamespaceTableID (name : String) (tableID : Int64)
  | addMetaToNamespace (name : String)
  | removeMeta (name : String)
  | addNamespaceStoreID (name : String) (storeID : Nat)
  | removeNamespaceStoreID (name : String) (storeID : Nat)

def call (c : TableClassifier) (saveErr : Option String) : Call → TableClassifier × Option String
  | .createNamespace alloc name => c.createNamespace alloc saveErr name
  | .addNamespaceTableID name tableID => c.addNamespaceTableID saveErr name tableID
  | .removeNamespaceTableID name tableID => c.removeNamespaceTableID saveErr name tableID
  | .addMetaToNamespace name => c.addMetaToNamespace saveErr name
  | .removeMeta name => c.removeMeta saveErr name
  | .addNamespaceStoreID name storeID => c.addNamespaceStoreID saveErr name storeID
  | .removeNamespaceStoreID name storeID => c.removeNamespaceStoreID saveErr name storeID

/-- The checks of the calls that change a namespace before they save it.  `CreateNamespace` saves first. -/
def refuses (c : TableClassifier) : Call → Bool
  | .createNamespace .. => true
  | .addNamespaceTableID name tableID => (c.namespaces.lookup name).all fun _ => c.isTableIDExist tableID
  | .removeNamespaceTableID name tableID => (c.namespaces.lookup name).all fun n => !n.tableIDs.contains tableID
  | .addMetaToNamespace name => (c.namespaces.lookup name).all fun _ => c.isMetaExist
  | .removeMeta name => (c.namespaces.lookup name).all fun n => !n.isMeta
  | .addNamespaceStoreID name storeID => (c.namespaces.lookup name).all fun _ => c.isStoreIDExist storeID
  | .removeNamespaceStoreID name storeID => (c.namespaces.lookup name).all fun n => !n.storeIDs.contains storeID

variable {c : TableClassifier} {saveErr : Option String} {name : String} {ns n : Namespace}
variable {check : Namespace → Option String} {f : Namespace → Namespace}

lemma putNamespaceLocked_err (h : (c.putNamespaceLocked saveErr ns).2 ≠ none) :
  (c.putNamespaceLocked saveErr ns).1 = c := by
  unfold putNamespaceLocked at *
  split at h <;> simp_all

lemma update_cases (c : TableClassifier) (name : String) (check : Namespace → Option String)
  (f : Namespace → Namespace) : (∃ err, ∀ saveErr, c.update saveErr name check f = (c, some err)) ∨
  ∃ n, c.namespaces.lookup name = some n ∧ check n = none ∧ ∀ saveErr, c.update saveErr name check f =
    { c with namespaces := c.namespaces.insert name (f n) }.putNamespaceLocked saveErr (f n) := by
  unfold update
  cases hn : c.namespaces.lookup name with
  | none => exact .inl ⟨_, fun _ => rfl⟩
  | some n =>
    cases hcheck : check n with
    | some err => exact .inl ⟨err, fun _ => by simp only [hcheck]⟩
    | none => exact .inr ⟨n, rfl, hcheck, fun _ => by simp only [hcheck]⟩

lemma createNamespace_cases (c : TableClassifier) (alloc : Except String Nat) (name : String) :
  (∃ err, ∀ saveErr, c.createNamespace alloc saveErr name = (c, some err)) ∨
  ∃ id, alloc = .ok id ∧ c.namespaces.lookup name = none ∧
    ∀ saveErr, c.createNamespace alloc saveErr name = c.putNamespaceLocked saveErr (newNamespace id name) := by
  unfold createNamespace
  split
  · exact .inl ⟨_, fun _ => rfl⟩
  split
  · exact .inl ⟨_, fun _ => rfl⟩
  split
  · exact .inl ⟨_, fun _ => rfl⟩
  next hnew =>
    cases alloc with
    | error err => exact .inl ⟨err, fun _ => rfl⟩
    | ok id => exact .inr ⟨id, rfl, by simpa using hnew, fun _ => rfl⟩

lemma isSome_found (b : Bool) (err : String) : (if b then some err else none).isSome = b := by cases b <;> rfl
lemma isSome_missing (b : Bool) (err : String) : (if b then none else some err).isSome = !b := by cases b <;> rfl

lemma update_failed {refused : Namespace → Bool} (hrefused : ∀ n, (check n).isSome = refused n)
  (hf : ∀ n, c.namespaces.lookup name = some n → check n = none → f n ≠ n)
  (h : (c.update saveErr name check f).2 ≠ none) : (c.update saveErr name check f).1.namespaces = c.namespaces ↔
    (c.namespaces.lookup name).all refused = true := by
  obtain rfl : (fun n => (check n).isSome) = refused := funext hrefused
  cases hn : c.namespaces.lookup name with
  | none => simp [update, hn]
  | some n =>
    cases hcheck : check n with
    | some _ => simp [update, hn, hcheck]
    | none =>
      have hput : c.update saveErr name check f =
          { c with namespaces := c.namespaces.insert name (f n) }.putNamespaceLocked saveErr (f n) := by
        simp only [update, hn, hcheck]
      rw [hput] at h
      rw [hput, putNamespaceLocked_err h]
      refine iff_of_false (fun hsame => ?_) (by simp [hcheck])
      have hlook := lookup_insert_self c.namespaces name (f n)
      rw [show c.namespaces.insert name (f n) = c.namespaces from hsame, hn] at hlook
      exact hf n hn hcheck (Option.some.inj hlook).symm

/-- **Updates that fail** leave the namespaces as they are exactly if the checks refuse the call. -/
theorem failed_call_iff (c : TableClassifier) (saveErr : Option String) (l : Call)
  (h : (c.call saveErr l).2 ≠ none) : (c.call saveErr l).1.namespaces = c.namespaces ↔ c.refuses l = true := by
  have hlist : ∀ {α : Type} (l : List α) (x : α), l ++ [x] ≠ l := by simp
  cases l with
  | createNamespace alloc name =>
    refine iff_of_true ?_ rfl
    change (c.createNamespace alloc saveErr name).2 ≠ none at h
    show (c.createNamespace alloc saveErr name).1.namespaces = _
    rcases createNamespace_cases c alloc name with ⟨err, hall⟩ | ⟨id, -, -, hall⟩
    · rw [hall]
    rw [hall] at h ⊢
    rw [putNamespaceLocked_err h]
  | addNamespaceTableID =>
    refine update_failed (fun _ => isSome_found _ _) (fun n _ _ e => ?_) h
    exact hlist _ _ (congrArg Namespace.tableIDs e)
  | removeNamespaceTableID =>
    refine update_failed (fun _ => isSome_missing _ _) (fun n hn hcheck e => ?_) h
    have e' := congrArg Namespace.tableIDs e
    simp at hcheck e'
    exact e' _ hcheck rfl
  | addMetaToNamespace name =>
    refine update_failed (fun _ => isSome_found _ _) (fun n hn hcheck e => ?_) h
    have hmeta : n.isMeta = true := (congrArg Namespace.isMeta e).symm
    have hexist : c.isMetaExist = true := List.any_eq_true.mpr ⟨n, mem_values.mpr ⟨name, hn⟩, hmeta⟩
    simp [hexist] at hcheck
  | removeMeta =>
    refine update_failed (fun _ => isSome_missing _ _) (fun n hn hcheck e => ?_) h
    have e' := congrArg Namespace.isMeta e
    simp at hcheck e'
    simp [hcheck] at e'
  | addNamespaceStoreID =>
    refine update_failed (fun _ => isSome_found _ _) (fun n _ _ e => ?_) h
    exact hlist _ _ (congrArg Namespace.storeIDs e)
  | removeNamespaceStoreID =>
    refine update_failed (fun _ => isSome_missing _ _) (fun n hn hcheck e => ?_) h
    have e' := congrArg Namespace.storeIDs e
    simp at hcheck e'
    exact e' _ hcheck rfl

def oneNamespace : TableClassifier := ⟨.insert .empty "ns1" (newNamespace 1 "ns1"), some .empty⟩

theorem failed_call_iff_refused :
  (oneNamespace.call (some "etcd") (.removeMeta "ns1")).1.namespaces = oneNamespace.namespaces :=
  (failed_call_iff oneNamespace (some "etcd") (.removeMeta "ns1") (by decide)).mpr (by decide)

/-- the table stays in the namespace although the save fails -/
theorem failed_save_adds : (oneNamespace.call (some "etcd") (.addNamespaceTableID "ns1" 7)).2 = some "etcd" ∧
  oneNamespace.isTableIDExist 7 = false ∧
  (oneNamespace.call (some "etcd") (.addNamespaceTableID "ns1" 7)).1.isTableIDExist 7 = true := by
  decide

end PD.TableClassifier
