import Mathlib.Data.List.Nodup
import PD.Table.LoadNamespaces
import PD.Table.NamespaceUpdates

/-! # The partition of tables and stores into namespaces -/

namespace PD.TableClassifier
open List SortedMap

inductive Op where
  | call (saveErr : Option String) (l : Call)
  | reload (loads : Bool)

def start : TableClassifier := ⟨.empty, some .empty⟩

def step (c : TableClassifier) : Op → Option TableClassifier
  | .call saveErr l => some (c.call saveErr l).1
  | .reload loads => c.storage.bind fun kv =>
    if loads then (loadNamespaces kv (kv.size + 1)).map fun m => { c with namespaces := m } else some c

def Clean (c : TableClassifier) : Op → Prop
  | .call saveErr l => saveErr = none ∧ ∀ id name, l = .createNamespace (.ok id) name →
      id < maxUint64 ∧ ∀ kv, c.storage = some kv → kv.lookup id = none
  | .reload _ => True

def AtMostOne (m : Namespaces) (p : Namespace → Prop) : Prop :=
  ∀ name name' ns ns', m.lookup name = some ns → m.lookup name' = some ns' → p ns → p ns' → name = name'

structure Partition (m : Namespaces) : Prop where
  named : ∀ name ns, m.lookup name = some ns → ns.name = name
  tables : ∀ t, AtMostOne m (t ∈ ·.tableIDs)
  stores : ∀ s, AtMostOne m (s ∈ ·.storeIDs)
  metas : AtMostOne m (·.isMeta = true)

structure Saved (c : TableClassifier) (kv : SortedMap Nat Namespace) : Prop where
  partition : Partition c.namespaces
  storage : c.storage = some kv
  content : ∀ id ns, kv.lookup id = some ns ↔ ns.id = id ∧ c.namespaces.lookup ns.name = some ns
  ids : ∀ id ns, kv.lookup id = some ns → id < maxUint64

section
variable {c : TableClassifier} {kv : SortedMap Nat Namespace} {m : Namespaces} {ns n : Namespace} {name : String}
variable {check : Namespace → Option String} {f : Namespace → Namespace}

lemma AtMostOne.insert {p : Namespace → Prop} (h : AtMostOne m p)
  (hp : ∀ name' ns', m.lookup name' = some ns' → p ns' → p ns → name' = name) : AtMostOne (m.insert name ns) p := by
  intro a b x y hx hy hpx hpy
  rcases lookup_insert_some.mp hx with ⟨rfl, rfl⟩ | ⟨-, hx'⟩
  · rcases lookup_insert_some.mp hy with ⟨rfl, -⟩ | ⟨-, hy'⟩
    · rfl
    · exact (hp b y hy' hpy hpx).symm
  rcases lookup_insert_some.mp hy with ⟨rfl, rfl⟩ | ⟨-, hy'⟩
  · exact hp a x hx' hpx hpy
  · exact h a b x y hx' hy' hpx hpy

def Grants (m : Namespaces) (name : String) (p : Namespace → Prop) (ns : Namespace) : Prop :=
  p ns → (∃ n, m.lookup name = some n ∧ p n) ∨ ∀ name' ns', m.lookup name' = some ns' → ¬ p ns'

lemma AtMostOne.insert_of_grants {p : Namespace → Prop} (h : AtMostOne m p) (hg : Grants m name p ns) :
  AtMostOne (m.insert name ns) p := by
  refine h.insert fun name' ns' hns' hp' hp => ?_
  rcases hg hp with ⟨n, hn, hpn⟩ | hnone
  · exact h name' name ns' n hns' hn hp' hpn
  · exact absurd hp' (hnone name' ns' hns')

structure Fits (m : Namespaces) (ns : Namespace) : Prop where
  tables : ∀ t, Grants m ns.name (t ∈ ·.tableIDs) ns
  stores : ∀ s, Grants m ns.name (s ∈ ·.storeIDs) ns
  metas : Grants m ns.name (·.isMeta = true) ns

lemma Saved.put (h : Saved c kv) (hfits : Fits c.namespaces ns) (hid : ns.id < maxUint64)
  (hname : ∀ n, c.namespaces.lookup ns.name = some n → n.id = ns.id)
  (hkey : ∀ n, kv.lookup ns.id = some n → n.name = ns.name) :
  Saved ⟨c.namespaces.insert ns.name ns, some (kv.insert ns.id ns)⟩ (kv.insert ns.id ns) where
  partition := {
    named := forall_insert (P := fun name (ns : Namespace) => ns.name = name) rfl h.partition.named
    tables := fun t => (h.partition.tables t).insert_of_grants (hfits.tables t)
    stores := fun s => (h.partition.stores s).insert_of_grants (hfits.stores s)
    metas := h.partition.metas.insert_of_grants hfits.metas }
  storage := rfl
  content := by
    intro id x
    rw [lookup_insert_some, lookup_insert_some, h.content]
    constructor
    · rintro (⟨rfl, rfl⟩ | ⟨hne, rfl, hx⟩)
      · exact ⟨rfl, .inl ⟨rfl, rfl⟩⟩
      · exact ⟨rfl, .inr ⟨fun e => hne (hname x (e ▸ hx)), hx⟩⟩
    rintro ⟨rfl, ⟨-, rfl⟩ | ⟨hne, hx⟩⟩
    · exact .inl ⟨rfl, rfl⟩
    refine .inr ⟨fun e => hne (hkey x ?_), rfl, hx⟩
    exact (h.content _ _).mpr ⟨e, hx⟩
  ids := forall_insert (P := fun id (_ : Namespace) => id < maxUint64) hid h.ids

lemma Saved.update (h : Saved c kv) (hid : ∀ n, (f n).id = n.id) (hname : ∀ n, (f n).name = n.name)
  (hfits : ∀ n, c.namespaces.lookup name = some n → check n = none → Fits c.namespaces (f n)) :
  ∃ kv', Saved (c.update none name check f).1 kv' := by
  rcases update_cases c name check f with ⟨err, hall⟩ | ⟨n, hn, hcheck, hall⟩
  · exact ⟨kv, by rw [hall]; exact h⟩
  have hnn := h.partition.named name n hn
  have hkv : kv.lookup n.id = some n := (h.content _ _).mpr ⟨rfl, by rw [hnn]; exact hn⟩
  have hput := h.put (hfits n hn hcheck) (by rw [hid]; exact h.ids _ _ hkv)
    (by rw [hname, hnn, hid]; intro x hx; rw [hn] at hx; cases hx; rfl)
    (by rw [hname, hid]; intro x hx; rw [hkv] at hx; cases hx; rfl)
  refine ⟨kv.insert (f n).id (f n), ?_⟩
  rw [hall]
  unfold putNamespaceLocked
  rw [h.storage]
  show Saved ⟨(c.namespaces.insert name (f n)).insert (f n).name (f n), _⟩ _
  rw [hname, hnn, insert_insert]
  rwa [hname, hnn] at hput

lemma Grants.of_imp {p : Namespace → Prop} (hn : m.lookup ns.name = some n) (h : p ns → p n) :
    Grants m ns.name p ns := fun hp => .inl ⟨n, hn, h hp⟩

lemma not_of_any {p : Namespace → Bool} (h : c.namespaces.values.any p = false) :
  ∀ name' ns', c.namespaces.lookup name' = some ns' → ¬ p ns' = true := by
  intro name' ns' hns' hp
  rw [List.any_eq_false] at h
  exact h ns' (mem_values.mpr ⟨name', hns'⟩) hp

lemma Saved.call (h : Saved c kv) {l : Call} (hclean : Clean c (.call none l)) :
  ∃ kv', Saved (c.call none l).1 kv' := by
  cases l with
  | createNamespace alloc name =>
    show ∃ kv', Saved (c.createNamespace alloc none name).1 kv'
    rcases createNamespace_cases c alloc name with ⟨err, hall⟩ | ⟨id, rfl, hnew, hall⟩
    · exact ⟨kv, by rw [hall]; exact h⟩
    obtain ⟨hid, hfresh⟩ := hclean.2 id name rfl
    refine ⟨kv.insert id (newNamespace id name), ?_⟩
    rw [hall]
    unfold putNamespaceLocked
    rw [h.storage]
    refine h.put (show Fits c.namespaces (newNamespace id name) from ⟨?_, ?_, ?_⟩) hid ?_ ?_
    · exact fun t ht => absurd ht not_mem_nil
    · exact fun s hs => absurd hs not_mem_nil
    · exact fun hmeta => absurd hmeta Bool.false_ne_true
    · exact fun n hn => absurd (hnew.symm.trans hn) (Option.some_ne_none n).symm
    · exact fun n hn => absurd ((hfresh kv h.storage).symm.trans hn) (Option.some_ne_none n).symm
  | addNamespaceTableID name tableID =>
    refine h.update (fun _ => rfl) (fun _ => rfl) fun n hn hcheck => ?_
    rw [← h.partition.named name n hn] at hn
    refine ⟨fun t ht => ?_, fun s => .of_imp hn id, .of_imp hn id⟩
    rcases mem_append.mp ht with ht | ht
    · exact .inl ⟨n, hn, ht⟩
    refine .inr fun name' ns' hns' hmem => ?_
    rw [mem_singleton.mp ht] at hmem
    have hfree : c.isTableIDExist tableID = false := by simpa using hcheck
    exact not_of_any hfree name' ns' hns' (by simpa using hmem)
  | removeNamespaceTableID name =>
    refine h.update (fun _ => rfl) (fun _ => rfl) fun n hn _ => ?_
    rw [← h.partition.named name n hn] at hn
    exact ⟨fun t => .of_imp hn mem_of_mem_filter, fun s => .of_imp hn id, .of_imp hn id⟩
  | addMetaToNamespace name =>
    refine h.update (fun _ => rfl) (fun _ => rfl) fun n hn hcheck => ?_
    rw [← h.partition.named name n hn] at hn
    refine ⟨fun t => .of_imp hn id, fun s => .of_imp hn id, fun _ => .inr ?_⟩
    have hfree : c.isMetaExist = false := by simpa using hcheck
    exact not_of_any hfree
  | removeMeta name =>
    refine h.update (fun _ => rfl) (fun _ => rfl) fun n hn _ => ?_
    rw [← h.partition.named name n hn] at hn
    exact ⟨fun t => .of_imp hn id, fun s => .of_imp hn id, .of_imp hn fun e => absurd e Bool.false_ne_true⟩
  | addNamespaceStoreID name storeID =>
    refine h.update (fun _ => rfl) (fun _ => rfl) fun n hn hcheck => ?_
    rw [← h.partition.named name n hn] at hn
    refine ⟨fun t => .of_imp hn id, fun s hs => ?_, .of_imp hn id⟩
    rcases mem_append.mp hs with hs | hs
    · exact .inl ⟨n, hn, hs⟩
    refine .inr fun name' ns' hns' hmem => ?_
    rw [mem_singleton.mp hs] at hmem
    have hfree : c.isStoreIDExist storeID = false := by simpa using hcheck
    exact not_of_any hfree name' ns' hns' (by simpa using hmem)
  | removeNamespaceStoreID name =>
    refine h.update (fun _ => rfl) (fun _ => rfl) fun n hn _ => ?_
    rw [← h.partition.named name n hn] at hn
    exact ⟨fun t => .of_imp hn id, fun s => .of_imp hn mem_of_mem_filter, .of_imp hn id⟩

lemma Saved.load (h : Saved c kv) {fuel : Nat} (hfuel : kv.size < fuel) :
  loadNamespaces kv fuel = some c.namespaces := by
  rw [loadNamespaces_eq (fun id ns hns => ⟨((h.content id ns).mp hns).1, h.ids id ns hns⟩) hfuel]
  refine congrArg some (ext_lookup fun name => Option.ext fun ns => ?_)
  rw [lookup_insertAll_empty, List.mem_map]
  · constructor
    · rintro ⟨⟨id, x⟩, hx, e⟩
      cases e
      exact ((h.content id x).mp (mem_entries.mp hx)).2
    intro hns
    have hname := h.partition.named name ns hns
    exact ⟨(ns.id, ns), mem_entries.mpr ((h.content _ _).mpr ⟨rfl, hname ▸ hns⟩), by rw [hname]⟩
  rw [List.map_map]
  refine Nodup.map_on ?_ (entries_nodup kv)
  rintro ⟨id, x⟩ hx ⟨id', y⟩ hy e
  obtain ⟨rfl, hx'⟩ := (h.content id x).mp (mem_entries.mp hx)
  obtain ⟨rfl, hy'⟩ := (h.content id' y).mp (mem_entries.mp hy)
  rw [show x.name = y.name from e, hy'] at hx'
  cases hx'
  rfl

lemma saved_step {op : Op} (h : ∃ kv, Saved c kv) (hclean : Clean c op) :
  ∃ c', c.step op = some c' ∧ ∃ kv, Saved c' kv := by
  obtain ⟨kv, h⟩ := h
  cases op with
  | call =>
    obtain rfl := hclean.1
    exact ⟨_, rfl, h.call hclean⟩
  | reload loads =>
    simp only [step, h.storage, Option.bind_some]
    cases loads with
    | false => exact ⟨c, rfl, kv, h⟩
    | true =>
      rw [if_pos rfl, h.load (Nat.lt_succ_self _)]
      refine ⟨_, rfl, kv, ?_⟩
      exact ⟨h.partition, rfl, h.content, h.ids⟩

lemma saved_start : Saved start .empty where
  partition := ⟨nofun, fun _ _ _ _ _ => nofun, fun _ _ _ _ _ => nofun, fun _ _ _ _ => nofun⟩
  storage := rfl
  content := fun _ _ => ⟨fun h => (by cases h), fun h => (by cases h.2)⟩
  ids := nofun

lemma saved_run {ops : List Op} (hclean : Runs.Along step Clean start ops) :
  ∃ c, Runs.exec step start ops = some c ∧ ∃ kv, Saved c kv :=
  Runs.exec_total (fun c => ∃ kv, Saved c kv) (fun _ _ h hop => saved_step h hop) ⟨_, saved_start⟩ hclean

end

/-- **Namespaces partition tables and stores.** -/
theorem namespaces_partition (ops : List Op) (hclean : Runs.Along step Clean start ops) :
  ∃ c kv, Runs.exec step start ops = some c ∧ c.storage = some kv ∧ Partition c.namespaces ∧
    ∀ fuel, kv.size < fuel → loadNamespaces kv fuel = some c.namespaces := by
  obtain ⟨c, hrun, kv, h⟩ := saved_run hclean
  exact ⟨c, kv, hrun, h.storage, h.partition, fun fuel hfuel => h.load hfuel⟩

lemma claimants_iff {m : Namespaces} (h : Partition m) (key : Key) :
  (Key.metaOrTable key = (false, 0) ∨ (claimants m (Key.metaOrTable key)).Subsingleton) ↔
    ((Key.metaOrTable key).1 = true → ∀ a b x y, m.lookup a = some x → m.lookup b = some y →
      0 ∈ x.tableIDs → y.isMeta = true → a = b) := by
  have hzero := @tableID_of_meta key
  generalize Key.metaOrTable key = k at *
  obtain ⟨isMeta, tableID⟩ := k
  cases isMeta with
  | false =>
    refine iff_of_true (.inr ?_) (fun hm => absurd hm Bool.false_ne_true)
    rintro a ⟨x, hx, hxt⟩ b ⟨y, hy, hyt⟩
    exact h.tables tableID a b x y hx hy (by simpa [Namespace.claims] using hxt) (by simpa [Namespace.claims] using hyt)
  | true =>
    obtain rfl : tableID = 0 := hzero rfl
    have hclaims : ∀ ns : Namespace, ns.claims (true, 0) = true ↔ 0 ∈ ns.tableIDs ∨ ns.isMeta = true := by
      simp [Namespace.claims]
    constructor
    · intro hone _ a b x y hx hy hxz hym
      have hsub := hone.resolve_left (by simp)
      exact hsub ⟨x, hx, (hclaims x).mpr (.inl hxz)⟩ ⟨y, hy, (hclaims y).mpr (.inr hym)⟩
    intro hsame
    refine .inr ?_
    rintro a ⟨x, hx, hxc⟩ b ⟨y, hy, hyc⟩
    rcases (hclaims x).mp hxc with hxz | hxm
    · rcases (hclaims y).mp hyc with hyz | hym
      · exact h.tables 0 a b x y hx hy hxz hyz
      · exact hsame rfl a b x y hx hy hxz hym
    rcases (hclaims y).mp hyc with hyz | hym
    · exact (hsame rfl b a y x hy hx hyz hxm).symm
    · exact h.metas a b x y hx hy hxm hym

def OrderFree (m : Namespaces) (region : RegionInfo) : Prop :=
  ∀ order order' : List (String × Namespace), order.Perm m.entries → order'.Perm m.entries →
    getRegionNamespace order region = getRegionNamespace order' region

/-- **The namespace of a region.** -/
theorem regionNamespace_iff (ops : List Op) (c : TableClassifier) (hc : Runs.exec step start ops = some c)
  (region : RegionInfo) : (OrderFree c.namespaces region ↔ Key.metaOrTable region.getMeta.startKey = (false, 0) ∨
    (claimants c.namespaces (Key.metaOrTable region.getMeta.startKey)).Subsingleton) ∧
  (Runs.Along step Clean start ops → (OrderFree c.namespaces region ↔
    ((Key.metaOrTable region.getMeta.startKey).1 = true → ∀ a b x y, c.namespaces.lookup a = some x →
      c.namespaces.lookup b = some y → 0 ∈ x.tableIDs → y.isMeta = true → a = b))) := by
  have hself : OrderFree c.namespaces region ↔ _ := alwaysSame_self
  refine ⟨hself, fun hclean => hself.trans (claimants_iff ?_ _)⟩
  obtain ⟨c', hrun, kv, h⟩ := saved_run hclean
  rw [hc] at hrun
  cases hrun
  exact h.partition

def twoNamespaces (table : Int64) : List Op :=
  [.call none (.createNamespace (.ok 1) "a"), .call none (.createNamespace (.ok 2) "b"),
    .call none (.addNamespaceTableID "a" table), .call none (.addMetaToNamespace "b")]

lemma clean_twoNamespaces (table : Int64) : Runs.Along step Clean start (twoNamespaces table) := by
  have hcreate {c : TableClassifier} {id : Nat} {name : String} (hid : id < maxUint64)
      (h : ∀ kv, c.storage = some kv → kv.lookup id = none) :
      Clean c (.call none (.createNamespace (.ok id) name)) := by
    refine ⟨rfl, fun _ _ e => ?_⟩
    cases e
    exact ⟨hid, h⟩
  refine ⟨hcreate (by decide) fun kv hkv => ?_, fun c1 h1 => ?_⟩
  · cases hkv
    rfl
  cases h1
  refine ⟨hcreate (by decide) fun kv hkv => ?_, fun c2 h2 => ?_⟩
  · cases hkv
    rfl
  cases h2
  exact ⟨⟨rfl, nofun⟩, fun c3 _ => ⟨⟨rfl, nofun⟩, fun _ _ => trivial⟩⟩

theorem namespaces_partition_two : ∃ c kv, Runs.exec step start (twoNamespaces 7) = some c ∧ c.storage = some kv ∧
  Partition c.namespaces ∧ ∀ fuel, kv.size < fuel → loadNamespaces kv fuel = some c.namespaces :=
  namespaces_partition _ (clean_twoNamespaces 7)

theorem regionNamespace_iff_two : ∃ c, Runs.exec step start (twoNamespaces 7) = some c ∧
  OrderFree c.namespaces (regionAt 2 (encodeBytes metaPrefix)) := by
  refine ⟨_, rfl, ((regionNamespace_iff (twoNamespaces 7) _ rfl _).2 (clean_twoNamespaces 7)).mpr ?_⟩
  intro _ a b x y hx _ hxz _
  have hfree := not_of_any (p := fun ns => ns.tableIDs.contains 0) (by decide +kernel) a x hx
  exact absurd (List.contains_iff_mem.mpr hxz) hfree

/-- the namespace with the table 0 and the one with the meta keys both have the region of a meta key -/
theorem meta_region_order : Runs.Along step Clean start (twoNamespaces 0) ∧
  ∃ c, Runs.exec step start (twoNamespaces 0) = some c ∧
    getRegionNamespace c.namespaces.entries (regionAt 2 (encodeBytes metaPrefix)) = "a" ∧
    getRegionNamespace c.namespaces.entries.reverse (regionAt 2 (encodeBytes metaPrefix)) = "b" := by
  refine ⟨clean_twoNamespaces 0, _, rfl, ?_, ?_⟩
  · show namespaceOf _ (Key.metaOrTable (encodeBytes metaPrefix)) = _
    rw [metaOrTable_metaPrefix]
    decide +kernel
  show namespaceOf _ (Key.metaOrTable (encodeBytes metaPrefix)) = _
  rw [metaOrTable_metaPrefix]
  decide +kernel

end PD.TableClassifier
