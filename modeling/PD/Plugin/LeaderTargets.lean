import PD.Plugin.UserSchedulers
import PD.Schedule.StepEffects

/-! # The target stores of a leader rule -/

namespace PD
open List Option

def Operator.MovesLeaderTo (op : Operator) (t : Nat) : Prop :=
  (∃ f, .transferLeader f t ∈ op.steps) ∧ ∀ f t', OperatorStep.transferLeader f t' ∈ op.steps → t' = t

lemma Operator.MovesLeaderTo.unique {op : Operator} {t t' : Nat} (h : op.MovesLeaderTo t)
  (h' : op.MovesLeaderTo t') : t = t' := by
  obtain ⟨f, hf⟩ := h.1
  exact h'.2 f t hf

def Draws.change (d : Draws) (id : Nat) (keys order : List RuleKey) (alloc : Nat → Except String Nat) : Draws :=
  { d with
    rules := fun j l => if j = id ∧ l = keys then order else d.rules j l
    allocID := fun j => if j = id then alloc else d.allocID j }

section
variable {d : Draws} {id : Nat} {keys order : List RuleKey} {alloc : Nat → Except String Nat}

end

namespace UserScheduler

structure Governs (r : RegionsInfo) (m : PluginsMap) (id : Nat) (info : PluginInfo) : Prop where
  rule : ∃ i, m.lookup (.region i) = some info
  range : ∃ ids, getRegionIDs r info.keyStart info.keyEnd = some ids ∧ id ∈ ids

variable (s : UserScheduler)

def Shares (info : PluginInfo) : Prop := ∃ t ∈ s.storeIDs, t ∈ info.storeIDs

structure Binds (s : UserScheduler) (r : RegionsInfo) (m : PluginsMap) (now : Int) (id : Nat) (info : PluginInfo) :
    Prop where
  governs : Governs r m id info
  active : info.active now = true
  shares : s.Shares info

structure Decides (s : UserScheduler) (r : RegionsInfo) (m : PluginsMap) (id : Nat) (info : PluginInfo) : Prop where
  governs : Governs r m id info
  overlap : intervalsOverlap s.timeInterval info.interval = true
  shares : s.Shares info

def next (seq : Nat) : Nat := if seq + 1 < s.storeIDs.length then seq + 1 else 0

/-- `t` is the target of region `id`, in some order of `PluginsMap`, when `seq` is the turn -/
def MayChoose (r : RegionsInfo) (m : PluginsMap) (seq id t : Nat) : Prop :=
  (∃ info, s.Decides r m id info ∧ (ifOverlap s.storeIDs info.storeIDs).head? = some t) ∨
    (∀ info, ¬ s.Decides r m id info) ∧ s.storeIDs[seq]? = some t

variable (nc : NamespaceCluster)

def blocked (x : RegionInfo) (t : Nat) : Option Bool :=
  let filters := [StoreFilter.storeState (x.storeIds.contains t) (!x.storeIds.contains t)]
  match filterSource nc.opt (nc.getStore x.leaderStore) filters with
  | some false => filterTarget nc.opt (nc.getStore t) filters
  | b => b

/-- The Region rules that decide on the target of region `id` name a store of every Region rule in force there; where
none decides, every store of the leader rule is one of theirs. -/
structure Agree (s : UserScheduler) (r : RegionsInfo) (m : PluginsMap) (now : Int) (id : Nat) : Prop where
  first : ∀ info other t, s.Binds r m now id info → s.Decides r m id other →
    (ifOverlap s.storeIDs other.storeIDs).head? = some t → t ∈ info.storeIDs
  undecided : ∀ info, s.Binds r m now id info → (∀ other, ¬ s.Decides r m id other) →
    ∀ t ∈ s.storeIDs, t ∈ info.storeIDs

section
variable {s : UserScheduler} {nc : NamespaceCluster} {m : PluginsMap} {d : Draws}
variable {info : PluginInfo} {seq id t first newStore peerID seq' : Nat} {keys : List RuleKey} {c : Cluster}
variable {x : RegionInfo} {op : Operator} {ops : List Operator} {ids : List Nat}

lemma shares_iff : s.Shares info ↔ ifOverlap s.storeIDs info.storeIDs ≠ [] := by
  rw [Shares, Ne, eq_nil_iff_forall_not_mem, not_forall]
  simp only [mem_ifOverlap, not_not]

lemma MayChoose.mem {r : RegionsInfo} (h : s.MayChoose r m seq id t) : t ∈ s.storeIDs := by
  rcases h with ⟨info, -, ht⟩ | ⟨-, ht⟩
  · exact (mem_ifOverlap.mp (List.mem_of_head? ht)).1
  · exact List.mem_of_getElem? ht

lemma Agree.mem {r : RegionsInfo} {now : Int} (h : s.Agree r m now id) (ht : s.MayChoose r m seq id t)
  (hinfo : s.Binds r m now id info) : t ∈ info.storeIDs := by
  rcases ht with ⟨other, hother, ht⟩ | ⟨hno, ht⟩
  · exact h.first info other t hinfo hother ht
  · exact h.undecided info hinfo hno t (List.mem_of_getElem? ht)

lemma targetFor_cons (s : UserScheduler) (hr : nc.regions.Sound) (id first : Nat) {i : Nat}
  (hinfo : m.lookup (.region i) = some info) (rest : List RuleKey) : (s.Decides nc.regions m id info ∧
      s.targetFor nc.regions m id first (.region i :: rest) = (ifOverlap s.storeIDs info.storeIDs).head?) ∨
    (¬ s.Decides nc.regions m id info ∧
      s.targetFor nc.regions m id first (.region i :: rest) = s.targetFor nc.regions m id first rest) := by
  obtain ⟨ids, hids⟩ := getRegionIDs_isSome hr info.keyStart info.keyEnd
  rw [targetFor]
  simp only [hinfo, map_some, getD_some, bind_some, hids]
  split
  next hin =>
    obtain ⟨hmem, hover⟩ := Bool.and_eq_true_iff.mp hin
    cases hcommon : ifOverlap s.storeIDs info.storeIDs with
    | nil => exact .inr ⟨fun h => shares_iff.mp h.shares hcommon, rfl⟩
    | cons t ts =>
      refine .inl ⟨⟨⟨⟨i, hinfo⟩, ids, hids, contains_iff_mem.mp hmem⟩, hover, shares_iff.mpr ?_⟩, rfl⟩
      rw [hcommon]
      exact cons_ne_nil t ts
  next hout =>
    refine .inr ⟨fun h => hout ?_, rfl⟩
    obtain ⟨ids', hids', hmem⟩ := h.governs.range
    rw [hids, Option.some.injEq] at hids'
    rw [contains_iff_mem.mpr (hids' ▸ hmem), h.overlap]
    rfl

lemma targetFor_some (hr : nc.regions.Sound)
  (hkeys : ∀ k ∈ keys, k ∈ m.keys) (h : s.targetFor nc.regions m id first keys = some t) :
  (∃ info, s.Decides nc.regions m id info ∧ (ifOverlap s.storeIDs info.storeIDs).head? = some t) ∨
    (∀ i info, .region i ∈ keys → m.lookup (.region i) = some info → ¬ s.Decides nc.regions m id info) ∧
      t = first := by
  induction keys with
  | nil => exact .inr ⟨fun _ _ hi => absurd hi not_mem_nil, (some.inj h).symm⟩
  | cons k rest ih =>
    have ih' := ih fun k' h' => hkeys k' (mem_cons_of_mem _ h')
    cases k with
    | leader =>
      refine (ih' h).imp_right fun ⟨hno, ht⟩ => ⟨fun i info hi => ?_, ht⟩
      exact hno i info ((mem_cons.mp hi).resolve_left nofun)
    | region =>
      obtain ⟨info, hinfo⟩ := SortedMap.mem_keys.mp (hkeys _ mem_cons_self)
      rcases targetFor_cons s hr id first hinfo rest with ⟨hdec, he⟩ | ⟨hnot, he⟩
      · exact .inl ⟨info, hdec, he ▸ h⟩
      refine (ih' (he ▸ h)).imp_right fun ⟨hno, ht⟩ => ⟨fun i info' hi hinfo' => ?_, ht⟩
      rcases mem_cons.mp hi with hij | hi
      · rw [hij, hinfo, Option.some.injEq] at hinfo'
        exact hinfo' ▸ hnot
      · exact hno i info' hi hinfo'

lemma exists_order (hr : nc.regions.Sound) (hfirst : s.storeIDs[seq]? = some first)
  (h : s.MayChoose nc.regions m seq id t) :
  ∃ order, order.Perm m.keys ∧ s.targetFor nc.regions m id first order = some t := by
  rcases h with ⟨info, hdec, ht⟩ | ⟨hno, ht⟩
  · obtain ⟨i, hinfo⟩ := hdec.governs.rule
    have hmem : RuleKey.region i ∈ m.keys := SortedMap.mem_keys.mpr ⟨info, hinfo⟩
    refine ⟨.region i :: m.keys.erase (.region i), (perm_cons_erase hmem).symm, ?_⟩
    rcases targetFor_cons s hr id first hinfo (m.keys.erase (.region i)) with ⟨-, he⟩ | ⟨hnot, -⟩
    · rw [he, ht]
    · exact absurd hdec hnot
  obtain ⟨u, -, hu⟩ := targetFor_mem (m := m) hr id (List.mem_of_getElem? hfirst) m.keys
  refine ⟨m.keys, .refl _, ?_⟩
  rcases targetFor_some hr (fun k hk => hk) hu with ⟨info, hdec, -⟩ | ⟨-, rfl⟩
  · exact absurd hdec (hno info)
  · rw [hu, ← hfirst, ht]

lemma getID_of_getRegion (hr : nc.regions.Sound) (hx : nc.getRegion id = some x) : x.getID = id :=
  RegionsInfo.getID_of_getRegion hr (filter_eq_some_iff.mp hx).1

section
variable {i : Nat} {s' : UserScheduler} {op : Operator} {ops : List Operator} {ids : List Nat}

end
end

def threeStores (r : RegionsInfo) : NamespaceCluster :=
  newNamespaceCluster (clusterIn r .up [1, 2, 3]) globalOnly "global"

end UserScheduler
end PD
