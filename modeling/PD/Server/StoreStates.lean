import PD.Server.StoreCalls

/-! # The states of a store under concurrent calls -/

namespace PD
namespace Shared
namespace StoreStates
open Option Function StoreCluster

inductive Proc where
  | remove (store : StoreInfo)
  | bury (force : Bool) (store : StoreInfo)
  | weight (leaderWeight regionWeight : UInt64) (store : StoreInfo)
  | checkStores (rest : List StoreInfo)
  | checkBury (storeID : Nat) (rest : List StoreInfo)
  | checkWrite (store : StoreInfo) (rest : List StoreInfo)

structure System where
  cluster : StoreCluster
  calls : SortedMap Nat Proc

inductive Label where
  | removeStore (n storeID : Nat)
  | buryStore (n storeID : Nat) (force : Bool)
  | setStoreWeight (n storeID : Nat) (leaderWeight regionWeight : UInt64)
  | checkStores (n : Nat) (order : List StoreInfo)
  | look (n : Nat) (noRegion : Bool)
  | checkBury (n : Nat)
  | write (n : Nat) (saves : Nat → Bool) (savesWeight : Bool)

namespace System

def init (cluster : StoreCluster) : System := ⟨cluster, .empty⟩

variable (s : System)

def goOn (n : Nat) (p : Proc) : System := ⟨s.cluster, s.calls.insert n p⟩

def read (n : Nat) (p : StoreInfo → Proc) : Except StoreError (Option StoreInfo) → System
  | .ok (some store) => s.goOn n (p store)
  | _ => s

def look (n : Nat) (noRegion : Bool) (store : StoreInfo) (rest : List StoreInfo) : System :=
  if s.cluster.objects.isTombstone store || s.cluster.objects.isUp store then s.goOn n (.checkStores rest)
  else if noRegion then s.goOn n (.checkBury (s.cluster.objects.getID store) rest)
  else s.goOn n (.checkStores rest)

def writeWeight (c : StoreCluster) (saves : Nat → Bool) (savesWeight : Bool)
  (leaderWeight regionWeight : UInt64) (store : StoreInfo) : StoreCluster :=
  if savesWeight then
    let cloned := clone c.objects store [setLeaderWeight leaderWeight, setRegionWeight regionWeight]
    (putStoreLocked saves ⟨cloned.1, c.stores⟩ cloned.2).2
  else c

def step : Label → Option System
  | .removeStore n storeID =>
    if s.calls.lookup n = none then some (s.read n .remove (s.cluster.removeCheck storeID)) else none
  | .buryStore n storeID force =>
    if s.calls.lookup n = none then some (s.read n (.bury force) (s.cluster.buryCheck storeID force))
    else none
  | .setStoreWeight n storeID leaderWeight regionWeight =>
    if s.calls.lookup n = none then
      some (s.read n (.weight leaderWeight regionWeight) (s.cluster.setStateCheck storeID))
    else none
  | .checkStores n order =>
    if s.calls.lookup n = none ∧ order.isPerm s.cluster.stores.values then
      some (s.goOn n (.checkStores order))
    else none
  | .look n noRegion =>
    match s.calls.lookup n with
    | some (.checkStores (store :: rest)) => some (s.look n noRegion store rest)
    | some (.checkStores []) => some ⟨s.cluster, s.calls.erase n⟩
    | _ => none
  | .checkBury n =>
    match s.calls.lookup n with
    | some (.checkBury storeID rest) =>
      some ((s.goOn n (.checkStores rest)).read n (.checkWrite · rest) (s.cluster.buryCheck storeID false))
    | _ => none
  | .write n saves savesWeight =>
    match s.calls.lookup n with
    | some (.remove store) => some ⟨(s.cluster.writeState saves store .offline).2, s.calls.erase n⟩
    | some (.bury _ store) => some ⟨(s.cluster.writeState saves store .tombstone).2, s.calls.erase n⟩
    | some (.checkWrite store rest) =>
      some ⟨(s.cluster.writeState saves store .tombstone).2, s.calls.insert n (.checkStores rest)⟩
    | some (.weight leaderWeight regionWeight store) =>
      some ⟨writeWeight s.cluster saves savesWeight leaderWeight regionWeight store, s.calls.erase n⟩
    | _ => none

def state (s : System) (id : Nat) : Option StoreState := (s.cluster.shows id).map StoreProto.state

def Forced (l : Label) : Prop :=
  ∃ n saves savesWeight store, l = .write n saves savesWeight ∧ s.calls.lookup n = some (.bury true store)

def Documented (force : Prop) (x y : StoreState) : Prop :=
  y = x ∨ (x = .up ∧ y = .offline) ∨ (x = .offline ∧ y = .tombstone) ∨ (x = .up ∧ y = .tombstone ∧ force)

def Moves (l : Label) (t : System) : Prop :=
  ∀ id x, s.state id = some x → ∃ y, t.state id = some y ∧ Documented (s.Forced l) x y

def notBuried : Label → Bool
  | .write n _ _ =>
    match s.calls.lookup n with
    | some (.remove store) => !s.cluster.objects.isTombstone store
    | _ => true
  | _ => true

end System

def Proc.target : Proc → Option StoreInfo
  | .remove store => some store
  | .bury _ store => some store
  | .weight _ _ store => some store
  | .checkStores _ => none
  | .checkBury _ _ => none
  | .checkWrite store _ => some store

def Proc.graceful : Proc → Bool
  | .bury force _ => !force
  | .checkWrite _ _ => true
  | _ => false

def Knows (c : StoreCluster) (p : Proc) : Prop :=
  ∀ store, p.target = some store → ∃ id m, c.own id = some (store.metaRef, m) ∧ (p.graceful = true → m.state ≠ .up)

structure Inv (s : System) : Prop where
  owned : s.cluster.Owned
  knows : ∀ n p, s.calls.lookup n = some p → Knows s.cluster p

namespace System

section
variable {s t : System} {l : Label} {n id : Nat} {p : Proc} {store : StoreInfo}
variable {c : StoreCluster} {m : StoreMeta}

lemma state_eq (s : System) (id : Nat) : s.state id = (s.cluster.own id).map fun e => e.2.state := by
  unfold state
  rw [shows_eq, Option.map_map]
  rfl

lemma own_writeState (ho : c.Owned) (hm : c.own id = some (store.metaRef, m)) (st : StoreState) (saves : Nat → Bool) :
  (c.writeState saves store st).2.Owned ∧ (c.writeState saves store st).2.own =
    update c.own id (some (store.metaRef, { m with state := st })) := by
  obtain ⟨s0, hs0, e⟩ := map_eq_some_iff.mp hm
  obtain ⟨href, rfl⟩ := Prod.mk.inj e
  obtain ⟨_, hown, ho', _⟩ := writeState_spec saves ho hs0 href.symm st
  exact ⟨ho', href ▸ hown⟩

lemma own_writeWeight (ho : c.Owned) (hm : c.own id = some (store.metaRef, m)) (saves : Nat → Bool)
  (savesWeight : Bool) (leaderWeight regionWeight : UInt64) :
  (writeWeight c saves savesWeight leaderWeight regionWeight store).Owned ∧
    (writeWeight c saves savesWeight leaderWeight regionWeight store).own = c.own := by
  obtain ⟨s0, hs0, e⟩ := map_eq_some_iff.mp hm
  obtain ⟨href, rfl⟩ := Prod.mk.inj e
  unfold writeWeight
  split
  · obtain ⟨_, hown, hobj⟩ := putStoreLocked_spec saves ho hs0 (show (clone c.objects store
      [setLeaderWeight leaderWeight, setRegionWeight regionWeight]).2.metaRef = s0.metaRef from href.symm)
    exact ⟨(ho.of_own hown hobj).1, hown⟩
  · exact ⟨ho, rfl⟩

lemma Knows.write {c' : StoreCluster} (h : Knows c p) {e e' : Nat × StoreMeta} (he : c.own id = some e)
  (hown : c'.own = update c.own id (some e')) (href : e'.1 = e.1) (hup : e'.2.state ≠ .up) : Knows c' p := by
  intro store hstore
  obtain ⟨i, m, hm, hg⟩ := h store hstore
  by_cases hi : i = id
  · subst hi
    obtain rfl := some.inj (he.symm.trans hm)
    refine ⟨i, e'.2, ?_, fun _ => hup⟩
    rw [hown, update_self]
    exact congrArg some (Prod.ext href rfl)
  refine ⟨i, m, ?_, hg⟩
  rw [hown, update_of_ne hi]
  exact hm

def Later (c : StoreCluster) (calls calls' : SortedMap Nat Proc) : Prop :=
  ∀ n p, calls'.lookup n = some p → calls.lookup n = some p ∨ Knows c p

lemma Later.insert (calls : SortedMap Nat Proc) (n : Nat) (h : Knows c p) : Later c calls (calls.insert n p) :=
  SortedMap.forall_insert (P := fun n p => calls.lookup n = some p ∨ Knows c p) (.inr h) fun _ _ => .inl

lemma Later.erase (calls : SortedMap Nat Proc) (n : Nat) : Later c calls (calls.erase n) :=
  fun _ _ hq => .inl (SortedMap.lookup_erase_some.mp hq).2

lemma Knows.of_none (h : p.target = none) : Knows c p := fun store hs => by
  rw [h] at hs
  cases hs

inductive Effect (s : System) (l : Label) (t : System) : Prop where
  | reads (hcond : s.notBuried l = true) (hc : t.cluster = s.cluster)
      (hcalls : Later s.cluster s.calls t.calls) : Effect s l t
  | writes (n : Nat) (saves : Nat → Bool) (savesWeight : Bool) (p : Proc) (store : StoreInfo)
      (st : StoreState) (hl : l = .write n saves savesWeight) (hp : s.calls.lookup n = some p)
      (hkind : (p = .remove store ∧ st = .offline) ∨ (∃ force, p = .bury force store ∧ st = .tombstone) ∨
        (∃ rest, p = .checkWrite store rest ∧ st = .tombstone)) (htarget : p.target = some store)
      (hc : t.cluster = (s.cluster.writeState saves store st).2)
      (hcalls : ∀ c, Later c s.calls t.calls) : Effect s l t
  | weighs (n : Nat) (saves : Nat → Bool) (savesWeight : Bool) (leaderWeight regionWeight : UInt64)
      (store : StoreInfo) (hl : l = .write n saves savesWeight)
      (hp : s.calls.lookup n = some (.weight leaderWeight regionWeight store))
      (hc : t.cluster = writeWeight s.cluster saves savesWeight leaderWeight regionWeight store)
      (hcalls : ∀ c, Later c s.calls t.calls) : Effect s l t

lemma knows_of_lookup (htarget : p.target = some store) (hs : c.stores.lookup id = some store)
  (hup : p.graceful = true → c.objects.getState store ≠ .up) : Knows c p := by
  intro store' h
  obtain rfl := some.inj (htarget.symm.trans h)
  exact ⟨id, _, own_of_lookup hs, hup⟩

lemma read_spec {calls : SortedMap Nat Proc} (n : Nat) (p : StoreInfo → Proc)
  (check : Except StoreError (Option StoreInfo)) (hs : Later s.cluster calls s.calls)
  (h : ∀ store, check = .ok (some store) → Knows s.cluster (p store)) :
  (s.read n p check).cluster = s.cluster ∧ Later s.cluster calls (s.read n p check).calls := by
  cases check with
  | error => exact ⟨rfl, hs⟩
  | ok o =>
    cases o with
    | none => exact ⟨rfl, hs⟩
    | some store =>
      exact ⟨rfl, fun m q hq => (Later.insert s.calls n (h store rfl) m q hq).elim (hs m q) .inr⟩

lemma effect_look (n : Nat) (noRegion : Bool) (store : StoreInfo) (rest : List StoreInfo) :
  Effect s (.look n noRegion) (s.look n noRegion store rest) := by
  unfold System.look
  split
  · exact .reads rfl rfl (Later.insert s.calls n (Knows.of_none rfl))
  split <;> exact .reads rfl rfl (Later.insert s.calls n (Knows.of_none rfl))

lemma effect_write {saves : Nat → Bool} {savesWeight : Bool}
  (h : s.step (.write n saves savesWeight) = some t) : Effect s (.write n saves savesWeight) t := by
  simp only [step] at h
  split at h
  next store hn =>
    cases h
    exact .writes n saves savesWeight _ store _ rfl hn (.inl ⟨rfl, rfl⟩) rfl rfl fun c => Later.erase s.calls n
  next force store hn =>
    cases h
    exact .writes n saves savesWeight _ store _ rfl hn (.inr (.inl ⟨force, rfl, rfl⟩)) rfl rfl
      fun c => Later.erase s.calls n
  next store rest hn =>
    cases h
    exact .writes n saves savesWeight _ store _ rfl hn (.inr (.inr ⟨rest, rfl, rfl⟩)) rfl rfl
      fun c => Later.insert s.calls n (Knows.of_none rfl)
  next leaderWeight regionWeight store hn =>
    cases h
    exact .weighs n saves savesWeight leaderWeight regionWeight store rfl hn rfl fun c => Later.erase s.calls n
  · cases h

lemma step_effect (h : s.step l = some t) : Effect s l t := by
  have hself : Later s.cluster s.calls s.calls := fun _ _ hq => .inl hq
  cases l with
  | removeStore n storeID =>
    simp only [step] at h
    split at h
    · cases h
      obtain ⟨hc, hcalls⟩ := read_spec n .remove (s.cluster.removeCheck storeID) hself fun store hcheck =>
        knows_of_lookup rfl (removeCheck_some hcheck).1 nofun
      exact .reads rfl hc hcalls
    · cases h
  | buryStore n storeID force =>
    simp only [step] at h
    split at h
    · cases h
      obtain ⟨hc, hcalls⟩ := read_spec n (.bury force) (s.cluster.buryCheck storeID force) hself
        fun store hcheck => knows_of_lookup rfl (buryCheck_some hcheck).1 fun hg =>
          (buryCheck_some hcheck).2.2 (Bool.not_eq_true' force ▸ hg)
      exact .reads rfl hc hcalls
    · cases h
  | setStoreWeight n storeID leaderWeight regionWeight =>
    simp only [step] at h
    split at h
    · cases h
      obtain ⟨hc, hcalls⟩ := read_spec n (.weight leaderWeight regionWeight)
        (s.cluster.setStateCheck storeID) hself fun store hcheck =>
          knows_of_lookup rfl (setStateCheck_some hcheck) nofun
      exact .reads rfl hc hcalls
    · cases h
  | checkStores n =>
    simp only [step] at h
    split at h
    · cases h
      exact .reads rfl rfl (Later.insert s.calls n (Knows.of_none rfl))
    · cases h
  | look n noRegion =>
    simp only [step] at h
    split at h
    next store rest _ =>
      cases h
      exact effect_look n noRegion store rest
    · cases h
      exact .reads rfl rfl (Later.erase s.calls n)
    · cases h
  | checkBury n =>
    simp only [step] at h
    split at h
    next storeID rest _ =>
      cases h
      obtain ⟨hc, hcalls⟩ := read_spec (s := s.goOn n (.checkStores rest)) n (.checkWrite · rest)
        (s.cluster.buryCheck storeID false) (Later.insert s.calls n (Knows.of_none rfl))
        fun store hcheck => knows_of_lookup rfl (buryCheck_some hcheck).1 fun _ =>
          (buryCheck_some hcheck).2.2 rfl
      exact .reads rfl hc hcalls
    · cases h
  | write => exact effect_write h

end

section
variable {s t : System} {l : Label}

lemma inv_init {c : StoreCluster} (ho : c.Owned) : Inv (init c) := ⟨ho, fun n p h => by cases h⟩

lemma inv_step (hi : Inv s) (h : s.step l = some t) : Inv t := by
  cases step_effect h with
  | reads _ hc hcalls =>
    refine ⟨hc ▸ hi.owned, fun n p hp => ?_⟩
    rw [hc]
    exact (hcalls n p hp).elim (hi.knows n p) id
  | writes n saves _ p store st _ hp hkind htarget hc hcalls =>
    obtain ⟨id, m, hm, _⟩ := hi.knows n p hp store htarget
    obtain ⟨ho, hown⟩ := own_writeState hi.owned hm st saves
    have hup : st ≠ .up := by rcases hkind with ⟨_, rfl⟩ | ⟨_, _, rfl⟩ | ⟨_, _, rfl⟩ <;> exact StoreState.noConfusion
    refine ⟨hc ▸ ho, fun n' p' hp' => ?_⟩
    rcases hcalls t.cluster n' p' hp' with hp' | hk
    · rw [hc]
      exact Knows.write (hi.knows n' p' hp') hm hown rfl hup
    · exact hk
  | weighs n saves savesWeight leaderWeight regionWeight store _ hp hc hcalls =>
    obtain ⟨id, m, hm, _⟩ := hi.knows n _ hp store rfl
    obtain ⟨ho, hown⟩ := own_writeWeight hi.owned hm saves savesWeight leaderWeight regionWeight
    refine ⟨hc ▸ ho, fun n' p' hp' => ?_⟩
    rcases hcalls t.cluster n' p' hp' with hp' | hk
    · rw [hc]
      intro store' hstore'
      rw [hown]
      exact hi.knows n' p' hp' store' hstore'
    · exact hk

lemma moves_of_own (hown : t.cluster.own = s.cluster.own) : Moves s l t := by
  intro id x hx
  rw [state_eq] at hx
  exact ⟨x, by rw [state_eq, hown]; exact hx, .inl rfl⟩

lemma moves_write {id r : Nat} {m : StoreMeta} {st : StoreState} (hm : s.cluster.own id = some (r, m))
    (hown : t.cluster.own = update s.cluster.own id (some (r, { m with state := st }))) :
    Moves s l t ↔ Documented (s.Forced l) m.state st := by
  have hself : t.state id = some st := by rw [state_eq, hown, update_self, map_some]
  constructor
  · intro h
    obtain ⟨y, hy, hmove⟩ := h id m.state (by rw [state_eq, hm, map_some])
    obtain rfl := some.inj (hself.symm.trans hy)
    exact hmove
  intro h id' x hx
  by_cases e : id' = id
  · subst e
    rw [state_eq, hm] at hx
    cases hx
    exact ⟨st, hself, h⟩
  rw [state_eq] at hx
  exact ⟨x, by rw [state_eq, hown, update_of_ne e]; exact hx, .inl rfl⟩

lemma moves_step_iff (hi : Inv s) (h : s.step l = some t) : Moves s l t ↔ s.notBuried l = true := by
  cases step_effect h with
  | reads hcond hc => exact iff_of_true (moves_of_own (by rw [hc])) hcond
  | weighs n saves savesWeight leaderWeight regionWeight store hl hp hc =>
    obtain ⟨id, m, hm, _⟩ := hi.knows n _ hp store rfl
    obtain ⟨_, hown⟩ := own_writeWeight hi.owned hm saves savesWeight leaderWeight regionWeight
    refine iff_of_true (moves_of_own (by rw [hc, hown])) ?_
    rw [hl, notBuried, hp]
  | writes n saves savesWeight p store st hl hp hkind htarget hc =>
    obtain ⟨id, m, hm, hgrace⟩ := hi.knows n p hp store htarget
    obtain ⟨_, hown⟩ := own_writeState hi.owned hm st saves
    rw [moves_write hm (hc ▸ hown), hl, notBuried, hp]
    rcases hkind with ⟨rfl, rfl⟩ | ⟨force, rfl, rfl⟩ | ⟨rest, rfl, rfl⟩
    · -- `RemoveStore`
      have hst : s.cluster.objects.getState store = m.state := by
        obtain ⟨s0, _, e⟩ := map_eq_some_iff.mp hm
        obtain ⟨href, rfl⟩ := Prod.mk.inj e
        show (s.cluster.objects.metas.get store.metaRef).state = _
        rw [← href]
        rfl
      show _ ↔ (!(s.cluster.objects.getState store == .tombstone)) = true
      rw [hst]
      unfold Documented
      cases m.state with
      | _ => simp
    · refine iff_of_true ?_ rfl
      cases hm' : m.state with
      | up =>
        cases force with
        | false => exact absurd hm' (hgrace rfl)
        | true => exact .inr (.inr (.inr ⟨rfl, rfl, n, saves, savesWeight, store, rfl, hp⟩))
      | offline => exact .inr (.inr (.inl ⟨rfl, rfl⟩))
      | tombstone => exact .inl rfl
    refine iff_of_true ?_ rfl
    cases hm' : m.state with
    | up => exact absurd hm' (hgrace rfl)
    | offline => exact .inr (.inr (.inl ⟨rfl, rfl⟩))
    | tombstone => exact .inl rfl

/-- **States move as documented** exactly if no buried store is written. -/
theorem moves_iff_notBuried (stored : List (StoreProto × UInt64 × UInt64)) (ls : List Label) :
  Runs.Steps step Moves (init (.loadStores stored)) ls ↔
    Runs.Steps step (fun s l _ => s.notBuried l = true) (init (.loadStores stored)) ls := by
  refine Runs.steps_iff Inv (fun s l t hi h => ?_) (inv_init (loadStores_spec stored).1)
  exact ⟨moves_step_iff hi h, fun _ => inv_step hi h⟩

def oneStore : List (StoreProto × UInt64 × UInt64) := [(⟨1, "tikv-1", .up, [], "3.0.0"⟩, defaultWeight, defaultWeight)]

def overtaken : List Label :=
  [.removeStore 0 1, .buryStore 1 1 true, .write 1 (fun _ => true) true, .write 0 (fun _ => true) true]

/-- A removal that has read the store writes it after the burial. -/
theorem tombstone_back : (Runs.exec step (init (.loadStores oneStore)) (overtaken.take 3)).map (fun s => s.state 1) =
      some (some .tombstone) ∧
    (Runs.exec step (init (.loadStores oneStore)) overtaken).map (fun s => s.state 1) = some (some .offline) := by
  decide +kernel

end
end System
end StoreStates
end Shared
end PD
