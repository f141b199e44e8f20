import PD.Lib.Runs
import PD.Server.Etcd

/-! # The id allocator: `idAllocator.Alloc` on any number of servers -/

namespace PD
open Function List
open TxnStore
namespace Id

def allocStep : Nat := 1000

inductive Pc where
  | idle
  | reading (res : Option (Option Bytes))
  | swapping (newEnd : Nat) (txn : EtcdTxn) (res : Option Bool)

structure Alloc where
  base : Nat
  fin : Nat
  pc : Pc

structure State where
  etcd : Etcd
  srv : Nat → Alloc
  lost : List EtcdTxn
  returned : List Nat

inductive Label where
  | alloc (i : Nat)
  | apply (i : Nat)
  | reply (i : Nat)
  | fail (i : Nat)
  | crash (i : Nat)
  | applyLost (k : Nat)
  | setLeader (v : Option Bytes)

def Alloc.new : Alloc := ⟨0, 0, .idle⟩
def init : State := ⟨fun _ => none, fun _ => .new, [], []⟩
def State.setSrv (s : State) (i : Nat) (a : Alloc) : State := { s with srv := update s.srv i a }

def savedEnd : Option Bytes → Option Nat
  | none => some 0
  | some v => bytesToUint64 v

def endCmp : Option Bytes → Cmp EtcdKey Bytes
  | none => .absent .allocID
  | some v => .valueEq .allocID v

def generate (memberValue : Bytes) (value : Option Bytes) : Option (Nat × EtcdTxn) := (savedEnd value).map fun old =>
    ((old + allocStep) % 2^64, leaderTxn memberValue [endCmp value]
      [.put .allocID (uint64ToBytes ((old + allocStep) % 2^64))])

def State.hand (s : State) (i base fin : Nat) : State :=
  { s.setSrv i ⟨(base+1) % 2^64, fin, .idle⟩ with
    returned := s.returned ++ [(base+1) % 2^64] }

def Pc.orphan : Pc → List EtcdTxn
  | .swapping _ txn none => [txn]
  | _ => []

variable (memberValue : Nat → Bytes)
variable {value : Option Bytes} {etcd : Etcd} {e : Nat} {txn : EtcdTxn}

def step (s : State) : Label → Option State
  | .alloc i =>
    match (s.srv i).pc with
    | .idle =>
      if (s.srv i).base = (s.srv i).fin then
        some (s.setSrv i { s.srv i with pc := .reading none })
      else some (s.hand i (s.srv i).base (s.srv i).fin)
    | _ => none
  | .apply i =>
    match (s.srv i).pc with
    | .reading none => some (s.setSrv i { s.srv i with pc := .reading (some (s.etcd .allocID)) })
    | .swapping e txn none =>
      some { s.setSrv i { s.srv i with pc := .swapping e txn (some (txn.succeeds s.etcd)) } with
        etcd := txn.commit s.etcd }
    | _ => none
  | .reply i =>
    match (s.srv i).pc with
    | .reading (some value) =>
      match generate (memberValue i) value with
      | none => some (s.setSrv i { s.srv i with pc := .idle })
      | some (e, txn) => some (s.setSrv i { s.srv i with pc := .swapping e txn none })
    | .swapping e _ (some true) => some (s.hand i ((e + 2^64 - allocStep) % 2^64) e)
    | .swapping _ _ (some false) => some (s.setSrv i { s.srv i with pc := .idle })
    | _ => none
  | .fail i => some { s.setSrv i { s.srv i with pc := .idle } with lost := s.lost ++ (s.srv i).pc.orphan }
  | .crash i => some { s.setSrv i .new with lost := s.lost ++ (s.srv i).pc.orphan }
  | .applyLost k =>
    match s.lost[k]? with
    | none => none
    | some txn => some { s with etcd := txn.commit s.etcd, lost := s.lost.eraseIdx k }
  | .setLeader v => some { s with etcd := update s.etcd .leader v }

def Pc.EndFits : Pc → Prop
  | .reading (some value) => ∀ old ∈ savedEnd value, old + allocStep < 2^64
  | _ => True

def EndsFit (s : State) : Label → Prop
  | .reply i => (s.srv i).pc.EndFits
  | _ => True

instance : ∀ pc : Pc, Decidable pc.EndFits
  | .idle => .isTrue trivial
  | .reading none => .isTrue trivial
  | .reading (some value) => inferInstanceAs (Decidable (∀ old ∈ savedEnd value, old + allocStep < 2^64))
  | .swapping _ _ _ => .isTrue trivial

instance (s : State) : ∀ l, Decidable (EndsFit s l)
  | .reply i => inferInstanceAs (Decidable (s.srv i).pc.EndFits)
  | .alloc _ => .isTrue trivial
  | .apply _ => .isTrue trivial
  | .fail _ => .isTrue trivial
  | .crash _ => .isTrue trivial
  | .applyLost _ => .isTrue trivial
  | .setLeader _ => .isTrue trivial

def Alloc.window (a : Alloc) : Nat × Nat :=
  match a.pc with
  | .swapping e _ (some true) => (e - allocStep, e)
  | _ => (a.base, a.fin)

def Alloc.Owns (a : Alloc) (x : Nat) : Prop := a.window.1 < x ∧ x ≤ a.window.2

def IsAlloc (e : Nat) (txn : EtcdTxn) : Prop :=
  ∃ m value old, savedEnd value = some old ∧ e = old + allocStep ∧ e < 2^64 ∧
    txn = leaderTxn m [endCmp value] [.put .allocID (uint64ToBytes e)]

lemma endCmp_holds (h : (endCmp value).holds etcd = true) : etcd .allocID = value := by
  cases value with
  | none => exact holds_absent.mp h
  | some => exact holds_valueEq.mp h

lemma IsAlloc.commit (h : IsAlloc e txn) (hs : txn.succeeds etcd = true) :
  (∃ old, savedEnd (etcd .allocID) = some old ∧ e = old + allocStep) ∧
    savedEnd (txn.commit etcd .allocID) = some e := by
  obtain ⟨m, value, old, hold, he, hlt, rfl⟩ := h
  have hcmp := (leaderTxn_succeeds.mp hs).1 _ (mem_singleton.mpr rfl)
  refine ⟨⟨old, by rw [endCmp_holds hcmp]; exact hold, he⟩, ?_⟩
  rw [commit_of_succeeds hs]
  show savedEnd (update etcd .allocID (some (uint64ToBytes e)) .allocID) = some e
  rw [update_self]
  exact bytesToUint64_uint64ToBytes e hlt

lemma IsAlloc.commit_top (h : IsAlloc e txn) {top : Nat} (ht : savedEnd (etcd .allocID) = some top)
  (htop : top < 2^64) : ∃ top', savedEnd (txn.commit etcd .allocID) = some top' ∧ top ≤ top' ∧ top' < 2^64 := by
  cases hs : txn.succeeds etcd with
  | true =>
    obtain ⟨⟨old, hold, he⟩, hnew⟩ := h.commit hs
    have hlt : e < 2^64 := by
      obtain ⟨_, _, _, _, _, hlt, _⟩ := h
      exact hlt
    have eo : old = top := Option.some.inj (hold.symm.trans ht)
    exact ⟨e, hnew, by omega, hlt⟩
  | false =>
    rw [commit_of_not hs]
    exact ⟨top, ht, le_refl top, htop⟩

lemma generate_isAlloc {m : Bytes} (h : generate m value = some (e, txn))
  (hfit : ∀ old, savedEnd value = some old → old + allocStep < 2^64) : IsAlloc e txn := by
  obtain ⟨old, hold, heq⟩ := Option.map_eq_some_iff.mp h
  have hlt := hfit old hold
  rw [Nat.mod_eq_of_lt hlt] at heq
  obtain ⟨he, ht⟩ := Prod.mk.inj heq
  exact ⟨m, value, old, hold, he.symm, he ▸ hlt, by rw [← ht, ← he]⟩

structure Inv (s : State) (top : Nat) : Prop where
  saved : savedEnd (s.etcd .allocID) = some top
  bound : top < 2^64
  order : ∀ i, (s.srv i).base ≤ (s.srv i).fin
  spent : ∀ i, (s.srv i).pc ≠ .idle → (s.srv i).base = (s.srv i).fin
  fins : ∀ i, (s.srv i).fin ≤ top
  below : ∀ i, (s.srv i).window.2 ≤ top
  txn : ∀ i e t r, (s.srv i).pc = .swapping e t r → IsAlloc e t
  lost : ∀ t ∈ s.lost, ∃ e, IsAlloc e t
  disjoint : ∀ i j x, i ≠ j → (s.srv i).Owns x → ¬ (s.srv j).Owns x
  fresh : ∀ i x, (s.srv i).Owns x → x ∉ s.returned
  used : ∀ x ∈ s.returned, x ≤ top
  nodup : s.returned.Nodup

lemma inv_init : Inv init 0 where
  saved := rfl
  bound := by norm_num
  order := fun _ => le_refl _
  spent := fun _ h => absurd rfl h
  fins := fun _ => le_refl _
  below := fun _ => le_refl _
  txn := fun _ _ _ _ h => by cases h
  lost := fun _ h => absurd h (by simp [init])
  disjoint := fun i j x _ h => by
    obtain ⟨h1, h2⟩ := h
    change x ≤ 0 at h2
    omega
  fresh := fun _ _ _ => by simp [init]
  used := fun _ h => absurd h (by simp [init])
  nodup := nodup_nil

lemma setSrv_self (s : State) (i : Nat) (a : Alloc) : (s.setSrv i a).srv i = a := update_self ..

lemma setSrv_of_ne (s : State) {i j : Nat} (a : Alloc) (h : j ≠ i) :
    (s.setSrv i a).srv j = s.srv j := update_of_ne h ..

section
variable {memberValue} {s t : State} {top : Nat}
variable {i : Nat} {a : Alloc}

lemma forall_setSrv (P : Alloc → Prop) (ha : P a) (hs : ∀ j, P (s.srv j)) (j : Nat) : P ((s.setSrv i a).srv j) := by
  by_cases e : j = i
  · subst e
    rw [setSrv_self]
    exact ha
  rw [setSrv_of_ne s a e]
  exact hs j

section
variable (hi : Inv s top) (i : Nat) (a : Alloc) (horder : a.base ≤ a.fin)
  (hspent : a.pc ≠ .idle → a.base = a.fin) (hfin : a.fin ≤ top) (hbelow : a.window.2 ≤ top)
  (htxn : ∀ e t r, a.pc = .swapping e t r → IsAlloc e t)
include hi horder hspent hfin hbelow htxn

lemma inv_setSrv (hapart : ∀ j x, j ≠ i → (s.srv j).Owns x → ¬ a.Owns x)
  (hfresh : ∀ x, a.Owns x → x ∉ s.returned) : Inv (s.setSrv i a) top where
  saved := hi.saved
  bound := hi.bound
  order := forall_setSrv (fun a => a.base ≤ a.fin) horder hi.order
  spent := forall_setSrv (fun a => a.pc ≠ .idle → a.base = a.fin) hspent hi.spent
  fins := forall_setSrv (fun a => a.fin ≤ top) hfin hi.fins
  below := forall_setSrv (fun a => a.window.2 ≤ top) hbelow hi.below
  txn := forall_setSrv (fun a => ∀ e t r, a.pc = .swapping e t r → IsAlloc e t) htxn hi.txn
  lost := hi.lost
  disjoint := by
    intro j k x hjk
    by_cases ej : j = i
    · subst ej
      rw [setSrv_self, setSrv_of_ne s a (Ne.symm hjk)]
      exact fun h1 h2 => hapart k x (Ne.symm hjk) h2 h1
    rw [setSrv_of_ne s a ej]
    by_cases ek : k = i
    · subst ek
      rw [setSrv_self]
      exact hapart j x ej
    rw [setSrv_of_ne s a ek]
    exact hi.disjoint j k x hjk
  fresh := forall_setSrv (fun a => ∀ x, a.Owns x → x ∉ s.returned) hfresh hi.fresh
  used := hi.used
  nodup := hi.nodup

lemma inv_shrink (hsub : ∀ x, a.Owns x → (s.srv i).Owns x) : Inv (s.setSrv i a) top :=
  inv_setSrv hi i a horder hspent hfin hbelow htxn
    (fun j x hj hx hax => hi.disjoint j i x hj hx (hsub x hax)) (fun x hx => hi.fresh i x (hsub x hx))

end

lemma inv_hand (hi : Inv s top) (i : Nat) (hw : (s.srv i).window.1 < (s.srv i).window.2) :
  Inv (s.hand i (s.srv i).window.1 (s.srv i).window.2) top := by
  have hlt := hi.bound
  have hb := hi.below i
  have hmod : ((s.srv i).window.1 + 1) % 2^64 = (s.srv i).window.1 + 1 := Nat.mod_eq_of_lt (by omega)
  have hown : (s.srv i).Owns ((s.srv i).window.1 + 1) := ⟨Nat.lt_succ_self _, hw⟩
  unfold State.hand
  rw [hmod]
  have h1 : Inv (s.setSrv i ⟨(s.srv i).window.1 + 1, (s.srv i).window.2, .idle⟩) top :=
    inv_shrink hi i _ hw (fun h => absurd rfl h) hb hb (fun _ _ _ h => by cases h)
      (fun x hx => ⟨lt_trans (Nat.lt_succ_self _) hx.1, hx.2⟩)
  exact {
    saved := h1.saved, bound := h1.bound, order := h1.order, spent := h1.spent, fins := h1.fins
    below := h1.below, txn := h1.txn, lost := h1.lost, disjoint := h1.disjoint
    fresh := by
      intro j x hx hmem
      rcases mem_append.mp hmem with hmem | hmem
      · exact h1.fresh j x hx hmem
      rw [mem_singleton.mp hmem] at hx
      by_cases e : j = i
      · subst e
        rw [setSrv_self] at hx
        exact absurd hx.1 (lt_irrefl _)
      rw [setSrv_of_ne s _ e] at hx
      exact hi.disjoint j i _ e hx hown
    used := by
      intro x hx
      rcases mem_append.mp hx with hx | hx
      · exact hi.used x hx
      · rw [mem_singleton.mp hx]; omega
    nodup := by
      refine nodup_append.mpr ⟨hi.nodup, (pairwise_singleton _ _), ?_⟩
      intro x hx y hy
      rw [mem_singleton.mp hy]
      rintro rfl
      exact hi.fresh i _ hown hx }

lemma inv_lost (hi : Inv s top) (ts : List EtcdTxn) (h : ∀ t ∈ ts, ∃ e, IsAlloc e t) : Inv { s with lost := ts } top :=
  { hi with lost := h }

lemma orphan_isAlloc (hi : Inv s top) (i : Nat) : ∀ t ∈ s.lost ++ (s.srv i).pc.orphan, ∃ e, IsAlloc e t := by
  intro t ht
  rcases mem_append.mp ht with ht | ht
  · exact hi.lost t ht
  cases hpc : (s.srv i).pc with
  | swapping e txn res =>
    rw [hpc] at ht
    cases res with
    | none => exact ⟨e, (mem_singleton.mp ht) ▸ hi.txn i e txn none hpc⟩
    | some => exact absurd ht (by simp [Pc.orphan])
  | _ => rw [hpc] at ht; exact absurd ht (by simp [Pc.orphan])

lemma inv_etcd (hi : Inv s top) (etcd : Etcd) {top' : Nat} (h : savedEnd (etcd .allocID) = some top')
  (hle : top ≤ top') (hlt : top' < 2^64) : Inv { s with etcd := etcd } top' :=
  { hi with
    saved := h
    bound := hlt
    fins := fun i => (hi.fins i).trans hle
    below := fun i => (hi.below i).trans hle
    used := fun x hx => (hi.used x hx).trans hle }

lemma window_of_not_granted (h : ∀ e t, a.pc ≠ .swapping e t (some true)) : a.window = (a.base, a.fin) := by
  unfold Alloc.window
  split
  next e t heq => exact absurd heq (h e t)
  · rfl

lemma not_owns_of_spent (h : ∀ e t, a.pc ≠ .swapping e t (some true))
  (hs : a.base = a.fin) (x : Nat) : ¬ a.Owns x := by
  intro hx
  unfold Alloc.Owns at hx
  rw [window_of_not_granted h] at hx
  have h1 := hx.1
  have h2 := hx.2
  simp only at h1 h2
  omega

section
variable (hi : Inv s top)
include hi

lemma inv_pending (i : Nat) (pc : Pc) (hpc : ∀ e t, pc ≠ .swapping e t (some true))
  (htxn : ∀ e t r, pc = .swapping e t r → IsAlloc e t) (hspent : (s.srv i).base = (s.srv i).fin) :
  Inv (s.setSrv i { s.srv i with pc := pc }) top := by
  have hw : Alloc.window { s.srv i with pc := pc } = ((s.srv i).base, (s.srv i).fin) := window_of_not_granted hpc
  refine inv_shrink hi i _ hspent.le (fun _ => hspent) (hi.fins i) ?_ htxn (fun x hx => ?_)
  · rw [hw]; exact hi.fins i
  · exact absurd hx (not_owns_of_spent (a := { s.srv i with pc := pc }) hpc hspent x)

lemma inv_idle (i : Nat) : Inv (s.setSrv i { s.srv i with pc := .idle }) top := by
  by_cases hpc : (s.srv i).pc = .idle
  · have e : ({ s.srv i with pc := .idle } : Alloc) = s.srv i := by rw [← hpc]
    rw [e]
    exact inv_shrink hi i _ (hi.order i) (hi.spent i) (hi.fins i) (hi.below i) (hi.txn i) (fun _ hx => hx)
  exact inv_pending hi i .idle (fun _ _ h => by cases h) (fun _ _ _ h => by cases h)
    (hi.spent i hpc)

lemma inv_grant (i e : Nat) (txn : EtcdTxn)
    (hpc : (s.srv i).pc = .swapping e txn none) (hs : txn.succeeds s.etcd = true) :
    Inv { s.setSrv i { s.srv i with pc := .swapping e txn (some true) } with
      etcd := txn.commit s.etcd } e := by
  have hal := hi.txn i e txn none hpc
  obtain ⟨⟨old, hold, he⟩, hnew⟩ := hal.commit hs
  have htop : old = top := Option.some.inj (hold.symm.trans hi.saved)
  have hlt : e < 2^64 := by
    obtain ⟨_, _, _, _, _, hlt, _⟩ := hal
    exact hlt
  have hspent := hi.spent i (by rw [hpc]; exact nofun)
  have h1 : Inv { s with etcd := txn.commit s.etcd } e := inv_etcd hi _ hnew (by omega) hlt
  -- the granted window is above the old end, where nothing is owned or returned
  have habove : ∀ x, Alloc.Owns { s.srv i with pc := .swapping e txn (some true) } x → top < x := by
    intro x hx
    have hlow : e - allocStep < x := hx.1
    omega
  refine inv_setSrv h1 i _ hspent.le (fun _ => hspent) (h1.fins i) (le_refl e) ?_ ?_ ?_
  · intro e' t r h
    cases h
    exact hal
  · intro j x _ hx hax
    exact absurd (hx.2.trans (hi.below j)) (not_le.mpr (habove x hax))
  intro x hx hmem
  exact absurd (hi.used x hmem) (not_le.mpr (habove x hx))

lemma inv_alloc (h : step memberValue s (.alloc i) = some t) : Inv t top := by
  simp only [step] at h
  split at h
  next hpc =>
    have hw : (s.srv i).window = ((s.srv i).base, (s.srv i).fin) :=
      window_of_not_granted (fun e t he => by rw [hpc] at he; cases he)
    split at h
    next heq =>
      cases h
      exact inv_pending hi i _ (fun _ _ h => by cases h) (fun _ _ _ h => by cases h) heq
    next hne =>
      cases h
      have hlt := lt_of_le_of_ne (hi.order i) hne
      have h1 := inv_hand hi i (by rw [hw]; exact hlt)
      rw [hw] at h1
      exact h1
  · exact absurd h (by simp)

lemma inv_apply (h : step memberValue s (.apply i) = some t) : ∃ top', Inv t top' := by
  simp only [step] at h
  split at h
  next hpc =>
    cases h
    have hspent := hi.spent i (by rw [hpc]; exact nofun)
    exact ⟨top, inv_pending hi i _ (fun _ _ h => by cases h) (fun _ _ _ h => by cases h) hspent⟩
  next e txn hpc =>
    cases h
    have hspent := hi.spent i (by rw [hpc]; exact nofun)
    cases hs : txn.succeeds s.etcd with
    | true => exact ⟨e, inv_grant hi i e txn hpc hs⟩
    | false =>
      rw [commit_of_not hs]
      exact ⟨top, inv_pending hi i _ (fun _ _ h => by cases h)
        (fun e' t r h => by cases h; exact hi.txn i e txn none hpc) hspent⟩
  · exact absurd h (by simp)

lemma inv_granted {e : Nat} {txn : EtcdTxn} (hpc : (s.srv i).pc = .swapping e txn (some true)) :
  Inv (s.hand i ((e + 2^64 - allocStep) % 2^64) e) top := by
  have hal := hi.txn i e txn _ hpc
  have hwin : (s.srv i).window = (e - allocStep, e) := by unfold Alloc.window; rw [hpc]
  have hb := hi.below i
  obtain ⟨_, _, old, _, he, _, _⟩ := hal
  have hstep : allocStep = 1000 := rfl
  rw [hwin] at hb
  have hbase : (e + 2^64 - allocStep) % 2^64 = e - allocStep := by omega
  have h1 := inv_hand hi i (by rw [hwin]; show e - allocStep < e; omega)
  rw [hwin] at h1
  rw [hbase]
  exact h1

lemma inv_reply (hfit : (s.srv i).pc.EndFits) (h : step memberValue s (.reply i) = some t) : Inv t top := by
  simp only [step] at h
  split at h
  next _ hpc =>
    have hspent := hi.spent i (by rw [hpc]; exact nofun)
    split at h
    · cases h
      exact inv_idle hi i
    next e _ hgen =>
      cases h
      rw [hpc] at hfit
      have hal := generate_isAlloc hgen (fun old hold => hfit old hold)
      exact inv_pending hi i _ (fun _ _ h => by cases h) (fun e' t r h => by cases h; exact hal) hspent
  next e _ hpc =>
    cases h
    exact inv_granted hi hpc
  · cases h
    exact inv_idle hi i
  · exact absurd h (by simp)

lemma inv_step {l : Label} (hfit : EndsFit s l) (h : step memberValue s l = some t) : ∃ top', Inv t top' := by
  cases l with
  | alloc => exact ⟨top, inv_alloc hi h⟩
  | apply => exact inv_apply hi h
  | reply => exact ⟨top, inv_reply hi hfit h⟩
  | fail i =>
    cases h
    have h1 := inv_idle hi i
    exact ⟨top, inv_lost h1 _ (orphan_isAlloc hi i)⟩
  | crash i =>
    cases h
    have h1 : Inv (s.setSrv i .new) top :=
      inv_shrink hi i .new (le_refl _) (fun _ => rfl) (Nat.zero_le _) (Nat.zero_le _)
        (fun _ _ _ h => by cases h)
        (fun x hx => absurd hx (not_owns_of_spent (fun _ _ h => by cases h) rfl x))
    exact ⟨top, inv_lost h1 _ (orphan_isAlloc hi i)⟩
  | applyLost =>
    simp only [step] at h
    split at h
    · exact absurd h (by simp)
    next txn hk =>
      cases h
      obtain ⟨e, hal⟩ := hi.lost txn (List.mem_of_getElem? hk)
      obtain ⟨top', h1, h2, h3⟩ := hal.commit_top hi.saved hi.bound
      exact ⟨top', inv_lost (inv_etcd hi _ h1 h2 h3) _ (fun t ht => hi.lost t (mem_of_mem_eraseIdx ht))⟩
  | setLeader =>
    cases h
    refine ⟨top, inv_etcd hi _ ?_ (le_refl top) hi.bound⟩
    rw [update_of_ne (by decide)]
    exact hi.saved

end

end

/-- **No id is ever returned twice**, by any two `Alloc` calls of any servers in any run. -/
theorem alloc_unique (ls : List Label) (s : State) (hfit : Runs.Along (step memberValue) EndsFit init ls)
  (h : Runs.exec (step memberValue) init ls = some s) : s.returned.Nodup := by
  obtain ⟨top, hi⟩ := Runs.exec_inv (fun s => ∃ top, Inv s top)
    (fun _ _ _ ⟨_, hI⟩ hok h => inv_step hI hok h) ⟨0, inv_init⟩ hfit h
  exact hi.nodup

def twoServers : List Label :=
  [.setLeader (some [0]), .alloc 0, .apply 0, .reply 0, .apply 0, .reply 0, .alloc 0, .crash 0,
    .setLeader (some [1]), .alloc 1, .apply 1, .reply 1, .apply 1, .reply 1]

theorem alloc_unique_two_servers : ∃ s, Runs.exec (step fun i => [i.toUInt8]) init twoServers = some s ∧
    s.returned = [1, 2, 1001] ∧ s.returned.Nodup := by
  refine ⟨_, rfl, by decide, ?_⟩
  exact alloc_unique (fun i => [i.toUInt8]) twoServers _ (by decide) rfl

end Id
end PD
