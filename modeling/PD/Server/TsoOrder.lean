import Mathlib.Order.CompletePartialOrder
import PD.Server.TsoWindows

/-! # Uniqueness and order of the timestamps of `getRespTS` -/

namespace PD
namespace Tso
open Function

def Event.range : Event → Set (Int × Int)
  | .start _ _ => ∅
  | .ret _ _ count physical logical => {x | x.1 = physical ∧ logical - count < x.2 ∧ x.2 ≤ logical}

def Unique (hist : List Event) : Prop := hist.Pairwise fun e e' => Disjoint e.range e'.range
def Earlier (x y : Int × Int) : Prop := x.1 < y.1 ∨ (x.1 = y.1 ∧ x.2 < y.2)

def Ordered (hist : List Event) : Prop := ∀ (c c' i n n' : Nat) (p p' l l' : Int),
    List.Sublist [.ret c i n p l, .start c' i, .ret c' i n' p' l'] hist →
      ∀ x ∈ (Event.ret c i n p l).range, ∀ y ∈ (Event.ret c' i n' p' l').range, Earlier x y

lemma snoc_sublist_snoc {α : Type*} (as : List α) {bs : List α} {a b : α} (h : (as ++ [a]).Sublist (bs ++ [b])) :
  (as ++ [a]).Sublist bs ∨ (a = b ∧ as.Sublist bs) := by
  have h' := h.reverse
  rw [List.reverse_append, List.reverse_append] at h'
  rcases List.cons_sublist_cons'.mp h' with h1 | ⟨h1, h2⟩
  · left
    apply List.reverse_sublist.mp
    rw [List.reverse_append]
    exact h1
  · exact .inr ⟨h1, List.reverse_sublist.mp h2⟩

def Stacked (e e' : Event) : Prop :=
  ∀ (c i n : Nat) (p l : Int) (c' i' n' : Nat) (l' : Int), e = .ret c i n p l → e' = .ret c' i' n' p l' → l ≤ l' - n'

def Below (cfg : Nat → Config) (s : State) (i o : Nat) : Prop :=
  ∀ lo hi, ((abs cfg s).view i).Win lo hi → (s.heap o).physical ≤ lo

structure CallOk (cfg : Nat → Config) (s : State) (c : Nat) (v : Call) : Prop where
  fresh : c < s.ncalls
  count : v.count < 2^32
  current : ∀ o, v.current = some o → o < s.size ∧ (s.heap o).physical ≠ zeroTime ∧ Below cfg s v.srv o
  late : ∀ o, v.current = some o → ∀ c' n p l,
    List.Sublist [.ret c' v.srv n p l, .start c v.srv] s.hist → p ≤ physicalMs (s.heap o).physical

structure Calls (cfg : Nat → Config) (s : State) : Prop where
  logical : ∀ o, 0 ≤ (s.heap o).logical ∧ (s.heap o).logical ≤ (s.heap o).requests * (2^32 - 1)
  calls : ∀ c v, s.calls c = some v → CallOk cfg s c v
  ret : ∀ c i n p l, .ret c i n p l ∈ s.hist → ∃ o < s.size, (s.heap o).physical ≠ zeroTime ∧
    physicalMs (s.heap o).physical = p ∧ l ≤ (s.heap o).logical ∧ Below cfg s i o
  stacked : s.hist.Pairwise Stacked
  order : ∀ (c c' i n n' : Nat) (p p' l l' : Int),
    List.Sublist [.ret c i n p l, .start c' i, .ret c' i n' p' l'] s.hist → p < p' ∨ (p = p' ∧ l ≤ l' - n')

structure Frame (s t : State) : Prop where
  hist : t.hist = s.hist
  ncalls : t.ncalls = s.ncalls
  calls : ∀ c v, t.calls c = some v → s.calls c = some v
  size : s.size ≤ t.size
  heap : ∀ o < s.size, t.heap o = s.heap o
  made : ∀ o, s.size ≤ o → t.heap o = s.heap o ∨ (t.heap o).logical = 0

section
variable {cfg : Nat → Config} {s t : State}

lemma Frame.refl (s : State) : Frame s s := ⟨rfl, rfl, fun _ _ h => h, le_refl _, fun _ _ => rfl, fun _ _ => .inl rfl⟩

lemma frame_etcd (s : State) (i : Nat) (v : Server) (e : Etcd) : Frame s { s.setSrv i v with etcd := e } :=
  ⟨rfl, rfl, fun _ _ h => h, le_refl _, fun _ _ => rfl, fun _ _ => .inl rfl⟩

lemma frame_setSrv (s : State) (i : Nat) (v : Server) : Frame s (s.setSrv i v) := frame_etcd s i v s.etcd

lemma frame_storeTs (s : State) (i : Nat) (p : Int) (pc : Pc) : Frame s (s.storeTs i p pc) where
  hist := rfl
  ncalls := rfl
  calls := fun _ _ h => h
  size := Nat.le_succ _
  heap := fun _ h => heap_storeTs_of_lt s i p pc h
  made := by
    intro o _
    by_cases e : o = s.size
    · subst e
      right
      show (Function.update s.heap s.size ⟨p, 0, 0⟩ s.size).logical = 0
      rw [update_self]
    · exact .inl (update_of_ne e ..)

lemma frame_apply {i : Nat} (h : stepApply cfg s i = some t) : Frame s t := by
  unfold stepApply at h
  split at h
  · cases h; exact frame_etcd ..
  · cases h; exact frame_setSrv ..
  · cases h; exact frame_etcd ..
  · cases h; exact frame_etcd ..
  · cases h

lemma frame_reply {i : Nat} (h : stepReply s i = some t) : Frame s t := by
  unfold stepReply at h
  split at h
  · cases h; exact frame_setSrv ..
  · cases h; exact frame_setSrv ..
  · split at h <;> (cases h; exact frame_setSrv ..)
  · cases h; exact frame_setSrv ..
  · cases h; exact frame_setSrv ..
  · cases h; exact frame_setSrv ..
  · cases h; exact frame_storeTs ..
  · cases h

lemma frame_fail {i : Nat} (h : stepFail s i = some t) : Frame s t := by
  unfold stepFail at h
  split at h
  · cases h; exact frame_setSrv ..
  · cases h; exact frame_setSrv ..
  · cases h; exact frame_setSrv ..
  · cases h; exact frame_setSrv ..
  · cases h; exact frame_storeTs ..
  · cases h

lemma frame_decide {i : Nat} (h : stepDecide cfg s i = some t) : Frame s t := by
  unfold stepDecide at h
  split at h
  · split at h
    · cases h; exact frame_setSrv ..
    split at h <;> (cases h; exact frame_setSrv ..)
  · cases h

lemma frame_store {i : Nat} (h : stepStore s i = some t) : Frame s t := by
  unfold stepStore at h
  split at h
  · cases h; exact frame_storeTs ..
  · cases h; exact frame_storeTs ..
  · cases h

lemma below_frame (hi : Inv cfg s) (hm : Moves cfg s t) (hf : Frame s t) {i o : Nat} (ho : o < s.size)
  (hz : (s.heap o).physical ≠ zeroTime) (h : Below cfg s i o) : Below cfg t i o := by
  intro lo hi' hw
  rw [hf.heap o ho]
  rcases Lease.win_moves (by decide) hi.lease hm.step hw with htop | ⟨lo', hi'', hw', hle⟩
  · exact le_trans (le_of_lt (hi.lease.below _ ⟨hz, o, ho, rfl⟩)) htop
  · exact le_trans (h lo' hi'' hw') hle

lemma calls_frame (hc : Calls cfg s) (hi : Inv cfg s) (hm : Moves cfg s t) (hf : Frame s t) : Calls cfg t where
  logical := by
    intro o
    have hsame : t.heap o = s.heap o ∨ (t.heap o).logical = 0 := by
      rcases Nat.lt_or_ge o s.size with h | h
      · exact .inl (hf.heap o h)
      · exact hf.made o h
    rcases hsame with h | h
    · rw [h]; exact hc.logical o
    · rw [h]; exact ⟨le_refl _, by omega⟩
  calls := by
    intro c v hv
    obtain ⟨fresh, count, current, late⟩ := hc.calls c v (hf.calls c v hv)
    refine ⟨hf.ncalls ▸ fresh, count, fun o hcur => ?_, fun o hcur => ?_⟩
    · obtain ⟨ho, hz, hbelow⟩ := current o hcur
      exact ⟨lt_of_lt_of_le ho hf.size, by rw [hf.heap o ho]; exact hz, below_frame hi hm hf ho hz hbelow⟩
    · rw [hf.hist, hf.heap o (current o hcur).1]
      exact late o hcur
  ret := by
    intro c i n p l hmem
    rw [hf.hist] at hmem
    obtain ⟨o, ho, hz, hms, hl, hbelow⟩ := hc.ret c i n p l hmem
    have hbelow' := below_frame hi hm hf ho hz hbelow
    exact ⟨o, lt_of_lt_of_le ho hf.size, by rw [hf.heap o ho]; exact ⟨hz, hms, hl, hbelow'⟩⟩
  stacked := by rw [hf.hist]; exact hc.stacked
  order := by rw [hf.hist]; exact hc.order

lemma setCall_self (s : State) (c : Nat) (v : Option Call) : (s.setCall c v).calls c = v := update_self ..

lemma setCall_of_ne (s : State) {c c' : Nat} (v : Option Call) (h : c' ≠ c) :
    (s.setCall c v).calls c' = s.calls c' := update_of_ne h ..

lemma CallOk.retry {c : Nat} {v w : Call} (h : CallOk cfg s c v) (hw : v.retry = some w) : CallOk cfg s c w := by
  unfold Call.retry at hw
  split at hw
  · cases hw
    exact ⟨h.fresh, h.count, nofun, nofun⟩
  · cases hw

lemma calls_setCall (hc : Calls cfg s) (c : Nat) (w : Option Call) (hw : ∀ v, w = some v → CallOk cfg s c v) :
  Calls cfg (s.setCall c w) := by
  refine ⟨hc.logical, fun c' v hv => ?_, hc.ret, hc.stacked, hc.order⟩
  have hok : CallOk cfg s c' v := by
    by_cases e : c' = c
    · subst e
      rw [setCall_self] at hv
      exact hw v hv
    · rw [setCall_of_ne s w e] at hv
      exact hc.calls c' v hv
  exact ⟨hok.fresh, hok.count, hok.current, hok.late⟩

lemma calls_start (hc : Calls cfg s) (i : Nat) :
    Calls cfg { s with ncalls := s.ncalls + 1, hist := s.hist ++ [.start s.ncalls i] } where
  logical := hc.logical
  calls := by
    intro c v hv
    obtain ⟨fresh, count, current, late⟩ := hc.calls c v hv
    refine ⟨Nat.lt_succ_of_lt fresh, count, current, fun o hcur c' n p l hsub => ?_⟩
    rcases snoc_sublist_snoc [_] hsub with h | ⟨h, _⟩
    · exact late o hcur c' n p l h
    cases h
    exact absurd fresh (lt_irrefl _)
  ret := by
    intro c j n p l hmem
    rcases List.mem_append.mp hmem with h | h
    · exact hc.ret c j n p l h
    · cases List.mem_singleton.mp h
  stacked := by
    refine List.pairwise_append.mpr ⟨hc.stacked, List.pairwise_singleton _ _, ?_⟩
    intro e _ e' he' c j n p l c' j' n' l' _ h2
    rw [List.mem_singleton.mp he'] at h2
    cases h2
  order := by
    intro c c' j n n' p p' l l' hsub
    rcases snoc_sublist_snoc [_, _] hsub with h | ⟨h, _⟩
    · exact hc.order c c' j n n' p p' l l' h
    · cases h

lemma synced_spec (hi : Inv cfg s) {i o : Nat} (h : s.synced i = some o) :
  o < s.size ∧ (s.heap o).physical ≠ zeroTime ∧ ∃ hi', ((abs cfg s).view i).Win (s.heap o).physical hi' := by
  obtain ⟨hts, hz⟩ := Option.filter_eq_some_iff.mp h
  have hz' : (s.heap o).physical ≠ zeroTime := by
    intro e
    rw [e] at hz
    exact absurd hz (by decide)
  have hp : s.physical i = (s.heap o).physical := by
    unfold State.physical
    rw [hts]
    rfl
  refine ⟨hi.ptr i o hts, hz', ?_⟩
  have hok := hi.ok i
  rw [← hp] at hz' ⊢
  show ∃ hi', ((s.srv i).view (s.physical i)).Win (s.physical i) hi'
  unfold Server.Ok at hok
  unfold Server.view
  split at hok
  · exact absurd hok.1 hz'
  · exact absurd hok.1 hz'
  · exact absurd hok.1 hz'
  · exact absurd hok.1 hz'
  next hpc => rw [hpc]; exact ⟨_, rfl, rfl⟩
  next hpc => rw [hpc]; exact ⟨_, rfl, rfl⟩
  next _ _ res hpc =>
    rw [hpc]
    rcases res with _ | _ | _ <;> exact ⟨_, rfl, rfl⟩
  next hpc => rw [hpc]; exact ⟨_, rfl, rfl⟩
  · exact absurd hok hz'

lemma ret_le_synced (hc : Calls cfg s) (hi : Inv cfg s) {i o : Nat} (h : s.synced i = some o) {c n : Nat}
  {p l : Int} (hmem : .ret c i n p l ∈ s.hist) : p ≤ physicalMs (s.heap o).physical := by
  obtain ⟨ho, hz, hi', hw⟩ := synced_spec hi h
  obtain ⟨o', ho', hz', rfl, -, hbelow⟩ := hc.ret _ _ _ _ _ hmem
  exact physicalMs_le (hi.nonneg _ ⟨hz', o', ho', rfl⟩) (point_lt hi ⟨hz, o, ho, rfl⟩) (hbelow _ hi' hw)

lemma calls_load (hc : Calls cfg s) (hi : Inv cfg s) {c o : Nat} {v : Call} (hv : s.calls c = some v)
  (h : s.synced v.srv = some o) : Calls cfg (s.setCall c (some { v with current := some o })) := by
  obtain ⟨ho, hz, hi', hw⟩ := synced_spec hi h
  obtain ⟨fresh, count, -, -⟩ := hc.calls c v hv
  refine calls_setCall hc c _ fun w hw' => ?_
  cases hw'
  refine ⟨fresh, count, fun o' hcur => ?_, fun o' hcur c' n p l hsub => ?_⟩
  · cases hcur
    refine ⟨ho, hz, fun lo hi'' hwin => ?_⟩
    change ((abs cfg s).view v.srv).Win lo hi'' at hwin
    cases hview : (abs cfg s).view v.srv with
    | out | seen => rw [hview] at hw; exact False.elim hw
    | _ => rw [hview] at hw hwin; exact le_of_eq (hw.1.symm.trans hwin.1)
  · cases hcur
    exact ret_le_synced hc hi h (hsub.subset List.mem_cons_self)

lemma calls_heap (hc : Calls cfg s) {c o : Nat} {v : Call}
    (hv : s.calls c = some v) (hreq : (s.heap o).requests + 1 < 2^31) :
    Words.wrap ((s.heap o).logical + v.count) = (s.heap o).logical + v.count ∧
    Calls cfg { s with heap := Function.update s.heap o ⟨(s.heap o).physical,
      (s.heap o).logical + v.count, (s.heap o).requests + 1⟩ } := by
  obtain ⟨h1, h2⟩ := hc.logical o
  have hn := (hc.calls c v hv).count
  refine ⟨Words.wrap_eq (by omega) (by omega), ?_⟩
  set heap' := Function.update s.heap o ⟨(s.heap o).physical, (s.heap o).logical + v.count,
    (s.heap o).requests + 1⟩ with hheap
  have hphys : ∀ o', (heap' o').physical = (s.heap o').physical := physical_added s o _ _
  have hbelow : ∀ i o', Below cfg s i o' → Below cfg { s with heap := heap' } i o' := by
    intro i o' h lo hi' hw
    have habs : abs cfg { s with heap := heap' } = abs cfg s := abs_congr rfl rfl rfl hphys
    rw [habs] at hw
    exact (hphys o').symm ▸ h lo hi' hw
  have hup : ∀ o', (s.heap o').logical ≤ (heap' o').logical := by
    intro o'
    by_cases e : o' = o
    · subst e
      rw [hheap, update_self]
      show _ ≤ _ + (v.count : Int)
      omega
    · rw [hheap, update_of_ne e]
  exact {
    logical := by
      intro o'
      show 0 ≤ (heap' o').logical ∧ (heap' o').logical ≤ (heap' o').requests * (2^32 - 1)
      by_cases e : o' = o
      · subst e
        rw [hheap, update_self]
        show 0 ≤ (s.heap o').logical + v.count ∧
          (s.heap o').logical + v.count ≤ ((s.heap o').requests + 1 : Nat) * (2^32 - 1)
        omega
      rw [hheap, update_of_ne e]
      exact hc.logical o'
    calls := by
      intro c' w hw
      obtain ⟨fresh, count, current, late⟩ := hc.calls c' w hw
      refine ⟨fresh, count, fun o' hcur => ?_, fun o' hcur => ?_⟩
      · obtain ⟨ho', hz, hb⟩ := current o' hcur
        exact ⟨ho', (hphys o').symm ▸ hz, hbelow _ o' hb⟩
      · rw [hphys]
        exact late o' hcur
    ret := by
      intro c' i n p l hmem
      obtain ⟨o', ho', hz, hms, hl, hb⟩ := hc.ret c' i n p l hmem
      have hb' := hbelow i o' hb
      refine ⟨o', ho', ?_⟩
      rw [hphys]
      exact ⟨hz, hms, le_trans hl (hup o'), hb'⟩
    stacked := hc.stacked
    order := hc.order }

lemma calls_ret (hc : Calls cfg s) {c o : Nat} {v : Call} {p l : Int} (hv : s.calls c = some v)
  (hcur : v.current = some o) (hp : p = physicalMs (s.heap o).physical) (hl : l ≤ (s.heap o).logical)
  (hold : ∀ c' i n l', .ret c' i n p l' ∈ s.hist → l' ≤ l - v.count) :
  Calls cfg { s with hist := s.hist ++ [.ret c v.srv v.count p l] } where
  logical := hc.logical
  calls := by
    intro c' w hw
    obtain ⟨fresh, count, current, late⟩ := hc.calls c' w hw
    refine ⟨fresh, count, current, fun o' hcur' c'' n p' l' hsub => ?_⟩
    rcases snoc_sublist_snoc [_] hsub with h | ⟨h, _⟩
    · exact late o' hcur' c'' n p' l' h
    · cases h
  ret := by
    intro c' i n p' l' hmem
    rcases List.mem_append.mp hmem with h | h
    · exact hc.ret c' i n p' l' h
    cases List.mem_singleton.mp h
    obtain ⟨ho, hz, hbelow⟩ := (hc.calls c v hv).current o hcur
    exact ⟨o, ho, hz, hp.symm, hl, hbelow⟩
  stacked := by
    refine List.pairwise_append.mpr ⟨hc.stacked, List.pairwise_singleton _ _, ?_⟩
    intro e he e' he' c1 i1 n1 p1 l1 c2 i2 n2 l2 h1 h2
    rw [List.mem_singleton.mp he'] at h2
    cases h2
    exact hold c1 i1 n1 l1 (h1 ▸ he)
  order := by
    intro c1 c2 i n1 n2 p1 p2 l1 l2 hsub
    rcases snoc_sublist_snoc [_, _] hsub with h | ⟨h, hsub'⟩
    · exact hc.order c1 c2 i n1 n2 p1 p2 l1 l2 h
    cases h
    have hle := (hc.calls c v hv).late o hcur c1 n1 p1 l1 hsub'
    rw [← hp] at hle
    rcases lt_or_eq_of_le hle with hlt | rfl
    · exact .inl hlt
    · exact .inr ⟨rfl, hold c1 v.srv n1 l1 (hsub'.subset List.mem_cons_self)⟩

lemma calls_add (hc : Calls cfg s) (hi : Inv cfg s) {c : Nat} (henv : EnvOk s (.add c))
  (h : stepAdd s c = some t) : Calls cfg t := by
  unfold stepAdd at h
  split at h
  next v hv =>
    split at h
    · cases h
    next o hcur =>
      obtain ⟨ho, hz, -⟩ := (hc.calls c v hv).current o hcur
      obtain ⟨hwrap, hc1⟩ := calls_heap hc hv (henv v hv o hcur)
      simp only [hwrap] at h
      split at h
      · cases h
        exact calls_setCall hc1 c v.retry fun w hw => (hc1.calls c v hv).retry hw
      cases h
      have hold : ∀ c' i n l', .ret c' i n (physicalMs (s.heap o).physical) l' ∈ s.hist →
          l' ≤ (s.heap o).logical + v.count - v.count := by
        intro c' i n l' hmem
        obtain ⟨o', ho', hz', hms, hl, -⟩ := hc.ret _ _ _ _ _ hmem
        have e : o' = o := by
          by_contra hne
          exact physicalMs_ne hi ho' ho hz' hz hne hms
        subst e
        omega
      have hc2 := calls_ret (p := physicalMs (s.heap o).physical)
        (l := (s.heap o).logical + v.count) hc1 hv hcur
        (by show _ = physicalMs (Function.update s.heap o _ o).physical
            rw [update_self])
        (by show _ ≤ (Function.update s.heap o _ o).logical
            rw [update_self]) hold
      exact calls_setCall hc2 c none fun w hw => by cases hw
  · cases h

lemma calls_step (hm : ∀ i j, (cfg i).memberValue = (cfg j).memberValue → i = j)
  (hd : ∀ i, 0 < (cfg i).tsoSaveInterval) {l : Label} (hi : Inv cfg s) (hc : Calls cfg s)
  (henv : EnvOk s l) (hfit : SavesFit cfg s l) (h : step cfg s l = some t) : Calls cfg t := by
  have hmv := moves_step hm hd hi henv hfit h
  cases l with
  | campaign | sync | clock | tick =>
    simp only [step] at h
    split at h
    · cases h; exact calls_frame hc hi hmv (frame_setSrv ..)
    · cases h
  | apply => exact calls_frame hc hi hmv (frame_apply h)
  | reply => exact calls_frame hc hi hmv (frame_reply h)
  | fail => exact calls_frame hc hi hmv (frame_fail h)
  | decide => exact calls_frame hc hi hmv (frame_decide h)
  | store => exact calls_frame hc hi hmv (frame_store h)
  | stepDown =>
    simp only [step] at h
    split at h
    · cases h; exact calls_frame hc hi hmv (frame_storeTs ..)
    · cases h
  | crash i =>
    cases h
    refine calls_frame hc hi hmv { frame_setSrv s i .new with calls := fun c v hv => ?_ }
    exact (Option.filter_eq_some_iff.mp hv).1
  | expire =>
    cases h
    exact calls_frame hc hi hmv { Frame.refl s with hist := rfl }
  | call i _ =>
    simp only [step] at h
    split at h
    · cases h; exact hc
    split at h
    next hn =>
      cases h
      refine calls_setCall (calls_start hc i) s.ncalls _ fun v hv => ?_
      cases hv
      exact ⟨Nat.lt_succ_self _, hn, (fun _ e => by cases e), (fun _ e => by cases e)⟩
    · cases h
  | load c =>
    simp only [step, stepLoad] at h
    split at h
    next v hv =>
      split at h
      · split at h
        · cases h
          exact calls_setCall hc c v.retry fun w hw => (hc.calls c v hv).retry hw
        next o ho => cases h; exact calls_load hc hi hv ho
      · cases h
    · cases h
  | add => exact calls_add hc hi henv h

lemma calls_init (cfg : Nat → Config) : Calls cfg init where
  logical := by
    intro o
    show (0 : Int) ≤ 0 ∧ (0 : Int) ≤ (0 : Nat) * (2^32 - 1)
    omega
  calls := fun _ _ h => by cases h
  ret := fun _ _ _ _ _ h => absurd h (List.not_mem_nil)
  stacked := List.Pairwise.nil
  order := fun _ _ _ _ _ _ _ _ _ h => by cases h

lemma Stacked.disjoint {e e' : Event} (h : Stacked e e') : Disjoint e.range e'.range := by
  rw [Set.disjoint_left]
  intro x hx hx'
  cases e with
  | start => exact hx
  | ret c i n p l =>
    cases e' with
    | start => exact hx'
    | ret c' i' n' _ l' =>
      obtain ⟨h1, h2, h3⟩ := hx
      obtain ⟨h4, h5, h6⟩ := hx'
      have hle := h c i n p l c' i' n' l' rfl (by rw [← h1, h4])
      omega

end

/-- **Uniqueness and order of timestamps** -/
theorem getRespTS_unique_ordered (cfg : Nat → Config) (hm : ∀ i j, (cfg i).memberValue = (cfg j).memberValue → i = j)
  (hd : ∀ i, 0 < (cfg i).tsoSaveInterval) (ls : List Label) (s : State)
  (hok : Runs.Along (step cfg) (fun s l => EnvOk s l ∧ SavesFit cfg s l) init ls)
  (h : Runs.exec (step cfg) init ls = some s) : Unique s.hist ∧ Ordered s.hist := by
  have hinv : Inv cfg s ∧ Calls cfg s := Runs.exec_inv (fun s => Inv cfg s ∧ Calls cfg s)
      (fun s l t ⟨hi, hc⟩ hok h => ⟨(moves_step hm hd hi hok.1 hok.2 h).inv,
        calls_step hm hd hi hc hok.1 hok.2 h⟩) ⟨inv_init cfg, calls_init cfg⟩ hok h
  refine ⟨hinv.2.stacked.imp (fun he => he.disjoint), ?_⟩
  intro c c' i n n' p p' l l' hsub x hx y hy
  obtain ⟨h1, h2, h3⟩ := hx
  obtain ⟨h4, h5, h6⟩ := hy
  rcases hinv.2.order c c' i n n' p p' l l' hsub with h | ⟨h, hle⟩
  · exact .inl (by omega)
  · exact .inr ⟨by omega, by omega⟩

def term (i : Nat) (now : Int) : List Label :=
  [.campaign i, .apply i, .reply i, .sync i, .apply i, .reply i, .clock i now, .apply i, .reply i, .store i]

def overtaken : List Label :=
  term 0 (15 * 10^17) ++ ([.call 0 5, .load 0, .stepDown 0, .expire] : List Label) ++ term 1 (14 * 10^17) ++
    ([.call 1 3, .load 1, .add 1, .add 0, .call 1 2, .load 2, .add 2] : List Label)

theorem getRespTS_unique_ordered_overtaken :
  ∃ s, Runs.exec (step fun i => ⟨List.replicate i 0, 3 * 10^9⟩) init overtaken = some s ∧
    s.hist = [.start 0 0, .start 1 1, .ret 1 1 3 1500000003001 3, .ret 0 0 5 1500000000000 5,
      .start 2 1, .ret 2 1 2 1500000003001 5] ∧ Unique s.hist ∧ Ordered s.hist := by
  have hrun : (Runs.exec (step fun i => ⟨List.replicate i 0, 3 * 10^9⟩) init overtaken).map
      State.hist = some [.start 0 0, .start 1 1, .ret 1 1 3 1500000003001 3,
        .ret 0 0 5 1500000000000 5, .start 2 1, .ret 2 1 2 1500000003001 5] := by decide +kernel
  obtain ⟨s, hs, hhist⟩ := Option.map_eq_some_iff.mp hrun
  refine ⟨s, hs, hhist, ?_⟩
  exact getRespTS_unique_ordered (fun i => ⟨List.replicate i 0, 3 * 10^9⟩)
    (fun i j h => by simpa using congrArg List.length h) (fun _ => by norm_num) overtaken s
    (by decide +kernel) hs

def overflowing : List Label :=
  term 0 (15 * 10^17) ++ ([.tick 0 (15 * 10^17 + 2 * 10^6 - 2), .decide 0, .store 0, .call 0 1,
    .load 0, .add 0, .stepDown 0, .expire] : List Label) ++
  term 0 (15 * 10^17) ++ ([.stepDown 0, .expire] : List Label) ++
  term 0 (15 * 10^17) ++ ([.call 0 1, .load 1, .add 1] : List Label)

theorem getRespTS_overlap : ¬ ∀ cfg : Nat → Config, (∀ i j, (cfg i).memberValue = (cfg j).memberValue → i = j) →
  (∀ i, 0 < (cfg i).tsoSaveInterval) → ∀ ls s, Runs.Along (step cfg) EnvOk init ls →
    Runs.exec (step cfg) init ls = some s → Unique s.hist ∧ Ordered s.hist := by
  intro h
  have hrun : (Runs.exec (step fun i => ⟨List.replicate i 0, 2^63 - 1⟩) init overflowing).map
      State.hist = some [.start 0 0, .ret 0 0 1 1500000000001 1, .start 1 0,
        .ret 1 0 1 1500000000001 1] := by decide +kernel
  obtain ⟨s, hs, hhist⟩ := Option.map_eq_some_iff.mp hrun
  have h1 := h (fun i => ⟨List.replicate i 0, 2^63 - 1⟩)
    (fun i j h => by simpa using congrArg List.length h) (fun _ => by norm_num) overflowing s
    (by decide +kernel) hs
  rw [hhist] at h1
  have h2 := List.pairwise_cons.mp (List.pairwise_cons.mp h1.1).2
  have hx : ∀ c, (1500000000001, 1) ∈ (Event.ret c 0 1 1500000000001 1).range :=
    fun _ => ⟨rfl, by norm_num, by norm_num⟩
  exact Set.disjoint_left.mp (h2.1 (.ret 1 0 1 1500000000001 1) (by simp)) (hx 0) (hx 1)

/-- **Every run of the servers is a run of the leased clock**: each step of the servers is one step of the clock or
none, and the saved bound is above each timestamp returned. -/
theorem tso_refines_lease (cfg : Nat → Config) (hm : ∀ i j, (cfg i).memberValue = (cfg j).memberValue → i = j)
  (hd : ∀ i, 0 < (cfg i).tsoSaveInterval) (ls : List Label) (s : State)
  (hok : Runs.Along (step cfg) (fun s l => EnvOk s l ∧ SavesFit cfg s l) init ls)
  (h : Runs.exec (step cfg) init ls = some s) :
  Runs.Steps (step cfg) (fun s _ t => Relation.ReflGen (Lease.Step updateTimestampGuard) (abs cfg s) (abs cfg t))
      init ls ∧
    Relation.ReflTransGen (Lease.Step updateTimestampGuard) (abs cfg init) (abs cfg s) ∧
    Lease.Inv updateTimestampGuard (abs cfg s) ∧ ∃ top, loadTimestamp (s.etcd .timestamp) = some top ∧
      ∀ c i n p l, .ret c i n p l ∈ s.hist → p * millisecond < top := by
  obtain ⟨hi, hc, hsim⟩ := Runs.exec_inv (fun t => Inv cfg t ∧ Calls cfg t ∧
    Relation.ReflTransGen (Lease.Step updateTimestampGuard) (abs cfg init) (abs cfg t))
    (fun t l u ⟨hi, hc, hsim⟩ hok h => by
      have hmoves := moves_step hm hd hi hok.1 hok.2 h
      exact ⟨hmoves.inv, calls_step hm hd hi hc hok.1 hok.2 h, hsim.trans hmoves.step.to_reflTransGen⟩)
    ⟨inv_init cfg, calls_init cfg, .refl⟩ hok h
  obtain ⟨top, htop, -⟩ := hi.saved
  have hsteps := Runs.steps_of_inv (Inv cfg) (fun t l u hi hok h => by
    have hmoves := moves_step hm hd hi hok.1 hok.2 h
    exact ⟨hmoves.inv, hmoves.step⟩) (inv_init cfg) hok
  refine ⟨hsteps, hsim, hi.lease, top, htop, fun c i n p l hret => ?_⟩
  -- a returned timestamp was taken from an installed object, whose time is a point of the leased clock
  obtain ⟨o, ho, hne, rfl, -⟩ := hc.ret c i n p l hret
  have hpoint : (s.heap o).physical ∈ s.points := ⟨hne, o, ho, rfl⟩
  have hnonneg := hi.nonneg _ hpoint
  have hbelow := hi.lease.below _ hpoint
  rw [abs_top htop] at hbelow
  unfold physicalMs unixNano millisecond
  rw [Words.wrap_eq (by omega) (point_lt hi hpoint), Int.tdiv_eq_ediv_of_nonneg hnonneg]
  omega

theorem tso_refines_lease_overtaken :
  ∃ s, Runs.exec (step fun i => ⟨List.replicate i 0, 3 * 10^9⟩) init overtaken = some s ∧
    ∃ top, loadTimestamp (s.etcd .timestamp) = some top ∧ 1500000003001 * millisecond < top := by
  have hrun : (Runs.exec (step fun i => ⟨List.replicate i 0, 3 * 10^9⟩) init overtaken).map
      (fun s => decide (.ret 1 1 3 1500000003001 3 ∈ s.hist)) = some true := by decide +kernel
  obtain ⟨s, hs, hret⟩ := Option.map_eq_some_iff.mp hrun
  obtain ⟨-, -, -, top, htop, hbelow⟩ := tso_refines_lease (fun i => ⟨List.replicate i 0, 3 * 10^9⟩)
    (fun i j h => by simpa using congrArg List.length h) (fun _ => by norm_num) overtaken s (by decide +kernel) hs
  exact ⟨s, hs, top, htop, hbelow 1 1 3 1500000003001 3 (of_decide_eq_true hret)⟩

end Tso
end PD
