import PD.Lib.Lease
import PD.Server.Tso

/-! # The timestamp oracle refines the leased windows of a clock

A label is one atomic step of a server, of etcd or of a clock; `moves_step` says what it does to the windows. -/

namespace PD
open Function Words
open TxnStore
namespace Tso
variable {now next ts p q : Int} {m : Bytes} {e : Etcd}

lemma subTimeByWallClock_eq (a b : Int) : subTimeByWallClock a b = Words.wrap (a - b) := by
  unfold subTimeByWallClock unixNano
  rw [wrap_wrap_sub, wrap_sub_wrap]

lemma subTimeByWallClock_of_near {a b : Int} (h1 : -2^63 ≤ a - b) (h2 : a - b < 2^63) :
  subTimeByWallClock a b = a - b := by
  rw [subTimeByWallClock_eq, wrap_eq h1 h2]

def LastOk (last : Int) : Prop := last = zeroTime ∨ (0 ≤ last ∧ last < 2^63)

lemma sub_zeroTime (h : ClockOk now) : updateTimestampGuard ≤ subTimeByWallClock now zeroTime := by
  obtain ⟨h1, h2⟩ := h
  unfold year2041 at h2
  -- three turns of the int64 circle away the difference is in range
  have e : subTimeByWallClock now zeroTime = now - zeroTime + 2^64 * (-3) := by
    rw [subTimeByWallClock_eq, ← wrap_add_mul _ (-3)]
    apply wrap_eq
    · unfold zeroTime; omega
    · unfold zeroTime; omega
  rw [e]
  unfold updateTimestampGuard millisecond zeroTime
  omega

lemma syncNext_spec {last : Int} (hl : LastOk last) (hn : ClockOk now) :
  last + updateTimestampGuard ≤ syncNext last now ∧ 0 ≤ syncNext last now := by
  obtain ⟨h1, h2⟩ := hn
  have hy : year2041 = 2240611200 * 10^9 := rfl
  have hg : updateTimestampGuard = 10^6 := rfl
  unfold syncNext
  rcases hl with rfl | ⟨h3, h4⟩
  · rw [if_neg (not_lt.mpr (sub_zeroTime ⟨h1, h2⟩))]
    have hz : zeroTime = -62135596800 * 10^9 := rfl
    exact ⟨by omega, h1⟩
  rw [subTimeByWallClock_of_near (by omega) (by omega)]
  split
  · exact ⟨le_refl _, by omega⟩
  · exact ⟨by omega, h1⟩

lemma updateNext_spec {prev logical : Int} (h1 : 0 ≤ prev) (h2 : prev < 2^63)
  (hn : ClockOk now) (h : updateNext prev logical now = some next) :
  prev + updateTimestampGuard ≤ next ∧ (next < 2^63 ∨ next = prev + updateTimestampGuard) := by
  obtain ⟨h3, h4⟩ := hn
  have hy : year2041 = 2240611200 * 10^9 := rfl
  unfold updateNext at h
  rw [subTimeByWallClock_of_near (by omega) (by omega)] at h
  split at h
  · cases h
    exact ⟨by omega, .inl (by omega)⟩
  split at h
  · cases h
    exact ⟨le_refl _, .inr rfl⟩
  · exact absurd h (by simp)

lemma lt_of_needSave_false {saved : Int} (h1 : -2^63 ≤ saved - next)
  (h2 : saved - next < 2^63) (h : needSave saved next = false) : next < saved := by
  unfold needSave at h
  rw [subTimeByWallClock_of_near h1 h2] at h
  have h3 := of_decide_eq_false h
  have hg : updateTimestampGuard = 10^6 := rfl
  omega

lemma loadTimestamp_timestampBytes (h1 : 0 ≤ ts) (h2 : ts < 2^63) :
  loadTimestamp (some (timestampBytes ts)) = some ts := by
  have hlt : (unixNano ts % 2^64).toNat < 2^64 := by
    have := Int.emod_lt_of_pos (unixNano ts) (b := 2^64) (by norm_num)
    omega
  have hp : parseTimestamp (timestampBytes ts) = some ts := by
    unfold parseTimestamp timestampBytes
    rw [bytesToUint64_uint64ToBytes _ hlt, Option.map_some, wrap_emod_cast]
    unfold unixNano
    rw [wrap_eq (x := ts) (by omega) h2, wrap_eq (by omega) h2]
  cases hb : timestampBytes ts with
  | nil => rw [hb] at hp; cases hp
  | cons => rw [hb] at hp; exact hp

lemma physicalMs_eq (h0 : 0 ≤ p) (hp : p < 2^63) : physicalMs p = p / millisecond := by
  unfold physicalMs unixNano
  rw [wrap_eq (by omega) hp, Int.tdiv_eq_ediv_of_nonneg h0]

lemma physicalMs_lt (hp : 0 ≤ p) (hq : q < 2^63) (h : p + updateTimestampGuard ≤ q) : physicalMs p < physicalMs q := by
  have hg : updateTimestampGuard = 10^6 := rfl
  rw [physicalMs_eq hp (by omega), physicalMs_eq (by omega) hq, millisecond]
  omega

lemma physicalMs_le (hp : 0 ≤ p) (hq : q < 2^63) (h : p ≤ q) : physicalMs p ≤ physicalMs q := by
  rw [physicalMs_eq hp (by omega), physicalMs_eq (by omega) hq, millisecond]
  omega

def physOf (heap : Nat → AtomicObject) : Option Nat → Int
  | none => zeroTime
  | some o => (heap o).physical

variable (s : State)
variable (i : Nat)

def State.physical : Int := physOf s.heap (s.srv i).ts

def Server.view (v : Server) (p : Int) : Lease.View :=
  match v.pc with
  | .syncLoad (some data) =>
    match loadTimestamp data with
    | none => .out
    | some last => .seen last
  | .syncClock last => .seen last
  | .syncSave last _ _ none => .seen last
  | .syncSave _ next save (some true) => .granted next save
  | .syncStore next => .granted next v.lastSavedTime
  | .leading => .serving p v.lastSavedTime
  | .updDecide _ _ => .serving p v.lastSavedTime
  | .updSave _ save (some true) => .serving p save
  | .updSave _ _ _ => .serving p v.lastSavedTime
  | .updStore _ => .serving p v.lastSavedTime
  | _ => .out

def State.points : Set Int := {p | p ≠ zeroTime ∧ ∃ o < s.size, (s.heap o).physical = p}
def savedTop (e : Etcd) : Int := (loadTimestamp (e .timestamp)).getD zeroTime

def abs (cfg : Nat → Config) (s : State) : Lease.St Nat where
  top := savedTop s.etcd
  leader := fun i => s.etcd .leader = some (cfg i).memberValue
  view := fun i => (s.srv i).view (s.physical i)
  points := s.points

def Server.Serving (v : Server) (d p : Int) : Prop :=
  0 ≤ p ∧ p < v.lastSavedTime ∧ v.lastSavedTime ≤ p + d ∧ v.lastSavedTime < 2^63

def Server.Ok (v : Server) (d p : Int) : Prop :=
  match v.pc with
  | .syncLoad (some data) => p = zeroTime ∧ ∃ last, loadTimestamp data = some last ∧ LastOk last
  | .syncClock last => p = zeroTime ∧ LastOk last
  | .syncSave last next save _ => p = zeroTime ∧
      last + updateTimestampGuard ≤ next ∧ 0 ≤ next ∧ save = next + d ∧ save < 2^63
  | .syncStore next => p = zeroTime ∧ 0 ≤ next ∧ v.lastSavedTime = next + d ∧ v.lastSavedTime < 2^63
  | .leading => v.Serving d p
  | .updDecide prev now => v.Serving d p ∧ v.ts = some prev ∧ ClockOk now
  | .updSave next save _ => v.Serving d p ∧ p + updateTimestampGuard ≤ next ∧ save = next + d ∧ save < 2^63
  | .updStore next => 0 ≤ p ∧ p + updateTimestampGuard ≤ next ∧
      next < v.lastSavedTime ∧ v.lastSavedTime ≤ next + d ∧ v.lastSavedTime < 2^63
  | _ => p = zeroTime

structure Inv (cfg : Nat → Config) (s : State) : Prop where
  lease : Lease.Inv updateTimestampGuard (abs cfg s)
  saved : ∃ top, loadTimestamp (s.etcd .timestamp) = some top ∧ LastOk top
  ok : ∀ i, (s.srv i).Ok (cfg i).tsoSaveInterval (s.physical i)
  ptr : ∀ i o, (s.srv i).ts = some o → o < s.size
  nonneg : ∀ p ∈ s.points, 0 ≤ p
  inj : ∀ o o', o < s.size → o' < s.size → (s.heap o).physical ≠ zeroTime →
    (s.heap o).physical = (s.heap o').physical → o = o'

structure Moves (cfg : Nat → Config) (s t : State) : Prop where
  inv : Inv cfg t
  step : Relation.ReflGen (Lease.Step updateTimestampGuard) (abs cfg s) (abs cfg t)

lemma setSrv_self (v : Server) : (s.setSrv i v).srv i = v := update_self ..
lemma setSrv_of_ne {i j : Nat} (v : Server) (h : j ≠ i) : (s.setSrv i v).srv j = s.srv j := update_of_ne h ..

lemma view_setSrv (v : Server) (j : Nat) : ((s.setSrv i v).srv j).view ((s.setSrv i v).physical j) =
  update (fun k => (s.srv k).view (s.physical k)) i (v.view (physOf s.heap v.ts)) j := by
  unfold State.physical
  by_cases e : j = i
  · subst e; rw [setSrv_self, update_self]; rfl
  · rw [setSrv_of_ne s v e, update_of_ne e]; rfl

lemma physOf_storeTs (p : Int) (pc : Pc) : physOf (s.storeTs i p pc).heap (some s.size) = p := by
  show (update s.heap s.size ⟨p, 0, 0⟩ s.size).physical = p
  rw [update_self]

lemma heap_storeTs_of_lt (p : Int) (pc : Pc) {o : Nat} (h : o < s.size) :
    (s.storeTs i p pc).heap o = s.heap o := update_of_ne (Nat.ne_of_lt h) ..

section
variable {cfg : Nat → Config} {s t : State}

lemma abs_top {top : Int} (h : loadTimestamp (s.etcd .timestamp) = some top) : (abs cfg s).top = top := by
  show (loadTimestamp (s.etcd .timestamp)).getD zeroTime = top
  rw [h]
  rfl

lemma top_lt (hi : Inv cfg s) : (abs cfg s).top < 2^63 := by
  obtain ⟨top, h, hok⟩ := hi.saved
  rw [abs_top h]
  have hz : zeroTime = -62135596800 * 10^9 := rfl
  rcases hok with h | h
  · omega
  · exact h.2

lemma point_lt (hi : Inv cfg s) {p : Int} (hp : p ∈ s.points) : p < 2^63 := lt_trans (hi.lease.below p hp) (top_lt hi)

lemma abs_server (s : State) (i : Nat) (v : Server) (e : Etcd) : abs cfg { s.setSrv i v with etcd := e } =
      ⟨savedTop e, fun j => e .leader = some (cfg j).memberValue,
        ((abs cfg s).setView i (v.view (physOf s.heap v.ts))).view, s.points⟩ := by
  show (⟨savedTop e, _, fun j => ((s.setSrv i v).srv j).view ((s.setSrv i v).physical j), s.points⟩ : Lease.St Nat) = _
  rw [funext (view_setSrv s i v)]
  rfl

lemma moves_server (hi : Inv cfg s) (i : Nat) (v : Server) (e : Etcd) (hts : ∀ o, v.ts = some o → o < s.size)
  (hok : v.Ok (cfg i).tsoSaveInterval (physOf s.heap v.ts))
  (hsaved : ∃ top, loadTimestamp (e .timestamp) = some top ∧ LastOk top)
  (hl : Relation.ReflGen (Lease.Step updateTimestampGuard) (abs cfg s)
    ⟨savedTop e, fun j => e .leader = some (cfg j).memberValue,
      ((abs cfg s).setView i (v.view (physOf s.heap v.ts))).view, s.points⟩) :
  Moves cfg s { s.setSrv i v with etcd := e } where
  step := by rw [abs_server]; exact hl
  inv := {
    lease := by rw [abs_server]; exact Lease.inv_moves (by decide) hi.lease hl
    saved := hsaved
    ok := by
      intro j
      show ((s.setSrv i v).srv j).Ok _ (physOf s.heap ((s.setSrv i v).srv j).ts)
      by_cases ej : j = i
      · subst ej; rw [setSrv_self]; exact hok
      · rw [setSrv_of_ne s v ej]; exact hi.ok j
    ptr := by
      intro j o
      by_cases ej : j = i
      · subst ej; rw [setSrv_self]; exact hts o
      · rw [setSrv_of_ne s v ej]; exact hi.ptr j o
    nonneg := hi.nonneg
    inj := hi.inj }

lemma moves_keep (hi : Inv cfg s) (i : Nat) (v : Server) (hts : v.ts = (s.srv i).ts)
  (hok : v.Ok (cfg i).tsoSaveInterval (s.physical i))
  (hview : v.view (s.physical i) = (s.srv i).view (s.physical i)) : Moves cfg s (s.setSrv i v) := by
  have hp : physOf s.heap v.ts = s.physical i := by rw [hts]; rfl
  refine moves_server hi i v s.etcd (fun o ho => hi.ptr i o (hts ▸ ho)) (hp ▸ hok) hi.saved ?_
  have e : ((abs cfg s).setView i (v.view (physOf s.heap v.ts))).view = (abs cfg s).view := by
    rw [hp, hview]
    exact update_eq_self i (abs cfg s).view
  rw [e]
  exact .refl

lemma moves_drop (hi : Inv cfg s) (i : Nat) (v : Server) (hts : ∀ o, v.ts = some o → o < s.size)
  (hok : v.Ok (cfg i).tsoSaveInterval (physOf s.heap v.ts))
  (hview : v.view (physOf s.heap v.ts) = .out) : Moves cfg s (s.setSrv i v) := by
  refine moves_server hi i v s.etcd hts hok hi.saved ?_
  rw [hview]
  exact .single (.drop (abs cfg s) i)

lemma points_storeTs (s : State) (i : Nat) (p : Int) (pc : Pc) :
  (s.storeTs i p pc).points = if p = zeroTime then s.points else insert p s.points := by
  have hmem : ∀ q, q ∈ (s.storeTs i p pc).points ↔ (q ≠ zeroTime ∧ q = p) ∨ q ∈ s.points := by
    intro q
    constructor
    · rintro ⟨hq, o, ho, rfl⟩
      rcases Nat.lt_succ_iff_lt_or_eq.mp ho with h | rfl
      · rw [heap_storeTs_of_lt s i p pc h] at hq ⊢
        exact .inr ⟨hq, o, h, rfl⟩
      · exact .inl ⟨hq, physOf_storeTs s i p pc⟩
    rintro (⟨hq, rfl⟩ | ⟨hq, o, ho, rfl⟩)
    · exact ⟨hq, s.size, Nat.lt_succ_self _, physOf_storeTs s i q pc⟩
    refine ⟨hq, o, Nat.lt_succ_of_lt ho, ?_⟩
    rw [heap_storeTs_of_lt s i p pc ho]
  ext q
  rw [hmem]
  split
  next h => exact ⟨fun hq => hq.resolve_left (fun ⟨h1, h2⟩ => h1 (h2.trans h)), .inr⟩
  next h => exact ⟨fun hq => hq.imp And.right id, fun hq => hq.imp (fun (e : q = p) => ⟨e ▸ h, e⟩) id⟩

lemma physical_storeTs (hi : Inv cfg s) (i : Nat) (p : Int) (pc : Pc) (j : Nat) :
  (s.storeTs i p pc).physical j = if j = i then p else s.physical j := by
  show physOf (s.storeTs i p pc).heap ((s.setSrv i _).srv j).ts = _
  split
  next e => subst e; rw [setSrv_self]; exact physOf_storeTs s j p pc
  next e =>
    rw [setSrv_of_ne s _ e]
    unfold State.physical
    cases hts : (s.srv j).ts with
    | none => rfl
    | some o =>
      show ((s.storeTs i p pc).heap o).physical = _
      rw [heap_storeTs_of_lt s i p pc (hi.ptr j o hts)]
      rfl

lemma abs_storeTs (hi : Inv cfg s) (i : Nat) (p : Int) (pc : Pc) : abs cfg (s.storeTs i p pc) =
      { (abs cfg s).setView i (Server.view { s.srv i with ts := some s.size, pc := pc } p) with
        points := if p = zeroTime then s.points else insert p s.points } := by
  have hv : (abs cfg (s.storeTs i p pc)).view = ((abs cfg s).setView i
      (Server.view { s.srv i with ts := some s.size, pc := pc } p)).view := by
    funext j
    show ((s.setSrv i _).srv j).view ((s.storeTs i p pc).physical j) = update (abs cfg s).view i _ j
    rw [physical_storeTs hi]
    by_cases e : j = i
    · subst e; rw [setSrv_self, if_pos rfl, update_self]
    · rw [setSrv_of_ne s _ e, if_neg e, update_of_ne e]; rfl
  have he : abs cfg (s.storeTs i p pc) = ⟨(abs cfg s).top, (abs cfg s).leader, (abs cfg (s.storeTs i p pc)).view,
        (s.storeTs i p pc).points⟩ := rfl
  rw [he, hv, points_storeTs]
  rfl

lemma moves_storeTs (hi : Inv cfg s) (i : Nat) (p : Int) (pc : Pc) (hp : p ≠ zeroTime → 0 ≤ p ∧ p ∉ s.points)
    (hok : Server.Ok { s.srv i with ts := some s.size, pc := pc } (cfg i).tsoSaveInterval p)
    (hl : Relation.ReflGen (Lease.Step updateTimestampGuard) (abs cfg s)
      { (abs cfg s).setView i (Server.view { s.srv i with ts := some s.size, pc := pc } p) with
        points := if p = zeroTime then s.points else insert p s.points }) :
    Moves cfg s (s.storeTs i p pc) where
  step := by rw [abs_storeTs hi]; exact hl
  inv := {
    lease := by rw [abs_storeTs hi]; exact Lease.inv_moves (by decide) hi.lease hl
    saved := hi.saved
    ok := by
      intro j
      rw [physical_storeTs hi]
      show ((s.setSrv i _).srv j).Ok _ _
      by_cases e : j = i
      · subst e; rw [setSrv_self, if_pos rfl]; exact hok
      · rw [setSrv_of_ne s _ e, if_neg e]; exact hi.ok j
    ptr := by
      intro j o
      show ((s.setSrv i _).srv j).ts = some o → o < s.size + 1
      by_cases e : j = i
      · subst e; rw [setSrv_self]; intro h; cases h; exact Nat.lt_succ_self _
      · rw [setSrv_of_ne s _ e]; intro h; exact Nat.lt_succ_of_lt (hi.ptr j o h)
    nonneg := by
      intro q hq
      rw [points_storeTs] at hq
      split at hq
      · exact hi.nonneg q hq
      next h =>
        rcases hq with rfl | hq
        · exact (hp h).1
        · exact hi.nonneg q hq
    inj := by
      -- only a pair of the new object and an old one is new
      have hnew : ∀ o, o < s.size → (s.heap o).physical ≠ zeroTime → (s.heap o).physical ≠ p := by
        intro o ho hz e
        exact (hp (e ▸ hz)).2 ⟨e ▸ hz, o, ho, e⟩
      have hsize : ((s.storeTs i p pc).heap s.size).physical = p := physOf_storeTs s i p pc
      intro o o' ho ho' hz e
      rcases Nat.lt_succ_iff_lt_or_eq.mp ho with h | rfl
      · rw [heap_storeTs_of_lt s i p pc h] at hz e
        rcases Nat.lt_succ_iff_lt_or_eq.mp ho' with h' | rfl
        · rw [heap_storeTs_of_lt s i p pc h'] at e
          exact hi.inj o o' h h' hz e
        rw [hsize] at e
        exact absurd e (hnew o h hz)
      rw [hsize] at hz e
      rcases Nat.lt_succ_iff_lt_or_eq.mp ho' with h' | rfl
      · rw [heap_storeTs_of_lt s i p pc h'] at e
        exact absurd e.symm (hnew o' h' (e ▸ hz))
      · rfl }

lemma moves_reset (hi : Inv cfg s) (i : Nat) : Moves cfg s (s.storeTs i zeroTime .idle) := by
  refine moves_storeTs hi i zeroTime .idle (fun h => absurd rfl h) rfl ?_
  rw [if_pos rfl]
  exact .single (.drop (abs cfg s) i)

lemma Moves.refl (hi : Inv cfg s) : Moves cfg s s := ⟨hi, .refl⟩

lemma physical_congr (h2 : t.srv = s.srv)
  (h4 : ∀ o, (t.heap o).physical = (s.heap o).physical) : t.physical = s.physical := by
  funext i
  unfold State.physical
  rw [h2]
  cases (s.srv i).ts with
  | none => rfl
  | some o => exact h4 o

lemma points_congr (h3 : t.size = s.size)
  (h4 : ∀ o, (t.heap o).physical = (s.heap o).physical) : t.points = s.points := by
  unfold State.points
  simp only [h3, h4]

lemma physical_added (s : State) (o : Nat) (l : Int) (n o' : Nat) :
  (update s.heap o ⟨(s.heap o).physical, l, n⟩ o').physical = (s.heap o').physical := by
  by_cases e : o' = o
  · subst e; rw [update_self]
  · rw [update_of_ne e]

lemma abs_congr (h1 : t.etcd = s.etcd) (h2 : t.srv = s.srv) (h3 : t.size = s.size)
  (h4 : ∀ o, (t.heap o).physical = (s.heap o).physical) : abs cfg t = abs cfg s := by
  unfold abs
  rw [h1, h2, physical_congr h2 h4, points_congr h3 h4]

lemma Moves.requests {u : State} (hm : Moves cfg s t) (h1 : u.etcd = t.etcd) (h2 : u.srv = t.srv)
  (h3 : u.size = t.size) (h4 : ∀ o, (u.heap o).physical = (t.heap o).physical) : Moves cfg s u := by
  have habs : abs cfg u = abs cfg t := abs_congr h1 h2 h3 h4
  refine ⟨?_, habs ▸ hm.step⟩
  exact {
    lease := habs ▸ hm.inv.lease
    saved := h1 ▸ hm.inv.saved
    ok := by rw [h2, physical_congr h2 h4]; exact hm.inv.ok
    ptr := by rw [h2, h3]; exact hm.inv.ptr
    nonneg := by rw [points_congr h3 h4]; exact hm.inv.nonneg
    inj := by
      intro o o'
      rw [h3, h4, h4]
      exact hm.inv.inj o o' }

end

lemma campaignTxn_commit (h : (campaignTxn m).succeeds e = true) :
  e .leader = none ∧ (campaignTxn m).commit e = update e .leader (some m) :=
  ⟨holds_absent.mp ((succeeds_iff _ _).mp h _ (List.mem_singleton.mpr rfl)), commit_of_succeeds h⟩

lemma saveTimestampTxn_commit (h : (saveTimestampTxn m ts).succeeds e = true) :
  e .leader = some m ∧ (saveTimestampTxn m ts).commit e = update e .timestamp (some (timestampBytes ts)) :=
  ⟨(leaderTxn_succeeds.mp h).2, commit_of_succeeds h⟩

section
variable {cfg : Nat → Config} {s t : State}
variable {next save : Int} {i : Nat}

lemma moves_elect (hm : ∀ i j, (cfg i).memberValue = (cfg j).memberValue → i = j) (hi : Inv cfg s) (i : Nat)
  (hpc : (s.srv i).pc = .campaign none) (hs : (campaignTxn (cfg i).memberValue).succeeds s.etcd = true) :
  Moves cfg s { s.setPc i (.campaign (some true)) with
    etcd := (campaignTxn (cfg i).memberValue).commit s.etcd } := by
  obtain ⟨hnone, hcommit⟩ := campaignTxn_commit hs
  have hok := hi.ok i
  have hview : (s.srv i).view (s.physical i) = .out := by simp only [Server.view, hpc]
  simp only [Server.Ok, hpc] at hok
  rw [hcommit]
  have htime : update s.etcd .leader (some (cfg i).memberValue) .timestamp =
      s.etcd .timestamp := update_of_ne (by decide) ..
  refine moves_server hi i { s.srv i with pc := .campaign (some true) } _
    (fun o ho => hi.ptr i o ho) hok (by rw [htime]; exact hi.saved) ?_
  have htop : savedTop (update s.etcd .leader (some (cfg i).memberValue)) =
      savedTop s.etcd := by unfold savedTop; rw [htime]
  have hleader : (fun j => update s.etcd .leader (some (cfg i).memberValue) .leader =
      some (cfg j).memberValue) = fun j => j = i := by
    funext j
    rw [update_self]
    exact propext ⟨fun h => (hm i j (Option.some.inj h)).symm, fun h => by rw [h]⟩
  have hsame : ((abs cfg s).setView i .out).view = (abs cfg s).view := by
    rw [← hview]
    exact update_eq_self i (abs cfg s).view
  rw [htop, hleader]
  change Relation.ReflGen _ (abs cfg s) ⟨_, _, ((abs cfg s).setView i .out).view, _⟩
  rw [hsame]
  refine .single (.elect (abs cfg s) i (fun j hj => ?_) hview)
  have hj' : s.etcd .leader = some (cfg j).memberValue := hj
  rw [hnone] at hj'
  cases hj'

lemma moves_saved (hi : Inv cfg s) (i : Nat) (pc : Pc) (save : Int) (h0 : 0 ≤ save) (h1 : save < 2^63)
    (hok : Server.Ok { s.srv i with pc := pc } (cfg i).tsoSaveInterval (s.physical i))
    (hl : Relation.ReflGen (Lease.Step updateTimestampGuard) (abs cfg s)
      { (abs cfg s).setView i (Server.view { s.srv i with pc := pc } (s.physical i)) with
        top := save }) :
    Moves cfg s { s.setPc i pc with
      etcd := update s.etcd .timestamp (some (timestampBytes save)) } := by
  have hload : loadTimestamp (update s.etcd .timestamp (some (timestampBytes save)) .timestamp) = some save := by
    rw [update_self]
    exact loadTimestamp_timestampBytes h0 h1
  have htop : savedTop (update s.etcd .timestamp (some (timestampBytes save))) = save := by
    unfold savedTop
    rw [hload]
    rfl
  have hlead : update s.etcd .timestamp (some (timestampBytes save)) .leader =
      s.etcd .leader := update_of_ne (by decide) ..
  refine moves_server hi i { s.srv i with pc := pc } _ (fun o ho => hi.ptr i o ho) hok
    ⟨save, hload, .inr ⟨h0, h1⟩⟩ ?_
  rw [htop, hlead]
  exact hl

lemma moves_see (hi : Inv cfg s) (i : Nat) (hpc : (s.srv i).pc = .syncLoad none) :
  Moves cfg s (s.setPc i (.syncLoad (some (s.etcd .timestamp)))) := by
  have hok := hi.ok i
  simp only [Server.Ok, hpc] at hok
  obtain ⟨top, hload, htop⟩ := hi.saved
  refine moves_server hi i { s.srv i with pc := .syncLoad (some (s.etcd .timestamp)) } s.etcd
    (fun o ho => hi.ptr i o ho) ⟨hok, top, hload, htop⟩ hi.saved ?_
  have hview : Server.view { s.srv i with pc := .syncLoad (some (s.etcd .timestamp)) }
      (s.physical i) = .seen (abs cfg s).top := by
    rw [abs_top hload]
    simp only [Server.view, hload]
  change Relation.ReflGen _ (abs cfg s) ⟨_, _, ((abs cfg s).setView i (Server.view
    { s.srv i with pc := .syncLoad (some (s.etcd .timestamp)) } (s.physical i))).view, _⟩
  rw [hview]
  exact .single (.see (abs cfg s) i)

lemma moves_grant (hd : 0 < (cfg i).tsoSaveInterval) (hi : Inv cfg s) {last : Int}
  (hpc : (s.srv i).pc = .syncSave last next save none) : Moves cfg s { s.setPc i (.syncSave last next save
      (some ((saveTimestampTxn (cfg i).memberValue save).succeeds s.etcd))) with
    etcd := (saveTimestampTxn (cfg i).memberValue save).commit s.etcd } := by
  have hok := hi.ok i
  simp only [Server.Ok, hpc] at hok
  obtain ⟨hz, hlast, hnext, hsave, hlt⟩ := hok
  cases hs : (saveTimestampTxn (cfg i).memberValue save).succeeds s.etcd with
  | true =>
    obtain ⟨hlead, hcommit⟩ := saveTimestampTxn_commit hs
    rw [hcommit]
    refine moves_saved hi i (.syncSave last next save (some true)) save (by omega) hlt
      ⟨hz, hlast, hnext, hsave, hlt⟩ ?_
    have hview : (abs cfg s).view i = .seen last := by
      show (s.srv i).view (s.physical i) = _
      simp only [Server.view, hpc]
    exact .single (.grant (abs cfg s) i last next save hlead hview hlast (by omega))
  | false =>
    rw [commit_of_not hs]
    exact moves_drop hi i { s.srv i with pc := .syncSave last next save (some false) }
      (fun o ho => hi.ptr i o ho) ⟨hz, hlast, hnext, hsave, hlt⟩ rfl

lemma moves_extend (hd : 0 < (cfg i).tsoSaveInterval) (hi : Inv cfg s) (hpc : (s.srv i).pc = .updSave next save none) :
  Moves cfg s { s.setPc i (.updSave next save
      (some ((saveTimestampTxn (cfg i).memberValue save).succeeds s.etcd))) with
    etcd := (saveTimestampTxn (cfg i).memberValue save).commit s.etcd } := by
  have hok := hi.ok i
  have hg : updateTimestampGuard = 10^6 := rfl
  simp only [Server.Ok, hpc] at hok
  obtain ⟨hserv, hnext, hsave, hlt⟩ := hok
  obtain ⟨hp, hp', hle, hlt'⟩ := hserv
  cases hs : (saveTimestampTxn (cfg i).memberValue save).succeeds s.etcd with
  | true =>
    obtain ⟨hlead, hcommit⟩ := saveTimestampTxn_commit hs
    rw [hcommit]
    refine moves_saved hi i (.updSave next save (some true)) save (by omega) hlt
      ⟨⟨hp, hp', hle, hlt'⟩, hnext, hsave, hlt⟩ ?_
    have hview : (abs cfg s).view i = .serving (s.physical i) (s.srv i).lastSavedTime := by
      show (s.srv i).view (s.physical i) = _
      simp only [Server.view, hpc]
    exact .single (.extend (abs cfg s) i (s.physical i) _ save hlead hview (by omega))
  | false =>
    rw [commit_of_not hs]
    exact moves_keep hi i _ rfl ⟨⟨hp, hp', hle, hlt'⟩, hnext, hsave, hlt⟩ (by simp only [Server.view, hpc])

lemma moves_apply (hm : ∀ i j, (cfg i).memberValue = (cfg j).memberValue → i = j)
  (hd : ∀ i, 0 < (cfg i).tsoSaveInterval) (hi : Inv cfg s) (h : stepApply cfg s i = some t) : Moves cfg s t := by
  unfold stepApply at h
  split at h
  next hpc =>
    cases h
    have hok := hi.ok i
    cases hs : (campaignTxn (cfg i).memberValue).succeeds s.etcd with
    | true => exact moves_elect hm hi i hpc hs
    | false =>
      rw [commit_of_not hs]
      simp only [Server.Ok, hpc] at hok
      exact moves_keep hi i _ rfl hok (by simp only [Server.view, hpc])
  next hpc =>
    cases h
    exact moves_see hi i hpc
  next _ _ _ hpc =>
    cases h
    exact moves_grant (hd i) hi hpc
  next _ _ hpc =>
    cases h
    exact moves_extend (hd i) hi hpc
  · cases h

lemma moves_reply (hi : Inv cfg s) (h : stepReply s i = some t) : Moves cfg s t := by
  have hok := hi.ok i
  unfold stepReply at h
  split at h
  next hpc =>
    cases h
    simp only [Server.Ok, hpc] at hok
    exact moves_keep hi i _ rfl hok (by simp only [Server.view, hpc])
  next hpc =>
    cases h
    simp only [Server.Ok, hpc] at hok
    exact moves_keep hi i _ rfl hok (by simp only [Server.view, hpc])
  next _ hpc =>
    simp only [Server.Ok, hpc] at hok
    obtain ⟨hz, last, hload, hlast⟩ := hok
    rw [hload] at h
    cases h
    exact moves_keep hi i _ rfl ⟨hz, hlast⟩ (by simp only [Server.view, hpc, hload])
  next _ _ _ hpc =>
    cases h
    simp only [Server.Ok, hpc] at hok
    obtain ⟨hz, _, hnext, hsave, hlt⟩ := hok
    exact moves_keep hi i _ rfl ⟨hz, hnext, hsave, hlt⟩ (by simp only [Server.view, hpc])
  next hpc =>
    cases h
    simp only [Server.Ok, hpc] at hok
    exact moves_keep hi i _ rfl hok.1 (by simp only [Server.view, hpc])
  next next save hpc =>
    cases h
    simp only [Server.Ok, hpc] at hok
    obtain ⟨⟨hp, _, _, _⟩, hnext, hsave, hlt⟩ := hok
    have hlt' : next < save := by omega
    exact moves_keep hi i _ rfl ⟨hp, hnext, hlt', le_of_eq hsave, hlt⟩ (by simp only [Server.view, hpc])
  · cases h; exact moves_reset hi i
  · cases h

lemma moves_fail (hi : Inv cfg s) (h : stepFail s i = some t) : Moves cfg s t := by
  have hok := hi.ok i
  have hidle : s.physical i = zeroTime → Moves cfg s (s.setPc i .idle) := fun hz =>
    moves_drop hi i { s.srv i with pc := .idle } (fun o ho => hi.ptr i o ho) hz rfl
  unfold stepFail at h
  split at h
  next hpc => cases h; simp only [Server.Ok, hpc] at hok; exact hidle hok
  next hpc => cases h; simp only [Server.Ok, hpc] at hok; exact hidle hok
  next res hpc =>
    cases h
    apply hidle
    cases res with
    | none => simp only [Server.Ok, hpc] at hok; exact hok
    | some => simp only [Server.Ok, hpc] at hok; exact hok.1
  next hpc => cases h; simp only [Server.Ok, hpc] at hok; exact hidle hok.1
  · cases h; exact moves_reset hi i
  · cases h

lemma moves_decide (hi : Inv cfg s)
  (hfit : SavesFit cfg s (.decide i)) (h : stepDecide cfg s i = some t) : Moves cfg s t := by
  have hok := hi.ok i
  have hg : updateTimestampGuard = 10^6 := rfl
  unfold stepDecide at h
  split at h
  next prev _ hpc =>
    simp only [Server.Ok, hpc] at hok
    obtain ⟨⟨hp, hp', hle, hlt⟩, hts, hnow⟩ := hok
    have hphys : (s.heap prev).physical = s.physical i := by
      unfold State.physical
      rw [hts]
      rfl
    split at h
    · cases h
      exact moves_keep hi i _ rfl ⟨hp, hp', hle, hlt⟩ (by simp only [Server.view, hpc])
    next next hnext =>
      have hspec := updateNext_spec hp (by omega) hnow (hphys ▸ hnext)
      split at h
      next hneed =>
        cases h
        have hsave : next + (cfg i).tsoSaveInterval < 2^63 := by
          refine hfit _ ?_
          simp only [savedBy, hpc, hnext, Option.bind_some, hneed]
          rfl
        exact moves_keep hi i _ rfl ⟨⟨hp, hp', hle, hlt⟩, hspec.1, rfl, hsave⟩ (by simp only [Server.view, hpc])
      next hneed =>
        cases h
        have hlt' := lt_of_needSave_false (by omega) (by omega) (Bool.eq_false_of_not_eq_true hneed)
        have hle' : (s.srv i).lastSavedTime ≤ next + (cfg i).tsoSaveInterval := by omega
        exact moves_keep hi i _ rfl ⟨hp, hspec.1, hlt', hle', hlt⟩ (by simp only [Server.view, hpc])
  · cases h

lemma moves_store (hd : ∀ i, 0 < (cfg i).tsoSaveInterval) (hi : Inv cfg s)
  (h : stepStore s i = some t) : Moves cfg s t := by
  have hok := hi.ok i
  have hg : updateTimestampGuard = 10^6 := rfl
  have hz : zeroTime = -62135596800 * 10^9 := rfl
  have hdi := hd i
  unfold stepStore at h
  split at h
  next next hpc =>
    cases h
    simp only [Server.Ok, hpc] at hok
    obtain ⟨_, hnext, hsave, hlt⟩ := hok
    have hview : (abs cfg s).view i = .granted next (s.srv i).lastSavedTime := by
      show (s.srv i).view (s.physical i) = _
      simp only [Server.view, hpc]
    have hlt' : next < (s.srv i).lastSavedTime := by omega
    refine moves_storeTs hi i next .leading (fun _ => ⟨hnext, Lease.granted_fresh (by decide) hi.lease hview⟩)
      ⟨hnext, hlt', le_of_eq hsave, hlt⟩ ?_
    rw [if_neg (by omega)]
    exact .single (.install (abs cfg s) i next _ hview)
  next next hpc =>
    cases h
    simp only [Server.Ok, hpc] at hok
    obtain ⟨hp, hnext, hnext', hle, hlt⟩ := hok
    have hview : (abs cfg s).view i = .serving (s.physical i) (s.srv i).lastSavedTime := by
      show (s.srv i).view (s.physical i) = _
      simp only [Server.view, hpc]
    refine moves_storeTs hi i next .leading
      (fun _ => ⟨by omega, Lease.serving_fresh (by decide) hi.lease hview (by omega) hnext'⟩)
      ⟨by omega, hnext', hle, hlt⟩ ?_
    rw [if_neg (by omega)]
    exact .single (.advance (abs cfg s) i (s.physical i) _ next hview hnext hnext')
  · cases h

lemma moves_expire (hi : Inv cfg s) : Moves cfg s { s with etcd := update s.etcd .leader none } := by
  have htime : update s.etcd .leader none .timestamp = s.etcd .timestamp := update_of_ne (by decide) ..
  have habs : abs cfg { s with etcd := update s.etcd .leader none } = { abs cfg s with leader := fun _ => False } := by
    have htop : savedTop (update s.etcd .leader none) = savedTop s.etcd := by unfold savedTop; rw [htime]
    have hlead : (fun j => update s.etcd .leader none .leader = some (cfg j).memberValue) = fun _ => False := by
      funext j
      rw [update_self]
      exact eq_false (nofun)
    show (⟨_, _, _, _⟩ : Lease.St Nat) = ⟨_, _, _, _⟩
    rw [htop, hlead]
    rfl
  have hl : Relation.ReflGen (Lease.Step updateTimestampGuard) (abs cfg s)
      { abs cfg s with leader := fun _ => False } := .single (.expire (abs cfg s))
  refine ⟨?_, habs ▸ hl⟩
  exact { hi with
    lease := habs ▸ Lease.inv_moves (by decide) hi.lease hl
    saved := by
      show ∃ top, loadTimestamp (update s.etcd .leader none .timestamp) = _ ∧ _
      rw [htime]
      exact hi.saved }

lemma moves_step (hm : ∀ i j, (cfg i).memberValue = (cfg j).memberValue → i = j)
  (hd : ∀ i, 0 < (cfg i).tsoSaveInterval) {l : Label} (hi : Inv cfg s) (henv : EnvOk s l)
  (hfit : SavesFit cfg s l) (h : step cfg s l = some t) : Moves cfg s t := by
  cases l with
  | campaign i | sync i =>
    have hok := hi.ok i
    simp only [step] at h
    split at h
    next hpc =>
      cases h
      simp only [Server.Ok, hpc] at hok
      exact moves_keep hi i _ rfl hok (by simp only [Server.view, hpc])
    · cases h
  | apply => exact moves_apply hm hd hi h
  | reply => exact moves_reply hi h
  | fail => exact moves_fail hi h
  | clock i now =>
    have hok := hi.ok i
    simp only [step] at h
    split at h
    next last hpc =>
      cases h
      simp only [Server.Ok, hpc] at hok
      obtain ⟨hz, hlast⟩ := hok
      have hspec := syncNext_spec hlast henv
      have hsave : syncNext last now + (cfg i).tsoSaveInterval < 2^63 := by
        refine hfit _ ?_
        simp only [savedBy, hpc]
        rfl
      exact moves_keep hi i _ rfl ⟨hz, hspec.1, hspec.2, rfl, hsave⟩ (by simp only [Server.view, hpc])
    · cases h
  | tick i =>
    have hok := hi.ok i
    simp only [step] at h
    split at h
    next _ hpc hts =>
      cases h
      simp only [Server.Ok, hpc] at hok
      exact moves_keep hi i _ rfl ⟨hok, hts, henv⟩ (by simp only [Server.view, hpc])
    · cases h
  | decide => exact moves_decide hi hfit h
  | store => exact moves_store hd hi h
  | stepDown i =>
    simp only [step] at h
    split at h
    · cases h; exact moves_reset hi i
    · cases h
  | crash i =>
    cases h
    have h1 : Moves cfg s (s.setSrv i .new) := moves_drop hi i .new (fun o ho => by cases ho) rfl rfl
    exact h1.requests rfl rfl rfl (fun _ => rfl)
  | expire =>
    cases h
    exact moves_expire hi
  | call =>
    simp only [step] at h
    split at h
    · cases h; exact .refl hi
    split at h
    · cases h; exact (Moves.refl hi).requests rfl rfl rfl (fun _ => rfl)
    · cases h
  | load =>
    simp only [step, stepLoad] at h
    split at h
    · split at h
      · split at h <;> (cases h; exact (Moves.refl hi).requests rfl rfl rfl (fun _ => rfl))
      · cases h
    · cases h
  | add =>
    simp only [step, stepAdd] at h
    split at h
    · split at h
      · cases h
      next o _ =>
        split at h <;> (cases h; exact (Moves.refl hi).requests rfl rfl rfl (physical_added s o _ _))
    · cases h

lemma inv_init (cfg : Nat → Config) : Inv cfg init where
  lease := by
    have habs : abs cfg init = ⟨zeroTime, fun _ => False, fun _ => .out, ∅⟩ := by
      have hlead : (fun i => init.etcd .leader = some (cfg i).memberValue) = fun _ => False := by
        funext i
        exact eq_false (nofun)
      have hpts : init.points = ∅ := by
        ext p
        exact ⟨fun ⟨_, o, ho, _⟩ => absurd ho (Nat.not_lt_zero o), fun h => False.elim h⟩
      show (⟨_, _, _, _⟩ : Lease.St Nat) = _
      rw [hlead, hpts]
      rfl
    rw [habs]
    exact Lease.inv_start zeroTime
  saved := ⟨zeroTime, rfl, .inl rfl⟩
  ok := fun _ => rfl
  ptr := fun _ _ h => by cases h
  nonneg := fun _ h => by
    obtain ⟨_, o, ho, _⟩ := h
    exact absurd ho (Nat.not_lt_zero o)
  inj := fun o _ ho => absurd ho (Nat.not_lt_zero o)

lemma physicalMs_ne (hi : Inv cfg s) {o o' : Nat} (ho : o < s.size) (ho' : o' < s.size)
  (hz : (s.heap o).physical ≠ zeroTime) (hz' : (s.heap o').physical ≠ zeroTime) (hne : o ≠ o') :
  physicalMs (s.heap o).physical ≠ physicalMs (s.heap o').physical := by
  have hp : (s.heap o).physical ∈ s.points := ⟨hz, o, ho, rfl⟩
  have hp' : (s.heap o').physical ∈ s.points := ⟨hz', o', ho', rfl⟩
  have hne' : (s.heap o).physical ≠ (s.heap o').physical := fun e => hne (hi.inj o o' ho ho' hz e)
  rcases Lease.inv_points _ hi.lease hp hp' hne' with h | h
  · exact ne_of_lt (physicalMs_lt (hi.nonneg _ hp) (point_lt hi hp') h)
  · exact ne_of_gt (physicalMs_lt (hi.nonneg _ hp') (point_lt hi hp) h)

end
end Tso
end PD
