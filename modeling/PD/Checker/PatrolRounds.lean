import PD.Core.Paging

/-! # Rounds of the patrol -/

namespace PD
namespace Patrol
open List Option RegionsInfo

def patrolScanRegionLimit : Nat := 128

def patrolPage (busy : Nat → Bool) (checkRegion : RegionInfo → Bool) :
    Key → List (Option RegionInfo) → Option (Key × List RegionInfo)
  | key, [] => some (key, [])
  | _, none :: _ => none
  | key, some region :: regions =>
    if busy region.getID then patrolPage busy checkRegion key regions
    else if checkRegion region then some (region.getMeta.endKey, [region])
    else (patrolPage busy checkRegion region.getMeta.endKey regions).map fun o => (o.1, region :: o.2)

variable (r : RegionsInfo)
variable (busy : Nat → Bool)

def patrolRound (checkRegion : RegionInfo → Bool) (key : Key) : Option (Key × List RegionInfo) :=
  (r.scanRange key patrolScanRegionLimit).bind fun regions =>
    if regions.isEmpty then some ([], []) else patrolPage busy checkRegion key regions

def patrolKey (r : RegionsInfo) (busy : Nat → Bool) (checkRegion : RegionInfo → Bool) : Nat → Key → Option Key
  | 0, key => some key
  | n + 1, key => (patrolRound r busy checkRegion key).bind fun o => patrolKey r busy checkRegion n o.1

def patrolled (checkRegion : RegionInfo → Bool) (n : Nat) : Option (List RegionInfo) :=
  (patrolKey r busy checkRegion n []).bind fun key => (patrolRound r busy checkRegion key).map Prod.snd

def PatrolsAll : Prop := ∀ id x, r.getRegion id = some x → busy id = false →
    ∀ N, ∃ n, N ≤ n ∧ ∃ regions, patrolled r busy (fun _ => false) n = some regions ∧ x ∈ regions

structure Unblocked (r : RegionsInfo) (busy : Nat → Bool) : Prop where
  last : ∀ x, r.ordered.getLast? = some x → busy x.getID = false
  pages : ∀ regions, regions <:+: r.ordered → regions.length = patrolScanRegionLimit →
    ∃ x ∈ regions, busy x.getID = false

section
variable (r : RegionsInfo) (busy : Nat → Bool)

def page (key : Key) : List RegionInfo := (r.startingAt key).take patrolScanRegionLimit
def checked (key : Key) : List RegionInfo := (page r key).filter fun x => !busy x.getID

def nextKey (key : Key) : Key :=
  if page r key = [] then []
  else match (checked r busy key).getLast? with
    | none => key
    | some x => x.getMeta.endKey

variable {r} {busy}
variable {key : Key} {p : Nat} {x : RegionInfo}

lemma patrolPage_eq (key : Key) (regions : List RegionInfo) : patrolPage busy (fun _ => false) key (regions.map some) =
    some ((match (regions.filter fun x => !busy x.getID).getLast? with
      | none => key
      | some x => x.getMeta.endKey), regions.filter fun x => !busy x.getID) := by
  induction regions generalizing key with
  | nil => rfl
  | cons x regions ih =>
    rw [map_cons, patrolPage]
    by_cases hx : busy x.getID = true
    · rw [if_pos hx, ih, filter_cons_of_neg (by simpa using hx)]
    rw [if_neg hx, if_neg Bool.false_ne_true, ih, filter_cons_of_pos (by simpa using hx), map_some, List.getLast?_cons]
    cases (regions.filter fun x => !busy x.getID).getLast? with
    | _ => rfl

lemma patrolRound_eq (h : r.Sound) (key : Key) :
  patrolRound r busy (fun _ => false) key = some (nextKey r busy key, checked r busy key) := by
  rw [patrolRound, scanRange_startingAt h key (by decide), bind_some]
  show (if ((page r key).map some).isEmpty = true then _ else _) = _
  unfold nextKey checked
  by_cases hpage : page r key = []
  · rw [if_pos hpage, hpage]
    rfl
  rw [if_neg hpage, if_neg (by simpa using hpage), patrolPage_eq]
  rfl

lemma patrolKey_eq (h : r.Sound) (n : Nat) (key : Key) :
  patrolKey r busy (fun _ => false) n key = some ((nextKey r busy)^[n] key) := by
  induction n generalizing key with
  | zero => rfl
  | succ n ih =>
    rw [patrolKey, patrolRound_eq h, bind_some, ih]
    rfl

lemma patrolled_eq (h : r.Sound) (n : Nat) :
  patrolled r busy (fun _ => false) n = some (checked r busy ((nextKey r busy)^[n] [])) := by
  rw [patrolled, patrolKey_eq h, bind_some, patrolRound_eq h]
  rfl

lemma exists_position (h : r.Sound) (key : Key) : ∃ p, p ≤ r.ordered.length ∧ r.startingAt key = r.ordered.drop p := by
  obtain ⟨pre, hpre⟩ := startingAt_suffix h key
  refine ⟨pre.length, ?_, ?_⟩
  · have hlength := congrArg List.length hpre
    rw [length_append] at hlength
    omega
  have hdrop : r.ordered.drop pre.length = r.startingAt key := by
    nth_rewrite 1 [hpre]
    exact drop_left
  exact hdrop.symm

lemma startingAt_nil : r.startingAt [] = r.ordered.drop 0 := by
  rw [drop_zero]
  refine filter_eq_self.mpr ?_
  intro x _
  exact decide_eq_true (not_lt.mp (not_lt_nil _))

lemma mem_page (hkey : r.startingAt key = r.ordered.drop p) :
  x ∈ page r key ↔ ∃ q, p ≤ q ∧ q < p + patrolScanRegionLimit ∧ r.ordered[q]? = some x := by
  rw [page, hkey, List.mem_iff_getElem?]
  constructor
  · intro ⟨k, hk⟩
    rw [List.getElem?_take] at hk
    split at hk
    next _ =>
      rw [List.getElem?_drop] at hk
      exact ⟨p + k, by omega, by omega, hk⟩
    · cases hk
  intro ⟨q, hle, hlt, hq⟩
  refine ⟨q - p, ?_⟩
  rw [List.getElem?_take, if_pos (by omega), List.getElem?_drop]
  have hpq : p + (q - p) = q := by omega
  rw [hpq]
  exact hq

lemma startingAt_end (h : r.Sound) {q : Nat} (hq : r.ordered[q]? = some x) :
  r.startingAt x.getMeta.endKey = r.ordered.drop (q+1) ∨ (x.getMeta.endKey = [] ∧ q + 1 = r.ordered.length) := by
  obtain ⟨hlt, hx⟩ := List.getElem?_eq_some_iff.mp hq
  have hsplit : r.ordered = r.ordered.take q ++ x :: r.ordered.drop (q+1) := by
    rw [← hx, ← drop_eq_getElem_cons hlt, take_append_drop]
  by_cases hend : x.getMeta.endKey = []
  · have hnil := drop_eq_nil_iff.mp (last_of_end h hsplit hend)
    exact .inr ⟨hend, by omega⟩
  · exact .inl (filter_end h hsplit hend)

lemma next_cases (busy : Nat → Bool) (hkey : r.startingAt key = r.ordered.drop p) :
  (r.ordered.length ≤ p ∧ nextKey r busy key = []) ∨ (checked r busy key = [] ∧ nextKey r busy key = key) ∨
    ∃ q x, p ≤ q ∧ q < p + patrolScanRegionLimit ∧ r.ordered[q]? = some x ∧ busy x.getID = false ∧
      nextKey r busy key = x.getMeta.endKey := by
  unfold nextKey
  by_cases hpage : page r key = []
  · refine .inl ⟨?_, if_pos hpage⟩
    unfold page at hpage
    rw [hkey] at hpage
    rcases take_eq_nil_iff.mp hpage with hzero | hnil
    · cases hzero
    · exact drop_eq_nil_iff.mp hnil
  rw [if_neg hpage]
  cases hlast : (checked r busy key).getLast? with
  | none => exact .inr (.inl ⟨List.getLast?_eq_none_iff.mp hlast, rfl⟩)
  | some x =>
    obtain ⟨hx, hidle⟩ := mem_filter.mp (List.mem_of_getLast? hlast)
    obtain ⟨q, hle, hlt, hq⟩ := (mem_page hkey).mp hx
    exact .inr (.inr ⟨q, x, hle, hlt, hq, by simpa using hidle, rfl⟩)

lemma unblocked_iff : Unblocked r busy ↔ ∀ p, p < r.ordered.length →
  ∃ q x, p ≤ q ∧ q < p + patrolScanRegionLimit ∧ r.ordered[q]? = some x ∧ busy x.getID = false := by
  constructor
  · intro h p hp
    by_cases hfull : p + patrolScanRegionLimit ≤ r.ordered.length
    · have hlength : ((r.ordered.drop p).take patrolScanRegionLimit).length = patrolScanRegionLimit := by
        rw [length_take, length_drop]
        omega
      have hinfix : (r.ordered.drop p).take patrolScanRegionLimit <:+: r.ordered :=
        ( take_prefix _ _).isInfix.trans (drop_suffix _ _).isInfix
      obtain ⟨x, hx, hidle⟩ := h.pages _ hinfix hlength
      obtain ⟨k, hk⟩ := List.mem_iff_getElem?.mp hx
      rw [List.getElem?_take] at hk
      split at hk
      next _ =>
        rw [List.getElem?_drop] at hk
        exact ⟨p + k, x, by omega, by omega, hk, hidle⟩
      · cases hk
    have hlast : r.ordered[r.ordered.length - 1]? = some (r.ordered[r.ordered.length - 1]) :=
      List.getElem?_eq_getElem (by omega)
    refine ⟨_, _, ?_, ?_, hlast, h.last _ ?_⟩
    · omega
    · omega
    rw [List.getLast?_eq_getElem?]
    exact hlast
  intro h
  refine ⟨?_, ?_⟩
  · intro x hx
    rw [List.getLast?_eq_getElem?] at hx
    obtain ⟨hlt, -⟩ := List.getElem?_eq_some_iff.mp hx
    obtain ⟨q, y, hle, -, hq, hidle⟩ := h _ hlt
    obtain ⟨hqlt, -⟩ := List.getElem?_eq_some_iff.mp hq
    have heq : q = r.ordered.length - 1 := by omega
    rw [heq, hx] at hq
    rw [some.inj hq]
    exact hidle
  intro regions ⟨pre, post, happend⟩ hlength
  have hlt : pre.length < r.ordered.length := by
    rw [← happend, length_append, length_append, hlength]
    unfold patrolScanRegionLimit
    omega
  obtain ⟨q, x, hle, hqlt, hq, hidle⟩ := h pre.length hlt
  refine ⟨x, ?_, hidle⟩
  rw [← happend, append_assoc, List.getElem?_append_right hle, List.getElem?_append_left (by omega)] at hq
  exact List.mem_of_getElem? hq

section
variable (h : r.Sound) (hfree : Unblocked r busy)
include h hfree

lemma advance (hkey : r.startingAt key = r.ordered.drop p) (hp : p < r.ordered.length) :
  ∃ q, p ≤ q ∧ q < p + patrolScanRegionLimit ∧ (r.startingAt (nextKey r busy key) = r.ordered.drop (q+1) ∨
      (nextKey r busy key = [] ∧ q + 1 = r.ordered.length)) := by
  rcases next_cases busy hkey with ⟨hend, -⟩ | ⟨hnone, -⟩ | ⟨q, x, hpq, hq, hx, -, hnext⟩
  · omega
  · obtain ⟨q, x, hpq, hq, hx, hidle⟩ := unblocked_iff.mp hfree p hp
    have hin : x ∈ checked r busy key := mem_filter.mpr ⟨(mem_page hkey).mpr ⟨q, hpq, hq, hx⟩, by simpa using hidle⟩
    rw [hnone] at hin
    exact absurd hin not_mem_nil
  · exact ⟨q, hpq, hq, hnext ▸ startingAt_end h hx⟩

lemma checked_of_le (hidle : busy x.getID = false)
  {j : Nat} (hx : r.ordered[j]? = some x) (hkey : r.startingAt key = r.ordered.drop p)
  (hp : p ≤ j) : ∃ n, x ∈ checked r busy ((nextKey r busy)^[n] key) := by
  induction hd : j - p using Nat.strong_induction_on generalizing key p with
  | _ d ih =>
    obtain ⟨hj, -⟩ := List.getElem?_eq_some_iff.mp hx
    by_cases hin : j < p + patrolScanRegionLimit
    · exact ⟨0, mem_filter.mpr ⟨(mem_page hkey).mpr ⟨j, hp, hin, hx⟩, by simpa using hidle⟩⟩
    obtain ⟨q, hpq, hq, hnext⟩ := advance h hfree hkey (by omega)
    obtain ⟨n, hn⟩ := ih (j - (q+1)) (by omega) (hnext.resolve_right (by omega)) (by omega) rfl
    exact ⟨n + 1, hn⟩

lemma returns (hkey : r.startingAt key = r.ordered.drop p) :
  ∃ n, r.startingAt ((nextKey r busy)^[n] key) = r.ordered.drop 0 := by
  induction hd : r.ordered.length - p using Nat.strong_induction_on generalizing key p with
  | _ d ih =>
    by_cases hp : p < r.ordered.length
    · obtain ⟨q, hpq, hq, hnext⟩ := advance h hfree hkey hp
      rcases hnext with hnext | ⟨hnil, -⟩
      · obtain ⟨n, hn⟩ := ih (r.ordered.length - (q+1)) (by omega) hnext rfl
        exact ⟨n + 1, hn⟩
      refine ⟨1, ?_⟩
      show r.startingAt (nextKey r busy key) = _
      rw [hnil, startingAt_nil]
    refine ⟨1, ?_⟩
    have hpage : page r key = [] := by rw [page, hkey, drop_eq_nil_of_le (by omega), take_nil]
    show r.startingAt (nextKey r busy key) = _
    rw [nextKey, if_pos hpage, startingAt_nil]

lemma patrolsAll_of_unblocked : PatrolsAll r busy := by
  intro id x hx hidle N
  have hid : x.getID = id := RegionsInfo.getID_of_getRegion h hx
  obtain ⟨j, hj⟩ := List.mem_iff_getElem?.mp ((mem_ordered h).mpr ⟨id, hx⟩)
  obtain ⟨p, -, hp⟩ := exists_position h ((nextKey r busy)^[N] [])
  obtain ⟨n, hn⟩ := returns h hfree hp
  obtain ⟨m, hm⟩ := checked_of_le h hfree (hid.symm ▸ hidle) hj hn (Nat.zero_le j)
  rw [← Function.iterate_add_apply, ← Function.iterate_add_apply] at hm
  exact ⟨m + (n + N), by omega, _, patrolled_eq h _, by rwa [Nat.add_assoc] at hm⟩

end

lemma stops_of_blocked (h : r.Sound) {i : Nat} (hi : i < r.ordered.length)
  (hblocked : ∀ q x, i ≤ q → q < i + patrolScanRegionLimit → r.ordered[q]? = some x → busy x.getID = true)
  (hkey : r.startingAt key = r.ordered.drop p) (hp : p ≤ i) :
  ∃ N, ∀ n, N ≤ n → checked r busy ((nextKey r busy)^[n] key) = [] := by
  induction hd : i - p using Nat.strong_induction_on generalizing key p with
  | _ d ih =>
    rcases next_cases busy hkey with ⟨hend, -⟩ | ⟨hnone, hsame⟩ | ⟨q, x, hpq, hq, hx, hidle, hnext⟩
    · omega
    · refine ⟨0, ?_⟩
      intro n _
      rw [Function.iterate_fixed hsame]
      exact hnone
    have hqi : q < i := by
      by_contra hge
      rw [hblocked q x (by omega) (by omega) hx] at hidle
      cases hidle
    have hnext' := (startingAt_end h hx).resolve_right (by omega)
    rw [← hnext] at hnext'
    obtain ⟨N, hN⟩ := ih (i - (q+1)) (by omega) hnext' (by omega) rfl
    refine ⟨N + 1, ?_⟩
    intro n hn
    obtain ⟨m, rfl⟩ : ∃ m, n = m + 1 := ⟨n - 1, by omega⟩
    exact hN m (by omega)

lemma unblocked_of_patrolsAll (h : r.Sound) (hall : PatrolsAll r busy) {id : Nat}
  (hx : r.getRegion id = some x) (hidle : busy id = false) : Unblocked r busy := by
  refine unblocked_iff.mpr ?_
  by_contra hblocked
  push Not at hblocked
  obtain ⟨i, hi, hpage⟩ := hblocked
  obtain ⟨N, hN⟩ := stops_of_blocked h hi
    (fun q y hle hlt hy => by simpa using hpage q y hle hlt hy) startingAt_nil (Nat.zero_le i)
  obtain ⟨n, hn, regions, hregions, hmem⟩ := hall id x hx hidle N
  rw [patrolled_eq h, hN n hn] at hregions
  rw [← some.inj hregions] at hmem
  exact absurd hmem not_mem_nil

end

/-- **The patrol reaches every region** -/
theorem patrolsAll_iff (ops : List RegionsInfo.Op) (hops : ∀ op ∈ ops, op.Ranged) (r : RegionsInfo)
  (hr : Runs.exec RegionsInfo.step .new ops = some r) (busy : Nat → Bool) :
  PatrolsAll r busy ↔ (∀ id x, r.getRegion id = some x → busy id = true) ∨ Unblocked r busy := by
  have h : r.Sound := sound_exec hops hr
  constructor
  · intro hall
    by_cases hbusy : ∀ id x, r.getRegion id = some x → busy id = true
    · exact .inl hbusy
    push Not at hbusy
    obtain ⟨id, x, hx, hidle⟩ := hbusy
    exact .inr (unblocked_of_patrolsAll h hall hx (by simpa using hidle))
  intro hcond
  rcases hcond with hbusy | hfree
  · intro id x hx hidle
    rw [hbusy id x hx] at hidle
    cases hidle
  · exact patrolsAll_of_unblocked h hfree

theorem patrolsAll_holed : ∃ r, Runs.exec RegionsInfo.step .new RegionsInfo.holed = some r ∧
  PatrolsAll r fun id => decide (id = 2) := by
  have hrun : (Runs.exec RegionsInfo.step .new RegionsInfo.holed).map (fun r =>
      (r.ordered.length, r.ordered.getLast?.map RegionInfo.getID)) = some (3, some 3) := by decide +kernel
  obtain ⟨r, hr, he⟩ := map_eq_some_iff.mp hrun
  obtain ⟨hlength, hlast⟩ := Prod.mk.inj he
  refine ⟨r, hr, (patrolsAll_iff RegionsInfo.holed (by decide) r hr _).mpr (.inr ⟨?_, ?_⟩)⟩
  · intro x hx
    rw [hx] at hlast
    rw [some.inj hlast]
    rfl
  intro regions hinfix hfull
  have hle := hinfix.length_le
  rw [hfull, hlength] at hle
  exact absurd hle (by decide)

theorem patrol_stuck : ∃ r, Runs.exec RegionsInfo.step .new RegionsInfo.holed = some r ∧
  (r.getRegion 1).isSome = true ∧ ¬ PatrolsAll r fun id => decide (id = 3) := by
  have hrun : (Runs.exec RegionsInfo.step .new RegionsInfo.holed).map (fun r =>
      ((r.getRegion 1).isSome, r.ordered.getLast?.map RegionInfo.getID)) = some (true, some 3) := by decide +kernel
  obtain ⟨r, hr, he⟩ := map_eq_some_iff.mp hrun
  obtain ⟨hfirst, hlast⟩ := Prod.mk.inj he
  refine ⟨r, hr, hfirst, ?_⟩
  intro hall
  obtain ⟨x, hx⟩ := isSome_iff_exists.mp hfirst
  obtain ⟨y, hy, hid⟩ := map_eq_some_iff.mp hlast
  have hfree := unblocked_of_patrolsAll (holed_sound hr) hall hx rfl
  have hidle := hfree.last y hy
  rw [hid] at hidle
  cases hidle

end Patrol
end PD
