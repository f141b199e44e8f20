import Mathlib.Data.List.AList
import Mathlib.Data.List.Induction

/-! # The two-queue cache -/

namespace PD.Cache
open AList List
variable {V : Type}

structure LRU (V : Type) where
  maxCount : Nat
  ll : AList fun _ : Nat => V

namespace LRU
variable (c : LRU V) (key : Nat)

def len : Nat := c.ll.keys.length
def oldest : Option Nat := c.ll.keys.getLast?

def removeOldest : LRU V :=
  match c.oldest with
  | some k => { c with ll := c.ll.erase k }
  | none => c

def getAndRemoveOldest : Nat × LRU V := (c.oldest.getD 0, c.removeOldest)
def toFront (value : V) : LRU V := { c with ll := c.ll.insert key value }

def put (value : V) : LRU V :=
  if key ∈ c.ll then c.toFront key value
  else if c.maxCount ≠ 0 ∧ c.maxCount < (c.toFront key value).len then (c.toFront key value).removeOldest
  else c.toFront key value

def peek : Option V := c.ll.lookup key

def get : Option V × LRU V :=
  match c.ll.lookup key with
  | some v => (some v, c.toFront key v)
  | none => (none, c)

def contains : Bool := key ∈ c.ll
def remove : LRU V := { c with ll := c.ll.erase key }

end LRU

structure TwoQueue (V : Type) where
  size : Nat
  recentSize : Nat
  recent : LRU V
  frequent : LRU V
  ghost : LRU Unit

def newTwoQueue (size : Nat) : TwoQueue V := ⟨size, size / 4, ⟨size, ∅⟩, ⟨size, ∅⟩, ⟨size / 2, ∅⟩⟩

inductive Op (V : Type) where
  | put (key : Nat) (value : V)
  | get (key : Nat)
  | peek (key : Nat)
  | remove (key : Nat)

namespace TwoQueue
variable (c : TwoQueue V) (key : Nat)

def len : Nat := c.recent.len + c.frequent.len

def ensureSpace (ghost : Bool) : TwoQueue V :=
  let recentLen := c.recent.len
  if recentLen + c.frequent.len < c.size then c
  else if 0 < recentLen ∧ (recentLen > c.recentSize ∨ recentLen = c.recentSize ∧ ghost = false) then
    let (k, recent) := c.recent.getAndRemoveOldest
    { c with recent := recent, ghost := c.ghost.put k () }
  else { c with frequent := c.frequent.removeOldest }

def put (value : V) : TwoQueue V :=
  if c.frequent.contains key then { c with frequent := c.frequent.put key value }
  else if c.recent.contains key then { c with recent := c.recent.remove key, frequent := c.frequent.put key value }
  else if c.ghost.contains key then
    let c := c.ensureSpace true
    { c with ghost := c.ghost.remove key, frequent := c.frequent.put key value }
  else
    let c := c.ensureSpace false
    { c with recent := c.recent.put key value }

def get : Option V × TwoQueue V :=
  match c.frequent.get key with
  | (some v, frequent) => (some v, { c with frequent := frequent })
  | (none, _) =>
    match c.recent.peek key with
    | some v => (some v, { c with recent := c.recent.remove key, frequent := c.frequent.put key v })
    | none => (none, c)

def peek : Option V := (c.frequent.peek key).or (c.recent.peek key)

def remove : TwoQueue V :=
  if c.frequent.contains key then { c with frequent := c.frequent.remove key }
  else if c.recent.contains key then { c with recent := c.recent.remove key }
  else { c with ghost := c.ghost.remove key }

def step : Op V → TwoQueue V
  | .put key value => c.put key value
  | .get key => (c.get key).2
  | .peek _ => c
  | .remove key => c.remove key

end TwoQueue

namespace LRU
variable {c : LRU V} {key k : Nat} {v : V}

lemma exists_oldest (h : 0 < c.len) : ∃ o ∈ c.ll, c.oldest = some o ∧ c.removeOldest = c.remove o := by
  have hne : c.ll.keys ≠ [] := ne_nil_of_length_pos h
  have ho : c.oldest = some (c.ll.keys.getLast hne) := getLast?_eq_some_getLast hne
  refine ⟨_, getLast_mem hne, ho, ?_⟩
  rw [removeOldest, ho]
  rfl

lemma len_remove (h : key ∈ c.ll) : (c.remove key).len + 1 = c.len := by
  unfold len remove
  rw [keys_erase, length_erase_of_mem h]
  have hpos := length_pos_of_mem h
  omega

lemma len_toFront : (c.toFront key v).len = (c.remove key).len + 1 := by
  unfold len toFront remove
  rw [keys_insert, keys_erase, length_cons]

lemma contains_iff : c.contains key = true ↔ key ∈ c.ll := decide_eq_true_iff

lemma remove_of_notMem (h : key ∉ c.ll) : c.remove key = c := by
  rw [remove, show c.ll.erase key = c.ll from AList.ext (kerase_of_notMem_keys h)]

lemma put_eq (h : key ∈ c.ll ∨ c.len < c.maxCount) : c.put key v = c.toFront key v := by
  unfold put
  by_cases hmem : key ∈ c.ll
  · exact if_pos hmem
  rw [if_neg hmem, if_neg]
  rw [len_toFront, remove_of_notMem hmem]
  have hroom := h.resolve_left hmem
  omega

lemma mem_put (h : k ∈ (c.put key v).ll) : k = key ∨ k ∈ c.ll := by
  unfold put at h
  split at h
  · exact (mem_insert _).mp h
  split at h
  · unfold removeOldest at h
    split at h
    · exact (mem_insert _).mp (mem_erase.mp h).2
    · exact (mem_insert _).mp h
  · exact (mem_insert _).mp h

end LRU

namespace TwoQueue
variable {size : Nat} {c c' : TwoQueue V} {key : Nat} {v : V}

structure Inv (size : Nat) (c : TwoQueue V) : Prop where
  size_eq : c.size = size
  recentCap : c.recent.maxCount = size
  frequentCap : c.frequent.maxCount = size
  target : c.recentSize < size
  recent_frequent : ∀ k ∈ c.recent.ll, k ∉ c.frequent.ll
  ghost_recent : ∀ k ∈ c.ghost.ll, k ∉ c.recent.ll
  ghost_frequent : ∀ k ∈ c.ghost.ll, k ∉ c.frequent.ll
  room : c.len ≤ size

lemma peek_eq_none : c.peek key = none ↔ key ∉ c.frequent.ll ∧ key ∉ c.recent.ll := by
  unfold peek LRU.peek
  rw [Option.or_eq_none_iff, lookup_eq_none, lookup_eq_none]

def promote (c : TwoQueue V) (key : Nat) (v : V) : TwoQueue V :=
  { c with recent := c.recent.remove key, frequent := c.frequent.toFront key v, ghost := c.ghost.remove key }

lemma Inv.promote (h : Inv size c) (hroom : c.peek key ≠ none ∨ c.len < size) : Inv size (c.promote key v) where
  size_eq := h.size_eq
  recentCap := h.recentCap
  frequentCap := h.frequentCap
  target := h.target
  recent_frequent := by
    intro k hk hf
    obtain ⟨hne, hk⟩ := mem_erase.mp hk
    exact h.recent_frequent k hk (((mem_insert _).mp hf).resolve_left hne)
  ghost_recent := fun k hk hr => h.ghost_recent k (mem_erase.mp hk).2 (mem_erase.mp hr).2
  ghost_frequent := by
    intro k hk hf
    obtain ⟨hne, hk⟩ := mem_erase.mp hk
    exact h.ghost_frequent k hk (((mem_insert _).mp hf).resolve_left hne)
  room := by
    have hlen := h.room
    show (c.recent.remove key).len + (c.frequent.toFront key v).len ≤ size
    rw [LRU.len_toFront]
    unfold len at *
    by_cases hf : key ∈ c.frequent.ll
    · rw [LRU.len_remove hf, LRU.remove_of_notMem fun hr => h.recent_frequent key hr hf]
      exact hlen
    rw [LRU.remove_of_notMem hf]
    by_cases hr : key ∈ c.recent.ll
    · have hless := LRU.len_remove hr
      omega
    rw [LRU.remove_of_notMem hr]
    have hlt := hroom.resolve_left (not_not.mpr (peek_eq_none.mpr ⟨hf, hr⟩))
    omega

lemma peek_promote (k : Nat) : (c.promote key v).peek k = if k = key then some v else c.peek k := by
  show (lookup k (c.frequent.ll.insert key v)).or (lookup k (c.recent.ll.erase key)) = _
  by_cases hk : k = key
  · rw [hk, lookup_insert, if_pos rfl, Option.some_or]
  rw [if_neg hk, lookup_insert_ne hk, lookup_erase_ne hk]
  rfl

lemma Inv.remove_ghost (h : Inv size c) (hkey : c.peek key ≠ none) : c.ghost.remove key = c.ghost := by
  refine LRU.remove_of_notMem fun hg => hkey ?_
  exact peek_eq_none.mpr ⟨h.ghost_frequent key hg, h.ghost_recent key hg⟩

structure Evicted (size : Nat) (c : TwoQueue V) (gone : Option Nat) (c' : TwoQueue V) : Prop where
  full : gone ≠ none → c.len = size
  inv : Inv size c'
  room : c'.len < size
  peek : ∀ k, c'.peek k = if gone = some k then none else c.peek k
  ghost : ∀ k ∈ c'.ghost.ll, k ∈ c.ghost.ll ∨ c.peek k ≠ none

lemma Inv.ensureSpace (h : Inv size c) (ghost : Bool) : ∃ gone, Evicted size c gone (c.ensureSpace ghost) := by
  have hlen := h.room
  unfold TwoQueue.ensureSpace
  unfold len at hlen
  by_cases hroom : c.recent.len + c.frequent.len < c.size
  · rw [if_pos hroom]
    exact ⟨none, nofun, h, h.size_eq ▸ hroom, fun _ => rfl, fun _ hk => .inl hk⟩
  rw [if_neg hroom]
  rw [h.size_eq] at hroom
  have hfull : c.len = size := by
    unfold len
    omega
  split
  next hevict =>
    obtain ⟨o, ho, hold, hrem⟩ := LRU.exists_oldest hevict.1
    have hof := h.recent_frequent o ho
    rw [LRU.getAndRemoveOldest, hold, hrem]
    have hshort := LRU.len_remove ho
    refine ⟨some o, fun _ => hfull, ⟨h.size_eq, h.recentCap, h.frequentCap, h.target, ?_, ?_, ?_, ?_⟩, ?_, ?_, ?_⟩
    · exact fun k hk => h.recent_frequent k (mem_erase.mp hk).2
    · intro k hk hr
      obtain ⟨hne, hr⟩ := mem_erase.mp hr
      exact h.ghost_recent k ((LRU.mem_put hk).resolve_left hne) hr
    · intro k hk hf
      rcases LRU.mem_put hk with rfl | hk
      · exact hof hf
      · exact h.ghost_frequent k hk hf
    · show (c.recent.remove o).len + c.frequent.len ≤ size
      omega
    · show (c.recent.remove o).len + c.frequent.len < size
      omega
    · intro k
      show (lookup k c.frequent.ll).or (lookup k (c.recent.ll.erase o)) = _
      by_cases hk : k = o
      · rw [hk, lookup_erase, lookup_eq_none.mpr hof, if_pos rfl, Option.none_or]
      rw [lookup_erase_ne hk, if_neg fun e => hk (Option.some.inj e).symm]
      rfl
    intro k hk
    refine (LRU.mem_put hk).symm.imp_right fun e => ?_
    exact fun hnone => (peek_eq_none.mp hnone).2 (e ▸ ho)
  next hkeep =>
    have hpos : 0 < c.frequent.len := by
      have htarget := h.target
      by_contra hzero
      exact hkeep ⟨by omega, .inl (by omega)⟩
    obtain ⟨o, ho, -, hrem⟩ := LRU.exists_oldest hpos
    rw [hrem]
    have hshort := LRU.len_remove ho
    refine ⟨some o, fun _ => hfull, ⟨h.size_eq, h.recentCap, h.frequentCap, h.target, ?_, h.ghost_recent, ?_, ?_⟩,
      ?_, ?_, fun _ hk => .inl hk⟩
    · exact fun k hk hf => h.recent_frequent k hk (mem_erase.mp hf).2
    · exact fun k hk hf => h.ghost_frequent k hk (mem_erase.mp hf).2
    · show c.recent.len + (c.frequent.remove o).len ≤ size
      omega
    · show c.recent.len + (c.frequent.remove o).len < size
      omega
    intro k
    show (lookup k (c.frequent.ll.erase o)).or (lookup k c.recent.ll) = _
    by_cases hk : k = o
    · rw [hk, lookup_erase, if_pos rfl, Option.none_or]
      exact lookup_eq_none.mpr fun hr => h.recent_frequent o hr ho
    rw [lookup_erase_ne hk, if_neg fun e => hk (Option.some.inj e).symm]
    rfl

lemma Inv.promote_eq (h : Inv size c) (hkey : c.peek key ≠ none) :
  { c with recent := c.recent.remove key, frequent := c.frequent.put key v } = c.promote key v := by
  have hroom : key ∈ c.frequent.ll ∨ c.frequent.len < c.frequent.maxCount := by
    by_cases hf : key ∈ c.frequent.ll
    · exact .inl hf
    have hr : key ∈ c.recent.ll := not_not.mp fun hr => hkey (peek_eq_none.mpr ⟨hf, hr⟩)
    have hlen := h.room
    have hpos := LRU.len_remove hr
    unfold len at hlen
    rw [h.frequentCap]
    omega
  unfold TwoQueue.promote
  rw [h.remove_ghost hkey, LRU.put_eq hroom]

lemma Inv.get_eq (h : Inv size c) :
  c.get key = (c.peek key, match c.peek key with | some v => c.promote key v | none => c) := by
  unfold TwoQueue.get
  cases hf : c.frequent.ll.lookup key with
  | some v =>
    have hpeek : c.peek key = some v := by simp [peek, LRU.peek, hf]
    have hmem : key ∈ c.frequent.ll := lookup_isSome.mp (by simp [hf])
    have hpromote := h.promote_eq (v := v) (show c.peek key ≠ none by simp [hpeek])
    rw [LRU.remove_of_notMem fun hr => h.recent_frequent key hr hmem, LRU.put_eq (.inl hmem)] at hpromote
    simp [LRU.get, hf, hpeek, ← hpromote]
  | none =>
    have hpeek : c.peek key = c.recent.peek key := by simp [peek, LRU.peek, hf]
    cases hr : c.recent.peek key with
    | some v =>
      rw [hr] at hpeek
      simp [LRU.get, hf, hpeek, ← h.promote_eq (v := v) (show c.peek key ≠ none by simp [hpeek])]
    | none => simp [LRU.get, hf, hpeek, hr]

lemma Inv.remove_eq (h : Inv size c) : c.remove key =
  { c with recent := c.recent.remove key, frequent := c.frequent.remove key, ghost := c.ghost.remove key } := by
  unfold TwoQueue.remove
  split
  next hf =>
    have hf := LRU.contains_iff.mp hf
    rw [LRU.remove_of_notMem fun hr => h.recent_frequent key hr hf,
      LRU.remove_of_notMem fun hg => h.ghost_frequent key hg hf]
  next hf =>
    rw [LRU.remove_of_notMem (mt LRU.contains_iff.mpr hf)]
    split
    next hr => rw [LRU.remove_of_notMem fun hg => h.ghost_recent key hg (LRU.contains_iff.mp hr)]
    next hr => rw [LRU.remove_of_notMem (mt LRU.contains_iff.mpr hr)]

def viewAfter (op : Op V) (gone : Option Nat) (view : Nat → Option V) (k : Nat) : Option V :=
  match op with
  | .put key v => if k = key then some v else if gone = some k then none else view k
  | .remove key => if k = key then none else view k
  | _ => view k

structure Steps (size : Nat) (c : TwoQueue V) (op : Op V) (gone : Option Nat) (c' : TwoQueue V) : Prop where
  full : gone ≠ none → ∃ key v, op = .put key v ∧ c.peek key = none ∧ c.len = size
  inv : Inv size c'
  peek : ∀ k, c'.peek k = viewAfter op gone c.peek k

lemma Inv.steps_promote (h : Inv size c) (hkey : c.peek key ≠ none) :
  Steps size c (.put key v) none (c.promote key v) :=
  ⟨nofun, h.promote (.inl hkey), fun k => peek_promote k⟩

section
variable {gone : Option Nat} (he : Evicted size c gone c') (hkey : c.peek key = none)
include he hkey

lemma Evicted.notMem : key ∉ c'.frequent.ll ∧ key ∉ c'.recent.ll := by
  have hnone := he.peek key
  rwa [hkey, ite_self, peek_eq_none] at hnone

lemma Evicted.toFrequent : Steps size c (.put key v) gone
  { c' with ghost := c'.ghost.remove key, frequent := c'.frequent.put key v } := by
  have hroom : c'.frequent.len < c'.frequent.maxCount := by
    have hlt := he.room
    unfold len at hlt
    rw [he.inv.frequentCap]
    omega
  have heq : { c' with ghost := c'.ghost.remove key, frequent := c'.frequent.put key v } = c'.promote key v := by
    unfold promote
    rw [LRU.remove_of_notMem (he.notMem hkey).2, LRU.put_eq (.inr hroom)]
  rw [heq]
  refine ⟨fun hgone => ⟨key, v, rfl, hkey, he.full hgone⟩, he.inv.promote (.inr he.room), fun k => ?_⟩
  rw [peek_promote, he.peek]
  rfl

lemma Evicted.toRecent (hg : key ∉ c.ghost.ll) : Steps size c (.put key v) gone
  { c' with recent := c'.recent.put key v } := by
  obtain ⟨hf, hr⟩ := he.notMem hkey
  have hlt := he.room
  have hi := he.inv
  unfold len at hlt
  rw [LRU.put_eq (.inr (by rw [hi.recentCap]; omega))]
  refine ⟨fun hgone => ⟨key, v, rfl, hkey, he.full hgone⟩,
    ⟨hi.size_eq, hi.recentCap, hi.frequentCap, hi.target, ?_, ?_, hi.ghost_frequent, ?_⟩, ?_⟩
  · intro k hk
    rcases (mem_insert _).mp hk with rfl | hk
    · exact hf
    · exact hi.recent_frequent k hk
  · intro k hk hmem
    rcases (mem_insert _).mp hmem with rfl | hmem
    · exact (he.ghost _ hk).elim hg fun hp => hp hkey
    · exact hi.ghost_recent k hk hmem
  · show (c'.recent.toFront key v).len + c'.frequent.len ≤ size
    rw [LRU.len_toFront, LRU.remove_of_notMem hr]
    omega
  intro k
  show (lookup k c'.frequent.ll).or (lookup k (c'.recent.ll.insert key v)) =
    if k = key then some v else if gone = some k then none else c.peek k
  by_cases hk : k = key
  · rw [hk, lookup_insert, lookup_eq_none.mpr hf, if_pos rfl, Option.none_or]
  rw [lookup_insert_ne hk, if_neg hk, ← he.peek k]
  rfl

end

lemma Inv.put (h : Inv size c) : ∃ gone, Steps size c (.put key v) gone (c.put key v) := by
  unfold TwoQueue.put
  split
  next hf =>
    have hf := LRU.contains_iff.mp hf
    have hkey : c.peek key ≠ none := fun hnone => (peek_eq_none.mp hnone).1 hf
    have heq := h.promote_eq (v := v) hkey
    rw [LRU.remove_of_notMem fun hr => h.recent_frequent key hr hf] at heq
    exact ⟨none, heq ▸ h.steps_promote hkey⟩
  next hf =>
    split
    next hr =>
      have hkey : c.peek key ≠ none := fun hnone => (peek_eq_none.mp hnone).2 (LRU.contains_iff.mp hr)
      exact ⟨none, h.promote_eq (v := v) hkey ▸ h.steps_promote hkey⟩
    next hr =>
      have hkey : c.peek key = none := peek_eq_none.mpr ⟨mt LRU.contains_iff.mpr hf, mt LRU.contains_iff.mpr hr⟩
      split
      next _ =>
        obtain ⟨gone, he⟩ := h.ensureSpace true
        exact ⟨gone, he.toFrequent hkey⟩
      next hg =>
        obtain ⟨gone, he⟩ := h.ensureSpace false
        exact ⟨gone, he.toRecent hkey (mt LRU.contains_iff.mpr hg)⟩

lemma Inv.get (h : Inv size c) : Steps size c (.get key) none (c.get key).2 := by
  rw [h.get_eq]
  cases hp : c.peek key with
  | none => exact ⟨nofun, h, fun _ => rfl⟩
  | some =>
    refine ⟨nofun, h.promote (.inl (by simp [hp])), fun k => (peek_promote k).trans ?_⟩
    by_cases hk : k = key
    · rw [if_pos hk, hk, ← hp]
      rfl
    · exact if_neg hk

lemma Inv.remove (h : Inv size c) : Steps size c (.remove key) none (c.remove key) := by
  have hle (l : LRU V) : (l.remove key).len ≤ l.len := by
    rw [LRU.len, LRU.remove, keys_erase]
    exact length_erase_le
  rw [h.remove_eq]
  refine ⟨nofun, ⟨h.size_eq, h.recentCap, h.frequentCap, h.target, ?_, ?_, ?_, ?_⟩, fun k => ?_⟩
  · exact fun k hr hf => h.recent_frequent k (mem_erase.mp hr).2 (mem_erase.mp hf).2
  · exact fun k hg hr => h.ghost_recent k (mem_erase.mp hg).2 (mem_erase.mp hr).2
  · exact fun k hg hf => h.ghost_frequent k (mem_erase.mp hg).2 (mem_erase.mp hf).2
  · exact le_trans (Nat.add_le_add (hle _) (hle _)) h.room
  show (lookup k (c.frequent.ll.erase key)).or (lookup k (c.recent.ll.erase key)) = if k = key then none else c.peek k
  by_cases hk : k = key
  · rw [hk, lookup_erase, lookup_erase, if_pos rfl, Option.none_or]
  rw [lookup_erase_ne hk, lookup_erase_ne hk, if_neg hk]
  rfl

lemma Inv.step (h : Inv size c) (op : Op V) : ∃ gone, Steps size c op gone (c.step op) := by
  cases op with
  | put => exact h.put
  | get => exact ⟨none, h.get⟩
  | peek => exact ⟨none, nofun, h, fun _ => rfl⟩
  | remove => exact ⟨none, h.remove⟩

lemma inv_new (hsize : 1 ≤ size) : Inv size (newTwoQueue size : TwoQueue V) :=
  ⟨rfl, rfl, rfl, Nat.div_lt_self hsize (by omega), fun _ => nofun, fun _ => nofun, fun _ => nofun, Nat.zero_le _⟩

def lastAfter (k : Nat) (last : Option V) : Op V → Option V
  | .put key v => if k = key then some v else last
  | _ => last

def lastPut (ops : List (Op V)) (k : Nat) : Option V := ops.foldl (lastAfter k) none

lemma run_inv (hsize : 1 ≤ size) (ops : List (Op V)) : Inv size (ops.foldl TwoQueue.step (newTwoQueue size)) ∧
  ∀ k v, (ops.foldl TwoQueue.step (newTwoQueue size)).peek k = some v → lastPut ops k = some v := by
  induction ops using List.reverseRecOn with
  | nil => exact ⟨inv_new hsize, fun k v hk => by cases hk⟩
  | append_singleton _ op ih =>
    obtain ⟨hinv, hlast⟩ := ih
    obtain ⟨gone, hs⟩ := hinv.step op
    unfold lastPut at *
    simp only [foldl_append, foldl_cons, foldl_nil]
    refine ⟨hs.inv, fun k v hk => ?_⟩
    rw [hs.peek] at hk
    cases op with
    | put =>
      simp only [viewAfter, lastAfter] at hk ⊢
      split at hk
      next hkey => rw [if_pos hkey, hk]
      next hkey =>
        rw [if_neg hkey]
        split at hk
        · cases hk
        · exact hlast k v hk
    | remove =>
      simp only [viewAfter] at hk
      split at hk
      · cases hk
      · exact hlast k v hk
    | _ => exact hlast k v hk

def Gone (c : TwoQueue V) (op : Op V) (k : Nat) : Prop := c.peek k ≠ none ∧ (c.step op).peek k = none

lemma Inv.gone (h : Inv size c) (op : Op V) :
  (∀ k, Gone c op k → op = .remove k ∨ ∃ key v, op = .put key v ∧ c.peek key = none ∧ c.len = size) ∧
  ∀ k k', Gone c op k → Gone c op k' → k = k' := by
  obtain ⟨gone, hs⟩ := h.step op
  have hcases (k : Nat) (hk : Gone c op k) : op = .remove k ∨ gone = some k := by
    obtain ⟨hbefore, hafter⟩ := hk
    rw [hs.peek] at hafter
    cases op with
    | put =>
      simp only [viewAfter] at hafter
      split at hafter
      · cases hafter
      split at hafter
      next hgone => exact .inr hgone
      · exact absurd hafter hbefore
    | remove =>
      simp only [viewAfter] at hafter
      split at hafter
      next hkey => exact .inl (by rw [hkey])
      · exact absurd hafter hbefore
    | _ => exact absurd hafter hbefore
  have hput (k : Nat) (hk : gone = some k) : ∃ key v, op = .put key v ∧ c.peek key = none ∧ c.len = size :=
    hs.full (by simp [hk])
  refine ⟨fun k hk => (hcases k hk).imp_right (hput k), fun k k' hk hk' => ?_⟩
  rcases hcases k hk with rfl | hgone
  · rcases hcases k' hk' with e | hgone'
    · cases e
      rfl
    obtain ⟨_, _, e, -⟩ := hput k' hgone'
    cases e
  rcases hcases k' hk' with rfl | hgone'
  · obtain ⟨_, _, e, -⟩ := hput k hgone
    cases e
  · exact Option.some.inj (hgone.symm.trans hgone')

/-- **Two-queue invariants.**  For every size and every sequence of calls. -/
theorem twoQueue_run (size : Nat) (hsize : 1 ≤ size) (ops : List (Op V)) :
    let c := ops.foldl step (newTwoQueue size)
    ((∀ k ∈ c.recent.ll, k ∉ c.frequent.ll) ∧ (∀ k ∈ c.ghost.ll, k ∉ c.recent.ll) ∧
      ∀ k ∈ c.ghost.ll, k ∉ c.frequent.ll) ∧ c.len ≤ size ∧
    (∀ k, (c.get k).1 = c.peek k) ∧ (∀ k v, c.peek k = some v → lastPut ops k = some v) ∧
    ∀ op, (∀ k, Gone c op k → op = .remove k ∨ ∃ key v, op = .put key v ∧ c.peek key = none ∧ c.len = size) ∧
      ∀ k k', Gone c op k → Gone c op k' → k = k' := by
  obtain ⟨h, hlast⟩ := run_inv hsize ops
  exact ⟨⟨h.recent_frequent, h.ghost_recent, h.ghost_frequent⟩, h.room, fun k => by rw [h.get_eq], hlast, h.gone⟩

theorem twoQueue_run_two :
    let c := ([.put 1 "a", .put 2 "b"] : List (Op String)).foldl step (newTwoQueue 1)
    (c.get 2).1 = some "b" ∧ c.len ≤ 1 :=
  ⟨by decide, (twoQueue_run 1 le_rfl [.put 1 "a", .put 2 "b"]).2.1⟩

end TwoQueue
end PD.Cache
