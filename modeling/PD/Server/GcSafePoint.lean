import PD.Lib.Runs
import PD.Lib.Words
import Mathlib.Tactic.IntervalCases

/-! # The GC safe point: concurrent `UpdateGCSafePoint` requests -/

namespace PD
open List Words

def hexChar (d : Nat) : UInt8 := if d < 10 then (48 + d).toUInt8 else (87 + d).toUInt8

def hexVal (c : UInt8) : Option Nat :=
  if 48 ≤ c.toNat ∧ c.toNat ≤ 57 then some (c.toNat - 48)
  else if 97 ≤ c.toNat ∧ c.toNat ≤ 102 then some (c.toNat - 87)
  else if 65 ≤ c.toNat ∧ c.toNat ≤ 70 then some (c.toNat - 55)
  else none

def formatUint16 (n : Nat) : List UInt8 := (numeral 16 n).map hexChar

def parseUint16 (s : List UInt8) : Option Nat :=
  if s = [] then none
  else (s.mapM hexVal).bind fun ds =>
    if Words.value 16 ds < 2^64 then some (Words.value 16 ds) else none

lemma hexVal_hexChar (d : Nat) (h : d < 16) : hexVal (hexChar d) = some d := by interval_cases d <;> decide

lemma mapM_hexVal (ds : List Nat) (h : ∀ d ∈ ds, d < 16) : (ds.map hexChar).mapM hexVal = some ds := by
  induction ds with
  | nil => rfl
  | cons d _ ih =>
    rw [map_cons, mapM_cons, hexVal_hexChar d (h d mem_cons_self), ih (fun x hx => h x (mem_cons_of_mem _ hx))]
    rfl

lemma parse_format (n : Nat) (h : n < 2^64) : parseUint16 (formatUint16 n) = some n := by
  have hne : formatUint16 n ≠ [] := by
    unfold formatUint16
    rw [Ne, map_eq_nil_iff]
    exact numeral_ne_nil 16 n
  unfold parseUint16
  rw [if_neg hne, formatUint16, mapM_hexVal _ (numeral_bound 16 n (by norm_num))]
  show (if Words.value 16 (numeral 16 n) < 2^64 then _ else _) = _
  rw [value_numeral, if_pos h]

def saveGCSafePoint (safePoint : Nat) : List UInt8 := formatUint16 safePoint

def loadGCSafePoint (value : List UInt8) : Option Nat :=
  if value = [] then some 0 else parseUint16 value

lemma load_save (n : Nat) (h : n < 2^64) : loadGCSafePoint (saveGCSafePoint n) = some n := by
  have hne : saveGCSafePoint n ≠ [] := by
    unfold saveGCSafePoint formatUint16
    rw [Ne, map_eq_nil_iff]
    exact numeral_ne_nil 16 n
  unfold loadGCSafePoint
  rw [if_neg hne]
  exact parse_format n h

namespace Gc

inductive Phase where
  | idle
  | loaded (newSafePoint oldSafePoint : Nat)
  | replying (newSafePoint : Nat)
  deriving DecidableEq

inductive Event where
  | loaded (safePoint : Nat)
  | returned (newSafePoint : Nat)
  deriving DecidableEq

structure State where
  value : List UInt8
  reqs : Nat → Phase
  hist : List Event

inductive Label where
  | load (i safePoint : Nat)
  | save (i : Nat)
  | reply (i : Nat)
  | fail (i : Nat)
  | get
  deriving DecidableEq

variable (value : List UInt8)

def init : State := ⟨value, fun _ => .idle, []⟩

variable (s : State)

def State.setReq (i : Nat) (p : Phase) : State := { s with reqs := Function.update s.reqs i p }
lemma setReq_self (i : Nat) (p : Phase) : (s.setReq i p).reqs i = p := Function.update_self ..
lemma setReq_of_ne {i j : Nat} (p : Phase) (h : j ≠ i) : (s.setReq i p).reqs j = s.reqs j := Function.update_of_ne h ..

def answer (newSafePoint oldSafePoint : Nat) : Nat :=
  if oldSafePoint < newSafePoint then newSafePoint
  else if newSafePoint < oldSafePoint then oldSafePoint
  else newSafePoint

def step : Label → Option State
  | .load i sp =>
    if s.reqs i = .idle ∧ sp < 2^64 then
      match loadGCSafePoint s.value with
      | none => some s
      | some old => some { s.setReq i (.loaded sp old) with hist := s.hist ++ [.loaded old] }
    else none
  | .save i =>
    match s.reqs i with
    | .loaded sp old =>
      if old < sp then
        some { s.setReq i (.replying (answer sp old)) with value := saveGCSafePoint sp }
      else some (s.setReq i (.replying (answer sp old)))
    | _ => none
  | .reply i =>
    match s.reqs i with
    | .replying n => some { s.setReq i .idle with hist := s.hist ++ [.returned n] }
    | _ => none
  | .fail i => if s.reqs i = .idle then none else some (s.setReq i .idle)
  | .get =>
    match loadGCSafePoint s.value with
    | none => some s
    | some v => some { s with hist := s.hist ++ [.loaded v] }

def Phase.Fresh : Phase → Prop
  | .loaded sp old => old < sp → loadGCSafePoint value = some old
  | _ => True

def Fresh (s : State) : Label → Prop
  | .save i => (s.reqs i).Fresh s.value
  | _ => True

instance (value : List UInt8) : ∀ p : Phase, Decidable (p.Fresh value)
  | .loaded sp old => inferInstanceAs (Decidable (old < sp → loadGCSafePoint value = some old))
  | .idle => .isTrue trivial
  | .replying _ => .isTrue trivial

instance (s : State) : ∀ l, Decidable (Fresh s l)
  | .save i => inferInstanceAs (Decidable ((s.reqs i).Fresh s.value))
  | .load _ _ => .isTrue trivial
  | .reply _ => .isTrue trivial
  | .fail _ => .isTrue trivial
  | .get => .isTrue trivial

def AtLeast (n : Nat) : Prop := ∃ v, loadGCSafePoint value = some v ∧ n ≤ v
def Grows (s t : State) : Prop := ∀ v, loadGCSafePoint s.value = some v → AtLeast t.value v
def Kept (hist : List Event) : Prop := ∀ a b c n v, hist = a ++ .returned n :: (b ++ .loaded v :: c) → n ≤ v

lemma AtLeast.mono {value : List UInt8} {n m : Nat} (h : AtLeast value n) (hm : m ≤ n) : AtLeast value m := by
  obtain ⟨v, hv, hn⟩ := h
  exact ⟨v, hv, hm.trans hn⟩

lemma AtLeast.grows {s t : State} {n : Nat} (h : AtLeast s.value n) (hg : Grows s t) : AtLeast t.value n := by
  obtain ⟨v, hv, hn⟩ := h
  exact (hg v hv).mono hn

lemma Grows.of_eq {s t : State} (h : t.value = s.value) : Grows s t := by
  intro v hv
  exact ⟨v, h ▸ hv, le_refl v⟩

lemma Grows.trans {s t u : State} (h1 : Grows s t) (h2 : Grows t u) : Grows s u := by
  intro v hv
  obtain ⟨w, hw, hvw⟩ := h1 v hv
  exact (h2 w hw).mono hvw

lemma kept_nil : Kept [] := by
  intro a b c n v h
  exact absurd h (by simp)

lemma Kept.snoc {hist : List Event} (h : Kept hist) (e : Event)
  (he : ∀ v, e = .loaded v → ∀ n, Event.returned n ∈ hist → n ≤ v) : Kept (hist ++ [e]) := by
  intro a b c n v heq
  rcases eq_nil_or_concat c with rfl | ⟨c', x, rfl⟩
  · have h1 : hist ++ [e] = (a ++ .returned n :: b) ++ [.loaded v] := by rw [heq]; simp
    obtain ⟨h2, h3⟩ := append_inj' h1 rfl
    refine he v (List.cons.inj h3).1 n ?_
    rw [h2]
    simp
  have h1 : hist ++ [e] = (a ++ .returned n :: (b ++ .loaded v :: c')) ++ [x] := by rw [heq]; simp
  exact h a b c' n v (append_inj' h1 rfl).1

structure Inv (s : State) : Prop where
  loaded : ∀ i sp old, s.reqs i = .loaded sp old → sp < 2^64 ∧ AtLeast s.value old
  replying : ∀ i n, s.reqs i = .replying n → AtLeast s.value n
  returned : ∀ n, Event.returned n ∈ s.hist → AtLeast s.value n
  kept : Kept s.hist

lemma inv_init : Inv (init value) where
  loaded := by intro i sp old h; exact absurd h (by simp [init])
  replying := by intro i n h; exact absurd h (by simp [init])
  returned := by intro n h; exact absurd h (by simp [init])
  kept := kept_nil

section
variable {s t : State}

lemma grows_step {l : Label} (hi : Inv s) (hf : Fresh s l) (h : step s l = some t) : Grows s t := by
  cases l with
  | load =>
    simp only [step] at h
    split at h
    · split at h <;> (cases h; exact Grows.of_eq rfl)
    · exact absurd h (by simp)
  | save i =>
    simp only [step] at h
    split at h
    next sp old hreq =>
      split at h
      next hlt =>
        cases h
        intro v hv
        have hf' : (s.reqs i).Fresh s.value := hf
        rw [hreq] at hf'
        have e : old = v := Option.some.inj ((hf' hlt).symm.trans hv)
        exact ⟨sp, load_save sp (hi.loaded i sp old hreq).1, e ▸ hlt.le⟩
      · cases h; exact Grows.of_eq rfl
    · exact absurd h (by simp)
  | reply =>
    simp only [step] at h
    split at h
    · cases h; exact Grows.of_eq rfl
    · exact absurd h (by simp)
  | fail =>
    simp only [step] at h
    split at h
    · exact absurd h (by simp)
    · cases h; exact Grows.of_eq rfl
  | get =>
    simp only [step] at h
    split at h <;> (cases h; exact Grows.of_eq rfl)

lemma inv_setReq (hi : Inv s) (i : Nat) (p : Phase)
  (h1 : ∀ sp old, p = .loaded sp old → sp < 2^64 ∧ AtLeast s.value old)
  (h2 : ∀ n, p = .replying n → AtLeast s.value n) : Inv (s.setReq i p) where
  loaded := by
    intro j sp old hj
    by_cases e : j = i
    · subst e
      rw [setReq_self] at hj
      exact h1 sp old hj
    rw [setReq_of_ne s p e] at hj
    exact hi.loaded j sp old hj
  replying := by
    intro j n hj
    by_cases e : j = i
    · subst e
      rw [setReq_self] at hj
      exact h2 n hj
    rw [setReq_of_ne s p e] at hj
    exact hi.replying j n hj
  returned := hi.returned
  kept := hi.kept

lemma inv_value (hi : Inv s) (value : List UInt8) (hg : Grows s { s with value := value }) :
    Inv { s with value := value } where
  loaded := fun i sp old h => ⟨(hi.loaded i sp old h).1, (hi.loaded i sp old h).2.grows hg⟩
  replying := fun i n h => (hi.replying i n h).grows hg
  returned := fun n h => (hi.returned n h).grows hg
  kept := hi.kept

lemma inv_event (hi : Inv s) (e : Event) (h1 : ∀ n, e = .returned n → AtLeast s.value n)
  (h2 : ∀ v, e = .loaded v → loadGCSafePoint s.value = some v) : Inv { s with hist := s.hist ++ [e] } where
  loaded := hi.loaded
  replying := hi.replying
  returned := by
    intro n hn
    rcases mem_append.mp hn with hn | hn
    · exact hi.returned n hn
    · exact h1 n (mem_singleton.mp hn).symm
  kept := by
    refine hi.kept.snoc e (fun v hv n hn => ?_)
    obtain ⟨w, hw, hnw⟩ := hi.returned n hn
    have e' : w = v := Option.some.inj (hw.symm.trans (h2 v hv))
    exact e' ▸ hnw

lemma atLeast_answer {sp old : Nat} (h : AtLeast s.value old) (hle : ¬ old < sp) :
  AtLeast s.value (answer sp old) := by
  refine h.mono ?_
  unfold answer
  split
  · omega
  · split <;> omega

lemma inv_step {l : Label} (hi : Inv s) (hf : Fresh s l) (h : step s l = some t) : Inv t := by
  have hg := grows_step hi hf h
  cases l with
  | load i sp =>
    simp only [step] at h
    split at h
    next hreq =>
      split at h
      · cases h; exact hi
      next old hold =>
        cases h
        have h1 : Inv (s.setReq i (.loaded sp old)) := inv_setReq hi i _ (fun sp' old' he => by
            cases he
            exact ⟨hreq.2, old, hold, le_refl old⟩) (fun n he => by cases he)
        exact inv_event h1 _ (fun n he => by cases he) (fun v he => by cases he; exact hold)
    · exact absurd h (by simp)
  | save i =>
    simp only [step] at h
    split at h
    next sp old hreq =>
      obtain ⟨hsp, hold⟩ := hi.loaded i sp old hreq
      split at h
      next hlt =>
        cases h
        have h1 : Inv { s with value := saveGCSafePoint sp } := inv_value hi _ hg
        refine inv_setReq h1 i _ (fun _ _ he => by cases he) (fun n he => ?_)
        cases he
        refine ⟨sp, load_save sp hsp, ?_⟩
        rw [answer, if_pos hlt]
      next hlt =>
        cases h
        refine inv_setReq hi i _ (fun _ _ he => by cases he) (fun n he => ?_)
        cases he
        exact atLeast_answer hold hlt
    · exact absurd h (by simp)
  | reply i =>
    simp only [step] at h
    split at h
    next n hreq =>
      cases h
      have h1 : Inv (s.setReq i .idle) := inv_setReq hi i _ (fun _ _ he => by cases he) (fun _ he => by cases he)
      exact inv_event h1 _ (fun m he => by cases he; exact hi.replying i n hreq)
        (fun v he => by cases he)
    · exact absurd h (by simp)
  | fail i =>
    simp only [step] at h
    split at h
    · exact absurd h (by simp)
    cases h
    exact inv_setReq hi i _ (fun _ _ he => by cases he) (fun _ he => by cases he)
  | get =>
    simp only [step] at h
    split at h
    · cases h; exact hi
    next v hv =>
      cases h
      exact inv_event hi _ (fun n he => by cases he) (fun w he => by cases he; exact hv)

end

def NeverBack (ls : List Label) : Prop := (∀ as bs s t, ls = as ++ bs → Runs.exec step (init value) as = some s →
    Runs.exec step s bs = some t → Grows s t) ∧
  ∀ t, Runs.exec step (init value) ls = some t → Kept t.hist

/-- **The safe point never goes back** -/
theorem safePoint_monotone_of_fresh (value : List UInt8) (ls : List Label)
  (hf : Runs.Along step Fresh (init value) ls) : NeverBack value ls := by
  refine ⟨fun as bs s t hls has hbs => ?_, fun t ht => ?_⟩
  · subst hls
    obtain ⟨ha, hb⟩ := Runs.along_split hf has
    have hs : Inv s := Runs.exec_inv Inv (fun _ _ _ hI hok h => inv_step hI hok h)
      (inv_init value) ha has
    exact Runs.exec_rel Inv Grows (fun s => Grows.of_eq rfl) (fun _ _ _ => Grows.trans)
      (fun _ _ _ hI hok h => ⟨inv_step hI hok h, grows_step hI hok h⟩) hs hb hbs
  · exact (Runs.exec_inv Inv (fun _ _ _ hI hok h => inv_step hI hok h) (inv_init value) hf ht).kept

theorem safePoint_monotone_two_requests :
  NeverBack [] [.load 0 10, .save 0, .reply 0, .load 1 20, .save 1, .reply 1, .get] :=
  safePoint_monotone_of_fresh [] _ (by decide)

/-- both requests load `0`; the one with the larger safe point saves and is answered first, and
the other one then takes the safe point back from `20` to `10` -/
theorem safePoint_lost_update : ¬ NeverBack [] [.load 0 10, .load 1 20, .save 1, .reply 1, .save 0, .get] := by
  intro h
  have h1 := h.1 [.load 0 10, .load 1 20, .save 1, .reply 1] [.save 0, .get] _ _ rfl rfl rfl 20
    (by decide)
  obtain ⟨v, hv, hle⟩ := h1
  have e : loadGCSafePoint (saveGCSafePoint 10) = some 10 := load_save 10 (by norm_num)
  have e' : v = 10 := Option.some.inj (hv.symm.trans e)
  omega

end Gc
end PD
