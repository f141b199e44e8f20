import PD.Lib.Runs
import PD.Server.Options

/-! # Scheduler configurations across leader changes -/

namespace PD
open Function List

def SchedulerConfig.key (c : SchedulerConfig) : String × Option (List String) := (c.type, c.args)

namespace SchedulerConfigs

def isDefaultScheduler (type : String) : Bool :=
  type == "balance-region" || type == "balance-leader" || type == "hot-region" || type == "label"

def addSchedulerCfg (type : String) (args : Option (List String)) : List SchedulerConfig → List SchedulerConfig
  | [] => [⟨type, args, false⟩]
  | c :: rest =>
    if c = ⟨type, args, false⟩ then c :: rest
    else if c = ⟨type, args, true⟩ then ⟨type, args, false⟩ :: rest
    else c :: addSchedulerCfg type args rest

def removeSchedulerCfg (create : String → Option (List String) → Except String (String × String)) (name : String) :
    List SchedulerConfig → Except String (List SchedulerConfig)
  | [] => .ok []
  | c :: rest =>
    match create c.type c.args with
    | .error e => .error e
    | .ok (n, type) =>
      if n = name then .ok (if isDefaultScheduler type then { c with disable := true } :: rest else rest)
      else (removeSchedulerCfg create name rest).map (c :: ·)

def withFlag (persisted : List SchedulerConfig) (c : SchedulerConfig) : SchedulerConfig :=
  match persisted.find? fun p => p.key = c.key with
  | some p => { c with disable := p.disable }
  | none => c

variable (own persisted : List SchedulerConfig)

def adjustScheduleCfg : List SchedulerConfig :=
  own.map (withFlag persisted) ++ persisted.filter fun p => !own.any fun c => c.key = p.key

/-- `json.Unmarshal` writes the persisted arguments into the array of the entry at their position.  Arrays are values
here; where `alignedArgs` holds such a write changes no array, so entries that share one stay as they are. -/
def decodeArgs : Option (List String) → Option (List String) → Option (List String)
  | some own, some decoded => some (decoded.take own.length ++ own.drop decoded.length)
  | own, _ => own

def decodeOver : List SchedulerConfig → List SchedulerConfig → List SchedulerConfig
  | c :: own, p :: persisted => { c with args := decodeArgs c.args p.args } :: decodeOver own persisted
  | own, _ => own

def reload (own : List SchedulerConfig) : Option (List SchedulerConfig) → List SchedulerConfig
  | some persisted => adjustScheduleCfg (decodeOver own persisted) persisted
  | none => adjustScheduleCfg own own

structure State where
  schedulers : Nat → List SchedulerConfig
  leader : Option Nat
  persisted : Option (List SchedulerConfig)

inductive Label where
  | addSchedulerCfg (type : String) (args : Option (List String))
  | removeSchedulerCfg (name : String)
  | restart (i : Nat)
  | watchLeader (i : Nat)
  | campaignLeader (i : Nat)

section
variable (create : String → Option (List String) → Except String (String × String))
  (configured : Nat → List SchedulerConfig)

def init : State := ⟨configured, none, none⟩

def State.write (s : State) (i : Nat) (list : List SchedulerConfig) : State :=
  ⟨update s.schedulers i list, s.leader, some list⟩

def State.reload (s : State) (i : Nat) (leader : Option Nat) : State :=
  ⟨update s.schedulers i (SchedulerConfigs.reload (s.schedulers i) s.persisted), leader, s.persisted⟩

def step (s : State) : Label → Option State
  | .addSchedulerCfg type args => s.leader.map fun i => s.write i (addSchedulerCfg type args (s.schedulers i))
  | .removeSchedulerCfg name =>
    s.leader.map fun i =>
      match removeSchedulerCfg create name (s.schedulers i) with
      | .ok list => s.write i list
      | .error _ => s
  | .restart i =>
    some ⟨update s.schedulers i (configured i), if s.leader = some i then none else s.leader, s.persisted⟩
  | .watchLeader i => if s.leader = some i then none else some (s.reload i s.leader)
  | .campaignLeader i => some (s.reload i (some i))

end

def Enabled (list : List SchedulerConfig) (key : String × Option (List String)) : Prop :=
  ∃ c ∈ list, c.key = key ∧ c.disable = false

def Survives (s : State) (l : Label) (t : State) : Prop :=
  match l with
  | .campaignLeader i => ∀ persisted ∈ s.persisted, ∀ key, Enabled (t.schedulers i) key ↔ Enabled persisted key
  | _ => True

def alignedArgs : Option (List String) → Option (List String) → Bool
  | some own, some decoded => own == decoded
  | _, _ => true

def Aligned : Prop := ∀ e ∈ own.zip persisted, alignedArgs e.1.args e.2.args = true

structure Kept (own persisted : List SchedulerConfig) : Prop where
  enabled : ∀ c ∈ own, c.disable = false → ∃ p ∈ persisted, p.key = c.key
  first : ∀ c ∈ own, ∀ p ∈ persisted, p.key = c.key → p.disable = false →
    ∃ q ∈ persisted.find? (fun q => q.key = c.key), q.disable = false

instance alignedDecidable (own persisted : List SchedulerConfig) : Decidable (Aligned own persisted) :=
  inferInstanceAs (Decidable (∀ e ∈ own.zip persisted, _))

instance keptDecidable (own persisted : List SchedulerConfig) : Decidable (Kept own persisted) :=
  decidable_of_iff (_ ∧ _) ⟨fun h => ⟨h.1, h.2⟩, fun h => ⟨h.enabled, h.first⟩⟩

def Merges (s : State) : Label → Prop
  | .watchLeader i => ∀ persisted ∈ s.persisted, Aligned (s.schedulers i) persisted
  | .campaignLeader i => ∀ persisted ∈ s.persisted,
      Aligned (s.schedulers i) persisted ∧ Kept (s.schedulers i) persisted
  | _ => True

instance mergesDecidable (s : State) : ∀ l : Label, Decidable (Merges s l)
  | .addSchedulerCfg .. => .isTrue trivial
  | .removeSchedulerCfg _ => .isTrue trivial
  | .restart _ => .isTrue trivial
  | .watchLeader i => inferInstanceAs (Decidable (∀ persisted ∈ s.persisted, Aligned (s.schedulers i) persisted))
  | .campaignLeader i => inferInstanceAs (Decidable (∀ persisted ∈ s.persisted,
      Aligned (s.schedulers i) persisted ∧ Kept (s.schedulers i) persisted))

section
variable {own persisted : List SchedulerConfig} {c : SchedulerConfig} {key : String × Option (List String)}

lemma key_withFlag (persisted : List SchedulerConfig) (c : SchedulerConfig) : (withFlag persisted c).key = c.key := by
  unfold withFlag
  split <;> rfl

lemma withFlag_cases (persisted : List SchedulerConfig) (c : SchedulerConfig) :
  (∃ p ∈ persisted, p.key = c.key ∧ (withFlag persisted c).disable = p.disable) ∨
    ((∀ p ∈ persisted, p.key ≠ c.key) ∧ withFlag persisted c = c) := by
  unfold withFlag
  split
  next p hfind =>
    have hkey := List.find?_some hfind
    exact .inl ⟨p, List.mem_of_find?_eq_some hfind, of_decide_eq_true hkey, rfl⟩
  next hnone => exact .inr ⟨fun p hp h => List.find?_eq_none.mp hnone p hp (decide_eq_true h), rfl⟩

lemma enabled_append {as bs : List SchedulerConfig} : Enabled (as ++ bs) key ↔ Enabled as key ∨ Enabled bs key := by
  unfold Enabled
  simp only [mem_append, or_and_right, exists_or]

lemma enabled_own_iff : Enabled (own.map (withFlag persisted)) key ↔
  ∃ c ∈ own, c.key = key ∧ (withFlag persisted c).disable = false := by
  constructor
  · rintro ⟨_, hmem, hkey, hflag⟩
    obtain ⟨c, hc, rfl⟩ := mem_map.mp hmem
    exact ⟨c, hc, (key_withFlag persisted c).symm.trans hkey, hflag⟩
  rintro ⟨c, hc, hkey, hflag⟩
  exact ⟨withFlag persisted c, mem_map_of_mem hc, (key_withFlag persisted c).trans hkey, hflag⟩

lemma enabled_adjust_iff (own persisted : List SchedulerConfig) :
  (∀ key, Enabled (adjustScheduleCfg own persisted) key ↔ Enabled persisted key) ↔ Kept own persisted := by
  unfold adjustScheduleCfg
  constructor
  · intro h
    refine ⟨fun c hc hflag => ?_, fun c hc p hp hkey hflag => ?_⟩
    · -- an entry that is not persisted stays enabled
      by_contra hnot
      have hkeep : withFlag persisted c = c := by
        rcases withFlag_cases persisted c with ⟨p, hp, hkey, -⟩ | ⟨-, hkeep⟩
        · exact absurd ⟨p, hp, hkey⟩ hnot
        · exact hkeep
      have hown : Enabled (own.map (withFlag persisted)) c.key := enabled_own_iff.mpr ⟨c, hc, rfl, hkeep.symm ▸ hflag⟩
      obtain ⟨p, hp, hkey, -⟩ := (h c.key).mp (enabled_append.mpr (.inl hown))
      exact hnot ⟨p, hp, hkey⟩
    -- the scheduler is enabled, and not by an entry that is appended
    rcases enabled_append.mp ((h c.key).mpr ⟨p, hp, hkey, hflag⟩) with hown | ⟨q, hq, hkeyq, -⟩
    · obtain ⟨d, hd, hkeyd, hflagd⟩ := enabled_own_iff.mp hown
      unfold withFlag at hflagd
      rw [hkeyd] at hflagd
      split at hflagd
      next q hfind => exact ⟨q, hfind, hflagd⟩
      next hnone => exact absurd (decide_eq_true hkey) (List.find?_eq_none.mp hnone p hp)
    have hnew := (mem_filter.mp hq).2
    rw [Bool.not_eq_true', any_eq_false] at hnew
    exact absurd (decide_eq_true hkeyq.symm) (hnew c hc)
  intro hkept key
  rw [enabled_append, enabled_own_iff]
  constructor
  · rintro (⟨c, hc, rfl, hflag⟩ | ⟨p, hp, hkey, hflag⟩)
    · rcases withFlag_cases persisted c with ⟨p, hp, hkey, hsame⟩ | ⟨hnot, hkeep⟩
      · exact ⟨p, hp, hkey, hsame ▸ hflag⟩
      obtain ⟨p, hp, hkey⟩ := hkept.enabled c hc (hkeep ▸ hflag)
      exact absurd hkey (hnot p hp)
    · exact ⟨p, (mem_filter.mp hp).1, hkey, hflag⟩
  rintro ⟨p, hp, rfl, hflag⟩
  by_cases hown : ∃ c ∈ own, c.key = p.key
  · obtain ⟨c, hc, hkey⟩ := hown
    obtain ⟨q, hfind, hflagq⟩ := hkept.first c hc p hp hkey.symm hflag
    refine .inl ⟨c, hc, hkey, ?_⟩
    rw [withFlag, Option.mem_def.mp hfind]
    exact hflagq
  refine .inr ⟨p, mem_filter.mpr ⟨hp, ?_⟩, rfl, hflag⟩
  rw [Bool.not_eq_true', any_eq_false]
  exact fun c hc hkey => hown ⟨c, hc, of_decide_eq_true hkey⟩

lemma decodeArgs_of_aligned {a b : Option (List String)} (h : alignedArgs a b = true) : decodeArgs a b = a := by
  cases a with
  | none => rfl
  | some a =>
    cases b with
    | none => rfl
    | some b =>
      obtain rfl : a = b := eq_of_beq h
      rw [decodeArgs, take_length, drop_length, append_nil]

lemma decodeOver_of_aligned (h : Aligned own persisted) : decodeOver own persisted = own := by
  induction own generalizing persisted with
  | nil => rfl
  | cons c _ ih =>
    cases persisted with
    | nil => rfl
    | cons p =>
      have hargs := decodeArgs_of_aligned (h (c, p) mem_cons_self)
      rw [decodeOver, hargs, ih fun e he => h e (mem_cons_of_mem _ he)]

example : decodeOver [⟨"evict-leader", some ["1"], false⟩] [⟨"grant-leader", some ["2"], false⟩] =
    [⟨"evict-leader", some ["2"], false⟩] := by decide

end

/-- **Leader changes.**  In a run whose reloads merge well, a new leader enables what was persisted last. -/
theorem scheduler_configs_survive (create : String → Option (List String) → Except String (String × String))
  (configured : Nat → List SchedulerConfig) (labels : List Label)
  (hmerges : Runs.Along (step create configured) Merges (init configured) labels) :
  Runs.Steps (step create configured) Survives (init configured) labels := by
  refine Runs.steps_of_inv (fun _ => True) (fun s l t _ hm hs => ⟨trivial, ?_⟩) trivial hmerges
  cases l with
  | campaignLeader i =>
    cases hs
    intro persisted hpersisted
    obtain ⟨haligned, hkept⟩ := hm persisted hpersisted
    have hreload : (s.reload i (some i)).schedulers i = adjustScheduleCfg (s.schedulers i) persisted := by
      show update s.schedulers i (reload (s.schedulers i) s.persisted) i = _
      rw [update_self, Option.mem_def.mp hpersisted, reload, decodeOver_of_aligned haligned]
    rw [hreload]
    exact (enabled_adjust_iff _ _).mpr hkept
  | _ => trivial

def defaultSchedulers : List SchedulerConfig :=
  ["balance-region", "balance-leader", "hot-region", "label"].map fun type => ⟨type, none, false⟩

def createByType (type : String) (args : Option (List String)) : Except String (String × String) :=
  .ok (type ++ "-scheduler" ++ ((args.bind List.head?).elim "" ("-" ++ ·)), type)

def handedOver : List Label :=
  [.campaignLeader 1, .addSchedulerCfg "evict-leader" (some ["1"]), .watchLeader 2, .restart 1, .campaignLeader 2]

theorem scheduler_configs_survive_handover :
  Runs.Steps (step createByType fun _ => defaultSchedulers) Survives (init fun _ => defaultSchedulers) handedOver ∧
    (Runs.exec (step createByType fun _ => defaultSchedulers) (init fun _ => defaultSchedulers) handedOver).map
      (fun s => s.schedulers 2) = some (defaultSchedulers ++ [⟨"evict-leader", some ["1"], false⟩]) :=
  ⟨scheduler_configs_survive createByType (fun _ => defaultSchedulers) handedOver (by decide +kernel),
    by decide +kernel⟩

theorem removed_scheduler_returns :
  (Runs.exec (step createByType fun _ => defaultSchedulers) (init fun _ => defaultSchedulers)
    [.campaignLeader 1, .addSchedulerCfg "evict-leader" (some ["1"]), .watchLeader 2,
      .removeSchedulerCfg "evict-leader-scheduler-1", .campaignLeader 2]).map
    (fun s => (s.persisted, s.schedulers 2)) =
  some (some defaultSchedulers, defaultSchedulers ++ [⟨"evict-leader", some ["1"], false⟩]) := by
  decide +kernel

end SchedulerConfigs
end PD
