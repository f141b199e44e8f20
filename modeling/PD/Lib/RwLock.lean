import PD.Lib.Runs
import PD.Lib.SortedMap

/-! # Readers-writer locks that writers close -/

namespace RwLock
open Option SortedMap

inductive Instr where
  | rlock
  | runlock
  | lock
  | unlock
  | internal
  deriving DecidableEq

inductive Mode where
  | running
  | waitRead
  | waitWrite
  deriving DecidableEq

structure Thread where
  rest : List Instr
  held : Nat
  writing : Bool
  mode : Mode
  deriving DecidableEq

structure System where
  writer : Option Nat
  threads : SortedMap Nat Thread

inductive Label where
  | step (n : Nat)
  | wait (n : Nat)
  deriving DecidableEq

namespace System

def start (programs : SortedMap Nat (List Instr)) : System :=
  ⟨none, programs.mapVal fun program => ⟨program, 0, false, .running⟩⟩

def set (s : System) (n : Nat) (p : Thread) : System := ⟨s.writer, s.threads.insert n p⟩
def noReader (s : System) : Bool := s.threads.values.all fun p => p.held == 0

end System

def Thread.wake (p : Thread) : Thread :=
  if p.mode = .waitRead then ⟨p.rest.tail, p.held + 1, p.writing, .running⟩ else p

namespace System
variable (s : System)

def complete (n : Nat) (p : Thread) : Option System :=
  match p.mode, p.rest with
  | .running, .internal :: rest => some (s.set n { p with rest := rest })
  | .running, .rlock :: rest =>
    if s.writer = none then some (s.set n { p with rest := rest, held := p.held + 1 }) else none
  | .running, .runlock :: rest => some (s.set n { p with rest := rest, held := p.held - 1 })
  | .running, .lock :: rest =>
    if s.writer = none ∧ s.noReader = true then
      some ⟨some n, s.threads.insert n { p with rest := rest, writing := true }⟩
    else none
  | .waitWrite, .lock :: rest =>
    if s.noReader then some (s.set n ⟨rest, p.held, true, .running⟩) else none
  | .running, .unlock :: rest =>
    some ⟨none, (s.threads.mapVal Thread.wake).insert n { p with rest := rest, writing := false }⟩
  | _, _ => none

def enqueue (n : Nat) (p : Thread) : Option System :=
  match p.mode, p.rest with
  | .running, .rlock :: _ => if s.writer = none then none else some (s.set n { p with mode := .waitRead })
  | .running, .lock :: _ =>
    if s.writer = none then some ⟨some n, s.threads.insert n { p with mode := .waitWrite }⟩ else none
  | _, _ => none

def step (s : System) : Label → Option System
  | .step n => (s.threads.lookup n).bind (s.complete n)
  | .wait n => (s.threads.lookup n).bind (s.enqueue n)

def unfinished : Bool := s.threads.values.any fun p => !p.rest.isEmpty
def canStep : Bool := s.threads.keys.any fun n => (s.step (.step n)).isSome

end System

def rereads : Nat → List Instr → Bool
  | 0, _ => false
  | _ + 1, [] => false
  | _ + 1, .rlock :: _ => true
  | held + 1, .runlock :: rest => rereads held rest
  | held + 1, .internal :: rest => rereads (held+1) rest
  | held + 1, .lock :: rest => rereads (held+1) rest
  | held + 1, .unlock :: rest => rereads (held+1) rest

@[simp] lemma rereads_zero (rest : List Instr) : rereads 0 rest = false := by cases rest <;> simp [rereads]

@[simp] lemma rereads_internal (held : Nat) (rest : List Instr) :
  rereads held (.internal :: rest) = rereads held rest := by
  cases held with
  | zero => rw [rereads_zero, rereads_zero]
  | succ => rfl

def System.quiet (s : System) : Label → Prop
  | .step _ => True
  | .wait n => ∀ p rest, s.threads.lookup n = some p → p.rest = .lock :: rest →
      ∀ m q, s.threads.lookup m = some q → rereads q.held q.rest = false

def Safe : Nat → Bool → List Instr → Prop
  | held, writing, [] => held = 0 ∧ writing = false
  | held, writing, .internal :: rest => Safe held writing rest
  | held, writing, .rlock :: rest => writing = false ∧ Safe (held+1) false rest
  | held, writing, .runlock :: rest => held ≠ 0 ∧ writing = false ∧ Safe (held-1) false rest
  | held, writing, .lock :: rest => held = 0 ∧ writing = false ∧ Safe 0 true rest
  | held, writing, .unlock :: rest => held = 0 ∧ writing = true ∧ Safe 0 false rest

instance safeDecidable : ∀ held writing rest, Decidable (Safe held writing rest)
  | _, _, [] => inferInstanceAs (Decidable (_ ∧ _))
  | held, writing, .internal :: rest => safeDecidable held writing rest
  | held, _, .rlock :: rest =>
    have := safeDecidable (held+1) false rest
    inferInstanceAs (Decidable (_ ∧ _))
  | held, _, .runlock :: rest =>
    have := safeDecidable (held-1) false rest
    inferInstanceAs (Decidable (_ ∧ _ ∧ _))
  | _, _, .lock :: rest =>
    have := safeDecidable 0 true rest
    inferInstanceAs (Decidable (_ ∧ _ ∧ _))
  | _, _, .unlock :: rest =>
    have := safeDecidable 0 false rest
    inferInstanceAs (Decidable (_ ∧ _ ∧ _))

lemma Safe.append {held : Nat} {writing : Bool} {as bs : List Instr} (ha : Safe held writing as)
  (hb : Safe 0 false bs) : Safe held writing (as ++ bs) := by
  induction as generalizing held writing with
  | nil =>
    obtain ⟨rfl, rfl⟩ := ha
    exact hb
  | cons i _ ih =>
    cases i with
    | internal => exact ih ha
    | rlock => exact ⟨ha.1, ih ha.2⟩
    | _ => exact ⟨ha.1, ha.2.1, ih ha.2.2⟩

structure Ok (writer : Option Nat) (n : Nat) (p : Thread) : Prop where
  safe : Safe p.held p.writing p.rest
  waitRead : p.mode = .waitRead → writer ≠ none ∧ ∃ rest, p.rest = .rlock :: rest
  waitWrite : p.mode = .waitWrite → writer = some n ∧ ∃ rest, p.rest = .lock :: rest
  writing : p.writing = true → writer = some n ∧ p.mode = .running

structure Inv (s : System) : Prop where
  ok : ∀ n p, s.threads.lookup n = some p → Ok s.writer n p
  writer : ∀ n, s.writer = some n → ∃ p, s.threads.lookup n = some p ∧ (p.mode = .waitWrite ∨ p.writing = true)
  still : ∀ n p, s.threads.lookup n = some p → p.mode = .waitWrite →
    ∀ m q, s.threads.lookup m = some q → rereads q.held q.rest = false

section
variable {s t : System} {n : Nat} {p p' : Thread}
variable {m held : Nat} {q : Thread} {w writer : Option Nat} {rest : List Instr} {l : Label}

lemma Inv.set (hi : Inv s) (hp : s.threads.lookup n = some p) (hok : Ok s.writer n p')
  (hmode : p'.mode = .waitWrite → p.mode = .waitWrite)
  (hwriter : p.mode = .waitWrite ∨ p.writing = true → p'.mode = .waitWrite ∨ p'.writing = true)
  (hstill : s.writer ≠ none → rereads p.held p.rest = false → rereads p'.held p'.rest = false) : Inv (s.set n p') := by
  refine ⟨fun m q hq => ?_, fun m hm => ?_, fun m q hq hw k x hx => ?_⟩
  · rcases lookup_insert_some.mp hq with ⟨rfl, rfl⟩ | ⟨_, hq⟩
    · exact hok
    · exact hi.ok m q hq
  · obtain ⟨q, hq, hkind⟩ := hi.writer m hm
    by_cases e : m = n
    · subst e
      obtain rfl := some.inj (hp.symm.trans hq)
      exact ⟨p', lookup_insert_self .., hwriter hkind⟩
    · exact ⟨q, (lookup_insert_of_ne _ _ e).trans hq, hkind⟩
  obtain ⟨m', q', hq', hw'⟩ : ∃ m q, s.threads.lookup m = some q ∧ q.mode = .waitWrite := by
    rcases lookup_insert_some.mp hq with ⟨rfl, rfl⟩ | ⟨_, hq⟩
    · exact ⟨m, p, hp, hmode hw⟩
    · exact ⟨m, q, hq, hw⟩
  have hne : s.writer ≠ none := by
    rw [((hi.ok m' q' hq').waitWrite hw').1]
    exact some_ne_none _
  rcases lookup_insert_some.mp hx with ⟨rfl, rfl⟩ | ⟨_, hx⟩
  · exact hstill hne (hi.still m' q' hq' hw' k p hp)
  · exact hi.still m' q' hq' hw' k x hx

lemma Inv.no_queue (hi : Inv s) (hw : s.writer = none) (hp : s.threads.lookup n = some p) :
  p.mode = .running ∧ p.writing = false := by
  have hok := hi.ok n p hp
  constructor
  · cases hm : p.mode with
    | running => rfl
    | waitRead => exact absurd hw (hok.waitRead hm).1
    | waitWrite => rw [hw] at hok; cases (hok.waitWrite hm).1
  cases hwr : p.writing with
  | false => rfl
  | true => rw [hw] at hok; cases (hok.writing hwr).1

lemma Inv.claim (hi : Inv s) (hw : s.writer = none) (hok : Ok (some n) n p')
  (hkind : p'.mode = .waitWrite ∨ p'.writing = true) (hstill : p'.mode = .waitWrite → rereads p'.held p'.rest = false ∧
    ∀ m q, s.threads.lookup m = some q → rereads q.held q.rest = false) : Inv ⟨some n, s.threads.insert n p'⟩ := by
  refine ⟨fun m q hq => ?_, fun m hm => ?_, fun m q hq hwait k x hx => ?_⟩
  · rcases lookup_insert_some.mp hq with ⟨rfl, rfl⟩ | ⟨_, hq⟩
    · exact hok
    obtain ⟨hrun, hnot⟩ := hi.no_queue hw hq
    exact ⟨(hi.ok m q hq).safe, fun e => (by rw [hrun] at e; cases e),
      fun e => (by rw [hrun] at e; cases e), fun e => (by rw [hnot] at e; cases e)⟩
  · cases hm
    exact ⟨p', lookup_insert_self .., hkind⟩
  rcases lookup_insert_some.mp hq with ⟨rfl, rfl⟩ | ⟨_, hq⟩
  · rcases lookup_insert_some.mp hx with ⟨rfl, rfl⟩ | ⟨_, hx⟩
    · exact (hstill hwait).1
    · exact (hstill hwait).2 k x hx
  rw [(hi.no_queue hw hq).1] at hwait
  cases hwait

lemma Inv.readers (hi : Inv s) (hp : s.threads.lookup n = some p) (hwriting : p.writing = true)
  (hne : m ≠ n) (hq : s.threads.lookup m = some q) : q.mode ≠ .waitWrite ∧ q.writing = false := by
  have hw : s.writer = some n := ((hi.ok n p hp).writing hwriting).1
  have hmok := hi.ok m q hq
  rw [hw] at hmok
  refine ⟨fun e => hne (some.inj (hmok.waitWrite e).1).symm, ?_⟩
  cases hwr : q.writing with
  | false => rfl
  | true => exact absurd (some.inj (hmok.writing hwr).1).symm hne

lemma Thread.wake_mode (h : p.mode ≠ .waitWrite) : p.wake.mode = .running := by
  unfold Thread.wake
  split
  · rfl
  next hread =>
    cases hm : p.mode with
    | running => rfl
    | waitRead => exact absurd hm hread
    | waitWrite => exact absurd hm h

lemma Thread.wake_writing (p : Thread) : p.wake.writing = p.writing := by
  unfold Thread.wake
  split <;> rfl

lemma Ok.wake (hok : Ok w n p) (hmode : p.mode ≠ .waitWrite) (hwriting : p.writing = false) : Ok none n p.wake := by
  have hm := Thread.wake_mode hmode
  have hnot : p.wake.writing = false := (Thread.wake_writing p).trans hwriting
  refine ⟨?_, fun e => (by rw [hm] at e; cases e), fun e => (by rw [hm] at e; cases e),
    fun e => (by rw [hnot] at e; cases e)⟩
  have hsafe := hok.safe
  unfold Thread.wake
  split
  next hread =>
    obtain ⟨rest, hrest⟩ := (hok.waitRead hread).2
    rw [hrest] at hsafe
    rw [hrest, hwriting]
    exact hsafe.2
  · exact hsafe

lemma lookup_wakeAll (h : ((s.threads.mapVal Thread.wake).insert n p').lookup m = some q) :
  (m = n ∧ q = p') ∨ ∃ q', m ≠ n ∧ s.threads.lookup m = some q' ∧ q = q'.wake := by
  rcases lookup_insert_some.mp h with hself | ⟨hne, hq⟩
  · exact .inl hself
  rw [lookup_mapVal] at hq
  obtain ⟨q', hq', rfl⟩ := map_eq_some_iff.mp hq
  exact .inr ⟨q', hne, hq', rfl⟩

lemma Inv.release (hi : Inv s) (hp : s.threads.lookup n = some p) (hwriting : p.writing = true)
  (hok : Ok none n p') : Inv ⟨none, (s.threads.mapVal Thread.wake).insert n p'⟩ := by
  refine ⟨fun m q hq => ?_, fun m hm => (by cases hm), fun m q hq hwait => ?_⟩
  · rcases lookup_wakeAll hq with ⟨rfl, rfl⟩ | ⟨q', hne, hq', rfl⟩
    · exact hok
    obtain ⟨hmode, hread⟩ := hi.readers hp hwriting hne hq'
    exact (hi.ok m q' hq').wake hmode hread
  rcases lookup_wakeAll hq with ⟨rfl, rfl⟩ | ⟨q', hne, hq', rfl⟩
  · cases (hok.waitWrite hwait).1
  rw [Thread.wake_mode (hi.readers hp hwriting hne hq').1] at hwait
  cases hwait

lemma inv_start {programs : SortedMap Nat (List Instr)}
  (h : ∀ n program, programs.lookup n = some program → Safe 0 false program) : Inv (System.start programs) := by
  have hrun : ∀ n p, (System.start programs).threads.lookup n = some p →
      ∃ program, programs.lookup n = some program ∧ p = ⟨program, 0, false, .running⟩ := by
    intro n p hp
    rw [System.start, lookup_mapVal] at hp
    obtain ⟨program, hprogram, rfl⟩ := map_eq_some_iff.mp hp
    exact ⟨program, hprogram, rfl⟩
  refine ⟨fun n p hp => ?_, fun n hn => (by cases hn), fun n p hp hw => ?_⟩
  · obtain ⟨program, hprogram, rfl⟩ := hrun n p hp
    exact ⟨h n program hprogram, fun e => (by cases e), fun e => (by cases e), fun e => (by cases e)⟩
  obtain ⟨program, _, rfl⟩ := hrun n p hp
  cases hw

lemma Ok.running (h : Safe held false rest) : Ok writer n ⟨rest, held, false, .running⟩ :=
  ⟨h, fun e => (by cases e), fun e => (by cases e), fun e => (by cases e)⟩

lemma inv_complete (hi : Inv s) (hp : s.threads.lookup n = some p) (h : s.complete n p = some t) : Inv t := by
  have hok := hi.ok n p hp
  obtain ⟨rest, held, writing, mode⟩ := p
  unfold System.complete at h
  split at h
  next rest' hm hr =>
    cases h
    subst hm hr
    exact hi.set hp ⟨hok.safe, fun e => (by cases e), fun e => (by cases e), hok.writing⟩ id id
      fun _ hre => (rereads_internal held rest').symm.trans hre
  next _ hm hr =>
    split at h
    next hw =>
      cases h
      subst hm hr
      obtain ⟨rfl, hsafe⟩ := hok.safe
      exact hi.set hp (Ok.running hsafe) id id fun hne => absurd hw hne
    · cases h
  next _ hm hr =>
    cases h
    subst hm hr
    obtain ⟨h0, rfl, hsafe⟩ := hok.safe
    obtain ⟨held, rfl⟩ := Nat.exists_eq_succ_of_ne_zero h0
    exact hi.set hp (Ok.running hsafe) id id fun _ => id
  next _ hm hr =>
    split at h
    next hw =>
      cases h
      subst hm hr
      obtain ⟨rfl, rfl, hsafe⟩ := hok.safe
      exact hi.claim hw.1 ⟨hsafe, fun e => (by cases e), fun e => (by cases e), fun _ => ⟨rfl, rfl⟩⟩
        (.inr rfl) fun e => by cases e
    · cases h
  next _ hm hr =>
    split at h
    · cases h
      subst hm hr
      obtain ⟨rfl, rfl, hsafe⟩ := hok.safe
      have hw := (hok.waitWrite rfl).1
      exact hi.set hp ⟨hsafe, fun e => (by cases e), fun e => (by cases e), fun _ => ⟨hw, rfl⟩⟩
        (fun e => by cases e) (fun _ => .inr rfl) fun _ _ => rereads_zero _
    · cases h
  next _ hm hr =>
    cases h
    subst hm hr
    obtain ⟨rfl, rfl, hsafe⟩ := hok.safe
    exact hi.release hp rfl (Ok.running hsafe)
  · cases h

lemma inv_enqueue (hi : Inv s) (hp : s.threads.lookup n = some p) (hq : s.quiet (.wait n))
  (h : s.enqueue n p = some t) : Inv t := by
  have hok := hi.ok n p hp
  obtain ⟨rest, held, writing, mode⟩ := p
  unfold System.enqueue at h
  split at h
  next rest' hm hr =>
    split at h
    · cases h
    next hw =>
      cases h
      subst hm hr
      obtain ⟨rfl, _⟩ := hok.safe
      exact hi.set hp ⟨hok.safe, fun _ => ⟨hw, rest', rfl⟩, fun e => (by cases e), fun e => (by cases e)⟩
        (fun e => by cases e) (fun e => by rcases e with e | e <;> cases e) fun _ => id
  next rest' hm hr =>
    split at h
    next hw =>
      cases h
      subst hm hr
      obtain ⟨rfl, rfl, _⟩ := hok.safe
      exact hi.claim hw ⟨hok.safe, fun e => (by cases e), fun _ => ⟨rfl, rest', rfl⟩, fun e => (by cases e)⟩
        (.inl rfl) fun _ => ⟨rfl, hq _ rest' hp rfl⟩
    · cases h
  · cases h

lemma inv_step (hi : Inv s) (hq : s.quiet l) (h : s.step l = some t) : Inv t := by
  cases l with
  | step =>
    obtain ⟨p, hp, hc⟩ := bind_eq_some_iff.mp h
    exact inv_complete hi hp hc
  | wait =>
    obtain ⟨p, hp, hc⟩ := bind_eq_some_iff.mp h
    exact inv_enqueue hi hp hq hc

lemma canStep_of (hp : s.threads.lookup n = some p) (h : (s.complete n p).isSome = true) : s.canStep = true := by
  refine List.any_eq_true.mpr ⟨n, SortedMap.mem_keys.mpr ⟨p, hp⟩, ?_⟩
  show ((s.threads.lookup n).bind (s.complete n)).isSome = true
  rw [hp]
  exact h

lemma complete_reader (hsafe : Safe p.held p.writing p.rest) (hm : p.mode = .running) (hheld : p.held ≠ 0)
  (hr : s.writer = none ∨ rereads p.held p.rest = false) : (s.complete n p).isSome = true := by
  obtain ⟨rest, held, writing, mode⟩ := p
  subst hm
  cases rest with
  | nil => exact absurd hsafe.1 hheld
  | cons i =>
    cases i with
    | internal => rfl
    | runlock => rfl
    | rlock =>
      rcases hr with hr | hr
      · simp [System.complete, hr]
      obtain ⟨held, rfl⟩ := Nat.exists_eq_succ_of_ne_zero hheld
      cases hr
    | _ => exact absurd hsafe.1 hheld

lemma exists_reader (h : ¬ s.noReader = true) : ∃ m q, s.threads.lookup m = some q ∧ q.held ≠ 0 := by
  unfold System.noReader at h
  rw [List.all_eq_true] at h
  push Not at h
  obtain ⟨q, hq, hne⟩ := h
  obtain ⟨m, hm⟩ := mem_values.mp hq
  exact ⟨m, q, hm, by simpa using hne⟩

lemma Ok.running_of_held (hok : Ok w n p) (hheld : p.held ≠ 0)
  (hre : rereads p.held p.rest = false) : p.mode = .running := by
  cases hm : p.mode with
  | running => rfl
  | waitRead =>
    obtain ⟨rest, hrest⟩ := (hok.waitRead hm).2
    obtain ⟨held, hsucc⟩ := Nat.exists_eq_succ_of_ne_zero hheld
    rw [hrest, hsucc] at hre
    cases hre
  | waitWrite =>
    obtain ⟨rest, hrest⟩ := (hok.waitWrite hm).2
    have hsafe := hok.safe
    rw [hrest] at hsafe
    exact absurd hsafe.1 hheld

lemma complete_writer (hsafe : Safe p.held p.writing p.rest) (hm : p.mode = .running)
  (hwriting : p.writing = true) : (s.complete n p).isSome = true := by
  obtain ⟨rest, held, writing, mode⟩ := p
  subst hm hwriting
  cases rest with
  | nil => cases hsafe.2
  | cons i =>
    cases i with
    | internal => rfl
    | unlock => rfl
    | rlock => cases hsafe.1
    | _ => cases hsafe.2.1

lemma Inv.canStep (hi : Inv s) (hu : s.unfinished = true) : s.canStep = true := by
  cases hw : s.writer with
  | none =>
    -- nobody is in a queue: an unfinished thread goes on, or the readers before it do
    obtain ⟨p, hp, hne⟩ := List.any_eq_true.mp hu
    obtain ⟨n, hn⟩ := mem_values.mp hp
    obtain ⟨hm, _⟩ := hi.no_queue hw hn
    by_cases hread : s.noReader = true
    · refine canStep_of hn ?_
      obtain ⟨rest, held, writing, mode⟩ := p
      subst hm
      cases rest with
      | nil => cases hne
      | cons i => cases i <;> simp [System.complete, hw, hread]
    obtain ⟨m, q, hq, hheld⟩ := exists_reader hread
    exact canStep_of hq (complete_reader (hi.ok m q hq).safe (hi.no_queue hw hq).1 hheld (.inl hw))
  | some n =>
    obtain ⟨p, hp, hkind⟩ := hi.writer n hw
    have hok := hi.ok n p hp
    rcases hkind with hwait | hwriting
    · -- the writer waits: it goes on, or a reader does, which does not want to read again
      obtain ⟨rest, hrest⟩ := (hok.waitWrite hwait).2
      by_cases hread : s.noReader = true
      · exact canStep_of hp (by simp [System.complete, hwait, hrest, hread])
      obtain ⟨m, q, hq, hheld⟩ := exists_reader hread
      have hre := hi.still n p hp hwait m q hq
      have hok := hi.ok m q hq
      exact canStep_of hq (complete_reader hok.safe (hok.running_of_held hheld hre) hheld (.inr hre))
    exact canStep_of hp (complete_writer hok.safe (hok.writing hwriting).2 hwriting)

def Flat : Nat → List Instr → Prop
  | _, [] => True
  | held, .rlock :: rest => held = 0 ∧ Flat 1 rest
  | held, .runlock :: rest => Flat (held-1) rest
  | held, .internal :: rest => Flat held rest
  | held, .lock :: rest => Flat held rest
  | held, .unlock :: rest => Flat held rest

instance flatDecidable : ∀ held rest, Decidable (Flat held rest)
  | _, [] => .isTrue trivial
  | _, .rlock :: rest =>
    have := flatDecidable 1 rest
    inferInstanceAs (Decidable (_ ∧ _))
  | held, .runlock :: rest => flatDecidable (held-1) rest
  | held, .internal :: rest => flatDecidable held rest
  | held, .lock :: rest => flatDecidable held rest
  | held, .unlock :: rest => flatDecidable held rest

lemma Flat.not_rereads (h : Flat held rest) : rereads held rest = false := by
  induction rest generalizing held with
  | nil => cases held <;> rfl
  | cons i _ ih =>
    cases held with
    | zero => rfl
    | succ =>
      cases i with
      | rlock => cases h.1
      | _ => exact ih h

lemma Flat.wake (hok : Ok writer n p) (h : Flat p.held p.rest) : Flat p.wake.held p.wake.rest := by
  unfold Thread.wake
  split
  next hm =>
    obtain ⟨rest, hrest⟩ := (hok.waitRead hm).2
    rw [hrest] at h ⊢
    obtain ⟨h0, hflat⟩ := h
    rw [h0]
    exact hflat
  · exact h

lemma flat_complete (hi : Inv s) (hp : s.threads.lookup n = some p) (h : s.complete n p = some t)
  (hflat : ∀ q, s.threads.lookup m = some q → Flat q.held q.rest)
  (hq : t.threads.lookup m = some q) : Flat q.held q.rest := by
  have hset : ∀ p', (m = n → Flat p.held p.rest → Flat p'.held p'.rest) →
      (s.threads.insert n p').lookup m = some q → Flat q.held q.rest := by
    intro p' hp' hq
    rcases lookup_insert_some.mp hq with ⟨rfl, rfl⟩ | ⟨_, hq⟩
    · exact hp' rfl (hflat p hp)
    · exact hflat q hq
  unfold System.complete at h
  split at h
  next _ _ hr =>
    cases h
    exact hset _ (fun _ hf => by rw [hr] at hf; exact hf) hq
  next _ _ hr =>
    split at h
    · cases h
      refine hset _ (fun _ hf => ?_) hq
      rw [hr] at hf
      rw [hf.1]
      exact hf.2
    · cases h
  next _ _ hr =>
    cases h
    exact hset _ (fun _ hf => by rw [hr] at hf; exact hf) hq
  next _ _ hr =>
    split at h
    · cases h
      exact hset _ (fun _ hf => by rw [hr] at hf; exact hf) hq
    · cases h
  next _ _ hr =>
    split at h
    · cases h
      exact hset _ (fun _ hf => by rw [hr] at hf; exact hf) hq
    · cases h
  next _ _ hr =>
    cases h
    rcases lookup_wakeAll hq with ⟨rfl, rfl⟩ | ⟨q', _, hq', rfl⟩
    · have hf := hflat p hp
      rw [hr] at hf
      exact hf
    · exact Flat.wake (hi.ok m q' hq') (hflat q' hq')
  · cases h

lemma flat_enqueue (hp : s.threads.lookup n = some p) (h : s.enqueue n p = some t)
  (hflat : ∀ q, s.threads.lookup m = some q → Flat q.held q.rest)
  (hq : t.threads.lookup m = some q) : Flat q.held q.rest := by
  have hset : ∀ mode, (s.threads.insert n { p with mode := mode }).lookup m = some q → Flat q.held q.rest := by
    intro mode hq
    rcases lookup_insert_some.mp hq with ⟨rfl, rfl⟩ | ⟨_, hq⟩
    · exact hflat p hp
    · exact hflat q hq
  unfold System.enqueue at h
  split at h
  · split at h
    · cases h
    cases h
    exact hset _ hq
  · split at h
    · cases h
      exact hset _ hq
    · cases h
  · cases h

lemma flat_step (hi : Inv s) (h : s.step l = some t) (hflat : ∀ q, s.threads.lookup m = some q → Flat q.held q.rest)
  (hq : t.threads.lookup m = some q) : Flat q.held q.rest := by
  cases l with
  | step =>
    obtain ⟨p, hp, hc⟩ := bind_eq_some_iff.mp h
    exact flat_complete hi hp hc hflat hq
  | wait =>
    obtain ⟨p, hp, hc⟩ := bind_eq_some_iff.mp h
    exact flat_enqueue hp hc hflat hq

end
end RwLock
