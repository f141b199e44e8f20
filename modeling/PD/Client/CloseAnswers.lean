import PD.Client.TsoRequests
import Mathlib.Data.List.Nodup

/-! # Requests that are answered when the client is closed -/

namespace PD.TsoClient
open List

def CloseAt.old : CloseAt → Nat
  | .uncalled => 0
  | .waiting old | .revoking old _ | .returned old => old

namespace Client

def Keeps (c : Client) (a : Action) : Prop := a = .deadlineDone → ∀ r ∈ c.requests, c.closing.old ≤ r.call

instance keepsDecidable (c : Client) (a : Action) : Decidable (c.Keeps a) :=
  inferInstanceAs (Decidable (a = .deadlineDone → ∀ r ∈ c.requests, c.closing.old ≤ r.call))

def answerCount (c : Client) (k : Nat) : Nat := (c.answers.map Prod.fst).count k

section
variable {c c' : Client}
variable {k old : Nat} {a : Action} {acts : List Action}

lemma answerCount_eq_one (h : Queued c) : c.answerCount k = 1 ↔ k ∈ c.answers.map Prod.fst := by
  have hnodup : (c.answers.map Prod.fst).Nodup := h.sorted.imp fun hlt => Nat.ne_of_lt hlt
  constructor
  · intro hone
    exact count_pos_iff.mp (by rw [show List.count k _ = 1 from hone]; exact Nat.one_pos)
  intro hin
  exact count_eq_one_of_mem hnodup hin

inductive Progress (c : Client) (a : Action) (c' : Client) : Prop where
  | same (base : c'.base = c.base) (answers : c'.answers = c.answers)
  | answer (v : Answer) (base : c'.base = c.base + 1) (answers : c'.answers = c.answers ++ [(c.base, v)])
  | drop (action : a = .deadlineDone) (done : c.done = true) (pending : c.pending = c.requests ++ c'.pending)
      (base : c'.base = c.base + c.requests.length) (answers : c'.answers = c.answers)

lemma Answered.progress {r : Request} {stamp : Option Stamp} {err : Option String} {o : Object} (hq : Queued c)
  (h : Answered c c' r stamp err o) (a : Action) : Progress c a c' := by
  have hcall := (hq.head h.pending).1
  exact .answer _ (base_answered hq h.pending h.calls) (hcall ▸ h.answers)

lemma progress_of_effect (hq : Queued c) (he : Effect c a c') : Progress c a c' := by
  cases he with
  | quiet same | closed same | responded same | ended same =>
    exact .same (base_eq (by rw [same.calls]) same.pending) same.answers
  | called _ _ calls pending answers => exact .same (base_called calls pending) answers
  | returned call addr o err rest was object value heap pool calls pending answers
  | canceled _ _ _ _ _ _ calls pending answers =>
    exact .same (base_eq (by rw [calls, length_set]) pending) answers
  | finished r o physical firstLogical err loop answered | revoked r o err answered => exact answered.progress hq _
  | dropped action _ done _ _ calls pending answers =>
    exact .drop action done pending (base_dropped hq pending calls) answers

lemma Progress.base_le (h : Progress c a c') : c.base ≤ c'.base := by
  cases h with
  | same base => exact Nat.le_of_eq base.symm
  | _ => omega

lemma mem_batch (hq : Queued c) (hpending : c.pending = c.requests ++ c'.pending) :
  (∃ r ∈ c.requests, r.call = k) ↔ c.base ≤ k ∧ k < c.base + c.requests.length := by
  have hnumbers := hq.numbers
  rw [hpending, map_append, length_append, ← range'_append_1] at hnumbers
  have hbatch := (append_inj hnumbers (by rw [length_map, length_range'])).1
  rw [← mem_range'_1, ← hbatch, List.mem_map]

inductive Closes (c c' : Client) : Prop where
  | same (closing : c'.closing = c.closing)
  | call (was : c.closing = .uncalled) (closing : c'.closing = .waiting c.calls.length) (base : c'.base = c.base)
      (calls : c'.calls = c.calls)
  | join (old : Nat) (was : c.closing = .waiting old) (closing : c'.closing = .revoking old c.pending.length)
      (base : c'.base = c.base)
  | ret (old : Nat) (was : c.closing = .revoking old 0) (closing : c'.closing = .returned old) (base : c'.base = c.base)
  | revoke (old n : Nat) (was : c.closing = .revoking old (n+1)) (closing : c'.closing = .revoking old n)
      (base : c'.base = c.base + 1)

lemma closes_of_effect (hq : Queued c) (he : Effect c a c') : Closes c c' := by
  cases he with
  | quiet same rounds closing | called addr object calls pending answers still closing
  | returned call addr o err rest was object value heap pool calls pending answers still closing
  | canceled call addr err was heap pool calls pending answers still closing
  | finished r o physical firstLogical err loop answered same next closing
  | ended same before all after rounds closing
  | dropped _ _ _ _ _ _ _ _ _ _ closing => exact .same closing
  | closed same _ closing =>
    have hbase : c'.base = c.base := base_eq (by rw [same.calls]) same.pending
    rcases closing with ⟨was, closing⟩ | ⟨old, was, closing⟩ | ⟨old, was, closing⟩
    · exact .call was closing hbase same.calls
    · exact .join old was closing hbase
    · exact .ret old was closing hbase
  | responded _ _ _ eq => exact .same (by rw [eq]; rfl)
  | revoked r o _ answered _ _ _ closing =>
    rcases closing with closing | ⟨old, n, was, closing⟩
    · exact .same closing
    · exact .revoke old n was closing (base_answered hq answered.pending answered.calls)

lemma length_calls_le (he : Effect c a c') : c.calls.length ≤ c'.calls.length := by
  cases he with
  | quiet same | closed same | responded same | ended same => rw [same.calls]
  | called _ _ calls =>
    rw [calls, length_append]
    exact Nat.le_add_right _ _
  | returned call addr o err rest was object value heap pool calls | canceled call addr err was heap pool calls =>
    rw [calls, length_set]
  | finished r o physical firstLogical err loop answered | revoked r o err answered => rw [answered.calls]
  | dropped _ _ _ _ _ calls => rw [calls]

def ClosingOk (c : Client) : Prop :=
  match c.closing with
  | .uncalled => True
  | .waiting old => old ≤ c.calls.length
  | .revoking old n => old ≤ c.base + n
  | .returned old => old ≤ c.base

lemma closingOk_step (h : ClosingOk c) (hq : Queued c) (he : Effect c a c') : ClosingOk c' := by
  have hbase := (progress_of_effect hq he).base_le
  have hcalls := length_calls_le he
  unfold ClosingOk at h ⊢
  cases closes_of_effect hq he with
  | same closing =>
    rw [closing]
    cases hclosing : c.closing with
    | uncalled => trivial
    | waiting =>
      rw [hclosing] at h
      exact Nat.le_trans h hcalls
    | revoking _ n =>
      rw [hclosing] at h
      exact Nat.le_trans h (Nat.add_le_add_right hbase n)
    | returned =>
      rw [hclosing] at h
      exact Nat.le_trans h hbase
  | call _ closing _ calls => rw [closing, calls]
  | join old was closing base =>
    rw [was] at h
    rw [closing, base]
    show old ≤ c.calls.length - c.pending.length + c.pending.length
    omega
  | ret _ was closing base =>
    rw [was] at h
    rw [closing, base]
    exact h
  | revoke _ n was closing base =>
    rw [was] at h
    rw [closing, base]
    omega

structure ClosedAt (c : Client) (old : Nat) : Prop where
  called : c.closing ≠ .uncalled
  old : c.closing.old = old

lemma closedAt_step (h : ClosedAt c old) (hq : Queued c) (he : Effect c a c') : ClosedAt c' old := by
  obtain ⟨hcalled, hold⟩ := h
  cases closes_of_effect hq he with
  | same closing => exact ⟨by rw [closing]; exact hcalled, by rw [closing]; exact hold⟩
  | call was => exact absurd was hcalled
  | join old' was closing | ret old' was closing | revoke old' n was closing =>
    rw [was] at hold
    exact ⟨by rw [closing]; exact CloseAt.noConfusion, by rw [closing]; exact hold⟩

def Complete (c : Client) : Prop :=
  ∀ k < c.base, (c.closing = .uncalled ∨ k < c.closing.old) → k ∈ c.answers.map Prod.fst

lemma old_of_step (hq : Queued c) (he : Effect c a c')
  (h : c'.closing = .uncalled ∨ k < c'.closing.old) : c.closing = .uncalled ∨ k < c.closing.old := by
  by_cases hcalled : c.closing = .uncalled
  · exact .inl hcalled
  obtain ⟨hcalled', hold⟩ := closedAt_step ⟨hcalled, rfl⟩ hq he
  rcases h with h | h
  · exact absurd h hcalled'
  · exact .inr (hold ▸ h)

lemma complete_step (h : Complete c) (hq : Queued c) (hkeeps : Keeps c a) (he : Effect c a c') : Complete c' := by
  intro k hk hold
  have hold := old_of_step hq he hold
  cases progress_of_effect hq he with
  | same base answers =>
    rw [answers]
    exact h k (base ▸ hk) hold
  | answer v _ answers =>
    rw [answers, map_append]
    rcases Nat.lt_or_ge k c.base with hlt | hge
    · exact mem_append_left _ (h k hlt hold)
    obtain rfl : k = c.base := by omega
    exact mem_append_right _ (mem_singleton_self _)
  | drop action done pending base answers =>
    rw [answers]
    rcases Nat.lt_or_ge k c.base with hlt | hge
    · exact h k hlt hold
    obtain ⟨r, hr, rfl⟩ := (mem_batch hq pending).mpr ⟨hge, base ▸ hk⟩
    rcases hold with hold | hold
    · rw [Client.done, hold] at done
      cases done
    · exact absurd (hkeeps action r hr) (Nat.not_le.mpr hold)

def Lost (c : Client) (k : Nat) : Prop := k < c.base ∧ k ∉ c.answers.map Prod.fst

lemma lost_step (h : Lost c k) (hq : Queued c) (he : Effect c a c') : Lost c' k := by
  obtain ⟨hk, hno⟩ := h
  have hprogress := progress_of_effect hq he
  refine ⟨Nat.lt_of_lt_of_le hk hprogress.base_le, ?_⟩
  cases hprogress with
  | same base answers | drop action done pending base answers => rwa [answers]
  | answer v _ answers =>
    rw [answers, map_append]
    intro hin
    rcases mem_append.mp hin with hin | hin
    · exact hno hin
    rw [mem_singleton.mp hin] at hk
    exact Nat.lt_irrefl _ hk

lemma deadlineDone_some (hp : Placed c) (hs : step c .deadlineDone = some c') :
  c.pending = c.requests ++ c'.pending ∧ c'.calls = c.calls ∧ c'.answers = c.answers := by
  rw [step] at hs
  split at hs
  next hat =>
    cases hs
    have hplaced := hp.loop
    rw [hat.1] at hplaced
    refine ⟨?_, rfl, rfl⟩
    show c.requests.drop c.finished ++ c.tsoRequests = c.requests ++ (List.drop c.finished [] ++ c.tsoRequests)
    rw [hplaced.1]
    rfl
  · cases hs

lemma lost_of_not_keeps (hi : Invariant c) (hs : step c a = some c') (h : ¬ Keeps c a) :
  ∃ k < c.closing.old, ClosedAt c' c.closing.old ∧ Lost c' k := by
  obtain ⟨rfl, r, hr, hlt⟩ : a = .deadlineDone ∧ ∃ r ∈ c.requests, r.call < c.closing.old := by
    unfold Keeps at h
    push Not at h
    exact h
  have hcalled : c.closing ≠ .uncalled := by
    intro huncalled
    rw [huncalled] at hlt
    exact absurd hlt (Nat.not_lt_zero _)
  obtain ⟨hpending, hcalls, hanswers⟩ := deadlineDone_some hi.placed hs
  obtain ⟨hlow, hhigh⟩ := (mem_batch hi.queued hpending).mp ⟨r, hr, rfl⟩
  refine ⟨r.call, hlt, closedAt_step ⟨hcalled, rfl⟩ hi.queued (step_spec hi.placed hs).2, ?_, ?_⟩
  · rw [base_dropped hi.queued hpending hcalls]
    exact hhigh
  rw [hanswers]
  intro hin
  obtain ⟨p, hp, heq⟩ := List.mem_map.mp hin
  exact hi.queued.not_answered hlow p.2 (heq ▸ hp)

lemma lost_exec (hi : Invariant c) (hclosed : ClosedAt c old) (hlost : Lost c k)
  (h : Runs.exec step c acts = some c') : ClosedAt c' old ∧ Lost c' k := by
  obtain ⟨-, hend⟩ := Runs.exec_inv (fun t => Invariant t ∧ ClosedAt t old ∧ Lost t k)
    (fun s a t hI _ hs => by
      obtain ⟨-, heffect⟩ := step_spec hI.1.placed hs
      exact ⟨invariant_step hI.1 hs, closedAt_step hI.2.1 hI.1.queued heffect, lost_step hI.2.2 hI.1.queued heffect⟩)
    ⟨hi, hclosed, hlost⟩ (Runs.along_of_forall (P := fun _ => True) _ fun _ _ => trivial) h
  exact hend

lemma along_keeps (hi : Invariant c) (h : Runs.exec step c acts = some c')
  (hold : c'.closing.old = old) (hall : ∀ k < old, k ∈ c'.answers.map Prod.fst) : Runs.Along step Keeps c acts := by
  induction acts generalizing c with
  | nil => trivial
  | cons a _ ih =>
    obtain ⟨t, ht, hrest⟩ := Runs.exec_cons_some.mp h
    refine ⟨?_, fun u hu => ?_⟩
    · by_contra hkeeps
      obtain ⟨k, hk, hclosed, hlost⟩ := lost_of_not_keeps hi ht hkeeps
      obtain ⟨hclosed', hlost'⟩ := lost_exec (invariant_step hi ht) hclosed hlost hrest
      exact hlost'.2 (hall k (by rw [← hold, hclosed'.old]; exact hk))
    obtain rfl : t = u := Option.some.inj (ht.symm.trans hu)
    exact ih (invariant_step hi ht) hrest

lemma complete_exec (h : Runs.exec step newClient acts = some c)
  (hkeeps : Runs.Along step Keeps newClient acts) : ClosingOk c ∧ Complete c := by
  obtain ⟨-, hend⟩ := Runs.exec_inv (fun t => Invariant t ∧ ClosingOk t ∧ Complete t)
    (fun s a t hI hkeep hs => by
      obtain ⟨-, heffect⟩ := step_spec hI.1.placed hs
      exact ⟨invariant_step hI.1 hs, closingOk_step hI.2.1 hI.1.queued heffect,
        complete_step hI.2.2 hI.1.queued hkeep heffect⟩)
    ⟨invariant_new, trivial, fun k hk => absurd hk (Nat.not_lt_zero _)⟩ hkeeps h
  exact hend

end

/-- **Close** leaves one answer each exactly if no batch is dropped. -/
theorem close_answers_iff {acts : List Action} {c : Client} {old : Nat} (h : Runs.exec step newClient acts = some c)
  (hreturned : c.closing = .returned old) :
  (∀ k < old, c.answerCount k = 1) ↔ Runs.Along step Keeps newClient acts := by
  have hi := invariant_exec h
  constructor
  · intro hall
    refine along_keeps invariant_new h (congrArg CloseAt.old hreturned) fun k hk => ?_
    exact (answerCount_eq_one hi.queued).mp (hall k hk)
  intro hkeeps k hk
  obtain ⟨hclosing, hcomplete⟩ := complete_exec h hkeeps
  unfold ClosingOk at hclosing
  rw [hreturned] at hclosing
  exact (answerCount_eq_one hi.queued).mpr (hcomplete k (Nat.lt_of_lt_of_le hk hclosing)
    (.inr (by rw [hreturned]; exact hk)))

def closingRun : List Action :=
  [.getTSAsync none, .connect none, .takeFirst, .count, .sendDeadline, .getTSAsync none, .close,
    .respond (.error "canceled"), .finishOne, .endFinish, .checkDone, .cancelLoopDone, .leaderLoopDone, .waitGroup,
    .closeRevoke, .closeReturn]

theorem close_answers_iff_closingRun : ∃ c, Runs.exec step newClient closingRun = some c ∧ c.closing = .returned 2 ∧
  c.answers = [(0, .error "canceled"), (1, .error errClosing)] ∧ c.answerCount 0 = 1 ∧ c.answerCount 1 = 1 := by
  have hrun : (Runs.exec step newClient closingRun).map (fun c => (c.closing, c.answers)) =
      some (.returned 2, [(0, .error "canceled"), (1, .error errClosing)]) := by decide +kernel
  obtain ⟨c, hc, heq⟩ := Option.map_eq_some_iff.mp hrun
  obtain ⟨hclosing, hanswers⟩ := Prod.mk.inj heq
  have hall := (close_answers_iff hc hclosing).mpr (by decide +kernel)
  exact ⟨c, hc, hclosing, hanswers, hall 0 (by decide), hall 1 (by decide)⟩

def droppingRun : List Action :=
  [.getTSAsync none, .connect none, .takeFirst, .count, .close, .deadlineDone, .cancelLoopDone, .leaderLoopDone,
    .waitGroup, .closeReturn]

theorem batch_dropped_on_close : ∃ c, Runs.exec step newClient droppingRun = some c ∧ c.closing = .returned 1 ∧
  c.calls = [⟨0, .waiting⟩] ∧ c.tsoRequests = [] ∧ c.answerCount 0 = 0 := by
  obtain ⟨c, hc⟩ := Option.isSome_iff_exists.mp
    (by decide +kernel : (Runs.exec step newClient droppingRun).isSome = true)
  have hclosing : (Runs.exec step newClient droppingRun).map (fun c => (c.closing, c.answerCount 0)) =
      some (.returned 1, 0) := by decide +kernel
  have hcalls : (Runs.exec step newClient droppingRun).map (fun c => (c.calls, c.tsoRequests)) =
      some ([⟨0, .waiting⟩], []) := by decide +kernel
  rw [hc, Option.map_some, Option.some.injEq, Prod.mk.injEq] at hclosing hcalls
  exact ⟨c, hc, hclosing.1, hcalls.1, hcalls.2, hclosing.2⟩

/-- **Pooled request objects**: a finished `Wait` returned the one answer to its own call, and an open call shares its
object with neither another open call nor the pool. -/
theorem requests_isolated {acts : List Action} {c : Client} (h : Runs.exec step newClient acts = some c) :
  (c.answers.map Prod.fst).Pairwise (· < ·) ∧
  (∀ (k : Nat) (x : Call) (v w : Answer), c.calls[k]? = some x → x.future = .returned v →
    ((k, w) ∈ c.answers ↔ w = v)) ∧ ∀ (j : Nat) (x : Call), c.calls[j]? = some x → ¬ x.released → x.addr ∉ c.pool ∧
    ∀ (k : Nat) (y : Call), c.calls[k]? = some y → ¬ y.released → x.addr = y.addr → j = k := by
  have hi := invariant_exec h
  refine ⟨hi.queued.sorted, fun k x v w hx hv => ?_, fun j x hx hr => ⟨fun hin => ?_, fun k y hy hyr haddr => ?_⟩⟩
  · have hmem := (hi.owned.own k x hx).received v hv
    refine ⟨fun hw => ?_, fun hw => hw ▸ hmem⟩
    -- the answers are numbered by increasing calls, so there is one for each call
    have hnodup : (c.answers.map Prod.fst).Nodup := hi.queued.sorted.imp fun hlt => Nat.ne_of_lt hlt
    exact congrArg Prod.snd (inj_on_of_nodup_map hnodup hw hmem rfl)
  · exact hr ((hi.owned.pool x.addr hin).2 j x hx rfl)
  · exact hi.owned.unique hx hy hr hyr haddr

theorem requests_isolated_reused :
  ∃ c, Runs.exec step newClient (closingRun ++ [.wait 0, .getTSAsync (some 0)]) = some c ∧
    ∀ w, (0, w) ∈ c.answers ↔ w = .error "canceled" := by
  have hrun : (Runs.exec step newClient (closingRun ++ [.wait 0, .getTSAsync (some 0)])).map (fun c => c.calls[0]?) =
      some (some ⟨0, .returned (.error "canceled")⟩) := by decide +kernel
  obtain ⟨c, hc, hcall⟩ := Option.map_eq_some_iff.mp hrun
  exact ⟨c, hc, fun w => (requests_isolated hc).2.1 0 _ _ w hcall rfl⟩

end Client
end PD.TsoClient
