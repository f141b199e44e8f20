import PD.Client.TsoRequests

/-! # The timestamps that calls get -/

namespace PD.TsoClient
open List

def Earlier (x y : Stamp) : Prop := x.1 < y.1 ∨ x.1 = y.1 ∧ x.2 < y.2

variable (r : TsoResponse)

def TsoResponse.reserves (x : Stamp) : Prop := x.1 = r.physical ∧ r.logical - r.count < x.2 ∧ x.2 ≤ r.logical

structure Reserving (responses : List TsoResponse) : Prop where
  int64 : ∀ r ∈ responses, ∀ x, r.reserves x → -2 ^ 63 ≤ x.2 ∧ x.2 < 2 ^ 63
  increasing : responses.Pairwise fun r r' => ∀ x y, r.reserves x → r'.reserves y → Earlier x y

lemma Earlier.ne {x y : Stamp} (h : Earlier x y) : x ≠ y := by
  rintro rfl
  rcases h with h | ⟨-, h⟩ <;> exact lt_irrefl _ h

def TsoResponse.firstLogical : Int := Words.wrap (r.logical - ((r.count + (2 ^ 32 - 1)) % 2 ^ 32 : Nat))
def TsoResponse.stamp (i : Nat) : Stamp := (r.physical, Words.wrap (r.firstLogical + i))

lemma TsoResponse.stamp_eq {r : TsoResponse} (hint : ∀ x, r.reserves x → -2 ^ 63 ≤ x.2 ∧ x.2 < 2 ^ 63)
  (hcount : r.count ≤ maxMergeTSORequests + 1) {i : Nat} (hi : i < r.count) :
  r.stamp i = (r.physical, r.logical - r.count + 1 + i) := by
  unfold maxMergeTSORequests at hcount
  have hless : (r.count + (2 ^ 32 - 1)) % 2 ^ 32 = r.count - 1 := by omega
  have hfirst := hint (r.physical, r.logical - r.count + 1) ⟨rfl, by omega, by omega⟩
  have hthis := hint (r.physical, r.logical - r.count + 1 + i) ⟨rfl, by omega, by omega⟩
  have hlogical : r.firstLogical = r.logical - r.count + 1 := by
    unfold firstLogical
    rw [hless]
    have hsub : r.logical - ((r.count - 1 : Nat) : Int) = r.logical - r.count + 1 := by omega
    rw [hsub]
    exact Words.wrap_eq hfirst.1 hfirst.2
  unfold stamp
  rw [hlogical, Words.wrap_eq hthis.1 hthis.2]

lemma TsoResponse.stamp_reserved {r : TsoResponse} (hint : ∀ x, r.reserves x → -2 ^ 63 ≤ x.2 ∧ x.2 < 2 ^ 63)
  (hcount : r.count ≤ maxMergeTSORequests + 1) {i : Nat} (hi : i < r.count) : r.reserves (r.stamp i) := by
  rw [r.stamp_eq hint hcount hi]
  exact ⟨rfl, by simp only; omega, by simp only; omega⟩

namespace Client

def responses (c : Client) : List TsoResponse := c.rounds.filterMap fun round => round.reply.toOption

def StampedBy (k : Nat) (x : Stamp) (round : Round) : Prop :=
  ∃ r, round.reply = .ok r ∧ r.count = round.size ∧ round.size ≤ maxMergeTSORequests + 1 ∧
    round.first ≤ k ∧ k < round.first + round.size ∧ x = r.stamp (k - round.first)

structure Timed (c : Client) : Prop where
  ordered : c.rounds.Pairwise fun a b => a.first + a.size ≤ b.first
  current : ∀ physical firstLogical err, c.tsLoop = .finish physical firstLogical err →
    ∃ before round, c.rounds = before ++ [round] ∧ round.size = c.requests.length ∧ round.first + c.finished = c.base ∧
      (err = none → ∃ r, round.reply = .ok r ∧ r.count = round.size ∧ physical = r.physical ∧
        firstLogical = r.firstLogical)
  past : c.tsLoop.finishing = false → ∀ round ∈ c.rounds, round.first + round.size ≤ c.base
  stamped : ∀ k x, (k, .ok x) ∈ c.answers → ∃ round ∈ c.rounds, StampedBy k x round

section
variable {c c' : Client}
variable {k j : Nat} {x y : Stamp} {round : Round}

lemma Timed.of_still (h : Timed c) (hs : Still c c') (hbase : c'.base = c.base) (hanswers : c'.answers = c.answers) :
  Timed c' := by
  obtain ⟨ordered, current, past, stamped⟩ := h
  rw [← hs.rounds] at ordered
  rw [← hs.rounds, ← hs.loop, ← hs.requests, ← hs.finished, ← hbase] at current
  rw [← hs.rounds, ← hs.loop, ← hbase] at past
  rw [← hs.rounds, ← hanswers] at stamped
  exact ⟨ordered, current, past, stamped⟩

lemma Timed.of_not_finishing (h : Timed c) (hrounds : c'.rounds = c.rounds) (hbefore : c.tsLoop.finishing = false)
  (hafter : c'.tsLoop.finishing = false) (hbase : c.base ≤ c'.base)
  (hstamped : ∀ k x, (k, .ok x) ∈ c'.answers → (k, .ok x) ∈ c.answers) : Timed c' := by
  refine ⟨by rw [hrounds]; exact h.ordered, fun physical firstLogical err hat => ?_, fun _ round hround => ?_,
    fun k x hx => ?_⟩
  · rw [hat] at hafter
    cases hafter
  · rw [hrounds] at hround
    exact (h.past hbefore round hround).trans hbase
  rw [hrounds]
  exact h.stamped k x (hstamped k x hx)

lemma finishAt_finishing (reply : Except String TsoResponse) : (c.finishAt reply).finishing = true := by
  unfold finishAt
  split
  · rfl
  · split <;> rfl

lemma Timed.of_responded (h : Timed c) (hp : Placed c) (hq : Queued c) (hat : c.tsLoop = .process)
  (reply : Except String TsoResponse) : Timed (c.processTSORequests reply) := by
  have hplaced := hp.loop
  rw [hat] at hplaced
  obtain ⟨hfinished, hne, hlen⟩ := hplaced
  obtain ⟨r, rest, hrequests⟩ := exists_cons_of_ne_nil hne
  have hfirst : ((c.requests.head?).map Request.call).getD 0 = c.base := by
    have hpending : c.pending = r :: (rest ++ c.tsoRequests) := by
      unfold pending
      rw [hfinished, hrequests]
      rfl
    rw [hrequests, ← (hq.head hpending).1]
    rfl
  have hpast := h.past (by rw [hat]; rfl)
  refine ⟨?_, fun physical firstLogical err hfinish => ?_, fun hno => ?_, fun k x hx => ?_⟩
  · refine pairwise_append.mpr ⟨h.ordered, pairwise_singleton _ _, fun a ha b hb => ?_⟩
    rw [mem_singleton.mp hb]
    rw [hfirst]
    exact hpast a ha
  · refine ⟨c.rounds, _, rfl, rfl, ?_, fun hok => ?_⟩
    · show ((c.requests.head?).map Request.call).getD 0 + c.finished = c.base
      rw [hfirst, hfinished]
      rfl
    change c.finishAt reply = _ at hfinish
    cases reply with
    | error =>
      cases hfinish
      cases hok
    | ok r =>
      rw [finishAt] at hfinish
      unfold maxMergeTSORequests at hlen
      split at hfinish
      · cases hfinish
        cases hok
      next _ =>
        cases hfinish
        refine ⟨r, rfl, ?_, rfl, rfl⟩
        show r.count = c.requests.length
        omega
  · change (c.finishAt reply).finishing = false at hno
    rw [finishAt_finishing] at hno
    cases hno
  obtain ⟨round, hround, hby⟩ := h.stamped k x hx
  exact ⟨round, mem_append_left _ hround, hby⟩

lemma Timed.of_finished (h : Timed c) (hp' : Placed c') (hq : Queued c) {r : Request} {o : Object}
  {physical firstLogical : Int} {err : Option String} (hat : c.tsLoop = .finish physical firstLogical err)
  (ha : Answered c c' r (some (physical, Words.wrap (firstLogical + c.finished))) err o)
  (hsame : c'.tsLoop = c.tsLoop ∧ c'.requests = c.requests ∧ c'.rounds = c.rounds)
  (hnext : c'.finished = c.finished + 1) : Timed c' := by
  obtain ⟨before, round, hrounds, hsize, hbase, hok⟩ := h.current physical firstLogical err hat
  obtain ⟨hcall, -⟩ := hq.head ha.pending
  have hbase' := base_answered hq ha.pending ha.calls
  have hplaced := hp'.loop
  rw [hsame.1, hat, hsame.2.1, hnext] at hplaced
  obtain ⟨hlt, -, hmax⟩ := hplaced
  refine ⟨by rw [hsame.2.2]; exact h.ordered, fun p l e hat' => ?_, fun hno => ?_, fun k x hx => ?_⟩
  · rw [hsame.1, hat] at hat'
    cases hat'
    exact ⟨before, round, hsame.2.2.trans hrounds, hsize.trans (by rw [hsame.2.1]), by omega, hok⟩
  · rw [hsame.1, hat] at hno
    cases hno
  rw [hsame.2.2]
  rw [ha.answers] at hx
  rcases mem_append.mp hx with hx | hx
  · exact h.stamped k x hx
  obtain ⟨rfl, hanswer⟩ := Prod.mk.inj (mem_singleton.mp hx)
  cases err with
  | some => cases hanswer
  | none =>
    cases hanswer
    obtain ⟨resp, hreply, hcount, rfl, rfl⟩ := hok rfl
    refine ⟨round, by rw [hrounds]; exact mem_append_right _ (mem_singleton_self _), resp, hreply, hcount,
      by rw [hsize]; exact hmax, by omega, by omega, ?_⟩
    have hindex : r.call - round.first = c.finished := by omega
    rw [hindex]
    rfl

lemma Timed.of_ended (h : Timed c) (hsame : Same c c') (hbefore : c.tsLoop.finishing = true)
  (hall : c.finished = c.requests.length) (hafter : c'.tsLoop.finishing = false) (hrounds : c'.rounds = c.rounds) :
  Timed c' := by
  have hbase : c'.base = c.base := base_eq (by rw [hsame.calls]) hsame.pending
  cases hat : c.tsLoop with
  | finish physical firstLogical err =>
    obtain ⟨before, round, heq, hsize, hfirst, -⟩ := h.current physical firstLogical err hat
    have hordered := h.ordered
    rw [heq, pairwise_append] at hordered
    refine ⟨by rw [hrounds]; exact h.ordered, fun p l e hat' => ?_, fun _ a ha => ?_, fun k x hx => ?_⟩
    · rw [hat'] at hafter
      cases hafter
    · rw [hrounds, heq] at ha
      rw [hbase]
      rcases mem_append.mp ha with ha | ha
      · have := hordered.2.2 a ha round (mem_singleton_self _)
        omega
      rw [mem_singleton.mp ha]
      omega
    rw [hrounds]
    exact h.stamped k x (hsame.answers ▸ hx)
  | _ =>
    rw [hat] at hbefore
    cases hbefore

lemma timed_step (h : Timed c) (hi : Invariant c) (hp' : Placed c') {a : Action} (he : Effect c a c') : Timed c' := by
  have hq := hi.queued
  cases he with
  | quiet same rounds _ loop =>
    have hbase : c'.base = c.base := base_eq (by rw [same.calls]) same.pending
    rcases loop with still | ⟨hbefore, hafter⟩
    · exact h.of_still still hbase same.answers
    · exact h.of_not_finishing rounds hbefore hafter (Nat.le_of_eq hbase.symm) fun k x hx => same.answers ▸ hx
  | closed same still => exact h.of_still still (base_eq (by rw [same.calls]) same.pending) same.answers
  | called _ _ calls pending answers still =>
    exact h.of_still still (base_called calls pending) answers
  | returned call addr o err rest was object value heap pool calls pending answers still
  | canceled _ _ _ _ _ _ calls pending answers still =>
    exact h.of_still still (base_eq (by rw [calls, length_set]) pending) answers
  | responded _ reply loop eq => exact eq ▸ h.of_responded hi.placed hq loop reply
  | finished r o _ _ _ loop answered same next =>
    exact h.of_finished hp' hq loop answered same next
  | ended same before all after rounds => exact h.of_ended same before all after rounds
  | revoked r o _ answered before after rounds =>
    have hbase := base_answered hq answered.pending answered.calls
    refine h.of_not_finishing rounds before after (by omega) fun k x hx => ?_
    rw [answered.answers] at hx
    rcases mem_append.mp hx with hx | hx
    · exact hx
    · cases (Prod.mk.inj (mem_singleton.mp hx)).2
  | dropped _ loop _ _ _ calls pending answers after rounds =>
    have hbase := base_dropped hq pending calls
    exact h.of_not_finishing rounds (by rw [loop]; rfl) after (by omega) fun k x hx => answers ▸ hx

lemma timed_new : Timed newClient := ⟨List.Pairwise.nil, nofun, fun _ => nofun, nofun⟩

lemma timed_exec {acts : List Action} (h : Runs.exec step newClient acts = some c) : Invariant c ∧ Timed c := by
  refine Runs.exec_inv (fun c => Invariant c ∧ Timed c) (fun s a t hI _ hs => ?_) ⟨invariant_new, timed_new⟩
    (Runs.along_of_forall (P := fun _ => True) _ fun _ _ => trivial) h
  obtain ⟨hplaced, heffect⟩ := step_spec hI.1.placed hs
  exact ⟨invariant_step hI.1 hs, timed_step hI.2 hI.1 hplaced heffect⟩

def Completed (c : Client) (k : Nat) (x : Stamp) : Prop := ∃ addr, c.calls[k]? = some ⟨addr, .returned (.ok x)⟩

lemma Completed.stamped (hk : Completed c k x) (hi : Invariant c) (ht : Timed c) :
  ∃ round ∈ c.rounds, StampedBy k x round := by
  obtain ⟨addr, hcall⟩ := hk
  exact ht.stamped k x ((hi.owned.own k _ hcall).received _ rfl)

lemma mem_responses {r : TsoResponse} (hround : round ∈ c.rounds) (hreply : round.reply = .ok r) : r ∈ c.responses :=
  mem_filterMap.mpr ⟨round, hround, by rw [hreply]; rfl⟩

lemma StampedBy.reserved (h : StampedBy k x round) (hround : round ∈ c.rounds) (hres : Reserving c.responses) :
  ∃ r, round.reply = .ok r ∧ r.count = round.size ∧ round.first ≤ k ∧ k < round.first + round.size ∧ r.reserves x := by
  obtain ⟨r, hreply, hcount, hmax, hfirst, hlast, rfl⟩ := h
  refine ⟨r, hreply, hcount, hfirst, hlast, ?_⟩
  exact r.stamp_reserved (hres.int64 r (mem_responses hround hreply)) (hcount ▸ hmax) (by omega)

lemma earlier_of_batch (hround : round ∈ c.rounds) (hx : StampedBy j x round) (hy : StampedBy k y round)
  (hres : Reserving c.responses) (hjk : j < k) : Earlier x y := by
  obtain ⟨r, hreply, hcount, hmax, hfirst, -, rfl⟩ := hx
  obtain ⟨r', hreply', -, -, -, hlast, rfl⟩ := hy
  obtain rfl : r = r' := by
    rw [hreply] at hreply'
    exact Except.ok.inj hreply'
  have hint := hres.int64 r (mem_responses hround hreply)
  rw [r.stamp_eq hint (hcount ▸ hmax) (by omega), r.stamp_eq hint (hcount ▸ hmax) (by omega)]
  refine .inr ⟨rfl, ?_⟩
  simp only
  omega

lemma earlier_of_batches {a b : Round} (ha : a ∈ c.rounds) (hb : b ∈ c.rounds) (hx : StampedBy j x a)
  (hy : StampedBy k y b) (ht : Timed c) (hres : Reserving c.responses) (hjk : j < k) : Earlier x y := by
  obtain ⟨i, hi, rfl⟩ := mem_iff_getElem.mp ha
  obtain ⟨l, hl, rfl⟩ := mem_iff_getElem.mp hb
  obtain ⟨r, hreply, -, hfirst, -, hxr⟩ := hx.reserved ha hres
  obtain ⟨r', hreply', -, -, hlast', hyr⟩ := hy.reserved hb hres
  rcases Nat.lt_trichotomy i l with hlt | rfl | hgt
  · have hincreasing := pairwise_filterMap.mp hres.increasing
    exact pairwise_iff_getElem.mp hincreasing i l hi hl hlt r (by rw [hreply]; rfl) r' (by rw [hreply']; rfl)
      x y hxr hyr
  · exact earlier_of_batch ha hx hy hres hjk
  have hordered := pairwise_iff_getElem.mp ht.ordered l i hl hi hgt
  omega

end

/-- **Timestamps** are distinct and in the order of the calls. -/
theorem timestamps_ordered {acts : List Action} {c : Client} (h : Runs.exec step newClient acts = some c)
  (hres : Reserving c.responses) :
  (∀ k x, Completed c k x → ∃ round ∈ c.rounds, ∃ r, round.reply = .ok r ∧ r.count = round.size ∧
    round.first ≤ k ∧ k < round.first + round.size ∧ r.reserves x) ∧
  (∀ j k x y, Completed c j x → Completed c k y → j ≠ k → x ≠ y) ∧
  ∀ j k x y, Completed c j x → Completed c k y → j < k → Earlier x y := by
  obtain ⟨hi, ht⟩ := timed_exec h
  have hearlier : ∀ j k x y, Completed c j x → Completed c k y → j < k → Earlier x y := by
    intro j k x y hx hy hjk
    obtain ⟨a, ha, hxa⟩ := hx.stamped hi ht
    obtain ⟨b, hb, hyb⟩ := hy.stamped hi ht
    exact earlier_of_batches ha hb hxa hyb ht hres hjk
  refine ⟨fun k x hx => ?_, fun j k x y hx hy hne => ?_, hearlier⟩
  · obtain ⟨round, hround, hby⟩ := hx.stamped hi ht
    exact ⟨round, hround, hby.reserved hround hres⟩
  rcases Nat.lt_or_gt_of_ne hne with hlt | hgt
  · exact (hearlier j k x y hx hy hlt).ne
  · exact (hearlier k j y x hy hx hgt).ne.symm

def failingRun : List Action :=
  [.getTSAsync none, .connect none, .takeFirst, .getTSAsync none, .count, .takeNext, .sendDeadline, .takeDeadline,
    .respond (.ok ⟨10, 5, 2⟩), .finishOne, .wait 0, .getTSAsync (some 0), .finishOne, .wait 1, .endFinish, .endDeadline,
    .takeFirst, .count, .sendDeadline, .takeDeadline, .respond (.error "EOF"), .finishOne, .endFinish, .checkDone,
    .wait 2, .getTSAsync (some 1), .connect none, .takeFirst, .count, .endDeadline, .sendDeadline,
    .respond (.ok ⟨11, 1, 1⟩), .finishOne, .wait 3]

theorem timestamps_ordered_failingRun : ∃ c, Runs.exec step newClient failingRun = some c ∧
  Completed c 1 (10, 5) ∧ Completed c 3 (11, 1) ∧ Earlier (10, 5) (11, 1) := by
  have hrun : (Runs.exec step newClient failingRun).map (fun c => (c.calls, c.responses)) =
      some ([⟨0, .returned (.ok (10, 4))⟩, ⟨1, .returned (.ok (10, 5))⟩, ⟨0, .returned (.error "EOF")⟩,
        ⟨1, .returned (.ok (11, 1))⟩], [⟨10, 5, 2⟩, ⟨11, 1, 1⟩]) := by decide +kernel
  obtain ⟨c, hc, heq⟩ := Option.map_eq_some_iff.mp hrun
  obtain ⟨hcalls, hresponses⟩ := Prod.mk.inj heq
  have hres : Reserving c.responses := by
    rw [hresponses]
    refine ⟨fun r hr x hx => ?_, ?_⟩
    · obtain ⟨-, hlow, hhigh⟩ := hx
      rcases mem_pair.mp hr with rfl | rfl
      · simp only at hlow hhigh
        omega
      simp only at hlow hhigh
      omega
    refine pairwise_pair.mpr fun x y hx hy => .inl ?_
    rw [hx.1, hy.1]
    decide
  have hone : Completed c 1 (10, 5) := ⟨1, by rw [hcalls]; rfl⟩
  have hthree : Completed c 3 (11, 1) := ⟨1, by rw [hcalls]; rfl⟩
  exact ⟨c, hc, hone, hthree, (timestamps_ordered hc hres).2.2 1 3 _ _ hone hthree (by decide)⟩

end Client
end PD.TsoClient
