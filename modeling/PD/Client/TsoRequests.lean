import PD.Client.TsoClient

/-! # The order of timestamp requests, and the objects they use -/

namespace PD.TsoClient
open List
namespace Client

structure Queued (c : Client) : Prop where
  numbers : c.pending.map Request.call = List.range' c.base c.pending.length
  enough : c.pending.length ≤ c.calls.length
  addrs : ∀ r ∈ c.pending, ∃ f, c.calls[r.call]? = some ⟨r.addr, f⟩
  answered : ∀ p ∈ c.answers, p.1 < c.base
  sorted : (c.answers.map Prod.fst).Pairwise (· < ·)

section
variable {c c' : Client}
variable {addr : Nat} {r : Request} {dropped : List Request}

lemma base_eq (hcalls : c'.calls.length = c.calls.length) (hpending : c'.pending = c.pending) : c'.base = c.base := by
  unfold base
  rw [hcalls, hpending]

lemma Queued.of_eq (h : Queued c) (hpending : c'.pending = c.pending) (hlen : c'.calls.length = c.calls.length)
  (haddrs : ∀ (k addr : Nat) (f : Future), c.calls[k]? = some ⟨addr, f⟩ → ∃ f', c'.calls[k]? = some ⟨addr, f'⟩)
  (hanswers : c'.answers = c.answers) : Queued c' := by
  have hbase := base_eq hlen hpending
  refine ⟨?_, ?_, fun r hr => ?_, ?_, ?_⟩
  · rw [hpending, hbase]
    exact h.numbers
  · rw [hpending, hlen]
    exact h.enough
  · rw [hpending] at hr
    obtain ⟨f, hf⟩ := h.addrs r hr
    exact haddrs _ _ _ hf
  · rw [hanswers, hbase]
    exact h.answered
  rw [hanswers]
  exact h.sorted

lemma Queued.of_same (h : Queued c) (hs : Same c c') : Queued c' :=
  h.of_eq hs.pending (by rw [hs.calls]) (fun k addr f hf => ⟨f, by rw [hs.calls]; exact hf⟩) hs.answers

lemma Queued.of_set (h : Queued c) {call : Nat} {f f' : Future} (was : c.calls[call]? = some ⟨addr, f⟩)
  (hcalls : c'.calls = c.calls.set call ⟨addr, f'⟩) (hpending : c'.pending = c.pending)
  (hanswers : c'.answers = c.answers) : Queued c' := by
  refine h.of_eq hpending (by rw [hcalls, length_set]) (fun k addr' g hg => ?_) hanswers
  rw [hcalls, List.getElem?_set]
  split
  next hk =>
    subst hk
    rw [was] at hg
    cases hg
    exact ⟨f', if_pos (List.getElem?_eq_some_iff.mp was).1⟩
  · exact ⟨g, hg⟩

lemma base_called {call : Call} (hcalls : c'.calls = c.calls ++ [call])
  (hpending : c'.pending = c.pending ++ [r]) : c'.base = c.base := by
  unfold base
  rw [hcalls, hpending, length_append, length_append, length_singleton, length_singleton]
  omega

lemma Queued.of_called (h : Queued c) (hcalls : c'.calls = c.calls ++ [⟨addr, .waiting⟩])
  (hpending : c'.pending = c.pending ++ [⟨c.calls.length, addr⟩]) (hanswers : c'.answers = c.answers) : Queued c' := by
  have henough := h.enough
  have hlen : c'.calls.length = c.calls.length + 1 := by rw [hcalls, length_append]; rfl
  have hplen : c'.pending.length = c.pending.length + 1 := by rw [hpending, length_append]; rfl
  have hbase := base_called hcalls hpending
  refine ⟨?_, by omega, fun r hr => ?_, ?_, ?_⟩
  · have hnext : c.base + c.pending.length = c.calls.length := by
      unfold base
      omega
    rw [hbase, hplen, range'_1_concat, hpending, map_append, h.numbers, hnext]
    rfl
  · rw [hcalls]
    rw [hpending] at hr
    rcases mem_append.mp hr with hr | hr
    · obtain ⟨f, hf⟩ := h.addrs r hr
      exact ⟨f, by rw [List.getElem?_append_left (List.getElem?_eq_some_iff.mp hf).1]; exact hf⟩
    rw [mem_singleton.mp hr]
    exact ⟨.waiting, List.getElem?_concat_length⟩
  · rw [hanswers, hbase]
    exact h.answered
  rw [hanswers]
  exact h.sorted

lemma Queued.head (h : Queued c) {rest : List Request} (hpending : c.pending = r :: rest) :
  r.call = c.base ∧ rest.map Request.call = List.range' (c.base + 1) rest.length := by
  have hnumbers := h.numbers
  rw [hpending, map_cons, length_cons, range'_succ] at hnumbers
  exact List.cons.inj hnumbers

lemma base_answered (h : Queued c) (hpending : c.pending = r :: c'.pending)
  (hcalls : c'.calls = c.calls) : c'.base = c.base + 1 := by
  have henough := h.enough
  rw [hpending, length_cons] at henough
  unfold base
  rw [hpending, hcalls, length_cons]
  omega

lemma Queued.of_answered (h : Queued c) {stamp : Option Stamp} {err : Option String} {o : Object}
  (ha : Answered c c' r stamp err o) : Queued c' := by
  obtain ⟨hcall, hrest⟩ := h.head ha.pending
  have hbase := base_answered h ha.pending ha.calls
  refine ⟨by rw [hbase]; exact hrest, ?_, fun q hq => ?_, fun p hp => ?_, ?_⟩
  · have henough := h.enough
    rw [ha.pending, length_cons] at henough
    rw [ha.calls]
    omega
  · rw [ha.calls]
    exact h.addrs q (by rw [ha.pending]; exact mem_cons_of_mem _ hq)
  · rw [hbase]
    rw [ha.answers] at hp
    rcases mem_append.mp hp with hp | hp
    · exact Nat.lt_succ_of_lt (h.answered p hp)
    rw [mem_singleton.mp hp, hcall]
    exact Nat.lt_succ_self _
  rw [ha.answers, map_append, pairwise_append]
  refine ⟨h.sorted, pairwise_singleton _ _, fun k hk l hl => ?_⟩
  obtain ⟨p, hp, rfl⟩ := List.mem_map.mp hk
  rw [mem_singleton.mp hl, hcall]
  exact h.answered p hp

lemma base_dropped (h : Queued c) (hpending : c.pending = dropped ++ c'.pending)
  (hcalls : c'.calls = c.calls) : c'.base = c.base + dropped.length := by
  have henough := h.enough
  rw [hpending, length_append] at henough
  unfold base
  rw [hpending, hcalls, length_append]
  omega

lemma Queued.of_dropped (h : Queued c) (hpending : c.pending = dropped ++ c'.pending)
  (hcalls : c'.calls = c.calls) (hanswers : c'.answers = c.answers) : Queued c' := by
  have hbase := base_dropped h hpending hcalls
  have hnumbers := h.numbers
  rw [hpending, map_append, length_append, ← range'_append_1] at hnumbers
  refine ⟨?_, ?_, fun r hr => ?_, fun p hp => ?_, ?_⟩
  · rw [hbase]
    exact (append_inj hnumbers (by rw [length_map, length_range'])).2
  · have henough := h.enough
    rw [hpending, length_append] at henough
    rw [hcalls]
    omega
  · rw [hcalls]
    exact h.addrs r (by rw [hpending]; exact mem_append_right _ hr)
  · rw [hanswers] at hp
    have := h.answered p hp
    omega
  rw [hanswers]
  exact h.sorted

lemma queued_step (h : Queued c) {a : Action} (he : Effect c a c') : Queued c' := by
  cases he with
  | quiet same | closed same | responded same | ended same => exact h.of_same same
  | called _ _ calls pending answers => exact h.of_called calls pending answers
  | returned call addr o err rest was object value heap pool calls pending answers
  | canceled _ _ _ was _ _ calls pending answers =>
    exact h.of_set was calls pending answers
  | finished r o physical firstLogical err loop answered | revoked r o err answered => exact h.of_answered answered
  | dropped _ _ _ _ _ calls pending answers =>
    exact h.of_dropped pending calls answers

end
end Client

def Call.released (x : Call) : Prop := ∃ v, x.future = .returned v

def Object.Holds (o : Object) (v : Answer) : Prop :=
  ∃ err, o.done = [err] ∧ v = Client.answerOf err (o.physical, o.logical)

namespace Client

/-- What call `k` finds in its object: its answer once it is given, nothing before. -/
structure Owns (c : Client) (k : Nat) (x : Call) : Prop where
  bound : x.addr < c.heap.length
  holds : ∀ (o : Object) (v : Answer), ¬ x.released → c.heap[x.addr]? = some o → (k, v) ∈ c.answers → o.Holds v
  empty : ∀ o : Object, ¬ x.released → c.heap[x.addr]? = some o → (∀ v, (k, v) ∉ c.answers) → o.done = []
  received : ∀ v : Answer, x.future = .returned v → (k, v) ∈ c.answers

structure Owned (c : Client) : Prop where
  own : ∀ (k : Nat) (x : Call), c.calls[k]? = some x → Owns c k x
  shared : ∀ (j k : Nat) (x y : Call), j < k → c.calls[j]? = some x → c.calls[k]? = some y →
    x.addr = y.addr → x.released
  pool : ∀ a ∈ c.pool, (∃ o, c.heap[a]? = some o ∧ o.done = []) ∧
    ∀ (k : Nat) (x : Call), c.calls[k]? = some x → x.addr = a → x.released
  nodup : c.pool.Nodup

section
variable {c c' : Client}
variable {k addr call : Nat} {x : Call} {err : Option String} {o : Object} {rest : List (Option String)} {a : Action}

lemma Owns.of_same (h : Owns c k x) (hlength : c.heap.length ≤ c'.heap.length)
  (hheap : ¬ x.released → c'.heap[x.addr]? = c.heap[x.addr]?)
  (hanswers : ∀ v, (k, v) ∈ c'.answers ↔ (k, v) ∈ c.answers) : Owns c' k x where
  bound := Nat.lt_of_lt_of_le h.bound hlength
  holds := fun o v hr ho hv => h.holds o v hr (hheap hr ▸ ho) ((hanswers v).mp hv)
  empty := fun o hr ho hv => h.empty o hr (hheap hr ▸ ho) fun v hin => hv v ((hanswers v).mpr hin)
  received := fun v hv => (hanswers v).mpr (h.received v hv)

lemma Owned.of_eq (h : Owned c) (hheap : c'.heap = c.heap) (hpool : c'.pool = c.pool) (hcalls : c'.calls = c.calls)
  (hanswers : c'.answers = c.answers) : Owned c' := by
  obtain ⟨own, shared, pool, nodup⟩ := h
  rw [← hcalls] at own shared
  rw [← hheap, ← hpool, ← hcalls] at pool
  rw [← hpool] at nodup
  refine ⟨fun k x hx => (own k x hx).of_same (Nat.le_of_eq ?_) (fun _ => ?_) fun v => ?_, shared, pool, nodup⟩
  · rw [hheap]
  · rw [hheap]
  · rw [hanswers]

lemma Owned.unique (h : Owned c) {j : Nat} {y : Call} (hx : c.calls[j]? = some x) (hy : c.calls[k]? = some y)
  (hxr : ¬ x.released) (hyr : ¬ y.released) (haddr : x.addr = y.addr) : j = k := by
  rcases Nat.lt_trichotomy j k with hlt | heq | hgt
  · exact absurd (h.shared j k x y hlt hx hy haddr) hxr
  · exact heq
  · exact absurd (h.shared k j y x hgt hy hx haddr.symm) hyr

lemma concat_cases {α : Type} {l : List α} {x y : α} (h : (l ++ [x])[k]? = some y) :
  l[k]? = some y ∨ k = l.length ∧ y = x := by
  rcases Nat.lt_or_ge k l.length with hlt | hge
  · rw [List.getElem?_append_left hlt] at h
    exact .inl h
  rw [List.getElem?_append_right hge] at h
  rcases Nat.eq_zero_or_pos (k - l.length) with hz | hpos
  · rw [hz] at h
    exact .inr ⟨by omega, (Option.some.inj h).symm⟩
  rw [List.getElem?_eq_none (by rw [length_singleton]; omega)] at h
  cases h

lemma set_cases {α : Type} {l : List α} {x y z : α} {i : Nat} (hi : l[i]? = some z) (h : (l.set i x)[k]? = some y) :
  k = i ∧ y = x ∨ k ≠ i ∧ l[k]? = some y := by
  rw [List.getElem?_set] at h
  split at h
  next hk =>
    rw [if_pos (hk ▸ (List.getElem?_eq_some_iff.mp hi).1)] at h
    exact .inl ⟨hk.symm, (Option.some.inj h).symm⟩
  next hk => exact .inr ⟨fun e => hk e.symm, h⟩

lemma Queued.not_answered (h : Queued c) (hk : c.base ≤ k) (v : Answer) : (k, v) ∉ c.answers :=
  fun hin => absurd (h.answered _ hin) (Nat.not_lt.mpr hk)

structure Fresh (c c' : Client) (addr : Nat) : Prop where
  free : ∀ (k : Nat) (x : Call), c.calls[k]? = some x → x.addr = addr → x.released
  empty : ∃ o, c'.heap[addr]? = some o ∧ o.done = []
  other : ∀ a, a < c.heap.length → a ≠ addr → c'.heap[a]? = c.heap[a]?
  length : c.heap.length ≤ c'.heap.length
  pool : ∀ a ∈ c'.pool, a ∈ c.pool ∧ a ≠ addr
  nodup : c'.pool.Nodup

lemma Owned.fresh_new (h : Owned c) (hheap : c'.heap = c.heap ++ [⟨[], 0, 0⟩]) (hpool : c'.pool = c.pool) :
  Fresh c c' c.heap.length where
  free := by
    intro k x hx heq
    have hlt := (h.own k x hx).bound
    omega
  empty := ⟨⟨[], 0, 0⟩, by rw [hheap]; exact List.getElem?_concat_length, rfl⟩
  other := fun a ha _ => by rw [hheap, List.getElem?_append_left ha]
  length := by
    rw [hheap, length_append]
    exact Nat.le_add_right _ _
  pool := by
    intro a ha
    rw [hpool] at ha
    obtain ⟨o, ho, -⟩ := (h.pool a ha).1
    exact ⟨ha, Nat.ne_of_lt (List.getElem?_eq_some_iff.mp ho).1⟩
  nodup := hpool ▸ h.nodup

lemma Owned.fresh_reused (h : Owned c) (hin : addr ∈ c.pool) (hpool : c'.pool = c.pool.erase addr)
  (hheap : c'.heap = c.heap.modify addr fun o => { o with physical := 0, logical := 0 }) : Fresh c c' addr where
  free := (h.pool addr hin).2
  empty := by
    obtain ⟨o, ho, hdone⟩ := (h.pool addr hin).1
    exact ⟨{ o with physical := 0, logical := 0 }, by rw [hheap, List.getElem?_modify_eq, ho]; rfl, hdone⟩
  other := fun a _ hne => by rw [hheap, List.getElem?_modify_ne _ _ (fun e => hne e.symm)]
  length := by rw [hheap, length_modify]
  pool := by
    intro a ha
    rw [hpool] at ha
    exact ⟨mem_of_mem_erase ha, fun e => h.nodup.not_mem_erase (e ▸ ha)⟩
  nodup := hpool ▸ h.nodup.erase addr

lemma Owned.of_called (h : Owned c) (hq : Queued c) (hf : Fresh c c' addr)
  (hcalls : c'.calls = c.calls ++ [⟨addr, .waiting⟩]) (hanswers : c'.answers = c.answers) : Owned c' := by
  have hnew : ∀ v, (c.calls.length, v) ∉ c'.answers := hanswers.symm ▸ hq.not_answered (Nat.sub_le _ _)
  refine ⟨fun k x hx => ?_, fun j k x y hjk hx hy hxy => ?_, fun a ha => ⟨?_, fun k x hx hxa => ?_⟩, hf.nodup⟩
  · rw [hcalls] at hx
    rcases concat_cases hx with hx | ⟨rfl, rfl⟩
    · exact (h.own k x hx).of_same hf.length
        (fun hr => hf.other _ (h.own k x hx).bound fun e => hr (hf.free k x hx e)) fun v => by rw [hanswers]
    obtain ⟨o, ho, hdone⟩ := hf.empty
    refine ⟨(List.getElem?_eq_some_iff.mp ho).1, fun _ v _ _ hv => absurd hv (hnew v), fun o' _ ho' _ => ?_, nofun⟩
    rw [show o' = o from Option.some.inj (ho'.symm.trans ho)]
    exact hdone
  · rw [hcalls] at hx hy
    rcases concat_cases hy with hy | ⟨rfl, rfl⟩
    · rcases concat_cases hx with hx | ⟨rfl, -⟩
      · exact h.shared j k x y hjk hx hy hxy
      have hlt := (List.getElem?_eq_some_iff.mp hy).1
      omega
    rcases concat_cases hx with hx | ⟨rfl, -⟩
    · exact hf.free j x hx hxy
    · exact absurd hjk (Nat.lt_irrefl _)
  · obtain ⟨hin, hne⟩ := hf.pool a ha
    obtain ⟨o, ho, hdone⟩ := (h.pool a hin).1
    exact ⟨o, by rw [hf.other a (List.getElem?_eq_some_iff.mp ho).1 hne]; exact ho, hdone⟩
  · obtain ⟨hin, hne⟩ := hf.pool a ha
    rw [hcalls] at hx
    rcases concat_cases hx with hx | ⟨-, rfl⟩
    · exact (h.pool a hin).2 k x hx hxa
    · exact absurd hxa.symm hne

lemma Owned.not_released (h : Owned c) (hq : Queued c) (hk : c.base ≤ k) (hx : c.calls[k]? = some x) : ¬ x.released :=
  fun ⟨v, hv⟩ => hq.not_answered hk v ((h.own k x hx).received v hv)

lemma Owned.of_answered (h : Owned c) (hq : Queued c) {r : Request} {stamp : Option Stamp}
  (ha : Answered c c' r stamp err o) : Owned c' := by
  obtain ⟨hcall, -⟩ := hq.head ha.pending
  obtain ⟨f, hf⟩ := hq.addrs r (by rw [ha.pending]; exact mem_cons_self)
  have hunreleased : ¬ Call.released ⟨r.addr, f⟩ := h.not_released hq (Nat.le_of_eq hcall.symm) hf
  have hlt := (List.getElem?_eq_some_iff.mp ha.object).1
  refine ⟨fun k x hx => ?_, by rw [ha.calls]; exact h.shared, fun a hin => ⟨?_, fun k x hx hxa => ?_⟩,
    by rw [ha.pool]; exact h.nodup⟩
  · rw [ha.calls] at hx
    by_cases hk : k = r.call
    · subst hk
      cases hf.symm.trans hx
      refine ⟨by rw [ha.heap, length_set]; exact hlt, fun o' v hr ho hv => ?_, fun o' hr ho hv => ?_,
        fun v hv => absurd ⟨v, hv⟩ hunreleased⟩
      · rw [ha.heap, List.getElem?_set_self hlt] at ho
        rw [ha.answers] at hv
        rcases mem_append.mp hv with hv | hv
        · exact absurd hv (hq.not_answered (Nat.le_of_eq hcall.symm) v)
        cases mem_singleton.mp hv
        cases ho
        exact ⟨err, rfl, rfl⟩
      · rw [ha.answers] at hv
        exact absurd (mem_append_right _ (mem_singleton_self _)) (hv _)
    refine (h.own k x hx).of_same (by rw [ha.heap, length_set]) (fun hr => ?_) fun v => ?_
    · rw [ha.heap, List.getElem?_set_ne fun e => hk (h.unique hx hf hr hunreleased e.symm)]
    · rw [ha.answers, mem_append, mem_singleton, Prod.mk.injEq]
      exact or_iff_left fun e => hk e.1
  · rw [ha.pool] at hin
    obtain ⟨o', ho', hdone⟩ := (h.pool a hin).1
    have hne : r.addr ≠ a := fun e => hunreleased ((h.pool a hin).2 _ _ hf e)
    exact ⟨o', by rw [ha.heap, List.getElem?_set_ne hne]; exact ho', hdone⟩
  · rw [ha.pool] at hin
    rw [ha.calls] at hx
    exact (h.pool a hin).2 k x hx hxa

section
variable (h : Owned c) (was : c.calls[call]? = some ⟨addr, .waiting⟩)
include h was

lemma Owned.on_done (hobject : c.heap[addr]? = some o)
  (hvalue : o.done = err :: rest) : rest = [] ∧ (call, answerOf err (o.physical, o.logical)) ∈ c.answers := by
  have hunreleased : ¬ Call.released ⟨addr, .waiting⟩ := fun ⟨v, hv⟩ => by cases hv
  by_cases hanswered : ∃ v, (call, v) ∈ c.answers
  · obtain ⟨v, hv⟩ := hanswered
    obtain ⟨err', hdone, rfl⟩ := (h.own call _ was).holds o v hunreleased hobject hv
    rw [hvalue] at hdone
    obtain ⟨rfl, rfl⟩ := List.cons.inj hdone
    exact ⟨rfl, hv⟩
  have hdone := (h.own call _ was).empty o hunreleased hobject fun v hv => hanswered ⟨v, hv⟩
  rw [hvalue] at hdone
  cases hdone

lemma Owned.of_returned (hobject : c.heap[addr]? = some o) (hvalue : o.done = err :: rest)
  (hheap : c'.heap = c.heap.set addr ⟨rest, o.physical, o.logical⟩) (hpool : c'.pool = addr :: c.pool)
  (hcalls : c'.calls = c.calls.set call ⟨addr, .returned (answerOf err (o.physical, o.logical))⟩)
  (hanswers : c'.answers = c.answers) : Owned c' := by
  obtain ⟨rfl, hanswer⟩ := h.on_done was hobject hvalue
  have hunreleased : ¬ Call.released ⟨addr, .waiting⟩ := fun ⟨v, hv⟩ => by cases hv
  have hout : addr ∉ c.pool := fun hin => hunreleased ((h.pool addr hin).2 call _ was rfl)
  have hlt := (List.getElem?_eq_some_iff.mp hobject).1
  have hreleased : Call.released ⟨addr, .returned (answerOf err (o.physical, o.logical))⟩ := ⟨_, rfl⟩
  refine ⟨fun k x hx => ?_, fun j k x y hjk hx hy hxy => ?_, fun a hin => ?_, ?_⟩
  · rw [hcalls] at hx
    rcases set_cases was hx with ⟨rfl, rfl⟩ | ⟨hk, hx⟩
    · refine ⟨by rw [hheap, length_set]; exact hlt, fun _ _ hr => absurd hreleased hr,
        fun _ hr => absurd hreleased hr, fun v hv => ?_⟩
      cases hv
      exact hanswers.symm ▸ hanswer
    refine (h.own k x hx).of_same (by rw [hheap, length_set]) (fun hr => ?_) fun v => by rw [hanswers]
    rw [hheap, List.getElem?_set_ne fun e => hk (h.unique hx was hr hunreleased e.symm)]
  · rw [hcalls] at hx hy
    rcases set_cases was hx with ⟨-, rfl⟩ | ⟨-, hxold⟩
    · exact hreleased
    rcases set_cases was hy with ⟨rfl, rfl⟩ | ⟨-, hyold⟩
    · exact h.shared j k x _ hjk hxold was hxy
    · exact h.shared j k x y hjk hxold hyold hxy
  · rw [hpool] at hin
    rcases mem_cons.mp hin with rfl | hin
    · refine ⟨⟨⟨[], o.physical, o.logical⟩, by rw [hheap, List.getElem?_set_self hlt], rfl⟩, fun k x hx hxa => ?_⟩
      rw [hcalls] at hx
      rcases set_cases was hx with ⟨-, rfl⟩ | ⟨hk, hx⟩
      · exact hreleased
      by_contra hr
      exact hk (h.unique hx was hr hunreleased hxa)
    have hne : addr ≠ a := fun e => hout (e ▸ hin)
    obtain ⟨o', ho', hdone⟩ := (h.pool a hin).1
    refine ⟨⟨o', by rw [hheap, List.getElem?_set_ne hne]; exact ho', hdone⟩, fun k x hx hxa => ?_⟩
    rw [hcalls] at hx
    rcases set_cases was hx with ⟨-, rfl⟩ | ⟨-, hx⟩
    · exact absurd hxa hne
    · exact (h.pool a hin).2 k x hx hxa
  · rw [hpool]
    exact nodup_cons.mpr ⟨hout, h.nodup⟩

lemma Owned.of_canceled {e : String} (hheap : c'.heap = c.heap) (hpool : c'.pool = c.pool)
  (hcalls : c'.calls = c.calls.set call ⟨addr, .canceled e⟩) (hanswers : c'.answers = c.answers) : Owned c' := by
  have hunreleased : ¬ Call.released ⟨addr, .waiting⟩ := fun ⟨v, hv⟩ => by cases hv
  -- every call has its address, and is released if and only if it was
  have hback : ∀ (k : Nat) (x : Call), c'.calls[k]? = some x → ∃ y, c.calls[k]? = some y ∧ y.addr = x.addr ∧
      (y.released → x.released) := by
    intro k x hx
    rw [hcalls] at hx
    rcases set_cases was hx with ⟨rfl, rfl⟩ | ⟨-, hx⟩
    · exact ⟨_, was, rfl, fun hr => absurd hr hunreleased⟩
    · exact ⟨x, hx, rfl, id⟩
  refine ⟨fun k x hx => ?_, fun j k x y hjk hx hy hxy => ?_, fun a hin => ?_, by rw [hpool]; exact h.nodup⟩
  · rw [hcalls] at hx
    have hkeep : ∀ y, c.calls[k]? = some y → Owns c' k y := fun y hy => (h.own k y hy).of_same
      (by rw [hheap]) (fun _ => by rw [hheap]) fun v => by rw [hanswers]
    rcases set_cases was hx with ⟨rfl, rfl⟩ | ⟨-, hx⟩
    · obtain ⟨bound, holds, empty, -⟩ := hkeep _ was
      exact ⟨bound, fun o v _ => holds o v hunreleased, fun o _ => empty o hunreleased, nofun⟩
    · exact hkeep x hx
  · obtain ⟨x', hx', haddrx, hret⟩ := hback j x hx
    obtain ⟨y', hy', haddry, -⟩ := hback k y hy
    exact hret (h.shared j k x' y' hjk hx' hy' (haddrx.trans (hxy.trans haddry.symm)))
  · rw [hpool] at hin
    rw [hheap]
    refine ⟨(h.pool a hin).1, fun k x hx hxa => ?_⟩
    obtain ⟨y, hy, haddr, hret⟩ := hback k x hx
    exact hret ((h.pool a hin).2 k y hy (haddr.trans hxa))

end

lemma owned_step (h : Owned c) (hq : Queued c) (he : Effect c a c') : Owned c' := by
  cases he with
  | quiet same | closed same | responded same | ended same => exact h.of_eq same.heap same.pool same.calls same.answers
  | called _ object calls _ answers =>
    rcases object with ⟨rfl, heap, pool⟩ | ⟨hin, pool, heap⟩
    · exact h.of_called hq (h.fresh_new heap pool) calls answers
    · exact h.of_called hq (h.fresh_reused hin pool heap) calls answers
  | returned _ _ o _ _ was object value heap pool calls _ answers =>
    exact h.of_returned was object value heap pool calls answers
  | canceled _ _ _ was heap pool calls _ answers =>
    exact h.of_canceled was heap pool calls answers
  | finished r o physical firstLogical err loop answered | revoked r o err answered => exact h.of_answered hq answered
  | dropped _ _ _ heap pool calls _ answers =>
    exact h.of_eq heap pool calls answers

structure Invariant (c : Client) : Prop where
  placed : Placed c
  queued : Queued c
  owned : Owned c

lemma invariant_new : Invariant newClient where
  placed := ⟨⟨rfl, rfl⟩, Nat.zero_le _, nofun⟩
  queued := ⟨rfl, Nat.le_refl _, nofun, nofun, List.Pairwise.nil⟩
  owned := by
    have hcalls : ∀ (k : Nat) (x : Call), newClient.calls[k]? ≠ some x := nofun
    exact ⟨fun k x hx => absurd hx (hcalls k x), fun j _ x _ _ hx _ _ => absurd hx (hcalls j x), nofun,
      List.Pairwise.nil⟩

lemma invariant_step (h : Invariant c) (hs : step c a = some c') : Invariant c' := by
  obtain ⟨hplaced, heffect⟩ := step_spec h.placed hs
  exact ⟨hplaced, queued_step h.queued heffect, owned_step h.owned h.queued heffect⟩

lemma invariant_exec {acts : List Action} (h : Runs.exec step newClient acts = some c) : Invariant c :=
  Runs.exec_inv Invariant (fun _ _ _ hI _ hs => invariant_step hI hs) invariant_new
    (Runs.along_of_forall (P := fun _ => True) _ fun _ _ => trivial) h

end
end Client
end PD.TsoClient
