import Mathlib.Data.List.SplitBy

/-! # The maximal runs of a list -/

namespace Blocks
open List

section
variable {α : Type*}

structure IsRun (adj : α → α → Bool) (l run : List α) : Prop where
  part : run <:+: l
  chain : run.IsChain fun x y => adj x y
  two : 2 ≤ run.length

def Longest (adj : α → α → Bool) (l c : List α) : Prop :=
  ((∃ run, IsRun adj l run) → IsRun adj l c ∧ ∀ run, IsRun adj l run → run.length ≤ c.length) ∧
    ((¬ ∃ run, IsRun adj l run) → c = [])

def pick : List α → List (List α) → List α
  | best, [] => best
  | best, b :: bs =>
    if b.length < 2 then pick best bs else if best.length < b.length then pick b bs else best

def Grows (bs : List (List α)) : Prop :=
  ∀ pre c post, bs = pre ++ c :: post → 2 ≤ c.length → (∀ x ∈ pre, x.length < c.length) →
    (pre.filter (2 ≤ ·.length)).Pairwise (·.length < ·.length)

variable {adj : α → α → Bool} {l run b best : List α} {bs : List (List α)}

lemma isRun_of_mem (h : b ∈ l.splitBy adj) (htwo : 2 ≤ b.length) : IsRun adj l b := by
  obtain ⟨pre, post, hsplit⟩ := append_of_mem h
  refine ⟨⟨pre.flatten, post.flatten, ?_⟩, isChain_of_mem_splitBy h, htwo⟩
  rw [← flatten_splitBy adj l, hsplit]
  simp

lemma boundary {s v t : List α} {x y : α} (hbs : ((s ++ (v ++ [x])) :: bs).IsChain fun a b =>
  ∃ ha hb, adj (a.getLast ha) (b.head hb) = false) (h : bs.flatten = y :: t) : adj x y = false := by
  cases bs with
  | nil => simp at h
  | cons b =>
    obtain ⟨⟨ha, hb, hno⟩, -⟩ := isChain_cons_cons.mp hbs
    obtain ⟨z, b, rfl⟩ := exists_cons_of_ne_nil hb
    obtain ⟨rfl, -⟩ := List.cons.inj h
    simpa using hno

lemma le_block (hbs : bs.IsChain fun a b => ∃ ha hb, adj (a.getLast ha) (b.head hb) = false)
  (h : IsRun adj bs.flatten run) : ∃ b ∈ bs, run.length ≤ b.length := by
  induction bs with
  | nil =>
    have htwo := h.two
    rw [infix_nil.mp h.part] at htwo
    exact absurd htwo (by simp)
  | cons b bs ih =>
    have hrest : run <:+: bs.flatten → ∃ b' ∈ b :: bs, run.length ≤ b'.length := by
      intro hpart
      obtain ⟨b', hb', hle⟩ := ih hbs.tail ⟨hpart, h.chain, h.two⟩
      exact ⟨b', mem_cons_of_mem _ hb', hle⟩
    obtain ⟨s, t, heq⟩ := h.part
    rw [flatten_cons] at heq
    rcases append_eq_append_iff.mp heq with ⟨u, rfl, -⟩ | ⟨u, hu, hflat⟩
    · exact ⟨_, mem_cons_self, by simp; omega⟩
    rcases append_eq_append_iff.mp hu with ⟨v, rfl, rfl⟩ | ⟨v, rfl, rfl⟩
    · -- the run begins in the first block: it cannot go on after its end
      cases u with
      | nil => exact ⟨_, mem_cons_self, by simp⟩
      | cons y =>
        cases v using List.reverseRecOn with
        | nil => exact hrest ⟨[], t, hflat.symm⟩
        | append_singleton v x =>
          have hxy := (isChain_append.mp h.chain).2.2 x (by simp) y (by simp)
          exact absurd hxy (by simp [boundary hbs hflat])
    · exact hrest ⟨v, t, hflat.symm⟩

lemma pick_spec (best : List α) (bs : List (List α)) : ∃ pre post, bs = pre ++ post ∧
  (best :: pre.filter (2 ≤ ·.length)).Pairwise (·.length < ·.length) ∧
  pick best bs ∈ best :: pre.filter (2 ≤ ·.length) ∧
  (∀ x ∈ best :: pre.filter (2 ≤ ·.length), x.length ≤ (pick best bs).length) ∧
  (post = [] ∨ ∃ b post', post = b :: post' ∧ 2 ≤ b.length ∧ b.length ≤ (pick best bs).length) := by
  induction bs generalizing best with
  | nil => exact ⟨[], [], by simp [pick]⟩
  | cons b bs ih =>
    rw [pick]
    split
    next hb =>
      obtain ⟨pre, post, rfl, hspec⟩ := ih best
      refine ⟨b :: pre, post, rfl, ?_⟩
      rwa [filter_cons_of_neg (by simpa using hb)]
    next hb =>
      split
      next hlt =>
        obtain ⟨pre, post, rfl, hgrow, hmem, hle, hpost⟩ := ih b
        refine ⟨b :: pre, post, rfl, ?_⟩
        have htwo : 2 ≤ b.length := not_lt.mp hb
        rw [filter_cons_of_pos (by simpa using htwo)]
        have hfirst := hle b mem_cons_self
        refine ⟨pairwise_cons.mpr ⟨?_, hgrow⟩, mem_cons_of_mem _ hmem, ?_, hpost⟩
        · intro x hx
          rcases mem_cons.mp hx with rfl | hx
          · exact hlt
          · exact hlt.trans (rel_of_pairwise_cons hgrow hx)
        intro x hx
        rcases mem_cons.mp hx with rfl | hx
        · omega
        · exact hle x hx
      next _ => exact ⟨[], b :: bs, rfl, by simp, by simp, by simp, .inr ⟨b, bs, rfl, by omega, by omega⟩⟩

lemma longest_iff_le : Longest adj l (pick [] (l.splitBy adj)) ↔
  ∀ b ∈ l.splitBy adj, 2 ≤ b.length → b.length ≤ (pick [] (l.splitBy adj)).length := by
  obtain ⟨pre, post, hsplit, -, hmem, -, -⟩ := pick_spec [] (l.splitBy adj)
  have hpick : pick [] (l.splitBy adj) ≠ [] → IsRun adj l (pick [] (l.splitBy adj)) := by
    intro hne
    obtain ⟨hin, htwo⟩ := mem_filter.mp ((mem_cons.mp hmem).resolve_left hne)
    refine isRun_of_mem ?_ (of_decide_eq_true htwo)
    rw [hsplit] at hin ⊢
    exact mem_append_left _ hin
  constructor
  · intro h b hb htwo
    have hrun := isRun_of_mem hb htwo
    exact (h.1 ⟨b, hrun⟩).2 b hrun
  intro h
  have hle : ∀ run, IsRun adj l run → run.length ≤ (pick [] (l.splitBy adj)).length := by
    intro run hrun
    rw [← flatten_splitBy adj l] at hrun
    obtain ⟨b, hb, hle⟩ := le_block (isChain_getLast_head_splitBy adj l) hrun
    exact hle.trans (h b hb (hrun.two.trans hle))
  refine ⟨fun ⟨run, hrun⟩ => ⟨hpick fun hnil => ?_, hle⟩, fun hno => ?_⟩
  · have hlen := hrun.two.trans (hle run hrun)
    rw [hnil] at hlen
    exact absurd hlen (by simp)
  by_contra hne
  exact hno ⟨_, hpick hne⟩

lemma longest_pick_iff : Longest adj l (pick [] (l.splitBy adj)) ↔ Grows (l.splitBy adj) := by
  rw [longest_iff_le]
  obtain ⟨pre, post, hsplit, hgrow, hmem, hle, hpost⟩ := pick_spec [] (l.splitBy adj)
  generalize pick [] (l.splitBy adj) = best at *
  rw [hsplit]
  have hgrow := (pairwise_cons.mp hgrow).2
  have hmem : 2 ≤ best.length → best ∈ pre.filter (2 ≤ ·.length) := fun htwo =>
    (mem_cons.mp hmem).resolve_left fun hnil => absurd htwo (by simp [hnil])
  have hle : ∀ x ∈ pre, 2 ≤ x.length → x.length ≤ best.length := fun x hx htwo =>
    hle x (mem_cons_of_mem _ (mem_filter.mpr ⟨hx, by simpa using htwo⟩))
  constructor
  · intro hall pre' c post' heq htwo hbefore
    have hc := hall c (by rw [heq]; simp) htwo
    rcases append_eq_append_iff.mp heq with ⟨u, rfl, -⟩ | ⟨u, rfl, -⟩
    · -- the best block would be before `c`
      have hbest := hbefore best (mem_append_left _ (mem_filter.mp (hmem (htwo.trans hc))).1)
      omega
    rw [filter_append] at hgrow
    exact (pairwise_append.mp hgrow).1
  intro hgrows b hb htwo
  by_contra hlt
  rcases hpost with rfl | ⟨stop, post', rfl, hstop, hstopLe⟩
  · exact hlt (hle b (by simpa using hb) htwo)
  have hmore : b ∈ post' := by
    rcases mem_append.mp hb with hb | hb
    · exact absurd (hle b hb htwo) hlt
    · exact (mem_cons.mp hb).resolve_left fun heq => hlt (heq ▸ hstopLe)
  -- `c` is the first longer block after `stop`, and longer than all before it
  obtain ⟨c, hfind⟩ := Option.isSome_iff_exists.mp
    ((List.find?_isSome (p := fun c => decide (best.length < c.length))).mpr ⟨b, hmore, by simpa using hlt⟩)
  obtain ⟨hc, mid, rest, rfl, hmid⟩ := List.find?_eq_some_iff_append.mp hfind
  have hc : best.length < c.length := of_decide_eq_true hc
  have hpairs := hgrows (pre ++ stop :: mid) c rest (by simp) (by omega) ?_
  · rw [filter_append, filter_cons_of_pos (by simpa using hstop)] at hpairs
    have hbest := (pairwise_append.mp hpairs).2.2 best (hmem (hstop.trans hstopLe)) stop mem_cons_self
    omega
  intro x hx
  rcases mem_append.mp hx with hx | hx
  · rcases Nat.lt_or_ge x.length 2 with hshort | hlong
    · omega
    · exact (hle x hx hlong).trans_lt hc
  rcases mem_cons.mp hx with rfl | hx
  · omega
  have hx := hmid x hx
  simp at hx
  omega

end
end Blocks
