import Mathlib.Data.List.Basic

/-!
# The top regions of the API

`RegionHeap` gives its five methods to `container/heap` and calls its `Push` and `Pop`.  `HeapInterface.Sequence` says
what the methods have to do to a sequence of elements, `ContainerHeap` what the package then does: it is assumed for
the interface of `RegionHeap`, whose methods are shown to do it.
-/

namespace PD
open List
variable {α : Type} {less : α → α → Bool}

structure StrictWeakOrder (less : α → α → Bool) : Prop where
  asymm : ∀ {a b}, less a b = true → less b a = false
  comp : ∀ {a c}, less a c = true → ∀ b, less a b = true ∨ less b c = true

lemma StrictWeakOrder.not_less (h : StrictWeakOrder less) {a b c : α} (hab : less a b = false)
  (hbc : less b c = false) : less a c = false := by
  by_contra hac
  rcases h.comp (Bool.not_eq_false _ ▸ hac) b with hlt | hlt
  · simp [hab] at hlt
  · simp [hbc] at hlt

/-- Go's `heap.Interface`; `none` is a panic. -/
structure HeapInterface (σ ε : Type) where
  len : σ → Nat
  less : σ → Nat → Nat → Option Bool
  swap : σ → Nat → Nat → Option σ
  push : σ → ε → Option σ
  pop : σ → Option (ε × σ)

/-- The methods act on the sequence `elems`, ordered by `lt`: `push` appends and `pop` removes the last element. -/
structure HeapInterface.Sequence {σ ε : Type} (I : HeapInterface σ ε) (lt : ε → ε → Bool) (elems : σ → List ε) :
    Prop where
  len_eq : ∀ s, I.len s = (elems s).length
  less_eq : ∀ s i j a b, (elems s)[i]? = some a → (elems s)[j]? = some b → I.less s i j = some (lt a b)
  swap_eq : ∀ s i j a b, (elems s)[i]? = some a → (elems s)[j]? = some b →
    ∃ t, I.swap s i j = some t ∧ elems t = ((elems s).set i b).set j a
  push_eq : ∀ s x, ∃ t, I.push s x = some t ∧ elems t = elems s ++ [x]
  pop_eq : ∀ s l x, elems s = l ++ [x] → ∃ t, I.pop s = some (x, t) ∧ elems t = l

def IsHeap (less : α → α → Bool) (h : List α) : Prop :=
  ∀ i x y, 0 < i → h[i]? = some x → h[(i-1) / 2]? = some y → less x y = false

/-- `heap.Push` and `heap.Pop` for an interface: right whenever its methods act on a sequence. -/
structure ContainerHeap {σ ε : Type} (I : HeapInterface σ ε) (lt : ε → ε → Bool) (elems : σ → List ε) where
  push : σ → ε → Option σ
  pop : σ → Option (ε × σ)
  push_heap : StrictWeakOrder lt → I.Sequence lt elems → ∀ s x, IsHeap lt (elems s) →
    ∃ t, push s x = some t ∧ (elems t).Perm (x :: elems s) ∧ IsHeap lt (elems t)
  pop_heap : StrictWeakOrder lt → I.Sequence lt elems → ∀ s m h, elems s = m :: h → IsHeap lt (m :: h) →
    ∃ t, pop s = some (m, t) ∧ (elems t).Perm h ∧ IsHeap lt (elems t)

structure RegionHeap (less : α → α → Bool) where
  regions : List α

namespace RegionHeap
variable (h : RegionHeap less)

def len : Nat := h.regions.length

def lessAt (i j : Nat) : Option Bool := do
  let a ← h.regions[i]?
  let b ← h.regions[j]?
  return less a b

def swap (i j : Nat) : Option (RegionHeap less) := do
  let a ← h.regions[i]?
  let b ← h.regions[j]?
  return ⟨(h.regions.set i b).set j a⟩

def push (x : α) : RegionHeap less := ⟨h.regions ++ [x]⟩

def pop : Option (α × RegionHeap less) := do
  let pos := h.regions.length - 1
  let x ← h.regions[pos]?
  return (x, ⟨h.regions.take pos⟩)

def min : Option α := if h.len = 0 then none else h.regions[0]?

def interface (less : α → α → Bool) : HeapInterface (RegionHeap less) α :=
  ⟨len, lessAt, swap, fun h x => some (h.push x), pop⟩

lemma interface_sequence (less : α → α → Bool) : (interface less).Sequence less regions where
  len_eq _ := rfl
  less_eq h i j a b ha hb := by
    show h.lessAt i j = _
    rw [lessAt, ha, hb]
    rfl
  swap_eq h i j a b ha hb := by
    refine ⟨⟨(h.regions.set i b).set j a⟩, ?_, rfl⟩
    show h.swap i j = _
    rw [swap, ha, hb]
    rfl
  push_eq _ _ := ⟨_, rfl, rfl⟩
  pop_eq h l x e := by
    refine ⟨⟨l⟩, ?_, rfl⟩
    show h.pop = _
    simp [pop, e]

end RegionHeap

namespace ContainerHeap
variable (hp : ContainerHeap (RegionHeap.interface less) less RegionHeap.regions)

def offer (n : Nat) (h : RegionHeap less) (r : α) : Option (RegionHeap less) :=
  if h.len < n then hp.push h r
  else do
    let m ← h.min
    if less m r then do
      let p ← hp.pop h
      hp.push p.2 r
    else some h

def popAll : Nat → RegionHeap less → List α → Option (List α)
  | 0, _, res => some res
  | i + 1, h, res => do
    let p ← hp.pop h
    popAll i p.2 (p.1 :: res)

def topNRegions (regions : List α) (n : Int) : Option (List α) :=
  if n ≤ 0 then some []
  else do
    let h ← regions.foldlM (hp.offer n.toNat) ⟨[]⟩
    hp.popAll h.len h []

end ContainerHeap

section
variable (hless : StrictWeakOrder less)
include hless

lemma IsHeap.root {m : α} {h : List α} (hheap : IsHeap less (m :: h)) : ∀ x ∈ m :: h, less x m = false := by
  suffices hall : ∀ i x, (m :: h)[i]? = some x → less x m = false by
    intro x hx
    obtain ⟨i, hi⟩ := mem_iff_getElem?.mp hx
    exact hall i x hi
  intro i
  induction i using Nat.strongRecOn with
  | ind i ih =>
    intro x hx
    rcases Nat.eq_zero_or_pos i with rfl | hpos
    · cases hx
      exact Bool.eq_false_iff.mpr fun hmm => by simp [hless.asymm hmm] at hmm
    have hlt : i < (m :: h).length := (List.getElem?_eq_some_iff.mp hx).1
    have hparent := getElem?_eq_getElem (l := m :: h) (i := (i-1) / 2) (by omega)
    exact hless.not_less (hheap i x _ hpos hx hparent) (ih _ (by omega) _ hparent)

structure Keeps (less : α → α → Bool) (n : Nat) (done h rest : List α) : Prop where
  heap : IsHeap less h
  perm : (h ++ rest).Perm done
  size : h.length = min n done.length
  top : ∀ x ∈ h, ∀ y ∈ rest, less x y = false

namespace ContainerHeap
variable (hp : ContainerHeap (RegionHeap.interface less) less RegionHeap.regions)
variable {n : Nat} {done rest : List α} {h : RegionHeap less}

lemma push_regions (hheap : IsHeap less h.regions) (x : α) :
  ∃ t, hp.push h x = some t ∧ t.regions.Perm (x :: h.regions) ∧ IsHeap less t.regions :=
  hp.push_heap hless (RegionHeap.interface_sequence less) h x hheap

lemma pop_regions {m : α} {t : List α} (he : h.regions = m :: t) (hheap : IsHeap less h.regions) :
  ∃ h', hp.pop h = some (m, h') ∧ h'.regions.Perm t ∧ IsHeap less h'.regions :=
  hp.pop_heap hless (RegionHeap.interface_sequence less) h m t he (he ▸ hheap)

lemma offer_keeps (hn : 0 < n) (hk : Keeps less n done h.regions rest) (r : α) :
  ∃ h' rest', hp.offer n h r = some h' ∧ Keeps less n (done ++ [r]) h'.regions rest' := by
  have hlen := hk.perm.length_eq
  have hsize := hk.size
  rw [length_append] at hlen
  have hgrow : (r :: done).Perm (done ++ [r]) := (perm_append_singleton r done).symm
  unfold offer RegionHeap.len
  by_cases hroom : h.regions.length < n
  · -- nothing was left out so far
    obtain rfl : rest = [] := eq_nil_of_length_eq_zero (by omega)
    obtain ⟨t, ht, hpush, hheap⟩ := hp.push_regions hless hk.heap r
    refine ⟨t, [], by rw [if_pos hroom, ht], hheap, ?_, ?_, fun _ _ => nofun⟩
    · exact ((hpush.append_right []).trans (hk.perm.cons r)).trans hgrow
    rw [hpush.length_eq, length_cons, length_append, length_singleton]
    omega
  rw [if_neg hroom]
  cases he : h.regions with
  | nil =>
    rw [he] at hroom
    exact absurd hn hroom
  | cons m t =>
    have hmin : h.min = some m := by simp [RegionHeap.min, RegionHeap.len, he]
    have hroot := IsHeap.root hless (he ▸ hk.heap)
    have htop := he ▸ hk.top
    have hperm := he ▸ hk.perm
    rw [he] at hsize
    rw [hmin]
    show ∃ h' rest', (if less m r = true then _ else _) = some h' ∧ _
    cases hmr : less m r with
    | true =>
      obtain ⟨t', hpop, hpopped, hheap⟩ := hp.pop_regions hless he hk.heap
      obtain ⟨u, hu, hpush, huheap⟩ := hp.push_regions hless hheap r
      have hpush := hpush.trans (hpopped.cons r)
      refine ⟨u, m :: rest, ?_, huheap, ?_, ?_, ?_⟩
      · rw [if_pos rfl, hpop]
        exact hu
      · have hmiddle : (r :: t ++ m :: rest).Perm (r :: (m :: t ++ rest)) := perm_middle.cons r
        exact (((hpush.append_right _).trans hmiddle).trans (hperm.cons r)).trans hgrow
      · rw [hpush.length_eq, length_append]
        simp at hsize ⊢
        omega
      intro x hx y hy
      rcases mem_cons.mp (hpush.mem_iff.mp hx) with rfl | hx
      · rcases mem_cons.mp hy with rfl | hy
        · exact hless.asymm hmr
        · exact hless.not_less (hless.asymm hmr) (htop m mem_cons_self y hy)
      rcases mem_cons.mp hy with rfl | hy
      · exact hroot x (mem_cons_of_mem _ hx)
      · exact htop x (mem_cons_of_mem _ hx) y hy
    | false =>
      refine ⟨h, r :: rest, if_neg Bool.false_ne_true, hk.heap, ?_, ?_, ?_⟩
      · exact (perm_middle.trans (hk.perm.cons r)).trans hgrow
      · rw [length_append, he, hsize]
        simp at hsize ⊢
        omega
      intro x hx y hy
      rcases mem_cons.mp hy with rfl | hy
      · exact hless.not_less (hroot x (he ▸ hx)) hmr
      · exact hk.top x hx y hy

lemma foldlM_keeps (hn : 0 < n) (regions : List α) (hk : Keeps less n done h.regions rest) :
  ∃ h' rest', regions.foldlM (hp.offer n) h = some h' ∧ Keeps less n (done ++ regions) h'.regions rest' := by
  induction regions generalizing done h rest with
  | nil => exact ⟨h, rest, rfl, by rwa [append_nil]⟩
  | cons r _ ih =>
    obtain ⟨h1, rest1, hoffer, hk1⟩ := offer_keeps hless hp hn hk r
    obtain ⟨h2, rest2, hrun, hk2⟩ := ih hk1
    refine ⟨h2, rest2, ?_, by rwa [append_assoc] at hk2⟩
    rw [foldlM_cons, hoffer]
    exact hrun

lemma popAll_sorted (res : List α) (hheap : IsHeap less h.regions) (hres : res.Pairwise fun a b => less a b = false)
  (htop : ∀ x ∈ h.regions, ∀ y ∈ res, less x y = false) : ∃ all, hp.popAll h.len h res = some all ∧
    all.Perm (h.regions ++ res) ∧ all.Pairwise fun a b => less a b = false := by
  induction hl : h.len generalizing h res with
  | zero =>
    rw [length_eq_zero_iff.mp hl]
    exact ⟨res, rfl, .refl _, hres⟩
  | succ i ih =>
    cases he : h.regions with
    | nil =>
      rw [RegionHeap.len, he] at hl
      cases hl
    | cons m =>
      obtain ⟨t', hpop, hperm, hheap'⟩ := hp.pop_regions hless he hheap
      have hroot := IsHeap.root hless (he ▸ hheap)
      have htop := he ▸ htop
      obtain ⟨all, hall, hallperm, hsorted⟩ := ih (m :: res) hheap'
        (pairwise_cons.mpr ⟨htop m mem_cons_self, hres⟩)
        (fun x hx y hy => by
          have hx' := mem_cons_of_mem m (hperm.mem_iff.mp hx)
          rcases mem_cons.mp hy with rfl | hy
          · exact hroot x hx'
          · exact htop x hx' y hy)
        (by
          rw [RegionHeap.len, he] at hl
          exact hperm.length_eq.trans (Nat.succ.inj hl))
      refine ⟨all, ?_, ?_, hsorted⟩
      · rw [popAll, hpop]
        exact hall
      · exact hallperm.trans (perm_middle.trans ((hperm.append_right res).cons m))

end ContainerHeap
end

/-- **Top-N selection.**  For every strict weak order, every heap package that is right and every `n > 0`. -/
theorem topNRegions_top (hless : StrictWeakOrder less)
  (hp : ContainerHeap (RegionHeap.interface less) less RegionHeap.regions) (regions : List α) (n : Int) (hn : 0 < n) :
  ∃ res rest, hp.topNRegions regions n = some res ∧ (res ++ rest).Perm regions ∧
    res.length = min n.toNat regions.length ∧ res.Pairwise (fun a b => less a b = false) ∧
    ∀ x ∈ res, ∀ y ∈ rest, less x y = false := by
  have hstart : Keeps less n.toNat [] [] [] := ⟨nofun, .refl _, by simp, nofun⟩
  obtain ⟨h, rest, hrun, hk⟩ := hp.foldlM_keeps hless (h := ⟨[]⟩) (by omega) regions hstart
  obtain ⟨res, hres, hperm, hsorted⟩ := hp.popAll_sorted hless [] hk.heap .nil fun _ _ => nofun
  rw [append_nil] at hperm
  refine ⟨res, rest, ?_, (hperm.append_right rest).trans hk.perm, hperm.length_eq.trans hk.size, hsorted, ?_⟩
  · unfold ContainerHeap.topNRegions
    rw [if_neg (by omega), hrun]
    exact hres
  · exact fun x hx => hk.top x (hperm.mem_iff.mp hx)

def sortingHeap (hless : StrictWeakOrder less) : ContainerHeap (RegionHeap.interface less) less RegionHeap.regions :=
  let sort (l : List α) := l.mergeSort fun a b => !less b a
  have hsort (l : List α) : IsHeap less (sort l) := by
    have hsorted : (sort l).Pairwise fun a b => (!less b a) = true := by
      refine pairwise_mergeSort ?_ ?_ l
      · intro a b c hab hbc
        rw [Bool.not_eq_true'] at *
        exact hless.not_less hbc hab
      intro a b
      cases hba : less b a with
      | true => simp [hless.asymm hba]
      | false => rfl
    intro i x y hpos hx hy
    obtain ⟨hi, rfl⟩ := List.getElem?_eq_some_iff.mp hx
    obtain ⟨hj, rfl⟩ := List.getElem?_eq_some_iff.mp hy
    have hle := pairwise_iff_getElem.mp hsorted _ i hj hi (by omega)
    simpa using hle
  { push := fun h x => some ⟨sort (x :: h.regions)⟩
    pop := fun h => h.regions.head?.map fun m => (m, ⟨sort h.regions.tail⟩)
    push_heap := fun _ _ _ _ _ => ⟨_, rfl, mergeSort_perm _ _, hsort _⟩
    pop_heap := fun _ _ s m h he _ => ⟨⟨sort h⟩, by rw [he]; rfl, mergeSort_perm _ _, hsort _⟩ }

lemma natLess : StrictWeakOrder fun a b : Nat => decide (a < b) where
  asymm := by simp; omega
  comp := by simp; omega

theorem topNRegions_top_two : ∃ res rest, (sortingHeap natLess).topNRegions [3, 1, 2] 2 = some res ∧
  (res ++ rest).Perm [3, 1, 2] ∧ res.length = min 2 3 ∧ res.Pairwise (fun a b => decide (a < b) = false) ∧
  ∀ x ∈ res, ∀ y ∈ rest, decide (x < y) = false :=
  topNRegions_top natLess (sortingHeap natLess) [3, 1, 2] 2 (by decide)

end PD
