import Mathlib.Data.Option.Basic

/-! # Runs of a labelled transition function -/

namespace Runs

section
variable {σ ℓ : Type*} (step : σ → ℓ → Option σ)

def exec : σ → List ℓ → Option σ
  | s, [] => some s
  | s, l :: ls => (step s l).bind fun t => exec t ls

def Along (ok : σ → ℓ → Prop) : σ → List ℓ → Prop
  | _, [] => True
  | s, l :: ls => ok s l ∧ ∀ t, step s l = some t → Along ok t ls

def Steps (R : σ → ℓ → σ → Prop) : σ → List ℓ → Prop
  | _, [] => True
  | s, l :: ls => ∀ t, step s l = some t → R s l t ∧ Steps R t ls

end

section
variable {σ ℓ : Type*} {step : σ → ℓ → Option σ}
variable {s u t : σ} {ls as bs : List ℓ}

lemma exec_cons (s : σ) (l : ℓ) (ls : List ℓ) : exec step s (l :: ls) = (step s l).bind fun t => exec step t ls := rfl

lemma exec_cons_some {l : ℓ} : exec step s (l :: ls) = some u ↔ ∃ t, step s l = some t ∧ exec step t ls = some u := by
  rw [exec_cons]
  exact Option.bind_eq_some_iff

lemma exec_append (s : σ) (as bs : List ℓ) :
  exec step s (as ++ bs) = (exec step s as).bind fun t => exec step t bs := by
  induction as generalizing s with
  | nil => rfl
  | cons l _ ih =>
    rw [List.cons_append, exec_cons, exec_cons]
    cases step s l with
    | none => rfl
    | some t => exact ih t

lemma exec_split (h : exec step s (as ++ bs) = some u) : ∃ t, exec step s as = some t ∧ exec step t bs = some u := by
  rw [exec_append] at h
  exact Option.bind_eq_some_iff.mp h

lemma along_split {ok : σ → ℓ → Prop} (h : Along step ok s (as ++ bs)) (hs : exec step s as = some t) :
  Along step ok s as ∧ Along step ok t bs := by
  induction as generalizing s with
  | nil =>
    have e : s = t := Option.some.inj hs
    subst e
    exact ⟨trivial, h⟩
  | cons l _ ih =>
    obtain ⟨hl, hrest⟩ := h
    obtain ⟨u, hu, hut⟩ := exec_cons_some.mp hs
    refine ⟨⟨hl, fun v hv => ?_⟩, (ih (hrest u hu) hut).2⟩
    have e : u = v := Option.some.inj (hu.symm.trans hv)
    subst e
    exact (ih (hrest u hu) hut).1

lemma exec_inv {ok : σ → ℓ → Prop} (I : σ → Prop) (hstep : ∀ s l t, I s → ok s l → step s l = some t → I t)
  (hI : I s) (hok : Along step ok s ls) (h : exec step s ls = some t) : I t := by
  induction ls generalizing s with
  | nil =>
    have e : s = t := Option.some.inj h
    exact e ▸ hI
  | cons l _ ih =>
    obtain ⟨u, hu, hut⟩ := exec_cons_some.mp h
    exact ih (hstep s l u hI hok.1 hu) (hok.2 u hu) hut

lemma exec_total {ok : σ → ℓ → Prop} (I : σ → Prop) (hstep : ∀ s l, I s → ok s l → ∃ t, step s l = some t ∧ I t)
  (hI : I s) (hok : Along step ok s ls) : ∃ t, exec step s ls = some t ∧ I t := by
  induction ls generalizing s with
  | nil => exact ⟨s, rfl, hI⟩
  | cons l _ ih =>
    obtain ⟨t, ht, hIt⟩ := hstep s l hI hok.1
    obtain ⟨u, hu, hIu⟩ := ih hIt (hok.2 t ht)
    exact ⟨u, exec_cons_some.mpr ⟨t, ht, hu⟩, hIu⟩

lemma exec_rel {ok : σ → ℓ → Prop} (I : σ → Prop) (R : σ → σ → Prop) (hrefl : ∀ s, R s s)
  (htrans : ∀ s t u, R s t → R t u → R s u) (hstep : ∀ s l t, I s → ok s l → step s l = some t → I t ∧ R s t)
  (hI : I s) (hok : Along step ok s ls) (h : exec step s ls = some t) : R s t := by
  induction ls generalizing s with
  | nil =>
    have e : s = t := Option.some.inj h
    exact e ▸ hrefl s
  | cons l _ ih =>
    obtain ⟨u, hu, hut⟩ := exec_cons_some.mp h
    obtain ⟨hIu, hR⟩ := hstep s l u hI hok.1 hu
    exact htrans s u t hR (ih hIu (hok.2 u hu) hut)

instance alongDecidable {ok : σ → ℓ → Prop} [∀ s l, Decidable (ok s l)] :
    ∀ s ls, Decidable (Along step ok s ls)
  | _, [] => .isTrue trivial
  | s, l :: ls =>
    match h : step s l with
    | none => decidable_of_iff (ok s l)
        ⟨fun h1 => ⟨h1, fun t ht => by rw [h] at ht; cases ht⟩, And.left⟩
    | some t =>
      have : Decidable (Along step ok t ls) := alongDecidable t ls
      decidable_of_iff (ok s l ∧ Along step ok t ls)
        ⟨fun h1 => ⟨h1.1, fun u hu => by rw [h] at hu; cases hu; exact h1.2⟩,
          fun h1 => ⟨h1.1, h1.2 t h⟩⟩

lemma steps_of_inv {ok : σ → ℓ → Prop} {R : σ → ℓ → σ → Prop} (I : σ → Prop)
  (hstep : ∀ s l t, I s → ok s l → step s l = some t → I t ∧ R s l t)
  (hI : I s) (hok : Along step ok s ls) : Steps step R s ls := by
  induction ls generalizing s with
  | nil => exact trivial
  | cons l _ ih =>
    intro t ht
    obtain ⟨hIt, hR⟩ := hstep s l t hI hok.1 ht
    exact ⟨hR, ih hIt (hok.2 t ht)⟩

lemma steps_iff {R R' : σ → ℓ → σ → Prop} (I : σ → Prop)
  (hstep : ∀ s l t, I s → step s l = some t → (R s l t ↔ R' s l t) ∧ (R s l t → I t))
  (hI : I s) : Steps step R s ls ↔ Steps step R' s ls := by
  induction ls generalizing s with
  | nil => exact Iff.rfl
  | cons l _ ih =>
    refine forall_congr' fun t => imp_congr_right fun ht => ?_
    obtain ⟨hiff, hkeep⟩ := hstep s l t hI ht
    rw [← hiff]
    exact and_congr_right fun hR => ih (hkeep hR)

lemma along_of_forall {P : ℓ → Prop} (s : σ) (h : ∀ l ∈ ls, P l) : Along step (fun _ l => P l) s ls := by
  induction ls generalizing s with
  | nil => exact trivial
  | cons l _ ih =>
    exact ⟨h l List.mem_cons_self, fun t _ => ih t fun l' hl' => h l' (List.mem_cons_of_mem _ hl')⟩

def Reaches (step : σ → ℓ → Option σ) (I : σ → Prop) : σ → List ℓ → σ → Prop
  | s, [], u => I s ∧ s = u
  | s, l :: ls, u => I s ∧ ∃ t, step s l = some t ∧ Reaches step I t ls u

section
variable {I : σ → Prop} {s t u : σ} {l : ℓ} {as bs ls : List ℓ}

lemma Reaches.nil (h : I s) : Reaches step I s [] s := ⟨h, rfl⟩
lemma Reaches.single (hs : I s) (h : step s l = some t) (ht : I t) : Reaches step I s [l] t := ⟨hs, t, h, ht, rfl⟩

lemma Reaches.start (h : Reaches step I s ls u) : I s := by
  cases ls with
  | _ => exact h.1

lemma Reaches.last (h : Reaches step I s ls u) : I u := by
  induction ls generalizing s with
  | nil => exact h.2 ▸ h.1
  | cons l _ ih =>
    obtain ⟨-, t, -, h⟩ := h
    exact ih h

lemma Reaches.exec_eq (h : Reaches step I s ls u) : exec step s ls = some u := by
  induction ls generalizing s with
  | nil => exact congrArg some h.2
  | cons l _ ih =>
    obtain ⟨-, t, ht, h⟩ := h
    exact exec_cons_some.mpr ⟨t, ht, ih h⟩

lemma Reaches.append (h : Reaches step I s as t) (h' : Reaches step I t bs u) : Reaches step I s (as ++ bs) u := by
  induction as generalizing s with
  | nil => exact h.2 ▸ h'
  | cons l _ ih =>
    obtain ⟨hs, v, hv, h⟩ := h
    exact ⟨hs, v, hv, ih h⟩

lemma Reaches.simulates {τ : Type*} {step' : τ → ℓ → Option τ} {I' : τ → Prop} (R : σ → τ → Prop)
  (hstep : ∀ s x l y, R s x → step' x l = some y → ∃ t, step s l = some t ∧ R t y) {x y : τ} (hR : R s x)
  (h : Reaches step' I' x ls y) : ∃ u, Reaches step (fun t => ∃ z, R t z ∧ I' z) s ls u ∧ R u y := by
  induction ls generalizing s x with
  | nil => exact ⟨s, ⟨⟨x, hR, h.1⟩, rfl⟩, h.2 ▸ hR⟩
  | cons l _ ih =>
    obtain ⟨hx, z, hz, h⟩ := h
    obtain ⟨t, ht, hRt⟩ := hstep s x l z hR hz
    obtain ⟨u, hu, hRu⟩ := ih hRt h
    exact ⟨u, ⟨⟨x, hR, hx⟩, t, ht, hu⟩, hRu⟩

end

lemma split_last (p : ℓ → Bool) (h : ∃ l ∈ ls, p l = true) :
  ∃ as l bs, ls = as ++ l :: bs ∧ p l = true ∧ ∀ x ∈ bs, p x = false := by
  induction ls with
  | nil => obtain ⟨l, hl, _⟩ := h; exact absurd hl List.not_mem_nil
  | cons a ls ih =>
    by_cases hrest : ∃ l ∈ ls, p l = true
    · obtain ⟨as, l, bs, e, hl, hbs⟩ := ih hrest
      exact ⟨a :: as, l, bs, by rw [e]; rfl, hl, hbs⟩
    have hoff : ∀ x ∈ ls, p x = false := fun x hx => Bool.eq_false_iff.mpr fun hp => hrest ⟨x, hx, hp⟩
    obtain ⟨l, hl, hp⟩ := h
    rcases List.mem_cons.mp hl with rfl | hl
    · exact ⟨[], l, ls, rfl, hp, hoff⟩
    · exact absurd ⟨l, hl, hp⟩ hrest

end
end Runs
