import Mathlib.Algebra.Order.Ring.Int

/-! # Leased windows of a monotone clock -/

set_option linter.unusedSectionVars false

namespace Lease

inductive View where
  | out
  | seen (b : Int)
  | granted (lo hi : Int)
  | serving (lo hi : Int)

def View.Win : View → Int → Int → Prop
  | .granted lo hi, a, b => lo = a ∧ hi = b
  | .serving lo hi, a, b => lo = a ∧ hi = b
  | _, _, _ => False

section
variable {ι : Type*} (gap : Int)

structure St (ι : Type*) where
  top : Int
  leader : ι → Prop
  view : ι → View
  points : Set Int

variable [DecidableEq ι]

def St.setView (s : St ι) (i : ι) (v : View) : St ι := { s with view := Function.update s.view i v }

inductive Step : St ι → St ι → Prop
  | elect (s : St ι) (i : ι) (h : ∀ j, ¬ s.leader j) (hv : s.view i = .out) :
      Step s { s with leader := fun j => j = i }
  | expire (s : St ι) : Step s { s with leader := fun _ => False }
  | see (s : St ι) (i : ι) : Step s (s.setView i (.seen s.top))
  | grant (s : St ι) (i : ι) (b lo hi : Int) (hl : s.leader i) (hv : s.view i = .seen b)
      (hb : b + gap ≤ lo) (hlo : lo < hi) :
      Step s { s.setView i (.granted lo hi) with top := hi }
  | install (s : St ι) (i : ι) (lo hi : Int) (hv : s.view i = .granted lo hi) :
      Step s { s.setView i (.serving lo hi) with points := insert lo s.points }
  | extend (s : St ι) (i : ι) (lo hi hi' : Int) (hl : s.leader i)
      (hv : s.view i = .serving lo hi) (hhi : hi < hi') :
      Step s { s.setView i (.serving lo hi') with top := hi' }
  | advance (s : St ι) (i : ι) (lo hi lo' : Int) (hv : s.view i = .serving lo hi)
      (hlo : lo + gap ≤ lo') (hhi : lo' < hi) :
      Step s { s.setView i (.serving lo' hi) with points := insert lo' s.points }
  | drop (s : St ι) (i : ι) : Step s (s.setView i .out)

structure Inv (s : St ι) : Prop where
  unique : ∀ i j, s.leader i → s.leader j → i = j
  below : ∀ p ∈ s.points, p < s.top
  apart : ∀ p ∈ s.points, ∀ q ∈ s.points, p ≠ q → p + gap ≤ q ∨ q + gap ≤ p
  win : ∀ i lo hi, (s.view i).Win lo hi → lo < hi ∧ hi ≤ s.top
  winWin : ∀ i j lo hi lo' hi', i ≠ j → (s.view i).Win lo hi → (s.view j).Win lo' hi' → hi + gap ≤ lo' ∨ hi' + gap ≤ lo
  winPoint : ∀ i lo hi p, (s.view i).Win lo hi → p ∈ s.points →
    p + gap ≤ lo ∨ hi + gap ≤ p ∨ (s.view i = .serving lo hi ∧ p = lo)
  leaderWin : ∀ i lo hi, s.leader i → (s.view i).Win lo hi → hi = s.top
  leaderSeen : ∀ i b, s.leader i → s.view i = .seen b → b = s.top

lemma inv_points {s : St ι} (hi : Inv gap s) {p q : Int} (hp : p ∈ s.points) (hq : q ∈ s.points)
    (hne : p ≠ q) : p + gap ≤ q ∨ q + gap ≤ p := hi.apart p hp q hq hne

end

section
variable {ι : Type*} [DecidableEq ι] {gap : Int} {s : St ι}
variable {i j : ι} {lo hi' p : Int} {t : St ι}

lemma setView_self (s : St ι) (i : ι) (v : View) : (s.setView i v).view i = v := Function.update_self ..
lemma setView_of_ne (s : St ι) (v : View) (h : j ≠ i) : (s.setView i v).view j = s.view j := Function.update_of_ne h ..

lemma inv_setView (hi : Inv gap s) (i : ι) (v : View) (hwin : ∀ lo hi, ¬ v.Win lo hi)
  (hseen : ∀ b, v = .seen b → b = s.top) : Inv gap (s.setView i v) where
  unique := hi.unique
  below := hi.below
  apart := hi.apart
  win := by
    intro j lo hi' hw
    by_cases e : j = i
    · subst e; rw [setView_self] at hw; exact absurd hw (hwin lo hi')
    · rw [setView_of_ne s v e] at hw; exact hi.win j lo hi' hw
  winWin := by
    intro j k lo h1 lo' h2 hjk hw hw'
    by_cases e : j = i
    · subst e; rw [setView_self] at hw; exact absurd hw (hwin _ _)
    by_cases e' : k = i
    · subst e'; rw [setView_self] at hw'; exact absurd hw' (hwin _ _)
    rw [setView_of_ne s v e] at hw
    rw [setView_of_ne s v e'] at hw'
    exact hi.winWin j k lo h1 lo' h2 hjk hw hw'
  winPoint := by
    intro j lo hi' p hw hp
    by_cases e : j = i
    · subst e; rw [setView_self] at hw; exact absurd hw (hwin _ _)
    · rw [setView_of_ne s v e] at hw ⊢; exact hi.winPoint j lo hi' p hw hp
  leaderWin := by
    intro j lo hi' hl hw
    by_cases e : j = i
    · subst e; rw [setView_self] at hw; exact absurd hw (hwin _ _)
    · rw [setView_of_ne s v e] at hw; exact hi.leaderWin j lo hi' hl hw
  leaderSeen := by
    intro j b hl hv
    by_cases e : j = i
    · subst e; rw [setView_self] at hv; exact hseen b hv
    · rw [setView_of_ne s v e] at hv; exact hi.leaderSeen j b hl hv

lemma inv_elect (hi : Inv gap s) (i : ι) (hv : s.view i = .out) : Inv gap { s with leader := fun j => j = i } :=
  { hi with
    unique := fun j k hj hk => hj.trans hk.symm
    leaderWin := fun j lo hi' hl hw => by
      subst hl
      rw [hv] at hw
      exact False.elim hw
    leaderSeen := fun j b hl hvj => by
      subst hl
      rw [hv] at hvj
      cases hvj }

lemma inv_expire (hi : Inv gap s) : Inv gap { s with leader := fun _ => False } :=
  { hi with
    unique := fun _ _ h => False.elim h
    leaderWin := fun _ _ _ h => False.elim h
    leaderSeen := fun _ _ h => False.elim h }

lemma inv_window (hi : Inv gap s) (i : ι) (v : View) (lo hi' top' : Int) (pts : Set Int)
  (hv : ∀ a c, v.Win a c → lo = a ∧ hi' = c) (hseen : ∀ b, v ≠ .seen b)
  (hlt : lo < hi') (hhi : hi' ≤ top') (htop : s.top ≤ top')
  (hlead : s.leader i → hi' = top') (hlead' : ∀ j, j ≠ i → s.leader j → s.top = top') (hpts : ∀ p ∈ pts, p < top')
  (hapart : ∀ p ∈ pts, ∀ q ∈ pts, p ≠ q → p + gap ≤ q ∨ q + gap ≤ p)
  (hother : ∀ j a c, j ≠ i → (s.view j).Win a c → hi' + gap ≤ a ∨ c + gap ≤ lo)
  (hown : ∀ p ∈ pts, p + gap ≤ lo ∨ hi' + gap ≤ p ∨ (v = .serving lo hi' ∧ p = lo))
  (hpt : ∀ j a c p, j ≠ i → (s.view j).Win a c → p ∈ pts →
    p + gap ≤ a ∨ c + gap ≤ p ∨ (s.view j = .serving a c ∧ p = a)) :
  Inv gap ⟨top', s.leader, (s.setView i v).view, pts⟩ where
  unique := hi.unique
  below := hpts
  apart := hapart
  win := by
    intro j a c hw
    by_cases e : j = i
    · subst e
      rw [setView_self] at hw
      obtain ⟨rfl, rfl⟩ := hv a c hw
      exact ⟨hlt, hhi⟩
    rw [setView_of_ne s v e] at hw
    obtain ⟨h1, h2⟩ := hi.win j a c hw
    exact ⟨h1, h2.trans htop⟩
  winWin := by
    intro j k a c a' c' hjk hw hw'
    by_cases e : j = i
    · subst e
      rw [setView_self] at hw
      rw [setView_of_ne s v (Ne.symm hjk)] at hw'
      obtain ⟨rfl, rfl⟩ := hv a c hw
      exact hother k a' c' (Ne.symm hjk) hw'
    rw [setView_of_ne s v e] at hw
    by_cases e' : k = i
    · subst e'
      rw [setView_self] at hw'
      obtain ⟨rfl, rfl⟩ := hv a' c' hw'
      exact (hother j a c e hw).symm
    rw [setView_of_ne s v e'] at hw'
    exact hi.winWin j k a c a' c' hjk hw hw'
  winPoint := by
    intro j a c p hw hp
    by_cases e : j = i
    · subst e
      rw [setView_self] at hw ⊢
      obtain ⟨rfl, rfl⟩ := hv a c hw
      exact hown p hp
    rw [setView_of_ne s v e] at hw ⊢
    exact hpt j a c p e hw hp
  leaderWin := by
    intro j a c hl hw
    by_cases e : j = i
    · subst e
      rw [setView_self] at hw
      obtain ⟨rfl, rfl⟩ := hv a c hw
      exact hlead hl
    rw [setView_of_ne s v e] at hw
    exact (hi.leaderWin j a c hl hw).trans (hlead' j e hl)
  leaderSeen := by
    intro j b hl hvj
    by_cases e : j = i
    · subst e
      rw [setView_self] at hvj
      exact absurd hvj (hseen b)
    rw [setView_of_ne s v e] at hvj
    exact (hi.leaderSeen j b hl hvj).trans (hlead' j e hl)

lemma apart_insert {pts : Set Int} (hlt : lo < hi') (h : ∀ p ∈ pts, ∀ q ∈ pts, p ≠ q → p + gap ≤ q ∨ q + gap ≤ p)
  (hlo : ∀ p ∈ pts, p + gap ≤ lo ∨ hi' + gap ≤ p) :
  ∀ p ∈ insert lo pts, ∀ q ∈ insert lo pts, p ≠ q → p + gap ≤ q ∨ q + gap ≤ p := by
  have hnew : ∀ p ∈ pts, p + gap ≤ lo ∨ lo + gap ≤ p := by
    intro p hp
    rcases hlo p hp with h1 | h1
    · exact .inl h1
    · exact .inr (by omega)
  intro p hp q hq hne
  rcases hp with rfl | hp
  · rcases hq with rfl | hq
    · exact absurd rfl hne
    · exact (hnew q hq).symm
  rcases hq with rfl | hq
  · exact hnew p hp
  · exact h p hp q hq hne

lemma inv_raise (hi : Inv gap s) (i : ι) (v : View) (hl : s.leader i) (hv : ∀ a c, v.Win a c → lo = a ∧ hi' = c)
  (hseen : ∀ b, v ≠ .seen b) (hlt : lo < hi') (htop : s.top ≤ hi')
  (hother : ∀ j a c, j ≠ i → (s.view j).Win a c → c + gap ≤ lo)
  (hown : ∀ p ∈ s.points, p + gap ≤ lo ∨ hi' + gap ≤ p ∨ (v = .serving lo hi' ∧ p = lo)) :
  Inv gap { s.setView i v with top := hi' } := by
  refine inv_window hi i v lo hi' hi' s.points hv hseen hlt (le_refl _) htop (fun _ => rfl)
    (fun j hj hlj => absurd (hi.unique j i hlj hl) hj) ?_ hi.apart
    (fun j a c hj hw => .inr (hother j a c hj hw)) hown (fun j a c p _ hw hp => hi.winPoint j a c p hw hp)
  intro p hp
  exact lt_of_lt_of_le (hi.below p hp) htop

lemma inv_grant (hgap : 0 < gap) (hi : Inv gap s) (i : ι) (b lo hi' : Int) (hl : s.leader i)
  (hv : s.view i = .seen b) (hb : b + gap ≤ lo) (hlo : lo < hi') :
  Inv gap { s.setView i (.granted lo hi') with top := hi' } := by
  have eb : b = s.top := hi.leaderSeen i b hl hv
  refine inv_raise hi i (.granted lo hi') hl (fun _ _ h => h) (fun b h => by cases h) hlo (by omega) ?_ ?_
  · intro j a c _ hw
    have := hi.win j a c hw
    omega
  intro p hp
  have := hi.below p hp
  exact .inl (by omega)

lemma point_window (hi : Inv gap s) {a c : Int} (hj : j ≠ i) (hwi : (s.view i).Win lo hi') (hw : (s.view j).Win a c)
  (hp : lo ≤ p) (hp' : p < hi') : p + gap ≤ a ∨ c + gap ≤ p := by
  rcases hi.winWin i j lo hi' a c (Ne.symm hj) hwi hw with h | h
  · exact .inl (by omega)
  · exact .inr (by omega)

lemma inv_point (hi : Inv gap s) (i : ι) {lo' : Int} (hwi : (s.view i).Win lo hi') (hlo : lo ≤ lo') (hhi : lo' < hi')
  (hpts : ∀ p ∈ s.points, p + gap ≤ lo' ∨ hi' + gap ≤ p) :
  Inv gap { s.setView i (.serving lo' hi') with points := insert lo' s.points } := by
  obtain ⟨_, htop⟩ := hi.win i lo hi' hwi
  refine inv_window hi i (.serving lo' hi') lo' hi' s.top (insert lo' s.points) (fun _ _ h => h)
    (fun b h => by cases h) hhi htop (le_refl _) (fun hl => hi.leaderWin i lo hi' hl hwi)
    (fun _ _ _ => rfl) ?_ (apart_insert hhi hi.apart hpts) ?_ ?_ ?_
  · rintro p (rfl | hp)
    · omega
    · exact hi.below p hp
  · intro j a c hj hw
    rcases hi.winWin i j lo hi' a c (Ne.symm hj) hwi hw with h | h
    · exact .inl h
    · exact .inr (by omega)
  · rintro p (rfl | hp)
    · exact .inr (.inr ⟨rfl, rfl⟩)
    rcases hpts p hp with h | h
    · exact .inl h
    · exact .inr (.inl h)
  rintro j a c p hj hw (rfl | hp)
  · rcases point_window hi hj hwi hw hlo hhi with h | h
    · exact .inl h
    · exact .inr (.inl h)
  · exact hi.winPoint j a c p hw hp

lemma inv_install (hi : Inv gap s) (i : ι) (lo hi' : Int) (hv : s.view i = .granted lo hi') :
  Inv gap { s.setView i (.serving lo hi') with points := insert lo s.points } := by
  have hwi : (s.view i).Win lo hi' := by rw [hv]; exact ⟨rfl, rfl⟩
  refine inv_point hi i hwi (le_refl _) (hi.win i lo hi' hwi).1 fun p hp => ?_
  rcases hi.winPoint i lo hi' p hwi hp with h | h | ⟨h, _⟩
  · exact .inl h
  · exact .inr h
  · rw [hv] at h; cases h

lemma inv_extend (hgap : 0 < gap) (hi : Inv gap s) (i : ι) (lo hi' hi'' : Int) (hl : s.leader i)
  (hv : s.view i = .serving lo hi') (hhi : hi' < hi'') :
  Inv gap { s.setView i (.serving lo hi'') with top := hi'' } := by
  have hwi : (s.view i).Win lo hi' := by rw [hv]; exact ⟨rfl, rfl⟩
  obtain ⟨hlt, _⟩ := hi.win i lo hi' hwi
  have etop : hi' = s.top := hi.leaderWin i lo hi' hl hwi
  refine inv_raise hi i (.serving lo hi'') hl (fun _ _ h => h) (fun b h => by cases h) (by omega) (by omega) ?_ ?_
  · intro j a c hj hw
    obtain ⟨h1, h2⟩ := hi.win j a c hw
    rcases hi.winWin j i a c lo hi' hj hw hwi with h | h
    · exact h
    · omega
  intro p hp
  have := hi.below p hp
  rcases hi.winPoint i lo hi' p hwi hp with h | h | ⟨_, h⟩
  · exact .inl h
  · omega
  · exact .inr (.inr ⟨rfl, h⟩)

lemma inv_advance (hgap : 0 < gap) (hi : Inv gap s) (i : ι) (lo hi' lo' : Int)
  (hv : s.view i = .serving lo hi') (hlo : lo + gap ≤ lo') (hhi : lo' < hi') :
  Inv gap { s.setView i (.serving lo' hi') with points := insert lo' s.points } := by
  have hwi : (s.view i).Win lo hi' := by rw [hv]; exact ⟨rfl, rfl⟩
  refine inv_point hi i hwi (by omega) hhi fun p hp => ?_
  rcases hi.winPoint i lo hi' p hwi hp with h | h | ⟨_, h⟩
  · exact .inl (by omega)
  · exact .inr h
  · exact .inl (by omega)

lemma granted_fresh (hgap : 0 < gap) (hi : Inv gap s) (hv : s.view i = .granted lo hi') : lo ∉ s.points := by
  have hwi : (s.view i).Win lo hi' := by rw [hv]; exact ⟨rfl, rfl⟩
  obtain ⟨hlt, _⟩ := hi.win i lo hi' hwi
  intro hp
  rcases hi.winPoint i lo hi' lo hwi hp with h | h | ⟨h, _⟩
  · omega
  · omega
  · rw [hv] at h; cases h

lemma serving_fresh (hgap : 0 < gap) (hi : Inv gap s)
  (hv : s.view i = .serving lo hi') (hlo : lo < p) (hhi : p < hi') : p ∉ s.points := by
  have hwi : (s.view i).Win lo hi' := by rw [hv]; exact ⟨rfl, rfl⟩
  intro hp
  rcases hi.winPoint i lo hi' p hwi hp with h | h | ⟨_, h⟩ <;> omega

lemma inv_start (top : Int) : Inv gap (⟨top, fun _ => False, fun _ => .out, ∅⟩ : St ι) where
  unique := fun _ _ h => False.elim h
  below := fun _ h => False.elim h
  apart := fun _ h => False.elim h
  win := fun _ _ _ h => False.elim h
  winWin := fun _ _ _ _ _ _ _ h => False.elim h
  winPoint := fun _ _ _ _ h => False.elim h
  leaderWin := fun _ _ _ h => False.elim h
  leaderSeen := fun _ _ h => False.elim h

lemma inv_step (hgap : 0 < gap) (hi : Inv gap s) (h : Step gap s t) : Inv gap t := by
  cases h with
  | elect i _ hv => exact inv_elect hi i hv
  | expire => exact inv_expire hi
  | see i => exact inv_setView hi i _ (fun _ _ h => h) (fun b hb => by cases hb; rfl)
  | grant i b lo hi' hl hv hb hlo => exact inv_grant hgap hi i b lo hi' hl hv hb hlo
  | install i lo hi' hv => exact inv_install hi i lo hi' hv
  | extend i lo hi' hi'' hl hv hhi => exact inv_extend hgap hi i lo hi' hi'' hl hv hhi
  | advance i lo hi' lo' hv hlo hhi => exact inv_advance hgap hi i lo hi' lo' hv hlo hhi
  | drop i => exact inv_setView hi i _ (fun _ _ h => h) (fun b hb => by cases hb)

lemma inv_moves (hgap : 0 < gap) (hi : Inv gap s) (h : Relation.ReflGen (Step gap) s t) : Inv gap t := by
  cases h with
  | refl => exact hi
  | single h => exact inv_step hgap hi h

lemma win_moves (hgap : 0 < gap) (hi : Inv gap s) (h : Relation.ReflGen (Step gap) s t) (hw : (t.view i).Win lo hi') :
  s.top ≤ lo ∨ ∃ lo' hi'', (s.view i).Win lo' hi'' ∧ lo' ≤ lo := by
  have hold : ∀ {j : ι} {v : View}, ((s.setView j v).view i).Win lo hi' → i ≠ j →
      s.top ≤ lo ∨ ∃ lo' hi'', (s.view i).Win lo' hi'' ∧ lo' ≤ lo := by
    intro j v hw hij
    rw [setView_of_ne s v hij] at hw
    exact .inr ⟨lo, hi', hw, le_refl _⟩
  cases h with
  | refl => exact .inr ⟨lo, hi', hw, le_refl _⟩
  | single h =>
    cases h with
    | see j | drop j =>
      by_cases e : i = j
      · subst e; rw [setView_self] at hw; exact False.elim hw
      · exact hold hw e
    | grant j b a c hl hv =>
      by_cases e : i = j
      · subst e
        rw [setView_self] at hw
        have eb := hi.leaderSeen i b hl hv
        obtain ⟨rfl, -⟩ := hw
        exact .inl (by omega)
      · exact hold hw e
    | install j a c hv | extend j a c c' _ hv _ =>
      change ((s.setView j _).view i).Win lo hi' at hw
      by_cases e : i = j
      · subst e
        rw [setView_self] at hw
        obtain ⟨rfl, -⟩ := hw
        exact .inr ⟨a, c, by rw [hv]; exact ⟨rfl, rfl⟩, le_refl _⟩
      · exact hold hw e
    | advance j a c _ hv _ _ =>
      change ((s.setView j _).view i).Win lo hi' at hw
      by_cases e : i = j
      · subst e
        rw [setView_self] at hw
        obtain ⟨rfl, -⟩ := hw
        exact .inr ⟨a, c, by rw [hv]; exact ⟨rfl, rfl⟩, by omega⟩
      · exact hold hw e
    | _ => exact .inr ⟨lo, hi', hw, le_refl _⟩

end
end Lease
