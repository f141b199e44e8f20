import PD.Server.TsoWindows

/-! # The first timestamp of a leader -/

namespace PD.Tso
open Words
variable {now : Int}

lemma unixNano_zeroTime : unixNano zeroTime = -6795364578871345152 := by
  show wrap zeroTime = _
  rw [← wrap_add_mul zeroTime 3]
  exact wrap_eq (by decide) (by decide)

lemma sub_zeroTime_early (h0 : 0 ≤ now) (h : now < 2428007457983430656) :
  subTimeByWallClock now zeroTime = now + 6795364578871345152 := by
  show wrap (wrap now - unixNano zeroTime) = _
  rw [unixNano_zeroTime, wrap_wrap_sub]
  exact (wrap_eq (by omega) (by omega)).trans (by omega)

lemma sub_zeroTime_late (h1 : now < 2^63) (h : 2428007457983430656 ≤ now) :
  subTimeByWallClock now zeroTime = now + 6795364578871345152 - 2^64 := by
  show wrap (wrap now - unixNano zeroTime) = _
  rw [unixNano_zeroTime, wrap_wrap_sub, ← wrap_add_mul _ (-1)]
  exact (wrap_eq (by omega) (by omega)).trans (by omega)

lemma syncNext_saved {last : Int} (h0 : 0 ≤ now) (h1 : now < 2^63) (h2 : 0 ≤ last) (h3 : last < 2^63) :
  now ≤ syncNext last now ∧ last + millisecond ≤ syncNext last now := by
  unfold syncNext
  rw [subTimeByWallClock_of_near (by omega) (by omega)]
  have hg : updateTimestampGuard = millisecond := rfl
  split <;> omega

lemma syncNext_zeroTime (h0 : 0 ≤ now) (h1 : now < 2^63) :
  now ≤ syncNext zeroTime now ↔ now < 2428007457983430656 := by
  have hg : updateTimestampGuard = 10^6 := rfl
  have hz : zeroTime = -62135596800 * 10^9 := rfl
  unfold syncNext
  by_cases h : now < 2428007457983430656
  · rw [sub_zeroTime_early h0 h, if_neg (by omega)]
    simp [h]
  rw [sub_zeroTime_late h1 (by omega), if_pos (by omega)]
  omega

/-- **The first timestamp.** -/
theorem first_timestamp_iff (now : Int) (h0 : 0 ≤ now) (h1 : now < 2^63) (last : Option Int)
  (hlast : ∀ l, last = some l → 0 ≤ l ∧ l < 2^63) :
  ∃ next, (loadTimestamp (last.map timestampBytes)).map (syncNext · now) = some next ∧
    ((now ≤ next ∧ ∀ l, last = some l → l + millisecond ≤ next) ↔ (last = none → now < 2428007457983430656)) := by
  cases last with
  | none =>
    refine ⟨syncNext zeroTime now, rfl, ?_⟩
    rw [syncNext_zeroTime h0 h1]
    simp
  | some l =>
    obtain ⟨h2, h3⟩ := hlast l rfl
    refine ⟨syncNext l now, ?_, ?_⟩
    · show (loadTimestamp (some (timestampBytes l))).map _ = _
      rw [loadTimestamp_timestampBytes h2 h3, Option.map_some]
    have hspec := syncNext_saved h0 h1 h2 h3
    simp [hspec]

theorem first_timestamp_iff_saved : ∃ next,
  (loadTimestamp ((some 5).map timestampBytes)).map (syncNext · 3) = some next ∧
    ((3 ≤ next ∧ ∀ l, some 5 = some l → l + millisecond ≤ next) ↔
      ((some 5 : Option Int) = none → (3 : Int) < 2428007457983430656)) := by
  refine first_timestamp_iff 3 (by omega) (by omega) (some 5) ?_
  intro l hl
  cases hl
  omega

theorem first_timestamp_behind :
  (loadTimestamp none).map (syncNext · 2428007457983430656) = some (zeroTime + millisecond) ∧
    zeroTime + millisecond < 2428007457983430656 := by
  decide

end PD.Tso
