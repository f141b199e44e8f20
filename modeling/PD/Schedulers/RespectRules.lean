import PD.Plugin.UserSchedulers
import PD.Schedulers.HotRegion

/-! # The default schedulers and the user rules -/

namespace PD

def Respects (s : Setting) (r : RegionsInfo) (leaderOnly : Bool) (op : Operator) : Prop :=
  ∀ x, r.getRegion op.regionID = some x → ¬ Guarded s.plugins s.choices.now leaderOnly x.getMeta.startKey

section
variable {s : Setting} {nc : NamespaceCluster} {op : Operator} {leaderOnly : Bool}

lemma Passed.respects (hr : nc.regions.Held) (htwo : 2 ≤ nc.regions.tree.items.length)
  (hs : s.installed = true) (h : Passed s nc nc.Cached leaderOnly op) : Respects s nc.regions leaderOnly op := by
  obtain ⟨x, i, ⟨id, hx⟩, hop, hpass⟩ := h
  intro y hy
  -- ids are unique, so the region that passed is the one of the operator
  rw [hop, RegionsInfo.getID_of_getRegion hr.sound hx, hx] at hy
  cases hy
  exact not_guarded hr.sound htwo hs hx hpass

lemma Respects.leader (h : Respects s nc.regions false op) : Respects s nc.regions true op := by
  rintro x hx ⟨k, info, startKey, endKey, hinfo, -, hrest⟩
  exact h x hx ⟨k, info, startKey, endKey, hinfo, fun hf => (Bool.false_ne_true hf).elim, hrest⟩

end

/-- **Default schedulers respect user rules** -/
theorem default_schedulers_respect_rules (h : HotSetting) (nc : NamespaceCluster) (hr : nc.regions.Held)
  (htwo : 2 ≤ nc.regions.tree.items.length) (hs : h.installed = true) :
  (∀ taint taint' op, balanceLeader h.toSetting nc taint = some (taint', some op) →
    Respects h.toSetting nc.regions true op) ∧
  (∀ op, label h.toSetting nc = some (some op) → Respects h.toSetting nc.regions true op) ∧
  (∀ hitSources hitTargets op, balanceRegion h.toSetting nc hitSources hitTargets = some (some op) →
    Respects h.toSetting nc.regions false op) ∧
  ∀ limits limits' op, hotRegion h nc limits = some (limits', some op) → Respects h.toSetting nc.regions true op ∧
      (op.movesPeer = true → Respects h.toSetting nc.regions false op) := by
  refine ⟨fun taint taint' op hop => ?_, fun op hop => (labelLoop_passed hr hop).respects hr htwo hs,
    fun hitSources hitTargets op hop => ?_, fun limits limits' op hop => ?_⟩
  · have hpassed : Passed h.toSetting nc nc.Cached true op :=
      balanceLeader_passed (fun _ _ _ x hx => randRoleRegion_some hr hx) hop
    exact hpassed.respects hr htwo hs
  · obtain ⟨source, -, x, i, hx, hpass, hmove⟩ := balanceRegion_spec hop
    exact Passed.respects hr htwo hs ⟨x, i, balanceRegionPick_some hr hx, (transferPeer_spec hmove).1, hpass⟩
  have hpassed := (hotRegion_passed hop).respects hr htwo hs
  cases hmoves : op.movesPeer with
  | false =>
    rw [hmoves] at hpassed
    exact ⟨hpassed, fun hf => (Bool.false_ne_true hf).elim⟩
  | true =>
    rw [hmoves] at hpassed
    exact ⟨hpassed.leader, fun _ => hpassed⟩

def ledAtM : List RegionsInfo.Op :=
  [.set ⟨⟨1, [], [109], some ⟨1, 1⟩, [⟨11, 1, false⟩, ⟨12, 2, false⟩]⟩, some ⟨11, 1, false⟩, [], [], 0, 0, 10, 100⟩,
    .set ⟨⟨2, [109], [], some ⟨1, 1⟩, [⟨21, 1, false⟩, ⟨22, 2, false⟩]⟩, some ⟨21, 1, false⟩, [], [], 0, 0, 10, 100⟩]

def ruledFromM (n : Nat) : HotSetting where
  installed := true
  plugins := (Reload.leaderFile [("6d", "")]).pluginsMap
  measures := ⟨0, id, fun _ store _ => store.leaderScore⟩
  running := []
  clock := 0
  choices := plainChoices 50 n
  hot := ⟨id, fun _ _ _ => 1⟩
  threshold := 0
  readStats := []
  writeStats := []
  hotRegionCount := 0
  leaderCount := 0
  hotRegionScheduleLimit := 1
  leaderScheduleLimit := 1
  shuffle := fun _ l => l
  shuffle_perm := fun _ l => .refl l

def unbalanced (r : RegionsInfo) : NamespaceCluster := newNamespaceCluster
    { UserScheduler.clusterIn r .up [] with
      stores := (SortedMap.empty.insert 1 { UserScheduler.storeIn .up 1 with leaderScore := some 20 }).insert 2
        { UserScheduler.storeIn .up 2 with leaderScore := some 0 } }
    UserScheduler.globalOnly "global"

theorem default_schedulers_respect_rules_ledAtM : ∃ r op, Runs.exec RegionsInfo.step .new ledAtM = some r ∧
  balanceLeader (ruledFromM 0).toSetting (unbalanced r) [] = some ([], some op) ∧ op.regionID = 1 ∧
  (balanceLeader (ruledFromM 1).toSetting (unbalanced r) []).map Prod.snd = some none ∧
  Respects (ruledFromM 0).toSetting r true op := by
  have hrun : (Runs.exec RegionsInfo.step .new ledAtM).map (fun r =>
      (r.tree.items.length, balanceLeader (ruledFromM 0).toSetting (unbalanced r) [],
        (balanceLeader (ruledFromM 1).toSetting (unbalanced r) []).map Prod.snd)) =
      some (2, some ([], some ⟨"balance-leader", 1, some ⟨1, 1⟩, .opBalance ||| .opLeader, [.transferLeader 1 2], 0,
        none, .normalPriority⟩), some none) := by
    decide +kernel
  obtain ⟨r, hr, he⟩ := Option.map_eq_some_iff.mp hrun
  obtain ⟨hlen, he⟩ := Prod.mk.inj he
  obtain ⟨hop, hnone⟩ := Prod.mk.inj he
  have hinv : r.Inv := RegionsInfo.inv_exec (by decide) hr
  exact ⟨r, _, hr, hop, rfl, hnone, (default_schedulers_respect_rules (ruledFromM 0) (unbalanced r) hinv.toHeld
    (le_of_eq hlen.symm) rfl).1 _ _ _ hop⟩

end PD
