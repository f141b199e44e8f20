import PD.Core.RegionCache
import PD.Server.RegionHeartbeat

/-! # Concurrent region heartbeats -/

namespace PD
namespace HeartbeatEpochs
open Option SortedMap
open ClusterInfo (plainOptions emptyCluster)

structure System (V : Type) where
  cluster : ClusterInfo V
  calls : SortedMap Nat (HeartbeatCall × Bool)

inductive Label where
  | check (n : Nat) (hb : Heartbeat)
  | save (n : Nat)
  | write (n : Nat)

section
variable {V : Type} (codec : Codec V) (bad : Key → Bool) (opts : StatisticsOptions)

def init (cluster : ClusterInfo V) : System V := ⟨cluster, .empty⟩

def step (s : System V) : Label → Option (System V)
  | .check n hb =>
    if s.calls.lookup n = none then
      match s.cluster.checkHeartbeat hb with
      | .error _ => some s
      | .ok call => some { s with calls := s.calls.insert n (call, false) }
    else none
  | .save n =>
    match s.calls.lookup n with
    | some (call, false) => (s.cluster.saveHeartbeat codec bad call).map fun cluster =>
        ⟨cluster, if call.idle then s.calls.erase n else s.calls.insert n (call, true)⟩
    | _ => none
  | .write n =>
    match s.calls.lookup n with
    | some (call, true) => (s.cluster.writeHeartbeat bad opts call).map fun cluster =>
        ⟨cluster, s.calls.erase n⟩
    | _ => none

def System.at (s : System V) (id : Nat) : Option RegionInfo := s.cluster.regions.getRegion id

def fresh (s : System V) : Label → Bool
  | .write n =>
    match s.calls.lookup n with
    | some (call, true) => !call.flags.saveCache || (s.at call.region.getID).isNone ||
        decide (s.at call.region.getID = call.origin)
    | _ => true
  | _ => true

def Advances (x y : RegionInfo) : Prop :=
  x.getMeta.getVersion ≤ y.getMeta.getVersion ∧ x.getMeta.getConfVer ≤ y.getMeta.getConfVer

end

section
variable {V : Type} {codec : Codec V} {bad : Key → Bool} {opts : StatisticsOptions} {s t : System V}
variable {x y : RegionInfo} {c : ClusterInfo V} {call : HeartbeatCall} {l : Label}

lemma Advances.of_same {o : Option RegionInfo} (hx : o = some x) (hy : o = some y) : Advances x y := by
  obtain rfl := some.inj (hx.symm.trans hy)
  exact ⟨le_refl _, le_refl _⟩

lemma Advances.trans {z : RegionInfo} (h : Advances x y) (h' : Advances y z) : Advances x z :=
  ⟨le_trans h.1 h'.1, le_trans h.2 h'.2⟩

structure Inv (s : System V) : Prop where
  keyed : s.cluster.regions.Keyed
  checked : ∀ n call saved, s.calls.lookup n = some (call, saved) →
    ∀ origin, call.origin = some origin → Advances origin call.region

lemma inv_init {cluster : ClusterInfo V} (h : cluster.regions.Keyed) : Inv (init cluster) :=
  ⟨h, fun _ _ _ hc => by cases hc⟩

lemma checked_of_check {hb : Heartbeat} (h : c.checkHeartbeat hb = .ok call) (origin : RegionInfo)
  (ho : call.origin = some origin) : Advances origin call.region := by
  obtain ⟨rfl, horigin, hcases⟩ := ClusterInfo.checkHeartbeat_ok h
  rw [ho] at horigin
  rcases hcases with ⟨hnone, _⟩ | ⟨o, ho', hst, _⟩
  · rw [hnone] at horigin
    cases horigin
  obtain rfl := some.inj (horigin.trans ho')
  exact ClusterInfo.not_stale hst

lemma write_at {c' : ClusterInfo V} (hk : c.regions.Keyed) (h : c.writeHeartbeat bad opts call = some c') :
  c'.regions.Keyed ∧ ((c'.regions = c.regions) ∨ (call.flags.saveCache = true ∧
    c'.regions.getRegion call.region.getID = some call.region ∧
      ∀ id x, id ≠ call.region.getID → c'.regions.getRegion id = some x → c.regions.getRegion id = some x)) := by
  rcases ClusterInfo.writeHeartbeat_some h with ⟨_, hr, _⟩ | ⟨hf, overlaps, hset, _⟩
  · exact ⟨by rw [hr]; exact hk, .inl hr⟩
  obtain ⟨hk', hself, hother, _⟩ := RegionsInfo.setRegion_keyed hk hset
  simp only [RegionsInfo.getRegion_eq]
  exact ⟨hk', .inr ⟨hf, hself, hother⟩⟩

lemma inv_step (hi : Inv s) (h : step codec bad opts s l = some t) : Inv t := by
  cases l with
  | check =>
    simp only [step] at h
    split at h
    · split at h
      · cases h
        exact hi
      next _ hcall =>
        cases h
        refine ⟨hi.keyed, fun m call' saved hm => ?_⟩
        rw [lookup_insert] at hm
        split at hm
        · cases hm
          exact checked_of_check hcall
        · exact hi.checked m call' saved hm
    · cases h
  | save n =>
    simp only [step] at h
    split at h
    next call hcall =>
      obtain ⟨c', hc', rfl⟩ := map_eq_some_iff.mp h
      obtain ⟨st, ch, rfl⟩ := ClusterInfo.saveHeartbeat_some hc'
      refine ⟨hi.keyed, fun m call' saved hm => ?_⟩
      split at hm
      · exact hi.checked m call' saved (lookup_erase_some.mp hm).2
      rw [lookup_insert] at hm
      split at hm
      · cases hm
        exact hi.checked n call false hcall
      · exact hi.checked m call' saved hm
    · cases h
  | write =>
    simp only [step] at h
    split at h
    next _ _ =>
      obtain ⟨c', hc', rfl⟩ := map_eq_some_iff.mp h
      exact ⟨(write_at hi.keyed hc').1, fun m call' saved hm => hi.checked m call' saved (lookup_erase_some.mp hm).2⟩
    · cases h

lemma advances_step (hi : Inv s) (hf : fresh s l = true) (h : step codec bad opts s l = some t) {id : Nat}
  (hx : s.at id = some x) (hy : t.at id = some y) : Advances x y := by
  cases l with
  | check =>
    have hsame : t.cluster = s.cluster := by
      simp only [step] at h
      split at h
      · split at h
        · cases h
          rfl
        cases h
        rfl
      · cases h
    unfold System.at at hx hy
    rw [hsame] at hy
    exact Advances.of_same hx hy
  | save =>
    simp only [step] at h
    split at h
    · obtain ⟨c', hc', rfl⟩ := map_eq_some_iff.mp h
      obtain ⟨st, ch, rfl⟩ := ClusterInfo.saveHeartbeat_some hc'
      exact Advances.of_same hx hy
    · cases h
  | write n =>
    simp only [step] at h
    split at h
    next call hcall =>
      obtain ⟨c', hc', rfl⟩ := map_eq_some_iff.mp h
      rcases (write_at hi.keyed hc').2 with hsame | ⟨hsave, hself, hother⟩
      · change c'.regions.getRegion id = some y at hy
        rw [hsame] at hy
        exact Advances.of_same hx hy
      by_cases e : id = call.region.getID
      · subst e
        obtain rfl := some.inj (hself.symm.trans hy)
        -- the entry that is overwritten is the one that the call has checked
        refine hi.checked n call true hcall x ?_
        simp only [fresh, hcall, hsave, hx, Bool.not_true, isNone_some, Bool.false_or, decide_eq_true_eq] at hf
        exact hf.symm
      · exact Advances.of_same hx (hother id y e hy)
    · cases h

end

section
variable {V : Type} (codec : Codec V) (bad : Key → Bool) (opts : StatisticsOptions)

def NeverBack (cluster : ClusterInfo V) (ls : List Label) : Prop :=
  ∀ as bs s t, ls = as ++ bs → Runs.exec (step codec bad opts) (init cluster) as = some s →
    Runs.exec (step codec bad opts) s bs = some t →
      ∀ id, Runs.Along (step codec bad opts) (fun u _ => u.at id ≠ none) s bs →
        ∀ x y, s.at id = some x → t.at id = some y → Advances x y

variable {codec bad opts}

lemma advances_exec {bs : List Label} {s t : System V} (hi : Inv s)
  (hf : Runs.Along (step codec bad opts) (fun u l => fresh u l = true) s bs)
  (h : Runs.exec (step codec bad opts) s bs = some t) {id : Nat}
  (hc : Runs.Along (step codec bad opts) (fun u _ => u.at id ≠ none) s bs) {x y : RegionInfo}
  (hx : s.at id = some x) (hy : t.at id = some y) : Advances x y := by
  induction bs generalizing s x with
  | nil =>
    cases h
    exact Advances.of_same hx hy
  | cons l bs ih =>
    obtain ⟨u, hu, hut⟩ := Runs.exec_cons_some.mp h
    have hi' := inv_step hi hu
    cases hz : u.at id with
    | none =>
      -- the id is cached at every step of the run, and at its end
      cases bs with
      | nil =>
        cases hut
        rw [hz] at hy
        cases hy
      | cons => exact absurd hz (hc.2 u hu).1
    | some => exact (advances_step hi hf.1 hu hx hz).trans (ih hi' (hf.2 u hu) hut (hc.2 u hu) hz)

/-- **The epoch of a cached region never goes back** -/
theorem epochs_never_back (cluster : ClusterInfo V) (hk : cluster.regions.Keyed) (ls : List Label)
  (hf : Runs.Along (step codec bad opts) (fun u l => fresh u l = true) (init cluster) ls) :
  NeverBack codec bad opts cluster ls := by
  intro as bs s t hls has hbs id hc x y hx hy
  subst hls
  obtain ⟨ha, hb⟩ := Runs.along_split hf has
  have hi : Inv s := Runs.exec_inv Inv (fun _ _ _ hI _ h => inv_step hI h) (inv_init hk) ha has
  exact advances_exec hi hb hbs hc hx hy

def version (v : Nat) : Heartbeat := ClusterInfo.report 1 [] [] v

theorem epochs_never_back_in_turn : NeverBack Codec.plain noFaults plainOptions emptyCluster
  [.check 0 (version 1), .save 0, .write 0, .check 1 (version 2), .save 1, .write 1] :=
  epochs_never_back emptyCluster RegionsInfo.sound_new.toKeyed _ (by decide +kernel)

def overtaken : List Label :=
  [.check 0 (version 1), .save 0, .write 0, .check 1 (version 2), .check 2 (version 3), .save 1, .save 2, .write 2]

def lastVersion (ls : List Label) : Option (Option Nat) :=
  (Runs.exec (step Codec.plain noFaults plainOptions) (init emptyCluster) ls).map fun s =>
    (s.at 1).map fun x => x.getMeta.getVersion

theorem epochs_back : lastVersion overtaken = some (some 3) ∧ lastVersion (overtaken ++ [.write 1]) = some (some 2) ∧
  ¬ NeverBack Codec.plain noFaults plainOptions emptyCluster (overtaken ++ [.write 1]) := by
  have h3 : lastVersion overtaken = some (some 3) := by decide +kernel
  have h2 : lastVersion (overtaken ++ [.write 1]) = some (some 2) := by decide +kernel
  refine ⟨h3, h2, fun h => ?_⟩
  obtain ⟨s, hs, e3⟩ := map_eq_some_iff.mp h3
  obtain ⟨t, ht, e2⟩ := map_eq_some_iff.mp h2
  obtain ⟨x, hx, ex⟩ := map_eq_some_iff.mp e3
  obtain ⟨y, hy, ey⟩ := map_eq_some_iff.mp e2
  obtain ⟨s', hs', hst⟩ := Runs.exec_split ht
  obtain rfl := some.inj (hs.symm.trans hs')
  have hc : s.at 1 ≠ none := by
    rw [hx]
    exact some_ne_none x
  have hle := (h overtaken [.write 1] s t rfl hs hst 1 ⟨hc, fun _ _ => trivial⟩ x y hx hy).1
  omega

end
end HeartbeatEpochs
end PD
