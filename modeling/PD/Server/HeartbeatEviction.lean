import PD.Core.RegionCache
import PD.Server.RegionHeartbeat

/-! # What a heartbeat evicts -/

namespace PD
namespace ClusterInfo
open Option RegionsInfo

section
variable {V : Type}

def persisted (c : ClusterInfo V) (id : Nat) : Prop :=
  ∃ s kv v, c.storage = some s ∧ s.regionKv = some kv ∧ kv.lookup (regionPath id) = some v

def KeepsNewer (c c' : ClusterInfo V) (region : RegionInfo) : Prop :=
  ∀ id x, c.regions.getRegion id = some x → id ≠ region.getID →
    region.getMeta.Overlaps x.getMeta → region.getMeta.getVersion < x.getMeta.getVersion →
      c'.regions.getRegion id = some x ∧ (c.persisted id → c'.persisted id)

def Harmless (c : ClusterInfo V) (region : RegionInfo) : Prop :=
  ∀ origin, c.regions.getRegion region.getID = some origin → (heartbeatFlags region origin).saveCache = true →
      ∀ id x, c.regions.getRegion id = some x → id ≠ region.getID →
        region.getMeta.Overlaps x.getMeta → x.getMeta.getVersion ≤ region.getMeta.getVersion

variable {codec : Codec V} {bad : Key → Bool} {opts : StatisticsOptions} {c c' : ClusterInfo V}
  {hb : Heartbeat}

lemma not_behind_of_new {call : HeartbeatCall} (hs : c.regions.Sound) (hr : hb.region.getMeta.Nonempty)
  (hcall : c.checkHeartbeat hb = .ok call) (hnone : c.regions.getRegion hb.region.getID = none) {id : Nat}
  {x : RegionInfo} (hx : c.regions.getRegion id = some x) (hov : hb.region.getMeta.Overlaps x.getMeta) :
  x.getMeta.getVersion ≤ hb.region.getMeta.getVersion := by
  obtain ⟨_, _, hcases⟩ := checkHeartbeat_ok hcall
  rcases hcases with ⟨_, _, hle⟩ | ⟨origin, ho, _⟩
  · have hx' : c.regions.cached.lookup id = some x := (getRegion_eq _ _).symm.trans hx
    have hid : x.getMeta.id = id := hs.ids id x hx'
    refine hle x.getMeta ((RegionTree.mem_getOverlaps hs.tiles hr).mpr ⟨?_, hov⟩)
    exact (hs.same _).mpr ⟨x, by rw [hid]; exact hx', rfl⟩
  rw [hnone] at ho
  cases ho

lemma keepsNewer_step (hs : c.regions.Sound) (hr : hb.region.getMeta.Nonempty)
  (h : c.handleRegionHeartbeat codec bad opts hb = some (c', none)) :
  KeepsNewer c c' hb.region ↔ Harmless c hb.region := by
  rcases accepted_cases h with ⟨hreg, hst, origin, ho, _, hf⟩ |
    ⟨call, c1, overlaps, hcall, _, hsave, _, hset, _⟩
  · -- nothing is written
    have hkeeps : KeepsNewer c c' hb.region := fun id x hx _ _ _ =>
      ⟨by rw [hreg]; exact hx, fun ⟨s, kv, v, h1, h2⟩ => ⟨s, kv, v, by rw [hst]; exact h1, h2⟩⟩
    refine ⟨fun _ origin' ho' hf' => ?_, fun _ => hkeeps⟩
    obtain rfl := some.inj (ho.symm.trans ho')
    rw [hf] at hf'
    cases hf'
  obtain ⟨r', e', _, hc, _⟩ := setRegion_sound hs hr
  obtain ⟨rfl, _⟩ := Prod.mk.inj (some.inj (e'.symm.trans hset))
  constructor
  · intro hkeeps origin _ _ id x hx hne hov
    by_contra hlt
    have hx' := (hkeeps id x hx hne hov (not_le.mp hlt)).1
    rw [getRegion_eq, hc] at hx'
    rcases (lookup_setCached hs hr).mp hx' with ⟨e, _⟩ | ⟨_, _, hno⟩
    · exact hne e
    · exact hno hov
  intro hharm id x hx hne hov hlt
  refine absurd hlt (not_lt.mpr ?_)
  cases ho : c.regions.getRegion hb.region.getID with
  | none => exact not_behind_of_new hs hr hcall ho hx hov
  | some origin =>
    obtain ⟨_, _, hcases⟩ := checkHeartbeat_ok hcall
    rcases hcases with ⟨hnone, _⟩ | ⟨origin', ho', _, hflags⟩
    · rw [ho] at hnone
      cases hnone
    obtain rfl := some.inj (ho.symm.trans ho')
    rw [hflags] at hsave
    exact hharm origin ho hsave id x hx hne hov

/-- **A heartbeat evicts no newer region exactly when it is harmless**, at every state reached by
heartbeats with non-empty ranges. -/
theorem keepsNewer_iff (start : ClusterInfo V) (hs : start.regions.Sound) (hbs : List Heartbeat)
  (hrs : ∀ hb ∈ hbs, hb.region.getMeta.Nonempty) (hrun : Runs.exec (heartbeat codec bad opts) start hbs = some c)
  (hr : hb.region.getMeta.Nonempty) (h : c.handleRegionHeartbeat codec bad opts hb = some (c', none)) :
  KeepsNewer c c' hb.region ↔ Harmless c hb.region := by
  have hok : Runs.Along (heartbeat codec bad opts) (fun _ hb => hb.region.getMeta.Nonempty) start hbs :=
    Runs.along_of_forall start hrs
  have hc : c.regions.Sound := Runs.exec_inv (fun c => c.regions.Sound)
    (fun _ _ _ hI hok h => sound_heartbeat hI hok h) hs hok hrun
  exact keepsNewer_step hc hr h

def summary (c : ClusterInfo Region) : List (Nat × Nat) × List (Nat × Nat) :=
  (c.regions.tree.items.map fun r => (r.id, r.getVersion),
    ((c.storage.map fun s => s.base.values).getD []).map fun r => (r.id, r.getVersion))

theorem keepsNewer_split :
  ∃ c c', Runs.exec (heartbeat Codec.plain noFaults plainOptions) emptyCluster [report 1 [] [] 1] = some c ∧
    c.handleRegionHeartbeat Codec.plain noFaults plainOptions (report 2 [5] [] 2) = some (c', none) ∧
    KeepsNewer c c' (report 2 [5] [] 2).region := by
  have hrun : (Runs.exec (heartbeat Codec.plain noFaults plainOptions) emptyCluster
      [report 1 [] [] 1]).map (fun c => ((c.regions.getRegion 2).isNone,
        (c.handleRegionHeartbeat Codec.plain noFaults plainOptions (report 2 [5] [] 2)).map fun r =>
          r.2.isNone)) = some (true, some true) := by decide +kernel
  obtain ⟨c, hc, e⟩ := map_eq_some_iff.mp hrun
  obtain ⟨hnone, e'⟩ := Prod.mk.inj e
  obtain ⟨⟨c', err⟩, h, herr⟩ := map_eq_some_iff.mp e'
  obtain rfl := isNone_iff_eq_none.mp herr
  refine ⟨c, c', hc, h, (keepsNewer_iff emptyCluster sound_new _ (by decide) hc
    (by decide) h).mpr fun origin ho => ?_⟩
  change c.regions.getRegion 2 = some origin at ho
  rw [isNone_iff_eq_none.mp hnone] at ho
  cases ho

theorem heartbeat_evicts_newer : ∃ c c', Runs.exec (heartbeat Codec.plain noFaults plainOptions) emptyCluster
    [report 1 [] [5] 1, report 2 [5] [] 5] = some c ∧
  c.handleRegionHeartbeat Codec.plain noFaults plainOptions (report 1 [] [] 2) = some (c', none) ∧
  summary c = ([(1, 1), (2, 5)], [(1, 1), (2, 5)]) ∧ summary c' = ([(1, 2)], [(1, 2)]) ∧
  ¬ KeepsNewer c c' (report 1 [] [] 2).region := by
  have hbefore : (Runs.exec (heartbeat Codec.plain noFaults plainOptions) emptyCluster
      [report 1 [] [5] 1, report 2 [5] [] 5]).map (fun c => (summary c, c.regions.getRegion 2)) =
      some (([(1, 1), (2, 5)], [(1, 1), (2, 5)]), some (report 2 [5] [] 5).region) := by decide +kernel
  have hafter : ((Runs.exec (heartbeat Codec.plain noFaults plainOptions) emptyCluster
      [report 1 [] [5] 1, report 2 [5] [] 5]).bind fun c => c.handleRegionHeartbeat Codec.plain
        noFaults plainOptions (report 1 [] [] 2)).map (fun r => (summary r.1,
          r.1.regions.getRegion 2, r.2)) = some (([(1, 2)], [(1, 2)]), none, none) := by decide +kernel
  obtain ⟨c, hc, e⟩ := map_eq_some_iff.mp hbefore
  obtain ⟨hsum, hx⟩ := Prod.mk.inj e
  rw [hc] at hafter
  obtain ⟨⟨c', err⟩, h, e'⟩ := map_eq_some_iff.mp hafter
  simp only [Prod.mk.injEq] at e'
  obtain ⟨hsum', hx', rfl⟩ := e'
  refine ⟨c, c', hc, h, hsum, hsum', fun hkeeps => ?_⟩
  have hstill := (hkeeps 2 _ hx (by decide) ⟨[5], by decide, by decide⟩ (by decide)).1
  rw [hx'] at hstill
  cases hstill

end
end ClusterInfo
end PD
