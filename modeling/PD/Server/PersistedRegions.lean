import PD.Core.LoadRegions
import PD.Server.RegionHeartbeat

/-! # Cached and persisted regions -/

namespace PD
open Option SortedMap RegionsInfo

structure Heartbeat.Storable (hb : Heartbeat) : Prop where
  range : hb.region.getMeta.Nonempty
  id : hb.region.getID < maxUint64

def Heartbeat.Agree (a b : Heartbeat) : Prop :=
  a.region.getID = b.region.getID → a.region.getMeta.getVersion = b.region.getMeta.getVersion →
    a.region.getMeta.getConfVer = b.region.getMeta.getConfVer → a.region.getMeta = b.region.getMeta

instance (hb : Heartbeat) : Decidable hb.Storable :=
  decidable_of_iff (hb.region.getMeta.Nonempty ∧ hb.region.getID < maxUint64)
    ⟨fun h => ⟨h.1, h.2⟩, fun h => ⟨h.range, h.id⟩⟩

instance (a b : Heartbeat) : Decidable (a.Agree b) := inferInstanceAs (Decidable (_ → _ → _ → _))

namespace ClusterInfo

section
variable {V : Type} (codec : Codec V)

def metas (r : RegionsInfo) : SortedMap Nat Region := r.cached.mapVal RegionInfo.getMeta

structure Persisted (reported : List Heartbeat) (rs : Option (RegionStorage V)) (c : ClusterInfo V) :
    Prop where
  sound : c.regions.Sound
  ids : ∀ id x, c.regions.cached.lookup id = some x → id < maxUint64
  reports : ∀ id x, c.regions.cached.lookup id = some x → ∃ hb ∈ reported, hb.region.getMeta = x.getMeta
  storage : ∃ base, c.storage = some ⟨base, rs, false⟩ ∧ Holds codec base (metas c.regions)

variable {codec} {opts : StatisticsOptions} {c c' : ClusterInfo V} {hb : Heartbeat}
  {call : HeartbeatCall} {base : Kv V} {rs : Option (RegionStorage V)}
variable {reported : List Heartbeat}

lemma saveHeartbeat_default (hst : c.storage = some ⟨base, rs, false⟩)
  (h : c.saveHeartbeat codec noFaults call = some c') :
  c'.storage = some ⟨if call.flags.saveKV then base.insert (regionPath call.region.getID)
    (codec.marshal call.region.getMeta) else base, rs, false⟩ := by
  unfold saveHeartbeat at h
  split at h
  next hkv =>
    rw [hst] at h
    cases h
    rw [if_pos hkv]
    rfl
  next hkv =>
    cases h
    rw [if_neg hkv]
    exact hst

lemma deleteOverlaps_default (overlaps : List Region) (base : Kv V) (rs : Option (RegionStorage V)) :
  deleteOverlaps noFaults (some ⟨base, rs, false⟩) overlaps =
    some (some ⟨overlaps.foldl (fun kv o => kv.erase (regionPath o.id)) base, rs, false⟩) := by
  unfold deleteOverlaps
  have hfold : overlaps.foldlM (deleteOverlap noFaults) (⟨base, rs, false⟩ : Storage V) =
      some ⟨overlaps.foldl (fun kv o => kv.erase (regionPath o.id)) base, rs, false⟩ := by
    induction overlaps generalizing base with
    | nil => rfl
    | cons o _ ih =>
      rw [List.foldlM_cons]
      exact ih (base.erase (regionPath o.id))
  simp only [hfold, map_some]

lemma saveHeartbeat_ok (codec : Codec V) (call : HeartbeatCall) (hst : c.storage = some ⟨base, rs, false⟩) :
  ∃ c', c.saveHeartbeat codec noFaults call = some c' := by
  unfold saveHeartbeat
  split
  · rw [hst]
    exact ⟨_, rfl⟩
  · exact ⟨c, rfl⟩

lemma writeHeartbeat_ok (opts : StatisticsOptions) (hs : c.regions.Sound) (hr : call.region.getMeta.Nonempty)
  (hst : c.storage = some ⟨base, rs, false⟩) : ∃ c', c.writeHeartbeat noFaults opts call = some c' := by
  obtain ⟨regions, hset, _⟩ := setRegion_sound hs hr
  have hcache : ∀ c1 : ClusterInfo V, c1.regions = c.regions → c1.storage = c.storage →
      ∃ c', c1.writeCache noFaults call = some c' := by
    intro c1 h1 h2
    unfold writeCache
    rw [h1, h2, hset, hst, bind_some, deleteOverlaps_default]
    exact ⟨_, rfl⟩
  unfold writeHeartbeat
  cases call.flags.saveCache with
  | false => exact ⟨_, rfl⟩
  | true =>
    cases call.flags.isNew with
    | false =>
      obtain ⟨c', h⟩ := hcache c rfl rfl
      exact ⟨_, congrArg (Option.map _) h⟩
    | true =>
      obtain ⟨c', h⟩ := hcache { c with prepareChecker := c.prepareChecker.collect call.region } rfl rfl
      exact ⟨_, congrArg (Option.map _) h⟩

lemma heartbeat_ok (codec : Codec V) (opts : StatisticsOptions) (hs : c.regions.Sound)
  (hr : hb.region.getMeta.Nonempty) (hst : c.storage = some ⟨base, rs, false⟩) :
  ∃ c' e, c.handleRegionHeartbeat codec noFaults opts hb = some (c', e) := by
  unfold handleRegionHeartbeat
  cases hcheck : c.checkHeartbeat hb with
  | error e => exact ⟨c, some e, rfl⟩
  | ok call =>
    obtain ⟨hhb, _, _⟩ := checkHeartbeat_ok hcheck
    obtain ⟨c1, h1⟩ := saveHeartbeat_ok codec call hst
    obtain ⟨storage, changed, e1⟩ := saveHeartbeat_some h1
    have hst1 := saveHeartbeat_default hst h1
    have hs1 : c1.regions.Sound := by rw [e1]; exact hs
    have hr1 : call.region.getMeta.Nonempty := by rw [hhb]; exact hr
    obtain ⟨c2, h2⟩ := writeHeartbeat_ok opts hs1 hr1 hst1
    show ∃ c' e, (c.saveHeartbeat codec noFaults call).bind _ = some (c', e)
    rw [h1, bind_some]
    cases call.idle with
    | true => exact ⟨c1, none, rfl⟩
    | false =>
      rw [h2]
      exact ⟨c2, none, rfl⟩

lemma metas_setCached {r : RegionsInfo} (hs : r.Sound) {region : RegionInfo} (hr : region.getMeta.Nonempty)
  {r' : RegionsInfo} (hc : r'.cached = r.setCached region (r.evicted region)) :
  metas r' = (r.evicted region).foldl (fun m o => m.erase o.id) ((metas r).insert region.getID region.getMeta) := by
  unfold metas
  apply ext_lookup
  intro id
  rw [lookup_mapVal, hc, lookup_foldl_erase, RegionsInfo.setCached, lookup_insert, lookup_insert, lookup_foldl_erase,
    lookup_mapVal]
  by_cases e : id = region.getID
  · rw [if_pos e, if_pos e, if_neg]
    · rfl
    intro ⟨o, ho, eo⟩
    exact ((mem_evicted hs hr).mp ho).2.1 (eo.trans e)
  rw [if_neg e, if_neg e]
  split <;> rfl

lemma holds_saved (hp : Persisted codec reported rs c) (hmem : hb ∈ reported)
  (hagree : ∀ a ∈ reported, ∀ b ∈ reported, a.Agree b) (hid : hb.region.getID < 2^64)
  (hst : c.storage = some ⟨base, rs, false⟩) (hkv : Holds codec base (metas c.regions))
  (hcall : c.checkHeartbeat hb = .ok call) (hsave : c.saveHeartbeat codec noFaults call = some c') :
  ∃ base', c'.storage = some ⟨base', rs, false⟩ ∧
    Holds codec base' ((metas c.regions).insert hb.region.getID hb.region.getMeta) := by
  obtain ⟨rfl, _, hcases⟩ := checkHeartbeat_ok hcall
  refine ⟨_, saveHeartbeat_default hst hsave, ?_⟩
  cases hf : call.flags.saveKV with
  | true => exact hkv.insert hid
  | false =>
    -- the epoch is the cached one, so the region is stored already
    rcases hcases with ⟨_, hflags, _⟩ | ⟨origin, ho, hstale, hflags⟩
    · rw [hflags] at hf
      cases hf
    have ho' : c.regions.cached.lookup call.region.getID = some origin := (getRegion_eq _ _).symm.trans ho
    obtain ⟨hver, hconf⟩ := not_stale hstale
    rw [hflags] at hf
    unfold heartbeatFlags at hf
    simp only [Bool.or_eq_false_iff, decide_eq_false_iff_not, not_lt] at hf
    obtain ⟨hb', hmem', emeta⟩ := hp.reports _ origin ho'
    have horigin : hb'.region.getMeta = call.region.getMeta := by
      refine hagree hb' hmem' call.toHeartbeat hmem ?_ ?_ ?_
      · show hb'.region.getMeta.id = _
        rw [emeta]
        exact hp.sound.ids _ origin ho'
      · rw [emeta]
        exact le_antisymm hver hf.1.1
      rw [emeta]
      exact le_antisymm hconf hf.1.2
    have hlook : (metas c.regions).lookup call.region.getID = some call.region.getMeta := by
      unfold metas
      rw [lookup_mapVal, ho', ← horigin, emeta]
      rfl
    rw [insert_of_lookup hlook]
    exact hkv

lemma persisted_step (opts : StatisticsOptions) (hp : Persisted codec reported rs c) (hmem : hb ∈ reported)
  (hagree : ∀ a ∈ reported, ∀ b ∈ reported, a.Agree b) (hb' : hb.Storable) :
  ∃ c', c.heartbeat codec noFaults opts hb = some c' ∧ Persisted codec reported rs c' := by
  obtain ⟨base, hst, hkv⟩ := hp.storage
  obtain ⟨c', e, h⟩ := heartbeat_ok codec opts hp.sound hb'.range hst
  refine ⟨c', by unfold heartbeat; rw [h]; rfl, ?_⟩
  cases e with
  | some =>
    obtain rfl := rejected_eq h
    exact hp
  | none =>
    rcases accepted_cases h with ⟨hreg, hst', _⟩ |
      ⟨call, c1, overlaps, hcall, _, _, hsave, hset, hdel⟩
    · exact ⟨by rw [hreg]; exact hp.sound, by rw [hreg]; exact hp.ids, by rw [hreg]; exact hp.reports,
        base, hst'.trans hst, by rw [hreg]; exact hkv⟩
    obtain ⟨r', e', hs', hc, _⟩ := setRegion_sound hp.sound hb'.range
    obtain ⟨rfl, rfl⟩ := Prod.mk.inj (some.inj (e'.symm.trans hset))
    have hid : hb.region.getID < 2^64 := lt_of_lt_of_le hb'.id (by decide)
    obtain ⟨base1, hst1, hkv1⟩ := holds_saved hp hmem hagree hid hst hkv hcall hsave
    have hlook : ∀ id x, c'.regions.cached.lookup id = some x →
        (id = hb.region.getID ∧ x = hb.region) ∨ c.regions.cached.lookup id = some x := by
      intro id x hx
      rw [hc] at hx
      rcases (lookup_setCached hp.sound hb'.range).mp hx with h1 | ⟨_, h2, _⟩
      · exact .inl h1
      · exact .inr h2
    have hev : ∀ o ∈ c.regions.evicted hb.region, o.id < 2^64 := by
      intro o ho
      obtain ⟨hm, _, _⟩ := (mem_evicted hp.sound hb'.range).mp ho
      obtain ⟨x, hx, _⟩ := (hp.sound.same o).mp hm
      exact lt_of_lt_of_le (hp.ids _ x hx) (by decide)
    refine ⟨hs', fun id x hx => ?_, fun id x hx => ?_, ?_⟩
    · rcases hlook id x hx with ⟨rfl, _⟩ | hx
      · exact hb'.id
      · exact hp.ids id x hx
    · rcases hlook id x hx with ⟨_, rfl⟩ | hx
      · exact ⟨hb, hmem, rfl⟩
      · exact hp.reports id x hx
    rw [hst1, deleteOverlaps_default] at hdel
    refine ⟨_, (some.inj hdel).symm, ?_⟩
    rw [metas_setCached hp.sound hb'.range hc]
    exact hkv1.eraseAll hev

lemma persisted_exec (opts : StatisticsOptions) (hbs : List Heartbeat) (hp : Persisted codec reported rs c)
  (hsub : ∀ hb ∈ hbs, hb ∈ reported ∧ hb.Storable) (hagree : ∀ a ∈ reported, ∀ b ∈ reported, a.Agree b) :
  ∃ c', Runs.exec (heartbeat codec noFaults opts) c hbs = some c' ∧ Persisted codec reported rs c' := by
  induction hbs generalizing c with
  | nil => exact ⟨c, rfl, hp⟩
  | cons hb _ ih =>
    obtain ⟨hmem, hb'⟩ := hsub hb List.mem_cons_self
    obtain ⟨c1, h1, hp1⟩ := persisted_step opts hp hmem hagree hb'
    obtain ⟨c2, h2, hp2⟩ := ih hp1 fun x hx => hsub x (List.mem_cons_of_mem _ hx)
    exact ⟨c2, Runs.exec_cons_some.mpr ⟨c1, h1, h2⟩, hp2⟩

lemma persisted_new (stores : StoresInfo) (regionStats : Option RegionStatistics) (hbase : Holds codec base .empty) :
  Persisted codec reported rs (newClusterInfo stores (some ⟨base, rs, false⟩) regionStats) where
  sound := sound_new
  ids := fun _ _ h => by cases h
  reports := fun _ _ h => by cases h
  storage := ⟨base, rfl, hbase⟩

lemma Persisted.load (hp : Persisted codec reported rs c)
  (hkv : Holds codec base (metas c.regions)) {loadFails : Nat → Nat → Bool}
  (hread : ∀ calls limit, limit ≤ 2 * minKVRangeLimit → loadFails calls limit = false) {fuel : Nat}
  (hfuel : (metas c.regions).size + maxKVRangeLimit < fuel) :
  ∃ loaded, Storage.loadRegions codec noFaults loadFails fuel ⟨base, rs, false⟩ .new = .ok loaded ∧
    metas loaded.2 = metas c.regions := by
  have hlook : ∀ id m, (metas c.regions).lookup id = some m →
      ∃ x, c.regions.cached.lookup id = some x ∧ x.getMeta = m := by
    intro id m hm
    unfold metas at hm
    rw [lookup_mapVal] at hm
    exact map_eq_some_iff.mp hm
  have hS : Storable (metas c.regions) := by
    refine ⟨hkv.ids, fun id m hm => ?_⟩
    obtain ⟨x, hx, rfl⟩ := hlook id m hm
    exact hp.sound.range id x hx
  have hmax : ∀ id m, (metas c.regions).lookup id = some m → id < maxUint64 := by
    intro id m hm
    obtain ⟨x, hx, _⟩ := hlook id m hm
    exact hp.ids id x hx
  have hdisj : ∀ id m id' m', (metas c.regions).lookup id = some m →
      (metas c.regions).lookup id' = some m' → id ≠ id' → ¬ m.Overlaps m' := by
    intro id m id' m' hm hm' hne hov
    have hitem : ∀ id m, (metas c.regions).lookup id = some m → m ∈ c.regions.tree.items := by
      intro id m hm
      obtain ⟨x, hx, ex⟩ := hlook id m hm
      exact (hp.sound.same m).mpr ⟨x, by rw [(hkv.ids id m hm).1]; exact hx, ex⟩
    have e := RegionTree.eq_of_overlaps hp.sound.tiles (hitem id m hm) (hitem id' m' hm') hov
    exact hne (by rw [← (hkv.ids id m hm).1, ← (hkv.ids id' m' hm').1, e])
  obtain ⟨l, hl⟩ := loadRegions_ok hS hkv hread hfuel
  refine ⟨(⟨l.kv, rs, false⟩, l.regions), ?_, (loaded_loadRegions hS hkv hl).metas_eq hS hmax hdisj⟩
  unfold Storage.loadRegions Storage.regionKv
  simp only [Bool.false_eq_true, if_false, hl]
  rfl

/-- **The storage holds exactly the cached regions** -/
theorem persisted_regions (stores : StoresInfo) (regionStats : Option RegionStatistics) (base : Kv V)
  (rs : Option (RegionStorage V)) (hbase : Holds codec base .empty) (hbs : List Heartbeat)
  (hst : ∀ hb ∈ hbs, hb.Storable) (hagree : ∀ a ∈ hbs, ∀ b ∈ hbs, a.Agree b) :
  ∃ c base', Runs.exec (heartbeat codec noFaults opts)
      (newClusterInfo stores (some ⟨base, rs, false⟩) regionStats) hbs = some c ∧
    c.storage = some ⟨base', rs, false⟩ ∧ Holds codec base' (metas c.regions) ∧
    ∀ loadFails : Nat → Nat → Bool, (∀ calls limit, limit ≤ 2 * minKVRangeLimit → loadFails calls limit = false) →
      ∀ fuel, (metas c.regions).size + maxKVRangeLimit < fuel →
        ∃ loaded, Storage.loadRegions codec noFaults loadFails fuel ⟨base', rs, false⟩ .new =
          .ok loaded ∧ metas loaded.2 = metas c.regions := by
  obtain ⟨c, hrun, hp⟩ := persisted_exec opts hbs (persisted_new stores regionStats hbase)
    (fun hb h => ⟨h, hst hb h⟩) hagree
  obtain ⟨base', hstorage, hkv⟩ := hp.storage
  exact ⟨c, base', hrun, hstorage, hkv, fun _ hread _ hfuel => hp.load hkv hread hfuel⟩

theorem persisted_regions_split : ∃ c base', Runs.exec (heartbeat Codec.plain noFaults plainOptions)
    (newClusterInfo .empty (some ⟨.empty, none, false⟩) none)
    [report 1 [] [] 1, report 2 [5] [] 2, report 1 [] [5] 2] = some c ∧
  (metas c.regions).keys = [1, 2] ∧ c.storage = some ⟨base', none, false⟩ ∧
  Holds Codec.plain base' (metas c.regions) := by
  obtain ⟨c, base', hrun, hst, hkv, _⟩ := @persisted_regions Region Codec.plain plainOptions
    .empty none .empty none holds_empty [report 1 [] [] 1, report 2 [5] [] 2, report 1 [] [5] 2]
    (by decide) (by decide)
  have hkeys : (Runs.exec (heartbeat Codec.plain noFaults plainOptions)
      (newClusterInfo .empty (some ⟨.empty, none, false⟩) none)
      [report 1 [] [] 1, report 2 [5] [] 2, report 1 [] [5] 2]).map (fun c => (metas c.regions).keys) =
      some [1, 2] := by decide +kernel
  rw [hrun] at hkeys
  exact ⟨c, base', hrun, some.inj hkeys, hst, hkv⟩

end
end ClusterInfo
end PD
