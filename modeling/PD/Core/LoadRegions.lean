import PD.Core.RegionCache
import PD.Core.Storage

/-! # Loading the regions from the storage -/

set_option linter.unusedSectionVars false

namespace PD
open List SortedMap RegionsInfo

def maxKVRangeLimit : Nat := 10000
def minKVRangeLimit : Nat := 100

inductive LoadError where
  | load
  | unmarshal
  | remove
  | panic
  | fuel
  deriving DecidableEq

structure Loading (V : Type) where
  kv : Kv V
  regions : RegionsInfo
  nextID : Nat
  deleted : List (Region × Region)

section
variable {V : Type} (codec : Codec V) (bad : Key → Bool) (loadFails : Nat → Nat → Bool)

def deleteItem (region : Region) (s : Loading V) (item : Region) : Except LoadError (Loading V) :=
  match Kv.deleteRegion bad s.kv item with
  | none => .error .remove
  | some kv => .ok { s with kv := kv, deleted := s.deleted ++ [(region, item)] }

def loadOne (s : Loading V) (value : V) : Except LoadError (Loading V) :=
  match codec.unmarshal value with
  | none => .error .unmarshal
  | some region =>
    match s.regions.setRegion (newRegionInfo region none) with
    | none => .error .panic
    | some (regions, overlaps) =>
      overlaps.foldlM (deleteItem bad region)
        { s with regions := regions, nextID := (region.id + 1) % 2^64 }

def loadLoop : Nat → Nat → Nat → Loading V → Except LoadError (Loading V)
  | 0, _, _, _ => .error .fuel
  | fuel+1, calls, rangeLimit, s =>
    if loadFails calls rangeLimit then
      if rangeLimit / 2 ≥ minKVRangeLimit then loadLoop fuel (calls+1) (rangeLimit / 2) s
      else .error .load
    else
      let res := Kv.loadRange s.kv (regionPath s.nextID) (regionPath maxUint64) rangeLimit
      match res.foldlM (loadOne codec bad) s with
      | .error e => .error e
      | .ok s' => if res.length < rangeLimit then .ok s' else loadLoop fuel (calls+1) rangeLimit s'

def loadRegions (fuel : Nat) (kv : Kv V) (regions : RegionsInfo) : Except LoadError (Loading V) :=
  loadLoop codec bad loadFails fuel 0 maxKVRangeLimit ⟨kv, regions, 0, []⟩

def Storage.loadRegions (fuel : Nat) (s : Storage V) (regions : RegionsInfo) :
  Except LoadError (Storage V × RegionsInfo) :=
  match s.regionKv with
  | none => .error .panic
  | some kv => (PD.loadRegions codec bad loadFails fuel kv regions).map fun l =>
      (s.setRegionKv l.kv, l.regions)

def Stays (done : List Region) (x : Region) : Prop := x ∈ done ∧ ∀ y ∈ done, x.id < y.id → ¬ y.Overlaps x

def Displaces (done : List Region) (y x : Region) : Prop := x ∈ done ∧ y ∈ done ∧ x.id < y.id ∧ y.Overlaps x ∧
    ∀ z ∈ done, x.id < z.id → z.id < y.id → ¬ z.Overlaps x

section
variable {done : List Region} {r : Region} (hlast : ∀ x ∈ done, x.id < r.id)
include hlast

lemma stays_snoc {x : Region} : Stays (done ++ [r]) x ↔ x = r ∨ (Stays done x ∧ ¬ r.Overlaps x) := by
  unfold Stays
  simp only [mem_append, mem_singleton]
  constructor
  · intro ⟨hx, hno⟩
    rcases hx with hx | rfl
    · exact .inr ⟨⟨hx, fun y hy => hno y (.inl hy)⟩, hno r (.inr rfl) (hlast x hx)⟩
    · exact .inl rfl
  intro h
  rcases h with rfl | ⟨⟨hx, hno⟩, hr⟩
  · refine ⟨.inr rfl, fun y hy hlt => ?_⟩
    rcases hy with hy | rfl
    · exact absurd hlt (lt_asymm (hlast y hy))
    · exact absurd hlt (lt_irrefl _)
  refine ⟨.inl hx, fun y hy hlt => ?_⟩
  rcases hy with hy | rfl
  · exact hno y hy hlt
  · exact hr

lemma displaces_snoc {y x : Region} :
  Displaces (done ++ [r]) y x ↔ Displaces done y x ∨ (y = r ∧ Stays done x ∧ r.Overlaps x) := by
  unfold Displaces Stays
  simp only [mem_append, mem_singleton]
  constructor
  · intro ⟨hx, hy, hlt, hov, hfirst⟩
    rcases hy with hy | rfl
    · rcases hx with hx | rfl
      · exact .inl ⟨hx, hy, hlt, hov, fun z hz => hfirst z (.inl hz)⟩
      · exact absurd hlt (lt_asymm (hlast y hy))
    rcases hx with hx | rfl
    · exact .inr ⟨rfl, ⟨hx, fun z hz hxz => hfirst z (.inl hz) hxz (hlast z hz)⟩, hov⟩
    · exact absurd hlt (lt_irrefl _)
  intro h
  rcases h with ⟨hx, hy, hlt, hov, hfirst⟩ | ⟨rfl, ⟨hx, hno⟩, hov⟩
  · refine ⟨.inl hx, .inl hy, hlt, hov, fun z hz hxz hzy => ?_⟩
    rcases hz with hz | rfl
    · exact hfirst z hz hxz hzy
    · exact absurd hzy (lt_asymm (hlast y hy))
  refine ⟨.inl hx, .inr rfl, hlast x hx, hov, fun z hz hxz hzy => ?_⟩
  rcases hz with hz | rfl
  · exact hno z hz hxz
  · exact absurd hzy (lt_irrefl _)

end
end

section
variable {V : Type} {codec : Codec V} {bad : Key → Bool}

lemma foldlM_deleteItem (region : Region) (items : List Region) (s : Loading V) :
    items.foldlM (deleteItem bad region) s = if items.any (fun o => bad (regionPath o.id)) then
      .error .remove else .ok { s with
        kv := items.foldl (fun kv o => kv.erase (regionPath o.id)) s.kv
        deleted := s.deleted ++ items.map fun o => (region, o) } := by
  induction items generalizing s with
  | nil => simp [pure, Except.pure]
  | cons o items ih =>
    rw [foldlM_cons, any_cons]
    unfold deleteItem Kv.deleteRegion Kv.remove
    cases hb : bad (regionPath o.id) with
    | true => rfl
    | false =>
      show items.foldlM (deleteItem bad region) _ = _
      have happ : s.deleted ++ (region, o) :: items.map (fun o => (region, o)) =
          (s.deleted ++ [(region, o)]) ++ items.map fun o => (region, o) := by
        rw [append_assoc]
        rfl
      rw [ih, Bool.false_or, map_cons, happ]
      rfl

lemma Holds.eraseAll {kv : Kv V} {S : SortedMap Nat Region} (h : Holds codec kv S)
  {items : List Region} (hid : ∀ o ∈ items, o.id < 2^64) :
  Holds codec (items.foldl (fun kv o => kv.erase (regionPath o.id)) kv) (items.foldl (fun c o => c.erase o.id) S) := by
  induction items generalizing kv S with
  | nil => exact h
  | cons o _ ih => exact ih (h.erase (hid o mem_cons_self)) fun o' ho' => hid o' (mem_cons_of_mem _ ho')

lemma loadOne_eq (codec : Codec V) (bad : Key → Bool) {s : Loading V} (h : s.regions.Sound)
  {region : Region} (hr : region.Nonempty) :
  ∃ regions, regions.Sound ∧ regions.cached = s.regions.setCached (newRegionInfo region none)
      (s.regions.evicted (newRegionInfo region none)) ∧ loadOne codec bad s (codec.marshal region) =
      if (s.regions.evicted (newRegionInfo region none)).any (fun o => bad (regionPath o.id)) then .error .remove
      else .ok ⟨(s.regions.evicted (newRegionInfo region none)).foldl
          (fun kv o => kv.erase (regionPath o.id)) s.kv, regions, (region.id + 1) % 2^64,
        s.deleted ++ (s.regions.evicted (newRegionInfo region none)).map fun o => (region, o)⟩ := by
  have hr' : (newRegionInfo region none).getMeta.Nonempty := hr
  obtain ⟨regions, e, hs, hc, _⟩ := setRegion_sound h hr'
  refine ⟨regions, hs, hc, ?_⟩
  unfold loadOne
  simp only [codec.roundTrip, e]
  exact foldlM_deleteItem region _ _

end

section
variable {V : Type} (codec : Codec V)

structure Loaded (S : SortedMap Nat Region) (done todo : List Region) (s : Loading V) : Prop where
  order : loadable S 0 = done ++ todo
  below : ∀ x ∈ done, x.id < s.nextID
  above : ∀ x ∈ todo, s.nextID ≤ x.id
  next : s.nextID ≤ maxUint64
  sound : s.regions.Sound
  fresh : ∀ id x, s.regions.cached.lookup id = some x → x = newRegionInfo x.getMeta none
  cached : ∀ x, x ∈ s.regions.tree.items ↔ Stays done x
  deleted : ∀ y x, (y, x) ∈ s.deleted ↔ Displaces done y x
  stored : ∃ S', Holds codec s.kv S' ∧ ∀ id x, S'.lookup id = some x ↔ S.lookup id = some x ∧ (x ∈ done → Stays done x)

structure Storable (S : SortedMap Nat Region) : Prop where
  ids : ∀ id r, S.lookup id = some r → r.id = id ∧ id < 2^64
  range : ∀ id r, S.lookup id = some r → r.Nonempty

variable {codec} {bad : Key → Bool} {S : SortedMap Nat Region} (hS : Storable S)
variable {x : Region} {page : List Region} {kv : Kv V} {fuel : Nat}
include hS

lemma mem_loadable {n : Nat} : x ∈ loadable S n ↔ S.lookup x.id = some x ∧ n ≤ x.id ∧ x.id < maxUint64 := by
  unfold loadable
  rw [mem_filter, mem_values, Bool.and_eq_true, decide_eq_true_eq, decide_eq_true_eq]
  constructor
  · intro ⟨⟨id, hx⟩, hn, hlt⟩
    rw [(hS.ids id x hx).1]
    exact ⟨hx, (hS.ids id x hx).1 ▸ hn, (hS.ids id x hx).1 ▸ hlt⟩
  intro ⟨hx, hn, hlt⟩
  exact ⟨⟨x.id, hx⟩, hn, hlt⟩

lemma loadable_sorted (n : Nat) : (loadable S n).Pairwise fun a b => a.id < b.id := by
  refine List.Pairwise.filter _ (pairwise_map.mpr (S.sorted.imp_of_mem fun {a b} ha hb hab => ?_))
  rw [(hS.ids a.1 a.2 (mem_entries.mp ha)).1, (hS.ids b.1 b.2 (mem_entries.mp hb)).1]
  exact hab

variable {done todo : List Region} {s s' : Loading V}

lemma Loaded.loadRange_eq (h : Loaded codec S done todo s) (limit : Nat) :
  Kv.loadRange s.kv (regionPath s.nextID) (regionPath maxUint64) limit = (todo.take limit).map codec.marshal := by
  obtain ⟨S', hkv, hS'⟩ := h.stored
  have hsub : Storable S' := ⟨hkv.ids, fun id r hr => hS.range id r ((hS' id r).mp hr).1⟩
  rw [hkv.loadRange h.next]
  congr 2
  have hsorted : todo.Pairwise fun a b => a.id < b.id := (pairwise_append.mp (h.order ▸ loadable_sorted hS 0)).2.1
  refine List.Perm.eq_of_pairwise (fun a b _ _ hab hba => absurd hba (lt_asymm hab))
    (loadable_sorted hsub s.nextID) hsorted ((perm_ext_iff_of_nodup
      ((loadable_sorted hsub s.nextID).imp fun hlt e => absurd (congrArg Region.id e) (ne_of_lt hlt))
      (hsorted.imp fun hlt e => absurd (congrArg Region.id e) (ne_of_lt hlt))).mpr fun x => ?_)
  have hall : x ∈ done ++ todo ↔ S.lookup x.id = some x ∧ 0 ≤ x.id ∧ x.id < maxUint64 := by
    rw [← h.order]
    exact mem_loadable hS
  rw [mem_loadable hsub, hS']
  constructor
  · intro ⟨⟨hx, _⟩, hn, hlt⟩
    rcases mem_append.mp (hall.mpr ⟨hx, Nat.zero_le _, hlt⟩) with hd | ht
    · exact absurd (h.below x hd) (not_lt.mpr hn)
    · exact ht
  intro ht
  obtain ⟨hx, _, hlt⟩ := hall.mp (mem_append_right _ ht)
  exact ⟨⟨hx, fun hd => absurd (h.below x hd) (not_lt.mpr (h.above x ht))⟩, h.above x ht, hlt⟩

lemma stored_snoc {evicted : List Region} {S' : SortedMap Nat Region} (hdone : ∀ o ∈ done, S.lookup o.id = some o)
  (hlast : ∀ y ∈ done, y.id < x.id) (hev : ∀ o, o ∈ evicted ↔ Stays done o ∧ x.Overlaps o)
  (hS' : ∀ id y, S'.lookup id = some y ↔ S.lookup id = some y ∧ (y ∈ done → Stays done y)) (id : Nat) (y : Region) :
  (evicted.foldl (fun m o => m.erase o.id) S').lookup id = some y ↔
    S.lookup id = some y ∧ (y ∈ done ++ [x] → Stays (done ++ [x]) y) := by
  rw [lookup_foldl_erase]
  constructor
  · intro hy
    split at hy
    · cases hy
    next hno =>
      obtain ⟨hy, hst⟩ := (hS' id y).mp hy
      refine ⟨hy, fun hd => (stays_snoc hlast).mpr ?_⟩
      rcases mem_append.mp hd with hd | hd
      · exact .inr ⟨hst hd, fun hov => hno ⟨y, (hev y).mpr ⟨hst hd, hov⟩, (hS.ids id y hy).1⟩⟩
      · exact .inl (mem_singleton.mp hd)
  intro ⟨hy, hst⟩
  -- a loaded region that still stays has stayed before, and the new one does not overlap it
  have hbefore : y ∈ done → Stays done y ∧ ¬ x.Overlaps y := by
    intro hd
    rcases (stays_snoc hlast).mp (hst (mem_append_left _ hd)) with rfl | h
    · exact absurd (hlast y hd) (lt_irrefl _)
    · exact h
  rw [if_neg]
  · exact (hS' id y).mpr ⟨hy, fun hd => (hbefore hd).1⟩
  intro ⟨o, ho, eo⟩
  obtain ⟨hso, hov⟩ := (hev o).mp ho
  have ho' := hdone o hso.1
  rw [eo, hy] at ho'
  cases ho'
  exact (hbefore hso.1).2 hov

lemma loaded_loadOne (h : Loaded codec S done (x :: todo) s)
  (hok : loadOne codec bad s (codec.marshal x) = .ok s') : Loaded codec S (done ++ [x]) todo s' := by
  have hsorted := h.order ▸ loadable_sorted hS 0
  obtain ⟨_, htodo, hcross⟩ := pairwise_append.mp hsorted
  have hlast : ∀ y ∈ done, y.id < x.id := fun y hy => hcross y hy x mem_cons_self
  obtain ⟨hx, _, hmax⟩ := (mem_loadable hS).mp (h.order ▸ mem_append_right _ mem_cons_self : x ∈ loadable S 0)
  have hr : (newRegionInfo x none).getMeta.Nonempty := hS.range _ x hx
  obtain ⟨regions, hs, hc, e⟩ := loadOne_eq codec bad h.sound (hS.range _ x hx)
  rw [e] at hok
  split at hok
  · cases hok
  obtain rfl := Except.ok.inj hok
  have hmod : (x.id + 1) % 2^64 = x.id + 1 := Nat.mod_eq_of_lt (by unfold maxUint64 at hmax; omega)
  have hev : ∀ o, o ∈ s.regions.evicted (newRegionInfo x none) ↔ Stays done o ∧ x.Overlaps o := by
    intro o
    rw [mem_evicted h.sound hr, h.cached]
    constructor
    · exact fun ⟨h1, _, h2⟩ => ⟨h1, h2⟩
    · exact fun ⟨h1, h2⟩ => ⟨h1, ne_of_lt (hlast o h1.1), h2⟩
  have hdone : ∀ o ∈ done, S.lookup o.id = some o := fun o ho =>
    ((mem_loadable hS).mp (h.order ▸ mem_append_left _ ho : o ∈ loadable S 0)).1
  exact {
    order := by rw [h.order, append_assoc]; rfl
    below := by
      intro y hy
      rw [hmod]
      rcases mem_append.mp hy with hy | hy
      · exact Nat.lt_succ_of_lt (hlast y hy)
      · rw [mem_singleton.mp hy]; exact Nat.lt_succ_self _
    above := by
      intro y hy
      rw [hmod]
      exact (pairwise_cons.mp htodo).1 y hy
    next := by
      rw [hmod]
      exact hmax
    sound := hs
    fresh := by
      intro id y hy
      rw [hc] at hy
      rcases (lookup_setCached h.sound hr).mp hy with ⟨_, rfl⟩ | ⟨_, hy, _⟩
      · rfl
      · exact h.fresh id y hy
    cached := by
      intro y
      rw [stays_snoc hlast, ← h.cached]
      refine (mem_items_setRegion h.sound hr hs hc).trans (or_congr Iff.rfl ?_)
      constructor
      · exact fun ⟨h1, _, h2⟩ => ⟨h1, h2⟩
      · exact fun ⟨h1, h2⟩ => ⟨h1, ne_of_lt (hlast y ((h.cached y).mp h1).1), h2⟩
    deleted := by
      intro y z
      rw [displaces_snoc hlast]
      rw [mem_append, h.deleted, List.mem_map]
      refine or_congr Iff.rfl ?_
      constructor
      · intro ⟨o, ho, eo⟩
        cases eo
        exact ⟨rfl, (hev z).mp ho⟩
      intro ⟨ey, hz⟩
      exact ⟨z, (hev z).mpr hz, by rw [ey]⟩
    stored := by
      obtain ⟨S', hkv, hS'⟩ := h.stored
      exact ⟨_, hkv.eraseAll fun o ho => (hS.ids _ o (hdone o ((hev o).mp ho).1.1)).2,
        stored_snoc hS hdone hlast hev hS'⟩ }

lemma loaded_page (h : Loaded codec S done (page ++ todo) s)
  (hok : (page.map codec.marshal).foldlM (loadOne codec bad) s = .ok s') : Loaded codec S (done ++ page) todo s' := by
  induction page generalizing done s with
  | nil =>
    obtain rfl := Except.ok.inj hok
    rw [append_nil]
    exact h
  | cons x _ ih =>
    rw [map_cons, foldlM_cons] at hok
    cases hx : loadOne codec bad s (codec.marshal x) with
    | error =>
      rw [hx] at hok
      cases hok
    | ok =>
      rw [hx] at hok
      have h1 := ih (loaded_loadOne hS h hx) hok
      rwa [append_assoc] at h1

variable {loadFails : Nat → Nat → Bool}

lemma loaded_loadLoop (fuel calls rangeLimit : Nat) (h : Loaded codec S done todo s)
  (hok : loadLoop codec bad loadFails fuel calls rangeLimit s = .ok s') : Loaded codec S (loadable S 0) [] s' := by
  induction fuel generalizing calls rangeLimit done todo s with
  | zero => cases hok
  | succ _ ih =>
    unfold loadLoop at hok
    split at hok
    · split at hok
      · exact ih _ _ h hok
      · cases hok
    simp only [h.loadRange_eq hS] at hok
    split at hok
    · cases hok
    next _ h1 =>
      rw [← take_append_drop rangeLimit todo] at h
      have hpage := loaded_page hS h h1
      split at hok
      next hlen =>
        obtain rfl := Except.ok.inj hok
        rw [length_map, length_take] at hlen
        have hall : todo.length ≤ rangeLimit := by omega
        rw [drop_of_length_le hall, take_of_length_le hall] at hpage
        rw [hpage.order, append_nil]
        exact hpage
      · exact ih _ _ hpage hok

lemma loaded_start (hkv : Holds codec kv S) : Loaded codec S [] (loadable S 0) ⟨kv, .new, 0, []⟩ where
  order := rfl
  below := fun x hx => absurd hx not_mem_nil
  above := fun x _ => Nat.zero_le _
  next := Nat.zero_le _
  sound := sound_new
  fresh := fun id x hx => by cases hx
  cached := fun x => ⟨fun hx => absurd hx not_mem_nil, fun hx => absurd hx.1 not_mem_nil⟩
  deleted := fun y x => ⟨fun hx => absurd hx not_mem_nil, fun hx => absurd hx.1 not_mem_nil⟩
  stored := ⟨S, hkv, fun id x => ⟨fun hx => ⟨hx, fun hd => absurd hd not_mem_nil⟩, And.left⟩⟩

lemma loaded_loadRegions (hkv : Holds codec kv S)
  (hok : loadRegions codec bad loadFails fuel kv .new = .ok s) : Loaded codec S (loadable S 0) [] s :=
  loaded_loadLoop hS fuel 0 maxKVRangeLimit (loaded_start hS hkv) hok

section
variable
  (hone : ∀ {done x todo s}, Loaded codec S done (x :: todo) s → ∃ s', loadOne codec bad s (codec.marshal x) = .ok s')
include hone

lemma page_ok (h : Loaded codec S done (page ++ todo) s) :
  ∃ s', (page.map codec.marshal).foldlM (loadOne codec bad) s = .ok s' := by
  induction page generalizing done s with
  | nil => exact ⟨s, rfl⟩
  | cons x _ ih =>
    obtain ⟨s1, e⟩ := hone h
    obtain ⟨s', hs'⟩ := ih (loaded_loadOne hS h e)
    refine ⟨s', ?_⟩
    rw [map_cons, foldlM_cons, e]
    exact hs'

variable (hread : ∀ calls limit, limit ≤ 2 * minKVRangeLimit → loadFails calls limit = false)
include hread

lemma loadLoop_ok (fuel calls rangeLimit : Nat) (hl : minKVRangeLimit ≤ rangeLimit)
  (hfuel : todo.length + rangeLimit < fuel) (h : Loaded codec S done todo s) :
  ∃ s', loadLoop codec bad loadFails fuel calls rangeLimit s = .ok s' := by
  induction fuel generalizing calls rangeLimit done todo s with
  | zero => omega
  | succ _ ih =>
    unfold loadLoop
    have hmin : minKVRangeLimit = 100 := rfl
    cases hf : loadFails calls rangeLimit with
    | true =>
      have hlong : 2 * minKVRangeLimit < rangeLimit := by
        by_contra hle
        rw [hread calls rangeLimit (not_lt.mp hle)] at hf
        cases hf
      rw [if_pos rfl, if_pos (show minKVRangeLimit ≤ rangeLimit / 2 by omega)]
      exact ih _ _ (by omega) (by omega) h
    | false =>
      rw [if_neg Bool.false_ne_true]
      simp only [h.loadRange_eq hS]
      have happ : Loaded codec S done (todo.take rangeLimit ++ todo.drop rangeLimit) s := by
        rw [take_append_drop]
        exact h
      obtain ⟨s1, h1⟩ := page_ok hS hone happ
      simp only [h1]
      by_cases hlen : ((todo.take rangeLimit).map codec.marshal).length < rangeLimit
      · exact ⟨s1, if_pos hlen⟩
      rw [if_neg hlen]
      rw [length_map, length_take] at hlen
      exact ih _ _ hl (by rw [length_drop]; omega) (loaded_page hS happ h1)

lemma loadRegions_returns (hkv : Holds codec kv S) (hfuel : S.size + maxKVRangeLimit < fuel) :
  ∃ s, loadRegions codec bad loadFails fuel kv .new = .ok s := by
  have hlen : (loadable S 0).length ≤ S.size := by
    rw [size_eq]
    exact length_filter_le _ _
  exact loadLoop_ok hS hone hread fuel 0 maxKVRangeLimit (by decide) (by omega) (loaded_start hS hkv)

end

lemma Loaded.nonempty (h : Loaded codec S done (x :: todo) s) : x.Nonempty := by
  have hx : x ∈ loadable S 0 := by rw [h.order]; simp
  exact hS.range _ x ((mem_loadable hS).mp hx).1

lemma loadRegions_ok (hkv : Holds codec kv S)
  (hread : ∀ calls limit, limit ≤ 2 * minKVRangeLimit → loadFails calls limit = false)
  (hfuel : S.size + maxKVRangeLimit < fuel) : ∃ s, loadRegions codec noFaults loadFails fuel kv .new = .ok s := by
  refine loadRegions_returns hS (fun h => ?_) hread hkv hfuel
  obtain ⟨regions, _, _, e⟩ := loadOne_eq codec noFaults h.sound (h.nonempty hS)
  exact ⟨_, e.trans (if_neg (by simp [noFaults]))⟩

lemma Loaded.evicted_nil
  (hdisj : ∀ id r id' r', S.lookup id = some r → S.lookup id' = some r' → id ≠ id' → ¬ r.Overlaps r')
  (h : Loaded codec S done (x :: todo) s) : s.regions.evicted (newRegionInfo x none) = [] := by
  have hmem : ∀ y ∈ done ++ x :: todo, S.lookup y.id = some y := fun y hy => ((mem_loadable hS).mp (h.order ▸ hy)).1
  refine eq_nil_iff_forall_not_mem.mpr fun o ho => ?_
  obtain ⟨ho, hne, hov⟩ := (mem_evicted h.sound (h.nonempty hS)).mp ho
  have hdone := ((h.cached o).mp ho).1
  exact hdisj _ x _ o (hmem x (by simp)) (hmem o (by simp [hdone])) (Ne.symm hne) hov

lemma Loaded.metas_eq (hmax : ∀ id r, S.lookup id = some r → id < maxUint64)
  (hdisj : ∀ id r id' r', S.lookup id = some r → S.lookup id' = some r' → id ≠ id' → ¬ r.Overlaps r')
  (h : Loaded codec S (loadable S 0) [] s) : s.regions.cached.mapVal RegionInfo.getMeta = S := by
  apply ext_lookup
  intro id
  apply Option.ext
  intro m
  rw [lookup_mapVal, Option.map_eq_some_iff]
  constructor
  · intro ⟨x, hx, ex⟩
    have hid : m.id = id := ex ▸ h.sound.ids id x hx
    have hm : m ∈ s.regions.tree.items := (h.sound.same m).mpr ⟨x, by rw [hid]; exact hx, ex⟩
    have hS' := ((mem_loadable hS).mp ((h.cached m).mp hm).1).1
    rw [hid] at hS'
    exact hS'
  intro hm
  have hid : m.id = id := (hS.ids id m hm).1
  subst hid
  have hstays : Stays (loadable S 0) m := by
    refine ⟨(mem_loadable hS).mpr ⟨hm, Nat.zero_le _, hmax _ m hm⟩, fun y hy hlt => ?_⟩
    exact hdisj _ y _ m ((mem_loadable hS).mp hy).1 hm (ne_of_gt hlt)
  exact (h.sound.same m).mp ((h.cached m).mpr hstays)

/-- **Paged loading is complete.** -/
theorem loadRegions_complete (hkv : Holds codec kv S) (hmax : ∀ id r, S.lookup id = some r → id < maxUint64)
  (hdisj : ∀ id r id' r', S.lookup id = some r → S.lookup id' = some r' → id ≠ id' → ¬ r.Overlaps r')
  (hread : ∀ calls limit, limit ≤ 2 * minKVRangeLimit → loadFails calls limit = false)
  (hfuel : S.size + maxKVRangeLimit < fuel) :
  ∃ s, loadRegions codec bad loadFails fuel kv .new = .ok s ∧ s.regions.Sound ∧
    ∀ id, (s.regions.getRegion id).map RegionInfo.getMeta = S.lookup id := by
  obtain ⟨s, hs⟩ : ∃ s, loadRegions codec bad loadFails fuel kv .new = .ok s := by
    refine loadRegions_returns hS (fun h => ?_) hread hkv hfuel
    obtain ⟨regions, _, _, e⟩ := loadOne_eq codec bad h.sound (h.nonempty hS)
    exact ⟨_, e.trans (if_neg (by simp [h.evicted_nil hS hdisj]))⟩
  have h := loaded_loadRegions hS hkv hs
  refine ⟨s, hs, h.sound, fun id => ?_⟩
  rw [← h.metas_eq hS hmax hdisj, lookup_mapVal, getRegion_eq]

end

section
variable {V : Type} {codec : Codec V} {bad : Key → Bool} {loadFails : Nat → Nat → Bool}

structure NewerWins (S : SortedMap Nat Region) : Prop where
  stays : ∀ x, Stays (loadable S 0) x → ∀ id y, S.lookup id = some y → x.Overlaps y → y.getVersion ≤ x.getVersion
  displaces : ∀ y x, Displaces (loadable S 0) y x → x.getVersion ≤ y.getVersion

/-- **Loading prefers newer data exactly when the ids do.** -/
theorem loadRegions_newer_iff {kv : Kv V} {S : SortedMap Nat Region} (hkv : Holds codec kv S)
  (hrange : ∀ id r, S.lookup id = some r → r.Nonempty) (fuel : Nat) {s : Loading V}
  (hok : loadRegions codec bad loadFails fuel kv .new = .ok s) :
  ((∀ id x, s.regions.getRegion id = some x → ∀ id' y, S.lookup id' = some y →
      x.getMeta.Overlaps y → y.getVersion ≤ x.getMeta.getVersion) ∧
    ∀ y x, (y, x) ∈ s.deleted → x.getVersion ≤ y.getVersion) ↔ NewerWins S := by
  have h := loaded_loadRegions ⟨hkv.ids, hrange⟩ hkv hok
  have hcached : ∀ x, Stays (loadable S 0) x ↔ ∃ i, s.regions.getRegion x.id = some i ∧ i.getMeta = x := by
    intro x
    unfold RegionsInfo.getRegion
    rw [← h.cached, h.sound.same, RegionMap.get_eq]
    rfl
  constructor
  · intro ⟨h1, h2⟩
    refine ⟨fun x hx => ?_, fun y x hx => h2 y x ((h.deleted y x).mpr hx)⟩
    obtain ⟨i, hi, rfl⟩ := (hcached x).mp hx
    exact h1 _ i hi
  intro ⟨h1, h2⟩
  refine ⟨fun id x hx => ?_, fun y x hx => h2 y x ((h.deleted y x).mp hx)⟩
  have hid : x.getMeta.id = id := h.sound.ids id x ((getRegion_eq _ _).symm.trans hx)
  exact h1 x.getMeta ((hcached _).mpr ⟨x, by rw [hid]; exact hx, rfl⟩)

def wholeRange (version : Nat) : Region := ⟨1, [], [], some ⟨1, version⟩, [⟨11, 1, false⟩]⟩
def upperHalf (version : Nat) : Region := ⟨2, [5], [], some ⟨1, version⟩, [⟨21, 1, false⟩]⟩
def storedPair (a b : Region) : SortedMap Nat Region := (SortedMap.empty.insert a.id a).insert b.id b
def storedPairKv (a b : Region) : Kv Region := (SortedMap.empty.insert (regionPath a.id) a).insert (regionPath b.id) b

lemma mem_storedPair {a b r : Region} {id : Nat} (h : (storedPair a b).lookup id = some r) :
  id = a.id ∧ r = a ∨ id = b.id ∧ r = b := by
  unfold storedPair at h
  rw [lookup_insert, lookup_insert] at h
  split at h
  next e => exact .inr ⟨e, (Option.some.inj h).symm⟩
  split at h
  next e => exact .inl ⟨e, (Option.some.inj h).symm⟩
  · cases h

def lowerHalf : Region := ⟨1, [], [5], some ⟨1, 1⟩, [⟨11, 1, false⟩]⟩

theorem loadRegions_complete_halves :
  ∃ s, loadRegions Codec.plain (fun _ => true) (fun _ limit => decide (200 < limit)) 10003
      (storedPairKv lowerHalf (upperHalf 1)) .new = .ok s ∧ s.regions.Sound ∧
    ∀ id, (s.regions.getRegion id).map RegionInfo.getMeta = (storedPair lowerHalf (upperHalf 1)).lookup id := by
  have hkv : Holds Codec.plain (storedPairKv lowerHalf (upperHalf 1)) (storedPair lowerHalf (upperHalf 1)) :=
    (holds_empty.insert (by decide)).insert (by decide)
  have hno : ∀ k : Key, ¬ (lowerHalf.contains k = true ∧ (upperHalf 1).contains k = true) := by
    intro k hk
    have hlt : k < [5] := of_decide_eq_true ((Bool.and_eq_true ..).mp hk.1).2
    have hle : [5] ≤ k := of_decide_eq_true ((Bool.and_eq_true ..).mp hk.2).1
    exact absurd hlt (not_lt.mpr hle)
  refine loadRegions_complete ⟨hkv.ids, fun id r hr => ?_⟩ hkv (fun id r hr => ?_)
    (fun id r id' r' hr hr' hne => ?_) (fun calls limit hle => ?_) (by decide +kernel)
  · rcases mem_storedPair hr with ⟨-, rfl⟩ | ⟨-, rfl⟩ <;> decide
  · rcases mem_storedPair hr with ⟨rfl, -⟩ | ⟨rfl, -⟩ <;> decide
  · rcases mem_storedPair hr with ⟨rfl, rfl⟩ | ⟨rfl, rfl⟩
    · rcases mem_storedPair hr' with ⟨rfl, rfl⟩ | ⟨rfl, rfl⟩
      · exact absurd rfl hne
      · exact fun ⟨k, hk⟩ => hno k hk
    rcases mem_storedPair hr' with ⟨rfl, rfl⟩ | ⟨rfl, rfl⟩
    · exact fun ⟨k, hk⟩ => hno k hk.symm
    · exact absurd rfl hne
  · exact decide_eq_false (not_lt.mpr hle)

lemma newerWins_split : NewerWins (storedPair (wholeRange 1) (upperHalf 2)) := by
  have hlist : loadable (storedPair (wholeRange 1) (upperHalf 2)) 0 = [wholeRange 1, upperHalf 2] := by decide +kernel
  refine ⟨fun x hx id y hy _ => ?_, fun y x hx => ?_⟩
  · rw [hlist] at hx
    have hne : x ≠ wholeRange 1 := by
      intro e
      refine hx.2 (upperHalf 2) (by simp) (by rw [e]; decide) ⟨[5], ?_, ?_⟩
      · decide
      · rw [e]; decide
    have hxe : x = upperHalf 2 := by simpa [hne] using hx.1
    rw [hxe]
    rcases mem_storedPair hy with ⟨-, rfl⟩ | ⟨-, rfl⟩ <;> decide
  rw [hlist] at hx
  obtain ⟨h1, h2, hlt, _⟩ := hx
  simp only [mem_cons, not_mem_nil, or_false] at h1 h2
  rcases h1 with rfl | rfl
  · rcases h2 with rfl | rfl
    · exact absurd hlt (lt_irrefl _)
    · decide
  rcases h2 with rfl | rfl
  · exact absurd hlt (by decide)
  · exact absurd hlt (lt_irrefl _)

theorem loadRegions_newer_split : ∃ s, loadRegions Codec.plain noFaults (fun _ _ => false) 10003
      (storedPairKv (wholeRange 1) (upperHalf 2)) .new = .ok s ∧ (∀ id x, s.regions.getRegion id = some x → ∀ id' y,
      (storedPair (wholeRange 1) (upperHalf 2)).lookup id' = some y →
        x.getMeta.Overlaps y → y.getVersion ≤ x.getMeta.getVersion) ∧
    ∀ y x, (y, x) ∈ s.deleted → x.getVersion ≤ y.getVersion := by
  have hkv : Holds Codec.plain (storedPairKv (wholeRange 1) (upperHalf 2))
      (storedPair (wholeRange 1) (upperHalf 2)) :=
    (holds_empty.insert (by decide)).insert (by decide)
  have hrange : ∀ id r, (storedPair (wholeRange 1) (upperHalf 2)).lookup id = some r → r.Nonempty := by
    intro id r hr
    rcases mem_storedPair hr with ⟨-, rfl⟩ | ⟨-, rfl⟩ <;> decide
  obtain ⟨s, hs⟩ : ∃ s, loadRegions Codec.plain noFaults (fun _ _ => false) 10003
      (storedPairKv (wholeRange 1) (upperHalf 2)) .new = .ok s :=
    loadRegions_ok ⟨hkv.ids, hrange⟩ hkv (fun _ _ _ => rfl) (by decide +kernel)
  exact ⟨s, hs, (loadRegions_newer_iff hkv hrange 10003 hs).mpr newerWins_split⟩

/-- The larger id comes last and displaces the newer region. -/
theorem loadRegions_deletes_newer : ∃ s, loadRegions Codec.plain noFaults (fun _ _ => false) 1
      (storedPairKv (wholeRange 5) (upperHalf 3)) .new = .ok s ∧
    s.deleted = [(upperHalf 3, wholeRange 5)] ∧ s.regions.tree.items = [upperHalf 3] ∧
    s.kv.lookup (regionPath 1) = none := by
  have hrun : (loadRegions Codec.plain noFaults (fun _ _ => false) 1
      (storedPairKv (wholeRange 5) (upperHalf 3)) .new).toOption.map
        (fun s => (s.deleted, s.regions.tree.items, s.kv.lookup (regionPath 1))) =
      some ([(upperHalf 3, wholeRange 5)], [upperHalf 3], none) := by decide +kernel
  obtain ⟨s, hs, he⟩ := Option.map_eq_some_iff.mp hrun
  cases hl : loadRegions Codec.plain noFaults (fun _ _ => false) 1
    (storedPairKv (wholeRange 5) (upperHalf 3)) .new with
  | error e => rw [hl] at hs; cases hs
  | ok t =>
    rw [hl] at hs
    cases hs
    simp only [Prod.mk.injEq] at he
    exact ⟨s, rfl, he.1, he.2.1, he.2.2⟩

end
end PD
