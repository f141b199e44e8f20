import PD.Plugin.Reload

/-! # Stores by their labels -/

namespace PD
open List

def StoreProto.Carries (store : StoreProto) (storeLabel : List StoreLabel) : Prop := ∀ l ∈ storeLabel, l ∈ store.labels

def StoreProto.Counts (store : StoreProto) (storeLabel : List StoreLabel) : Prop :=
  matchingLabels store.labels storeLabel = storeLabel.length

instance (store : StoreProto) (storeLabel : List StoreLabel) : Decidable (store.Carries storeLabel) :=
  inferInstanceAs (Decidable (∀ l ∈ storeLabel, l ∈ store.labels))

section
variable {labels storeLabel : List StoreLabel}

lemma matchingLabels_eq_sum (labels storeLabel : List StoreLabel) :
  matchingLabels labels storeLabel = (labels.map fun label => storeLabel.count label).sum := by
  have hsame : ∀ my label : StoreLabel, (my.key == label.key && my.value == label.value) = (my == label) := by
    intro my label
    rw [Bool.eq_iff_iff, Bool.and_eq_true_iff, beq_iff_eq, beq_iff_eq, beq_iff_eq]
    exact StoreLabel.mk.injEq .. ▸ Iff.rfl
  unfold matchingLabels List.count
  simp only [hsame]

lemma matchingLabels_cons (labels : List StoreLabel) (l : StoreLabel) (storeLabel : List StoreLabel) :
  matchingLabels labels (l :: storeLabel) = labels.count l + matchingLabels labels storeLabel := by
  rw [matchingLabels_eq_sum, matchingLabels_eq_sum]
  induction labels with
  | nil => rfl
  | cons a _ ih =>
    rw [map_cons, sum_cons, map_cons, sum_cons, ih, count_cons, count_cons]
    by_cases h : l = a
    · subst h
      simp only [beq_self_eq_true, if_true]
      omega
    have h' : ¬ (a == l) = true := fun e => h (eq_of_beq e).symm
    have h'' : ¬ (l == a) = true := fun e => h (eq_of_beq e)
    rw [if_neg h', if_neg h'']
    omega

lemma matchingLabels_eq_countP (h : labels.Nodup) :
  matchingLabels labels storeLabel = storeLabel.countP fun l => decide (l ∈ labels) := by
  induction storeLabel with
  | nil => simp [matchingLabels]
  | cons l _ ih =>
    rw [matchingLabels_cons, ih, countP_cons]
    by_cases hl : l ∈ labels
    · simp [hl, count_eq_one_of_mem h hl, Nat.add_comm]
    · simp [hl, count_eq_zero_of_not_mem hl]

end

lemma counts_iff {store : StoreProto} {storeLabel : List StoreLabel} (h : store.labels.Nodup) :
  store.Counts storeLabel ↔ store.Carries storeLabel := by
  unfold StoreProto.Counts StoreProto.Carries
  rw [matchingLabels_eq_countP h, countP_eq_length]
  simp

section
variable (cfg : DispatchConfig) (k : RuleKey) (rule : MoveRule) (stores : List StoreProto)

def Lists (listing : Listing) : Prop := ∀ k i, (listing k i).Perm stores

structure Resolves : Prop where
  live : ∀ storeLabel ∈ rule.stores, (∃ s ∈ stores, s.state = .up ∧ s.Carries storeLabel) →
    ∀ listed : List StoreProto, listed.Perm stores →
      ∃ s, getStoreByLabel listed storeLabel = some s ∧ s.state = .up ∧ s.Carries storeLabel
  stable : ∀ storeLabel ∈ rule.stores, ∀ listed listed' : List StoreProto, listed.Perm stores → listed'.Perm stores →
    getStoreByLabel listed storeLabel = getStoreByLabel listed' storeLabel
  same : ∀ found updated : Listing, Lists stores found → Lists stores updated →
    ((cfg.getStoreId found).lookup k).getD [] = (rule.pluginInfo.updateStoreIDs (updated k)).storeIDs

def Unambiguous (storeLabel : List StoreLabel) : Prop :=
  (∀ s ∈ stores, ∀ t ∈ stores, s.Counts storeLabel → t.Counts storeLabel → s = t) ∧
    ((∃ s ∈ stores, s.state = .up ∧ s.Carries storeLabel) →
      ∃ s ∈ stores, s.Counts storeLabel ∧ s.state = .up ∧ s.Carries storeLabel)

end

section
variable {stores listed : List StoreProto} {storeLabel : List StoreLabel} {s : StoreProto}

lemma getStoreByLabel_some (h : getStoreByLabel listed storeLabel = some s) : s ∈ listed ∧ s.Counts storeLabel := by
  have hcounts := List.find?_some h
  exact ⟨List.mem_of_find?_eq_some h, eq_of_beq hcounts⟩

lemma getStoreByLabel_isSome (hs : s ∈ listed) (h : s.Counts storeLabel) :
  ∃ t, getStoreByLabel listed storeLabel = some t :=
  Option.isSome_iff_exists.mp (List.find?_isSome.mpr ⟨s, hs, beq_iff_eq.mpr h⟩)

lemma getStoreByLabel_first (hs : s ∈ stores) (h : s.Counts storeLabel) :
  ∃ listed : List StoreProto, listed.Perm stores ∧ getStoreByLabel listed storeLabel = some s :=
  ⟨s :: stores.erase s, (perm_cons_erase hs).symm, List.find?_cons_of_pos (beq_iff_eq.mpr h)⟩

lemma getStoreByLabel_only (hone : ∀ s ∈ stores, ∀ t ∈ stores, s.Counts storeLabel → t.Counts storeLabel → s = t)
  (hperm : listed.Perm stores) (hs : s ∈ stores) (h : s.Counts storeLabel) :
  getStoreByLabel listed storeLabel = some s := by
  obtain ⟨t, ht⟩ := getStoreByLabel_isSome (hperm.mem_iff.mpr hs) h
  obtain ⟨hmem, hcounts⟩ := getStoreByLabel_some ht
  rw [ht, hone t (hperm.mem_iff.mp hmem) s hs hcounts h]

lemma getStoreByLabel_stable (hone : ∀ s ∈ stores, ∀ t ∈ stores, s.Counts storeLabel → t.Counts storeLabel → s = t)
  {listed' : List StoreProto} (hperm : listed.Perm stores) (hperm' : listed'.Perm stores) :
  getStoreByLabel listed storeLabel = getStoreByLabel listed' storeLabel := by
  cases h : getStoreByLabel listed storeLabel with
  | some =>
    obtain ⟨hmem, hcounts⟩ := getStoreByLabel_some h
    exact (getStoreByLabel_only hone hperm' (hperm.mem_iff.mp hmem) hcounts).symm
  | none =>
    cases h' : getStoreByLabel listed' storeLabel with
    | none => rfl
    | some =>
      obtain ⟨hmem, hcounts⟩ := getStoreByLabel_some h'
      rw [getStoreByLabel_only hone hperm (hperm'.mem_iff.mp hmem) hcounts] at h
      cases h

lemma findStores_congr {listing listing' : Nat → List StoreProto} {storeLabels : List (List StoreLabel)}
  (h : ∀ i, ∀ storeLabel ∈ storeLabels,
    getStoreByLabel (listing i) storeLabel = getStoreByLabel (listing' i) storeLabel) :
  findStores listing storeLabels = findStores listing' storeLabels := by
  refine filterMap_congr fun x hx => ?_
  obtain ⟨-, -, hmem⟩ := mem_zipIdx hx
  rw [h x.2 x.1 (hmem ▸ getElem_mem _)]

end

/-- **Labels** resolve exactly if one store carries each. -/
theorem resolves_iff (cfg : DispatchConfig) (k : RuleKey) (rule : MoveRule) (hrule : cfg.rule k = some rule)
  (stores : List StoreProto) :
  (Resolves cfg k rule stores ↔ ∀ storeLabel ∈ rule.stores, Unambiguous stores storeLabel) ∧
  ((∀ s ∈ stores, s.labels.Nodup) → ∀ storeLabel, Unambiguous stores storeLabel ↔
    ∀ s ∈ stores, ∀ t ∈ stores, s.Carries storeLabel → t.Carries storeLabel → s = t) := by
  constructor
  · constructor
    · intro h storeLabel hmem
      constructor
      · intro s hs t ht hcounts hcounts'
        obtain ⟨listed, hperm, hfind⟩ := getStoreByLabel_first hs hcounts
        obtain ⟨listed', hperm', hfind'⟩ := getStoreByLabel_first ht hcounts'
        rw [h.stable storeLabel hmem listed listed' hperm hperm', hfind'] at hfind
        exact (Option.some.inj hfind).symm
      intro hup
      obtain ⟨s, hfind, hs⟩ := h.live storeLabel hmem hup stores (.refl _)
      obtain ⟨hin, hcounts⟩ := getStoreByLabel_some hfind
      exact ⟨s, hin, hcounts, hs⟩
    intro h
    refine ⟨fun storeLabel hmem hup listed hperm => ?_, fun storeLabel hmem listed listed' hperm hperm' => ?_,
      fun found updated hfound hupdated => ?_⟩
    · obtain ⟨s, hin, hcounts, hs⟩ := (h storeLabel hmem).2 hup
      exact ⟨s, getStoreByLabel_only (h storeLabel hmem).1 hperm hin hcounts, hs⟩
    · exact getStoreByLabel_stable (h storeLabel hmem).1 hperm hperm'
    rw [storeIDs_eq found hrule]
    exact findStores_congr fun i storeLabel hmem =>
      getStoreByLabel_stable (h storeLabel hmem).1 (hfound k i) (hupdated k i)
  intro hnodup storeLabel
  have hiff : ∀ s ∈ stores, s.Counts storeLabel ↔ s.Carries storeLabel := fun s hs => counts_iff (hnodup s hs)
  constructor
  · intro h s hs t ht hcarries hcarries'
    exact h.1 s hs t ht ((hiff s hs).mpr hcarries) ((hiff t ht).mpr hcarries')
  intro h
  refine ⟨fun s hs t ht hcounts hcounts' => ?_, fun ⟨s, hs, hup, hcarries⟩ => ?_⟩
  · exact h s hs t ht ((hiff s hs).mp hcounts) ((hiff t ht).mp hcounts')
  · exact ⟨s, hs, (hiff s hs).mpr hcarries, hup, hcarries⟩

def inZone (id : Nat) (zone : String) (state : StoreState) : StoreProto := ⟨id, "", state, [⟨"zone", zone⟩], "3.0.0"⟩
def zoneRule : MoveRule := ⟨false, "61", "62", [[⟨"zone", "z1"⟩]], 0, 100⟩

theorem resolves_one_per_zone :
  Resolves (Reload.leaderFile [("61", "62")]) (.leader 0) zoneRule [inZone 1 "z1" .up, inZone 2 "z2" .up] := by
  obtain ⟨hiff, hnodup⟩ := resolves_iff (Reload.leaderFile [("61", "62")]) (.leader 0) zoneRule rfl
    [inZone 1 "z1" .up, inZone 2 "z2" .up]
  refine hiff.mpr fun storeLabel hmem => (hnodup (by decide) storeLabel).mpr ?_
  rw [mem_singleton.mp hmem]
  decide

theorem tombstone_resolved :
  getStoreByLabel [inZone 1 "z1" .up, inZone 2 "z1" .tombstone] [⟨"zone", "z1"⟩] = some (inZone 1 "z1" .up) ∧
  getStoreByLabel [inZone 2 "z1" .tombstone, inZone 1 "z1" .up] [⟨"zone", "z1"⟩] = some (inZone 2 "z1" .tombstone) ∧
  ((Reload.leaderFile [("61", "62")]).getStoreId
      (fun _ _ => [inZone 1 "z1" .up, inZone 2 "z1" .tombstone])).lookup (.leader 0) = some [1] ∧
  (zoneRule.pluginInfo.updateStoreIDs fun _ => [inZone 2 "z1" .tombstone, inZone 1 "z1" .up]).storeIDs = [2] ∧
  ¬ Resolves (Reload.leaderFile [("61", "62")]) (.leader 0) zoneRule
    [inZone 1 "z1" .up, inZone 2 "z1" .tombstone] := by
  refine ⟨by decide, by decide, by decide +kernel, by decide, fun h => ?_⟩
  have hsame := h.stable [⟨"zone", "z1"⟩] mem_cons_self _ [inZone 2 "z1" .tombstone, inZone 1 "z1" .up] (.refl _)
    (.swap ..)
  revert hsame
  decide

end PD
