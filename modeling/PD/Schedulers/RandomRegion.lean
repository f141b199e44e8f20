import PD.Schedulers.Utils

/-! # Random regions of a region map -/

namespace PD.RegionMap
open SortedMap

inductive Op where
  | put (region : RegionInfo)
  | delete (id : Nat)

def step (rm : RegionMap) : Op → Option RegionMap
  | .put region => some (rm.put region)
  | .delete id => rm.delete id

def Op.apply (v : SortedMap Nat RegionInfo) : Op → SortedMap Nat RegionInfo
  | .put region => v.insert region.getID region
  | .delete id => v.erase id

variable {rm : RegionMap} {id i : Nat} {x : RegionInfo}

lemma step_spec (h : rm.Wf) (op : Op) : ∃ rm', rm.step op = some rm' ∧ rm'.Wf ∧ rm'.view = op.apply rm.view := by
  cases op with
  | put region => exact ⟨_, rfl, put_wf h region, view_put rm region⟩
  | delete id => exact delete_spec h id

lemma exec_spec (h : rm.Wf) (ops : List Op) :
  ∃ rm', Runs.exec step rm ops = some rm' ∧ rm'.Wf ∧ rm'.view = ops.foldl Op.apply rm.view := by
  induction ops generalizing rm with
  | nil => exact ⟨rm, rfl, h, rfl⟩
  | cons op _ ih =>
    obtain ⟨rm₁, hstep, hwf, hview⟩ := step_spec h op
    obtain ⟨rm₂, hrun, hwf', hview'⟩ := ih hwf
    refine ⟨rm₂, Runs.exec_cons_some.mpr ⟨rm₁, hstep, hrun⟩, hwf', ?_⟩
    rw [hview', hview, List.foldl_cons]

lemma Wf.pos_eq (h : rm.Wf) (hi : rm.ids[i]? = some id) : ∃ e, rm.m.lookup id = some e ∧ e.pos = i := by
  obtain ⟨e, he⟩ := h.mem_ids.mp (List.mem_of_getElem? hi)
  have hpos := h.pos id e he
  obtain ⟨hlt, -⟩ := List.getElem?_eq_some_iff.mp hpos
  exact ⟨e, he, (List.getElem?_inj hlt h.nodup).mp (hpos.trans hi.symm)⟩

lemma exists_draw (hwf : rm.Wf) (h : rm.get id = some x) : ∃ n, n < rm.len ∧ rm.randomRegion n = some x := by
  obtain ⟨e, he, -⟩ := Option.map_eq_some_iff.mp h
  have hpos := hwf.pos id e he
  obtain ⟨hlt, -⟩ := List.getElem?_eq_some_iff.mp hpos
  have hlen : rm.ids.length = rm.len := hwf.length
  refine ⟨e.pos, by omega, ?_⟩
  unfold randomRegion
  rw [if_neg (by omega), Nat.mod_eq_of_lt (by omega), hpos]
  exact h

lemma get_of_draw {n : Nat} (h : rm.randomRegion n = some x) : ∃ id, rm.get id = some x := by
  unfold randomRegion at h
  split at h
  · cases h
  obtain ⟨id, -, hget⟩ := Option.bind_eq_some_iff.mp h
  exact ⟨id, hget⟩

/-- **The region map** is the map of its operations, and draws any of its regions. -/
theorem representation (ops : List Op) : ∃ rm, Runs.exec step new ops = some rm ∧
  rm.view = ops.foldl Op.apply .empty ∧ rm.ids.Nodup ∧ (∀ id, id ∈ rm.ids ↔ ∃ e, rm.m.lookup id = some e) ∧
  (∀ (i : Nat) id, rm.ids[i]? = some id → ∃ e, rm.m.lookup id = some e ∧ e.pos = i) ∧
  rm.totalSize = Words.wrap (rm.view.total RegionInfo.approximateSize) ∧
  rm.totalKeys = Words.wrap (rm.view.total RegionInfo.approximateKeys) ∧
  ∀ x, (∃ n, n < rm.len ∧ rm.randomRegion n = some x) ↔ ∃ id, rm.view.lookup id = some x := by
  obtain ⟨rm, hrun, hwf, hview⟩ := exec_spec new_wf ops
  refine ⟨rm, hrun, hview, hwf.nodup, fun id => hwf.mem_ids, fun i id hi => hwf.pos_eq hi, hwf.size, hwf.keys, ?_⟩
  intro x
  constructor
  · intro h
    obtain ⟨n, -, hn⟩ := h
    obtain ⟨id, hget⟩ := get_of_draw hn
    exact ⟨id, (get_eq rm id).symm.trans hget⟩
  intro h
  obtain ⟨id, hx⟩ := h
  exact exists_draw hwf ((get_eq rm id).trans hx)

end PD.RegionMap
