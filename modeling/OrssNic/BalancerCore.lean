import OrssNic.Balancer
import OrssNic.Library.Lists

/-!
# Specifications of the operations on one core

The content of a core is the list of the used cells of its two arrays. Each
operation is described by its effect on that list; `Cached` says what the load
and the heaviest index of a core say about it.
-/

namespace OrssNic
open CLoops CLists

/-- The packets counted for a flow since its previous sample. -/
def flowLoad (heap : Heap RingBuffer) (flow : FiveTuple × Ref) : ℕ :=
  (ringbufferGetLast (heap.cell flow.2)).toNat

def flowCore (heap : Heap RingBuffer) (flow : FiveTuple × Ref) : ℕ :=
  (heap.cell flow.2).assignedCore.toNat

namespace CoreLoad

def entries (core : CoreLoad) : List (FiveTuple × Ref) :=
  (core.flowKeys.zip core.flows).take core.nbFlows

structure Shape (core : CoreLoad) : Prop where
  flows : core.flows.length = HASHMAP_SIZE
  flowKeys : core.flowKeys.length = HASHMAP_SIZE
  nbFlows : core.nbFlows ≤ HASHMAP_SIZE

structure Cached (heap : Heap RingBuffer) (core : CoreLoad) : Prop where
  load : core.load.toNat = (core.entries.map (flowLoad heap)).sum % 2 ^ 64
  biggest : core.entries ≠ [] → ∃ e, core.entries[core.biggestLoadIdx]? = some e ∧
    ∀ e' ∈ core.entries, flowLoad heap e' ≤ flowLoad heap e

variable {core : CoreLoad} {heap : Heap RingBuffer}

theorem entries_getElem? {j : ℕ} {e : FiveTuple × Ref} :
    core.entries[j]? = some e ↔
      j < core.nbFlows ∧ core.flowKeys[j]? = some e.1 ∧ core.flows[j]? = some e.2 := by
  rw [entries, List.getElem?_take]
  split_ifs with hj
  · rw [List.getElem?_zip_eq_some]
    simp [hj]
  · simp [hj]

theorem Shape.entries_length (h : core.Shape) : core.entries.length = core.nbFlows := by
  have := h.nbFlows
  simp [entries, h.flows, h.flowKeys]
  omega

theorem Cached.entries_ne_nil (h : core.Cached heap) (hload : 0 < core.load) :
    core.entries ≠ [] := by
  intro hnil
  have := h.load
  rw [hnil] at this
  have hpos : 0 < core.load.toNat := UInt64.lt_iff_toNat_lt.mp hload
  simp at this
  omega

theorem zeroed_shape : zeroed.Shape := by
  constructor <;> simp [zeroed]

theorem zeroed_entries : zeroed.entries = [] := by
  simp [entries, zeroed]

end CoreLoad

structure LoadSum.After (heap : Heap RingBuffer) (flows : List (FiveTuple × Ref)) (j : ℕ)
    (s : LoadSum) : Prop where
  load : s.load.toNat = ((flows.take j).map (flowLoad heap)).sum % 2 ^ 64
  upper : ∀ e ∈ flows.take j, flowLoad heap e ≤ s.biggestLoad.toNat
  start : j = 0 → s.biggestLoadIdx = 0 ∧ s.biggestLoad = 0
  attained : 0 < j → ∃ e, flows[s.biggestLoadIdx]? = some e ∧
    flowLoad heap e = s.biggestLoad.toNat

theorem loadSumStep_spec {heap : Heap RingBuffer} {core : CoreLoad} {j : ℕ} {s : LoadSum}
    (hcore : core.Shape) (hj : j < core.nbFlows) (hs : s.After heap core.entries j) :
    ∃ s', loadSumStep heap core.flows j s = .ok s' ∧ s'.After heap core.entries (j + 1) := by
  obtain ⟨e, he⟩ : ∃ e, core.entries[j]? = some e :=
    ⟨_, List.getElem?_eq_getElem (hcore.entries_length ▸ hj)⟩
  obtain ⟨-, -, hflow⟩ := CoreLoad.entries_getElem?.mp he
  have htake : core.entries.take (j + 1) = core.entries.take j ++ [e] := by
    rw [List.take_add_one, he]
    rfl
  have hload : (s.load + ringbufferGetLast (heap.cell e.2)).toNat =
      ((core.entries.take (j + 1)).map (flowLoad heap)).sum % 2 ^ 64 := by
    rw [htake, List.map_append, List.sum_append, UInt64.toNat_add, hs.load]
    simp [flowLoad]
  simp only [loadSumStep, readAt_of_getElem? hflow, bind, Except.bind, pure, Except.pure]
  split_ifs with hlt
  · refine ⟨_, rfl, hload, ?_, by omega, fun _ => ⟨e, he, rfl⟩⟩
    have hlt' := UInt64.lt_iff_toNat_lt.mp hlt
    rw [htake]
    intro e' he'
    rcases List.mem_append.mp he' with hm | hm
    · exact (hs.upper e' hm).trans hlt'.le
    · rw [List.mem_singleton.mp hm]
      exact le_rfl
  · have hle : flowLoad heap e ≤ s.biggestLoad.toNat := by
      rw [UInt64.lt_iff_toNat_lt] at hlt
      exact not_lt.mp hlt
    refine ⟨_, rfl, hload, ?_, by omega, fun _ => ?_⟩
    · rw [htake]
      intro e' he'
      rcases List.mem_append.mp he' with hm | hm
      · exact hs.upper e' hm
      · rw [List.mem_singleton.mp hm]
        exact hle
    · rcases Nat.eq_zero_or_pos j with rfl | hpos
      · obtain ⟨hidx, hbig⟩ := hs.start rfl
        refine ⟨e, by rw [hidx, he], ?_⟩
        rw [hbig] at hle ⊢
        exact Nat.le_zero.mp hle
      · exact hs.attained hpos

theorem balancerUpdateCoreInfo_spec {core : CoreLoad} (heap : Heap RingBuffer)
    (hcore : core.Shape) :
    ∃ core', balancerUpdateCoreInfo heap core = .ok core' ∧ core'.coreIdx = core.coreIdx ∧
      core'.entries = core.entries ∧ core'.Shape ∧ core'.Cached heap := by
  have hstart : (⟨0, 0, 0⟩ : LoadSum).After heap core.entries 0 :=
    ⟨by simp, by simp, fun _ => ⟨rfl, rfl⟩, by omega⟩
  obtain ⟨s, hloop, hs⟩ := forLoop_total (n := core.nbFlows) hstart
    fun j t hj ht => loadSumStep_spec hcore hj ht
  refine ⟨{ core with load := s.load, biggestLoadIdx := s.biggestLoadIdx }, ?_, rfl, rfl,
    ⟨hcore.flows, hcore.flowKeys, hcore.nbFlows⟩, ?_, ?_⟩
  · simp [balancerUpdateCoreInfo, hloop, bind, Except.bind, pure, Except.pure]
  · have h := hs.load
    rw [List.take_of_length_le hcore.entries_length.le] at h
    exact h
  · intro hne
    change core.entries ≠ [] at hne
    have hpos : 0 < core.nbFlows := by
      rw [← hcore.entries_length]
      exact List.length_pos_iff.mpr hne
    obtain ⟨e, he, hmax⟩ := hs.attained hpos
    refine ⟨e, he, fun e' he' => ?_⟩
    rw [hmax]
    apply hs.upper
    rwa [List.take_of_length_le hcore.entries_length.le]

theorem addFlow_spec {core : CoreLoad} (hcore : core.Shape) (key : FiveTuple) (flow : Ref)
    (hroom : core.nbFlows < HASHMAP_SIZE) :
    ∃ core', addFlow core key flow = .ok core' ∧ core'.coreIdx = core.coreIdx ∧
      core'.entries = core.entries ++ [(key, flow)] ∧ core'.Shape := by
  have hk : core.nbFlows < core.flowKeys.length := hcore.flowKeys ▸ hroom
  have hf : core.nbFlows < core.flows.length := hcore.flows ▸ hroom
  refine ⟨{ core with
    flowKeys := core.flowKeys.set core.nbFlows key
    flows := core.flows.set core.nbFlows flow
    nbFlows := core.nbFlows + 1 }, ?_, rfl, ?_, ?_⟩
  · simp [addFlow, writeAt_of_lt hk, writeAt_of_lt hf, bind, Except.bind, pure, Except.pure]
  · simp only [CoreLoad.entries]
    rw [zip_set, take_succ_set (by simp [hcore.flows, hcore.flowKeys, hroom])]
  · exact ⟨by simp [hcore.flows], by simp [hcore.flowKeys], hroom⟩

theorem removeBiggest_spec {core : CoreLoad} (hcore : core.Shape) {e : FiveTuple × Ref}
    (he : core.entries[core.biggestLoadIdx]? = some e) :
    ∃ core', removeBiggest core = .ok (e.1, e.2, core') ∧ core'.coreIdx = core.coreIdx ∧
      core'.entries = swapRemove core.entries core.biggestLoadIdx ∧ core'.Shape := by
  obtain ⟨hb, hkey, hflow⟩ := CoreLoad.entries_getElem?.mp he
  have hpos : 0 < core.nbFlows := by omega
  obtain ⟨last, hlast⟩ : ∃ last, core.entries[core.nbFlows - 1]? = some last :=
    ⟨_, List.getElem?_eq_getElem (by rw [hcore.entries_length]; omega)⟩
  obtain ⟨hlt, hlastKey, hlastFlow⟩ := CoreLoad.entries_getElem?.mp hlast
  have hbk : core.biggestLoadIdx < core.flowKeys.length := by
    have := hcore.nbFlows
    rw [hcore.flowKeys]
    omega
  have hbf : core.biggestLoadIdx < core.flows.length := by
    have := hcore.nbFlows
    rw [hcore.flows]
    omega
  refine ⟨{ core with
    nbFlows := core.nbFlows - 1
    flows := core.flows.set core.biggestLoadIdx last.2
    flowKeys := core.flowKeys.set core.biggestLoadIdx last.1 }, ?_, rfl, ?_, ?_⟩
  · simp [removeBiggest, readAt_of_getElem? hkey, readAt_of_getElem? hflow,
      readAt_of_getElem? hlastKey, readAt_of_getElem? hlastFlow, writeAt_of_lt hbk,
      writeAt_of_lt hbf, hpos.ne', bind, Except.bind, pure, Except.pure]
  · simp only [CoreLoad.entries]
    rw [zip_set]
    refine set_take_pred hpos ?_ ?_
    · simp [hcore.flows, hcore.flowKeys, hcore.nbFlows]
    · rw [List.getElem?_zip_eq_some]
      exact ⟨hlastKey, hlastFlow⟩
  · have := hcore.nbFlows
    exact ⟨by simp [hcore.flows], by simp [hcore.flowKeys], by simp only; omega⟩

end OrssNic
