import OrssNic.OpenflowParse
import OrssNic.Library.Slots

/-!
# Freeing the flows (`openflow_free_flows`)

The cells that `nb_flows` and `nb_actions` count are freed in order, whatever
their pointers are, and the counts of their rows are reset.
-/

namespace OrssNic
open CLoops CLists

namespace OpenflowFlows

def pointer (flows : OpenflowFlows) (cell : ℕ × ℕ) : Option Ref := do
  let row ← flows.actions[cell.1]?
  let descriptor ← row[cell.2]?
  descriptor.data

def rowCells (flows : OpenflowFlows) (i : ℕ) : List (ℕ × ℕ) :=
  (List.range (flows.nbActions.getD i 0).toNat).map fun j => (i, j)

def countedCells (flows : OpenflowFlows) : List (ℕ × ℕ) :=
  (List.range flows.nbFlows.toNat).flatMap flows.rowCells

theorem pointer_eq_some {flows : OpenflowFlows} {cell : ℕ × ℕ} {r : Ref} :
    flows.pointer cell = some r ↔ ∃ row d, flows.actions[cell.1]? = some row ∧
      row[cell.2]? = some d ∧ d.data = some r := by
  simp only [pointer, Option.bind_eq_bind, Option.bind_eq_some_iff]
  constructor
  · rintro ⟨row, hrow, d, hd, hdata⟩
    exact ⟨row, d, hrow, hd, hdata⟩
  · rintro ⟨row, d, hrow, hd, hdata⟩
    exact ⟨row, hrow, d, hd, hdata⟩

theorem pointer_of_row {flows : OpenflowFlows} {i j : ℕ} {row : List ActionDescriptor}
    (hrow : flows.actions[i]? = some row) :
    flows.pointer (i, j) = row[j]?.bind ActionDescriptor.data := by
  simp only [pointer, hrow, Option.bind_eq_bind, Option.bind_some]

theorem mem_rowCells {flows : OpenflowFlows} {i : ℕ} {cell : ℕ × ℕ} :
    cell ∈ flows.rowCells i ↔ cell.1 = i ∧ cell.2 < (flows.nbActions.getD i 0).toNat := by
  obtain ⟨i', j⟩ := cell
  simp only [rowCells, List.mem_map, List.mem_range, Prod.mk.injEq]
  constructor
  · rintro ⟨j', hj', rfl, rfl⟩
    exact ⟨rfl, hj'⟩
  · rintro ⟨rfl, hj⟩
    exact ⟨j, hj, rfl, rfl⟩

theorem mem_countedCells {flows : OpenflowFlows} {cell : ℕ × ℕ} :
    cell ∈ flows.countedCells ↔
      cell.1 < flows.nbFlows.toNat ∧ cell.2 < (flows.nbActions.getD cell.1 0).toNat := by
  simp only [countedCells, List.mem_flatMap, List.mem_range, mem_rowCells]
  constructor
  · rintro ⟨i, hi, rfl, hj⟩
    exact ⟨hi, hj⟩
  · rintro ⟨hi, hj⟩
    exact ⟨cell.1, hi, rfl, hj⟩

theorem countedCells_nodup (flows : OpenflowFlows) : flows.countedCells.Nodup := by
  rw [countedCells, List.nodup_flatMap]
  constructor
  · intro i _
    apply List.nodup_range.map
    intro j j' h
    exact (Prod.mk.inj h).2
  · apply List.nodup_range.imp
    intro i i' hne cell hcell hcell'
    exact hne ((mem_rowCells.mp hcell).1.symm.trans (mem_rowCells.mp hcell').1)

end OpenflowFlows

/-! ## What `openflow_free_flows` frees -/

section Free
variable {flows : OpenflowFlows} {payloads : Heap ActionPayload} {i : ℕ}

theorem freeActionStep_eq (payloads : Heap ActionPayload) {row : List ActionDescriptor} {j : ℕ}
    (hrow : flows.actions[i]? = some row) (hj : j < row.length) :
    freeActionStep flows i j payloads =
      .ok (payloads.freeAll ([(i, j)].filterMap flows.pointer)) := by
  have hd := List.getElem?_eq_getElem hj
  have hpointer : flows.pointer (i, j) = row[j].data := by
    rw [OpenflowFlows.pointer_of_row hrow, hd, Option.bind_some]
  simp only [freeActionStep, readAt_of_getElem? hrow, readAt_of_getElem? hd, bind, Except.bind]
  cases hdata : row[j].data with
  | none =>
    rw [List.filterMap_cons_none (hpointer.trans hdata), List.filterMap_nil, Heap.freeAll_nil]
    rfl
  | some r =>
    rw [List.filterMap_cons_some (hpointer.trans hdata), List.filterMap_nil]
    rfl

theorem freeActions_eq {row : List ActionDescriptor} {n : ℕ}
    (hrow : flows.actions[i]? = some row) (hn : n ≤ row.length) :
    forLoop (freeActionStep flows i) n payloads = .ok
      (payloads.freeAll (((List.range n).map fun j => (i, j)).filterMap flows.pointer)) := by
  induction n with
  | zero => rw [forLoop, List.range_zero, List.map_nil, List.filterMap_nil, Heap.freeAll_nil]
  | succ n ih =>
    have hstep := freeActionStep_eq (payloads.freeAll
      (((List.range n).map fun j => (i, j)).filterMap flows.pointer)) hrow hn
    rw [forLoop, ih (Nat.le_of_succ_le hn), List.range_succ, List.map_append, List.map_singleton,
      List.filterMap_append, Heap.freeAll_append]
    exact hstep

/-- No count exceeds the size of a row, and no row is counted that does not exist. -/
structure Counting (flows : OpenflowFlows) : Prop where
  sizes : TableSizes flows
  rows : flows.nbFlows.toNat ≤ MAX_HANDLED_FLOWS
  cells : ∀ (i : ℕ) (k : UInt8), flows.nbActions[i]? = some k → k.toNat ≤ MAX_ACTIONS

theorem freeRows_eq (h : Counting flows) (payloads : Heap ActionPayload) {n : ℕ}
    (hn : n ≤ flows.nbFlows.toNat) :
    forLoop freeFlowStep n (flows, payloads) = .ok
      ({ flows with nbActions := List.replicate n 0 ++ flows.nbActions.drop n },
        payloads.freeAll (((List.range n).flatMap flows.rowCells).filterMap flows.pointer)) := by
  induction n with
  | zero =>
    rw [forLoop, List.range_zero, List.flatMap_nil, List.filterMap_nil, Heap.freeAll_nil]
    rfl
  | succ n ih =>
    have hlt : n < MAX_HANDLED_FLOWS := Nat.lt_of_lt_of_le hn h.rows
    have hcount := h.sizes.nbActions.symm ▸ hlt
    have hk := List.getElem?_eq_getElem hcount
    have hread := (getElem?_replicate_append_of_ge (a := 0) (le_refl n)).trans hk
    have hrow := List.getElem?_eq_getElem (h.sizes.actions.symm ▸ hlt)
    have hcells : flows.rowCells n =
        (List.range flows.nbActions[n].toNat).map fun j => (n, j) := by
      rw [OpenflowFlows.rowCells, List.getD_eq_getElem?_getD, hk, Option.getD_some]
    rw [forLoop, ih (Nat.le_of_succ_le hn), List.range_succ, List.flatMap_append,
      List.flatMap_singleton, List.filterMap_append, Heap.freeAll_append, hcells]
    apply bind_eq_ok.mpr
    refine ⟨_, rfl, bind_eq_ok.mpr ⟨_, readAt_of_getElem? hread,
      bind_eq_ok.mpr ⟨_, freeActions_eq hrow ?_, ?_⟩⟩⟩
    · rw [h.sizes.row n _ hrow]
      exact h.cells n _ hk
    · rw [set_replicate_append hcount]
      rfl

theorem openflowFreeFlows_eq (h : Counting flows) (payloads : Heap ActionPayload) :
    openflowFreeFlows flows payloads = .ok
      ({ flows with
          nbActions := List.replicate flows.nbFlows.toNat 0 ++
            flows.nbActions.drop flows.nbFlows.toNat
          nbFlows := 0 },
        payloads.freeAll (flows.countedCells.filterMap flows.pointer)) :=
  bind_eq_ok.mpr ⟨_, freeRows_eq h payloads le_rfl, rfl⟩

end Free

end OrssNic
