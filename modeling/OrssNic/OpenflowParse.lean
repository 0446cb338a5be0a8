import OrssNic.OpenflowDecode
import OrssNic.Library.Lists

/-!
# The contents of the tables

`Stored` says which entries the tables hold: their statistics, their action
counts, and action descriptors whose payloads are on the heap. Statistics in a
fresh row add an entry without actions, and a descriptor in the last row adds
an action to the last entry.
-/

namespace OrssNic
open CLoops CLists

/-- A descriptor of an action, with its payload allocated. -/
structure DescriptorHolds (payloads : Heap ActionPayload) (d : ActionDescriptor) (a : FlowAction) :
    Prop where
  type : d.type = a.type
  data : ∃ r, d.data = some r ∧ r < payloads.next ∧ payloads.cell r = a.decoded

structure RowHolds (flows : OpenflowFlows) (payloads : Heap ActionPayload) (i : ℕ)
    (item : OpenflowFlowStats × List FlowAction) : Prop where
  flowStats : flows.flowStats[i]? = some item.1
  nbActions : flows.nbActions[i]? = some (UInt8.ofNat item.2.length)
  actions : ∃ row, flows.actions[i]? = some row ∧
    List.Forall₂ (DescriptorHolds payloads) (row.take item.2.length) item.2

structure TableSizes (flows : OpenflowFlows) : Prop where
  flowStats : flows.flowStats.length = MAX_HANDLED_FLOWS
  nbActions : flows.nbActions.length = MAX_HANDLED_FLOWS
  actions : flows.actions.length = MAX_HANDLED_FLOWS
  row : ∀ (i : ℕ) (row : List ActionDescriptor), flows.actions[i]? = some row →
    row.length = MAX_ACTIONS

structure Stored (items : List (OpenflowFlowStats × List FlowAction)) (flows : OpenflowFlows)
    (payloads : Heap ActionPayload) : Prop where
  sizes : TableSizes flows
  rows : ∀ (i : ℕ) (item), items[i]? = some item → RowHolds flows payloads i item
  fresh : ∀ i : ℕ, items.length ≤ i → i < MAX_HANDLED_FLOWS → flows.nbActions[i]? = some 0

theorem DescriptorHolds.alloc {payloads : Heap ActionPayload} {d : ActionDescriptor}
    {a : FlowAction} (h : DescriptorHolds payloads d a) (payload : ActionPayload) :
    DescriptorHolds (payloads.alloc payload).2 d a := by
  obtain ⟨htype, r, hdata, hr, hcell⟩ := h
  exact ⟨htype, r, hdata, Nat.lt_succ_of_lt hr, by rw [payloads.alloc_cell_of_lt _ hr, hcell]⟩

theorem RowHolds.alloc {flows : OpenflowFlows} {payloads : Heap ActionPayload} {i : ℕ}
    {item : OpenflowFlowStats × List FlowAction} (h : RowHolds flows payloads i item)
    (payload : ActionPayload) : RowHolds flows (payloads.alloc payload).2 i item := by
  obtain ⟨row, hrow, hforall⟩ := h.actions
  exact ⟨h.flowStats, h.nbActions, row, hrow, hforall.imp fun d a hd => hd.alloc payload⟩

theorem TableSizes.counted {flows : OpenflowFlows} (h : TableSizes flows) (nbFlows : UInt16) :
    TableSizes { flows with nbFlows := nbFlows } :=
  ⟨h.flowStats, h.nbActions, h.actions, h.row⟩

theorem TableSizes.filled {flows : OpenflowFlows} (h : TableSizes flows) (i : ℕ)
    (stats : OpenflowFlowStats) :
    TableSizes { flows with flowStats := flows.flowStats.set i stats } :=
  ⟨List.length_set.trans h.flowStats, h.nbActions, h.actions, h.row⟩

theorem TableSizes.stored {flows : OpenflowFlows} (h : TableSizes flows) {i : ℕ}
    {row : List ActionDescriptor} (hrow : flows.actions[i]? = some row) (j : ℕ)
    (d : ActionDescriptor) (k : UInt8) :
    TableSizes { flows with
      actions := flows.actions.set i (row.set j d)
      nbActions := flows.nbActions.set i k } where
  flowStats := h.flowStats
  nbActions := List.length_set.trans h.nbActions
  actions := List.length_set.trans h.actions
  row := forall_set (P := fun _ r => r.length = MAX_ACTIONS)
    (List.length_set.trans (h.row i row hrow)) fun i r _ hr => h.row i r hr

theorem Stored.counted {items : List (OpenflowFlowStats × List FlowAction)} {flows : OpenflowFlows}
    {payloads : Heap ActionPayload} (h : Stored items flows payloads) (nbFlows : UInt16) :
    Stored items { flows with nbFlows := nbFlows } payloads where
  sizes := h.sizes.counted nbFlows
  rows := fun i item hitem =>
    ⟨(h.rows i item hitem).flowStats, (h.rows i item hitem).nbActions,
      (h.rows i item hitem).actions⟩
  fresh := h.fresh

theorem loadBytes_drop {data front rest : List UInt8} {offset : ℕ}
    (h : data.drop offset = front ++ rest) (hpos : 0 < front.length) {count : ℕ}
    (hcount : count ≤ front.length) :
    loadBytes data offset count = .ok (front.take count) := by
  have hlen := congrArg List.length h
  rw [List.length_drop, List.length_append] at hlen
  rw [loadBytes, if_pos (by omega), h, List.take_append_of_le_length hcount]

/-! ## The actions of an entry -/

theorem readAction_eq {data rest : List UInt8} {actionsEnd responseHead : ℕ}
    {payloads : Heap ActionPayload} {descriptor : ActionDescriptor} (a : FlowAction)
    (h : data.drop responseHead = a.bytes ++ rest) :
    readAction data actionsEnd payloads descriptor responseHead =
      .ok (⟨a.type, some payloads.next⟩, (payloads.alloc a.decoded).2,
        responseHead + ACTION_SIZE) := by
  have hpos : 0 < a.bytes.length := by
    rw [a.bytes_length]
    decide
  have htype : loadBytes data responseHead 2 = .ok (a.bytes.take 2) :=
    loadBytes_drop h hpos (by rw [a.bytes_length]; decide)
  have hbytes : loadBytes data responseHead ACTION_SIZE = .ok a.bytes := by
    rw [loadBytes_drop h hpos a.bytes_length.ge, ← a.bytes_length, List.take_length]
  have hload := a.loadType []
  rw [List.append_nil] at hload
  cases a with
  | output port maxLen =>
    simp [readAction, htype, hbytes, hload, FlowAction.type, FlowAction.decoded,
      ntohOpenflowActionOutput_load, bind, Except.bind, pure, Except.pure]
  | setVlanVid vlanVid pad =>
    have hne : OFPAT_SET_VLAN_VID ≠ OFPAT_OUTPUT := by decide
    simp [readAction, htype, hbytes, hload, hne, FlowAction.type, FlowAction.decoded,
      ntohOpenflowActionVlanVid_load, bind, Except.bind, pure, Except.pure]

theorem Stored.pushAction {items : List (OpenflowFlowStats × List FlowAction)}
    {stats : OpenflowFlowStats} {flows : OpenflowFlows} {payloads : Heap ActionPayload}
    {done : List FlowAction} {row : List ActionDescriptor} (a : FlowAction)
    (hstored : Stored (items ++ [(stats, done)]) flows payloads)
    (hrow : flows.actions[items.length]? = some row) (hdone : done.length < MAX_ACTIONS) :
    Stored (items ++ [(stats, done ++ [a])])
      { flows with
        actions := flows.actions.set items.length
          (row.set done.length ⟨a.type, some payloads.next⟩)
        nbActions := flows.nbActions.set items.length (UInt8.ofNat done.length + 1) }
      (payloads.alloc a.decoded).2 := by
  have hlast : (items ++ [(stats, done)])[items.length]? = some (stats, done) :=
    getElem?_split items [] _
  obtain ⟨hstats, hcount, row', hrow', hforall⟩ := hstored.rows _ _ hlast
  rw [hrow, Option.some.injEq] at hrow'
  subst hrow'
  have hlen := hstored.sizes.row _ _ hrow
  have hi : items.length < flows.nbActions.length := (List.getElem?_eq_some_iff.mp hcount).1
  have hi' : items.length < flows.actions.length := (List.getElem?_eq_some_iff.mp hrow).1
  refine ⟨hstored.sizes.stored hrow _ _ _, ?_, ?_⟩
  · intro i item hitem
    rw [List.getElem?_append] at hitem
    split_ifs at hitem with hlt
    · -- The earlier rows are untouched.
      have hold := (hstored.rows i item (by rw [List.getElem?_append_left hlt, hitem])).alloc
        a.decoded
      obtain ⟨row', hrow', hforall'⟩ := hold.actions
      refine ⟨hold.flowStats, ?_, row', ?_, hforall'⟩
      · rw [List.getElem?_set_ne (by omega)]
        exact hold.nbActions
      · rw [List.getElem?_set_ne (by omega)]
        exact hrow'
    · have hidx : i = items.length := by
        have := (List.getElem?_eq_some_iff.mp hitem).1
        rw [List.length_singleton] at this
        omega
      subst hidx
      rw [Nat.sub_self, List.getElem?_cons_zero, Option.some.injEq] at hitem
      rw [← hitem]
      refine ⟨hstats, ?_, row.set done.length ⟨a.type, some payloads.next⟩, ?_, ?_⟩
      · rw [List.getElem?_set_self hi, List.length_append]
        exact congrArg some (UInt8.ofNat_add done.length 1).symm
      · rw [List.getElem?_set_self hi']
      · rw [List.length_append, List.length_singleton, take_succ_set (hlen ▸ hdone)]
        refine List.rel_append (hforall.imp fun d b hd => hd.alloc a.decoded) ?_
        exact .cons ⟨rfl, _, rfl, Nat.lt_succ_self _, payloads.alloc_cell_new _⟩ .nil
  · intro i hlen' hmax
    rw [List.length_append, List.length_singleton] at hlen'
    rw [List.getElem?_set_ne (by omega)]
    exact hstored.fresh i (by simpa using hlen') hmax

/-! ## The entries -/

def FlowEntry.item (e : FlowEntry) : OpenflowFlowStats × List FlowAction := (e.decoded, e.actions)

theorem FlowEntry.actions_length (e : FlowEntry) :
    (e.actions.flatMap FlowAction.bytes).length = ACTION_SIZE * e.actions.length := by
  induction e.actions with
  | nil => rfl
  | cons a actions ih =>
    rw [List.flatMap_cons, List.length_append, a.bytes_length, ih, List.length_cons]
    ring

theorem Stored.newRow {items : List (OpenflowFlowStats × List FlowAction)} {flows : OpenflowFlows}
    {payloads : Heap ActionPayload} (h : Stored items flows payloads)
    (hroom : items.length < MAX_HANDLED_FLOWS) (stats : OpenflowFlowStats) :
    Stored (items ++ [(stats, [])])
      { flows with flowStats := flows.flowStats.set items.length stats } payloads := by
  have hlt : items.length < flows.flowStats.length := h.sizes.flowStats.symm ▸ hroom
  refine ⟨h.sizes.filled _ stats, ?_, ?_⟩
  · intro i item hitem
    rw [List.getElem?_append] at hitem
    split_ifs at hitem with hi
    · have hold := h.rows i item hitem
      refine ⟨?_, hold.nbActions, hold.actions⟩
      rw [List.getElem?_set_ne (by omega)]
      exact hold.flowStats
    · have hidx : i = items.length := by
        have := (List.getElem?_eq_some_iff.mp hitem).1
        rw [List.length_singleton] at this
        omega
      subst hidx
      rw [Nat.sub_self, List.getElem?_cons_zero, Option.some.injEq] at hitem
      rw [← hitem]
      refine ⟨List.getElem?_set_self hlt, h.fresh _ le_rfl hroom, ?_⟩
      exact ⟨_, List.getElem?_eq_getElem (h.sizes.actions.symm ▸ hroom), .nil⟩
  · intro i hi hmax
    rw [List.length_append, List.length_singleton] at hi
    exact h.fresh i (by omega) hmax

end OrssNic
