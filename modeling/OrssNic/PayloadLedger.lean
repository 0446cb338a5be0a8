import OrssNic.OpenflowFree
import OrssNic.TableBounds

/-!
# The ledger of the payloads

The payload of an action is allocated by `openflow_get_flows` and freed by
`openflow_free_flows`, which looks at the cells that `nb_flows` and
`nb_actions` count. The ledger says, in terms of the calls alone, which actions
stand in which cells, and through which cells payloads have been freed; the
tables and the heap follow it call by call.
-/

namespace OrssNic
open CLoops CLists CRuns CSlots

/-! ## Calls, and the actions that are stored -/

/-- A call with what it finds around it: the connection, and the answer of the
peer, or none when the request cannot be written. -/
inductive FlowsCall
  | getFlows (connection : OpenflowConnection) (transactionId : UInt32)
      (stack : ℕ → OpenflowMessage) (answer : Option Answer)
  | freeFlows

def FlowsCall.Served : FlowsCall → Prop
  | getFlows connection transactionId _ (some answer) => answer.Arrives connection transactionId
  | getFlows connection _ _ none => connection.fd.writes.head? = some false
  | freeFlows => True

def flowsCall (s : OpenflowFlows × Heap ActionPayload) :
    FlowsCall → Except Halt (OpenflowFlows × Heap ActionPayload)
  | .getFlows connection transactionId stack _ =>
    (openflowGetFlows connection transactionId stack s.1 s.2).map fun r => (r.flows, r.payloads)
  | .freeFlows => openflowFreeFlows s.1 s.2

/-- Which actions stand where, in terms of the calls alone. -/
structure Ledger where
  nbFlows : ℕ
  /-- The actions that were stored in a row since it was last freed. -/
  row : ℕ → List WireAction
  /-- The cells whose payloads were freed. -/
  spent : Set (ℕ × ℕ)

namespace Ledger

def zeroed : Ledger := ⟨0, fun _ => [], ∅⟩

def known (l : Ledger) : Set (ℕ × ℕ) := {c | ∃ action, (l.row c.1)[c.2]? = some (.known action)}

def store (l : Ledger) (e : WireEntry) : Ledger :=
  { l with
    nbFlows := l.nbFlows + 1
    row := Function.update l.row l.nbFlows (l.row l.nbFlows ++ e.stored) }

def free (l : Ledger) : Ledger where
  nbFlows := 0
  row i := if i < l.nbFlows then [] else l.row i
  spent := l.spent ∪ {c | c ∈ l.known ∧ c.1 < l.nbFlows}

def call (l : Ledger) : FlowsCall → Ledger
  | .getFlows _ _ _ (some answer) => answer.entries.foldl store { l with nbFlows := 0 }
  | .getFlows _ _ _ none => l
  | .freeFlows => l.free

def after (calls : List FlowsCall) : Ledger := calls.foldl call zeroed

/-- There is a cell for each part, a row for each entry, and in it a cell for each action. -/
structure Fits (l : Ledger) (answer : Answer) : Prop where
  parts : answer.length ≤ MAX_STATS_REPLY
  rows : answer.entries.length ≤ MAX_HANDLED_FLOWS
  cells : ∀ (i : ℕ) (e : WireEntry), answer.entries[i]? = some e →
    (l.row i).length + e.stored.length ≤ MAX_ACTIONS

def Room (l : Ledger) : FlowsCall → Prop
  | .getFlows _ _ _ (some answer) => l.Fits answer
  | _ => True

/-- In the rows of the last answer, no action of an unknown type stands in a
cell whose payload was freed. -/
def Clear (l : Ledger) : Prop :=
  ∀ c ∈ l.spent, c.1 < l.nbFlows → c.2 < (l.row c.1).length → c ∈ l.known

end Ledger

/-! ## The tables follow the ledger -/

namespace Ledger

def put (l : Ledger) (a : WireAction) : Ledger :=
  { l with row := Function.update l.row l.nbFlows (l.row l.nbFlows ++ [a]) }

theorem foldl_put (l : Ledger) (actions : List WireAction) : actions.foldl put l =
    { l with row := Function.update l.row l.nbFlows (l.row l.nbFlows ++ actions) } := by
  induction actions generalizing l with
  | nil => rw [List.foldl_nil, List.append_nil, Function.update_eq_self]
  | cons a actions ih =>
    rw [List.foldl_cons, ih]
    simp only [put, Function.update_self, Function.update_idem, List.append_assoc,
      List.singleton_append]

theorem row_put_self (l : Ledger) (a : WireAction) :
    (l.put a).row l.nbFlows = l.row l.nbFlows ++ [a] :=
  Function.update_self ..

theorem row_put_of_ne (l : Ledger) (a : WireAction) {i : ℕ} (hi : i ≠ l.nbFlows) :
    (l.put a).row i = l.row i :=
  Function.update_of_ne hi ..

theorem store_nbFlows (l : Ledger) (e : WireEntry) : (l.store e).nbFlows = l.nbFlows + 1 := rfl

theorem row_store_of_ne (l : Ledger) (e : WireEntry) {i : ℕ} (hi : i ≠ l.nbFlows) :
    (l.store e).row i = l.row i :=
  Function.update_of_ne hi ..

def nextCell (l : Ledger) : ℕ × ℕ := (l.nbFlows, (l.row l.nbFlows).length)

theorem getElem?_put_next (l : Ledger) (a : WireAction) :
    ((l.put a).row l.nextCell.1)[l.nextCell.2]? = some a := by
  rw [nextCell, row_put_self, List.getElem?_append_right le_rfl, Nat.sub_self]
  rfl

theorem getElem?_put_of_ne (l : Ledger) (a : WireAction) {c : ℕ × ℕ} (hc : c ≠ l.nextCell) :
    ((l.put a).row c.1)[c.2]? = (l.row c.1)[c.2]? := by
  obtain ⟨i, j⟩ := c
  by_cases hi : i = l.nbFlows
  · subst hi
    have hj : j ≠ (l.row l.nbFlows).length := fun h => hc (Prod.ext rfl h)
    dsimp only
    rw [row_put_self]
    rcases Nat.lt_or_gt_of_ne hj with hlt | hgt
    · exact List.getElem?_append_left hlt
    · rw [List.getElem?_eq_none hgt.le, List.getElem?_eq_none]
      rw [List.length_append, List.length_singleton]
      exact hgt
  · dsimp only
    rw [row_put_of_ne l a hi]

theorem nextCell_notMem_known (l : Ledger) : l.nextCell ∉ l.known := by
  rintro ⟨action, h⟩
  rw [nextCell, List.getElem?_eq_none le_rfl] at h
  cases h

theorem mem_known_put {l : Ledger} {a : WireAction} {c : ℕ × ℕ} (hc : c ≠ l.nextCell) :
    c ∈ (l.put a).known ↔ c ∈ l.known := by
  change (∃ action, ((l.put a).row c.1)[c.2]? = some (.known action)) ↔ _
  rw [getElem?_put_of_ne l a hc]
  rfl

theorem known_put_known (l : Ledger) (action : FlowAction) :
    (l.put (.known action)).known = insert l.nextCell l.known := by
  ext c
  rw [Set.mem_insert_iff]
  by_cases hc : c = l.nextCell
  · subst hc
    exact ⟨fun _ => .inl rfl, fun _ => ⟨action, l.getElem?_put_next _⟩⟩
  · rw [mem_known_put hc]
    exact ⟨.inr, fun h => h.resolve_left hc⟩

theorem known_put_other (l : Ledger) (type : UInt16) (content : List UInt8)
    (unknown : type ≠ OFPAT_OUTPUT ∧ type ≠ OFPAT_SET_VLAN_VID) :
    (l.put (.other type content unknown)).known = l.known := by
  ext c
  by_cases hc : c = l.nextCell
  · subst hc
    constructor
    · rintro ⟨action, h⟩
      rw [getElem?_put_next] at h
      cases h
    · intro h
      exact absurd h l.nextCell_notMem_known
  · exact mem_known_put hc

end Ledger

structure Booked (s : OpenflowFlows × Heap ActionPayload) (l : Ledger) : Prop
    extends Counting s.1 where
  nbFlows : s.1.nbFlows.toNat = l.nbFlows
  counts : ∀ (i : ℕ) (k : UInt8), s.1.nbActions[i]? = some k → k.toNat = (l.row i).length
  owns : Owns s.1.pointer l.known s.2
  spent : ∀ c ∉ l.known, c ∈ l.spent ↔ ∃ r, s.1.pointer c = some r

theorem pointer_set {flows flows' : OpenflowFlows} {i j : ℕ} {row : List ActionDescriptor}
    {d : ActionDescriptor} (hrow : flows.actions[i]? = some row) (hj : j < row.length)
    (hactions : flows'.actions = flows.actions.set i (row.set j d)) :
    flows'.pointer = Function.update flows.pointer (i, j) d.data := by
  funext c
  obtain ⟨i', j'⟩ := c
  by_cases hi : i' = i
  · subst hi
    have hrow' : flows'.actions[i']? = some (row.set j d) := by
      rw [hactions, List.getElem?_set_self (List.getElem?_eq_some_iff.mp hrow).1]
    rw [OpenflowFlows.pointer_of_row hrow']
    by_cases hj' : j' = j
    · subst hj'
      rw [Function.update_self, List.getElem?_set_self hj]
      rfl
    · rw [Function.update_of_ne fun h => hj' (Prod.mk.inj h).2, List.getElem?_set_ne (Ne.symm hj'),
        OpenflowFlows.pointer_of_row hrow]
  · rw [Function.update_of_ne fun h => hi (Prod.mk.inj h).1, OpenflowFlows.pointer,
      OpenflowFlows.pointer, hactions, List.getElem?_set_ne (Ne.symm hi)]

section Booked
variable {s : OpenflowFlows × Heap ActionPayload} {l : Ledger}

theorem Booked.count (h : Booked s l) (hrow : l.nbFlows < MAX_HANDLED_FLOWS) :
    ∃ k, s.1.nbActions[s.1.nbFlows.toNat]? = some k ∧ k.toNat = (l.row l.nbFlows).length := by
  have hk := List.getElem?_eq_getElem (h.sizes.nbActions.symm ▸ h.nbFlows.symm ▸ hrow)
  refine ⟨_, hk, ?_⟩
  rw [h.counts _ _ hk, h.nbFlows]

theorem Booked.counts_put (h : Booked s l) {k : UInt8} (a : WireAction)
    (hk : s.1.nbActions[s.1.nbFlows.toNat]? = some k) (hroom : k.toNat < MAX_ACTIONS) :
    ∀ (i : ℕ) (k' : UInt8), (s.1.nbActions.set s.1.nbFlows.toNat (k + 1))[i]? = some k' →
      k'.toNat ≤ MAX_ACTIONS ∧ k'.toNat = ((l.put a).row i).length := by
  intro i k' hk'
  by_cases hi : i = s.1.nbFlows.toNat
  · subst hi
    have hnext := nbActions_next hroom
    rw [List.getElem?_set_self (List.getElem?_eq_some_iff.mp hk).1, Option.some.injEq] at hk'
    subst hk'
    rw [hnext]
    refine ⟨hroom, ?_⟩
    rw [h.counts _ _ hk, h.nbFlows, Ledger.row_put_self, List.length_append,
      List.length_singleton]
  · rw [List.getElem?_set_ne (Ne.symm hi)] at hk'
    refine ⟨h.cells i k' hk', ?_⟩
    rw [Ledger.row_put_of_ne l a (h.nbFlows ▸ hi)]
    exact h.counts i k' hk'

theorem storeAction_booked (h : Booked s l) (hrow : l.nbFlows < MAX_HANDLED_FLOWS)
    (hroom : (l.row l.nbFlows).length < MAX_ACTIONS) (a : WireAction) :
    ∃ s', storeAction s a = .ok s' ∧ s'.2.freed = s.2.freed ∧ Booked s' (l.put a) := by
  obtain ⟨k, hk, hlength⟩ := h.count hrow
  obtain ⟨hlt, row, d, hrow', hd, hok⟩ | ⟨hge, -⟩ := storeAction_cases (a := a) h.sizes hk
  · obtain ⟨-, hext⟩ := storeAction_extends h.sizes hk hok
    have hcounts := h.counts_put a hk hlt
    have hj := (List.getElem?_eq_some_iff.mp hd).1
    have hcell : (s.1.nbFlows.toNat, k.toNat) = l.nextCell := by
      rw [Ledger.nextCell, h.nbFlows, hlength]
    have hpointer : OpenflowFlows.pointer { s.1 with
        actions := s.1.actions.set s.1.nbFlows.toNat (row.set k.toNat (a.store d s.2).1)
        nbActions := s.1.nbActions.set s.1.nbFlows.toNat (k + 1) } =
          Function.update s.1.pointer l.nextCell (a.store d s.2).1.data := by
      rw [← hcell]
      exact pointer_set hrow' hj rfl
    have hcounting : Counting _ := ⟨hext.sizes, h.rows, fun i k' hk' => (hcounts i k' hk').1⟩
    cases a with
    | known action =>
      refine ⟨_, hok, rfl, hcounting, h.nbFlows, fun i k' hk' => (hcounts i k' hk').2, ?_, ?_⟩
      · rw [Ledger.known_put_known, hpointer]
        exact h.owns.put l.nextCell_notMem_known action.decoded
      · intro c hc
        rw [Ledger.known_put_known, Set.mem_insert_iff, not_or] at hc
        rw [hpointer, Function.update_of_ne hc.1]
        exact h.spent c hc.2
    | other type content unknown =>
      -- The cell keeps its pointer.
      have hsame : ((WireAction.other type content unknown).store d s.2).1.data =
          s.1.pointer l.nextCell := by
        rw [← hcell, OpenflowFlows.pointer_of_row hrow', hd, Option.bind_some]
        rfl
      rw [hsame, Function.update_eq_self] at hpointer
      refine ⟨_, hok, rfl, hcounting, h.nbFlows, fun i k' hk' => (hcounts i k' hk').2, ?_, ?_⟩
      · rw [Ledger.known_put_other, hpointer]
        exact h.owns
      · rw [Ledger.known_put_other, hpointer]
        exact h.spent
  · omega

theorem storeActions_booked (actions : List WireAction) (h : Booked s l)
    (hrow : l.nbFlows < MAX_HANDLED_FLOWS)
    (hroom : (l.row l.nbFlows).length + actions.length ≤ MAX_ACTIONS) :
    ∃ s', run storeAction actions s = .ok s' ∧ s'.2.freed = s.2.freed ∧
      Booked s' (actions.foldl Ledger.put l) := by
  induction actions generalizing s l with
  | nil => exact ⟨s, rfl, rfl, h⟩
  | cons a actions ih =>
    rw [List.length_cons] at hroom
    obtain ⟨t, hstep, hfreed, ht⟩ := storeAction_booked h hrow (by omega) a
    have hroom' : ((l.put a).row l.nbFlows).length + actions.length ≤ MAX_ACTIONS := by
      rw [Ledger.row_put_self, List.length_append, List.length_singleton]
      omega
    obtain ⟨s', hrun, hfreed', hs'⟩ := ih ht hrow hroom'
    exact ⟨s', run_cons_ok.mpr ⟨t, hstep, hrun⟩, hfreed'.trans hfreed, hs'⟩

theorem Booked.filled (h : Booked s l) (i : ℕ) (stats : OpenflowFlowStats) :
    Booked ({ s.1 with flowStats := s.1.flowStats.set i stats }, s.2) l where
  sizes := h.sizes.filled i stats
  rows := h.rows
  cells := h.cells
  nbFlows := h.nbFlows
  counts := h.counts
  owns := h.owns
  spent := h.spent

theorem Booked.recount (h : Booked s l) {nbFlows : UInt16} {n : ℕ} (hn : nbFlows.toNat = n)
    (hle : n ≤ MAX_HANDLED_FLOWS) :
    Booked ({ s.1 with nbFlows := nbFlows }, s.2) { l with nbFlows := n } where
  sizes := h.sizes.counted nbFlows
  rows := hn.trans_le hle
  cells := h.cells
  nbFlows := hn
  counts := h.counts
  owns := h.owns
  spent := h.spent

theorem storeEntry_booked (e : WireEntry) (h : Booked s l) (hrow : l.nbFlows < MAX_HANDLED_FLOWS)
    (hroom : (l.row l.nbFlows).length + e.stored.length ≤ MAX_ACTIONS) :
    ∃ s', storeEntry s e = .ok s' ∧ s'.2.freed = s.2.freed ∧ Booked s' (l.store e) := by
  have hwrite : s.1.nbFlows.toNat < s.1.flowStats.length := by
    rw [h.sizes.flowStats, h.nbFlows]
    exact hrow
  obtain ⟨t, hrun, hfreed, ht⟩ :=
    storeActions_booked e.stored (h.filled s.1.nbFlows.toNat e.decoded) hrow hroom
  rw [Ledger.foldl_put] at ht
  refine ⟨({ t.1 with nbFlows := t.1.nbFlows + 1 }, t.2), ?_, hfreed, ?_⟩
  · apply bind_eq_ok.mpr
    exact ⟨_, writeAt_of_lt hwrite, bind_eq_ok.mpr ⟨t, hrun, rfl⟩⟩
  · have hnext : (t.1.nbFlows + 1).toNat = l.nbFlows + 1 := by
      have hsame : t.1.nbFlows.toNat = l.nbFlows := ht.nbFlows
      rw [← hsame] at hrow ⊢
      exact nbFlows_next hrow
    exact ht.recount hnext hrow

theorem storeEntries_booked (entries : List WireEntry) (h : Booked s l)
    (hrows : l.nbFlows + entries.length ≤ MAX_HANDLED_FLOWS)
    (hcells : ∀ (i : ℕ) (e : WireEntry), entries[i]? = some e →
      (l.row (l.nbFlows + i)).length + e.stored.length ≤ MAX_ACTIONS) :
    ∃ s', run storeEntry entries s = .ok s' ∧ s'.2.freed = s.2.freed ∧
      Booked s' (entries.foldl Ledger.store l) := by
  induction entries generalizing s l with
  | nil => exact ⟨s, rfl, rfl, h⟩
  | cons e entries ih =>
    rw [List.length_cons] at hrows
    obtain ⟨t, hstep, hfreed, ht⟩ := storeEntry_booked e h (by omega) (hcells 0 e rfl)
    have hcells' : ∀ (i : ℕ) (e' : WireEntry), entries[i]? = some e' →
        ((l.store e).row (l.nbFlows + 1 + i)).length + e'.stored.length ≤ MAX_ACTIONS := by
      intro i e' he'
      have hother : (l.store e).row (l.nbFlows + 1 + i) = l.row (l.nbFlows + (i + 1)) := by
        rw [Ledger.row_store_of_ne l e (by omega)]
        congr 1
        omega
      rw [hother]
      exact hcells (i + 1) e' he'
    obtain ⟨s', hrun, hfreed', hs'⟩ := ih ht (by rw [Ledger.store_nbFlows]; omega) hcells'
    exact ⟨s', run_cons_ok.mpr ⟨t, hstep, hrun⟩, hfreed'.trans hfreed, hs'⟩

/-! ## The calls follow the ledger -/

theorem openflowGetFlows_refused {connection : OpenflowConnection} (transactionId : UInt32)
    (stack : ℕ → OpenflowMessage) (flows : OpenflowFlows) (payloads : Heap ActionPayload)
    (hrefused : connection.fd.writes.head? = some false) :
    ∃ connection', openflowGetFlows connection transactionId stack flows payloads =
      .ok ⟨connection', transactionId + 1, flows, payloads⟩ := by
  obtain ⟨writes, hwrites⟩ := List.head?_eq_some_iff.mp hrefused
  have hwrite : (write connection.fd (.statsRequest (flowRequest transactionId))).1 = false := by
    rw [write, hwrites]
  refine ⟨{ connection with
    fd := (write connection.fd (.statsRequest (flowRequest transactionId))).2 }, ?_⟩
  unfold openflowGetFlows
  dsimp only
  rw [hwrite]
  rfl

theorem getFlows_booked {connection : OpenflowConnection} {transactionId : UInt32}
    {answer : Answer} (stack : ℕ → OpenflowMessage) (h : Booked s l)
    (harrives : answer.Arrives connection transactionId) (hfits : l.Fits answer) :
    ∃ s', flowsCall s (.getFlows connection transactionId stack (some answer)) = .ok s' ∧
      s'.2.freed = s.2.freed ∧
      Booked s' (l.call (.getFlows connection transactionId stack (some answer))) := by
  have hstart : Booked ({ s.1 with nbFlows := 0 }, s.2) { l with nbFlows := 0 } :=
    h.recount rfl (Nat.zero_le _)
  obtain ⟨s', hrun, hfreed, hs'⟩ := storeEntries_booked answer.entries hstart
    (by rw [zero_add]; exact hfits.rows) (fun i e he => by rw [zero_add]; exact hfits.cells i e he)
  obtain ⟨connection', hcall⟩ :=
    openflowGetFlows_store stack s.2 h.sizes harrives hfits.parts
  refine ⟨s', ?_, hfreed, hs'⟩
  rw [flowsCall, hcall, hrun]
  rfl

theorem Booked.fits_iff (h : Booked s l) {answer : Answer} :
    l.Fits answer ↔ answer.InTables s.1.nbActions := by
  constructor
  · intro hfits
    refine ⟨hfits.parts, by rw [zero_add]; exact hfits.rows, fun i e k he hk => .inr ?_⟩
    rw [zero_add] at hk
    rw [h.counts i k hk]
    exact hfits.cells i e he
  · intro hin
    have hrows := hin.rows.rows
    rw [zero_add] at hrows
    refine ⟨hin.parts, hrows, fun i e he => ?_⟩
    have hi : i < MAX_HANDLED_FLOWS :=
      (List.getElem?_eq_some_iff.mp he).1.trans_le hrows
    have hk := List.getElem?_eq_getElem (h.sizes.nbActions.symm ▸ hi)
    rw [← h.counts i _ hk]
    rcases hin.rows.cells i e _ he (by rw [zero_add]; exact hk) with hnil | hroom
    · rw [hnil]
      exact h.cells i _ hk
    · exact hroom

theorem Booked.row_length (h : Booked s l) {i : ℕ} (hi : i < MAX_HANDLED_FLOWS) :
    (s.1.nbActions.getD i 0).toNat = (l.row i).length := by
  have hk := List.getElem?_eq_getElem (h.sizes.nbActions.symm ▸ hi)
  rw [List.getD_eq_getElem?_getD, hk, Option.getD_some]
  exact h.counts i _ hk

theorem Booked.mem_countedCells (h : Booked s l) {c : ℕ × ℕ} :
    c ∈ s.1.countedCells ↔ c.1 < l.nbFlows ∧ c.2 < (l.row c.1).length := by
  rw [OpenflowFlows.mem_countedCells, h.nbFlows]
  constructor
  · rintro ⟨hi, hj⟩
    rw [h.row_length (hi.trans_le (h.nbFlows ▸ h.rows))] at hj
    exact ⟨hi, hj⟩
  · rintro ⟨hi, hj⟩
    rw [h.row_length (hi.trans_le (h.nbFlows ▸ h.rows))]
    exact ⟨hi, hj⟩

theorem Ledger.lt_of_mem_known {c : ℕ × ℕ} (hc : c ∈ l.known) : c.2 < (l.row c.1).length := by
  obtain ⟨action, h⟩ := hc
  exact (List.getElem?_eq_some_iff.mp h).1

theorem Ledger.row_free_of_lt {i : ℕ} (hi : i < l.nbFlows) : l.free.row i = [] := if_pos hi

theorem Ledger.row_free_of_ge {i : ℕ} (hi : l.nbFlows ≤ i) : l.free.row i = l.row i :=
  if_neg (Nat.not_lt.mpr hi)

theorem Ledger.mem_known_free {c : ℕ × ℕ} :
    c ∈ l.free.known ↔ c ∈ l.known ∧ ¬c.1 < l.nbFlows := by
  change (∃ action, (l.free.row c.1)[c.2]? = some (.known action)) ↔ _
  rcases Nat.lt_or_ge c.1 l.nbFlows with hi | hi
  · rw [row_free_of_lt hi]
    constructor
    · rintro ⟨action, h⟩
      cases h
    · intro h
      exact absurd hi h.2
  · rw [row_free_of_ge hi]
    exact ⟨fun h => ⟨h, Nat.not_lt.mpr hi⟩, fun h => h.1⟩

theorem Booked.counts_free (h : Booked s l) {i : ℕ} {k : UInt8}
    (hk : (List.replicate s.1.nbFlows.toNat 0 ++ s.1.nbActions.drop s.1.nbFlows.toNat)[i]? =
      some k) : k.toNat ≤ MAX_ACTIONS ∧ k.toNat = (l.free.row i).length := by
  rcases Nat.lt_or_ge i s.1.nbFlows.toNat with hi | hi
  · rw [getElem?_replicate_append_of_lt hi, Option.some.injEq] at hk
    subst hk
    rw [Ledger.row_free_of_lt (h.nbFlows ▸ hi)]
    exact ⟨Nat.zero_le _, rfl⟩
  · rw [getElem?_replicate_append_of_ge hi] at hk
    rw [Ledger.row_free_of_ge (h.nbFlows ▸ hi)]
    exact ⟨h.cells i k hk, h.counts i k hk⟩

theorem Booked.known_free (h : Booked s l) :
    l.free.known = {c | c ∈ l.known ∧ c ∉ s.1.countedCells} := by
  ext c
  rw [Ledger.mem_known_free]
  apply and_congr_right
  intro hknown
  rw [h.mem_countedCells, not_and]
  constructor
  · intro hi hi'
    exact absurd hi' hi
  · intro hj hi
    exact hj hi (Ledger.lt_of_mem_known hknown)

theorem freeFlows_booked (h : Booked s l) :
    ∃ s', flowsCall s .freeFlows = .ok s' ∧ Booked s' l.free ∧
      (s'.2.freed.Nodup ↔ s.2.freed.Nodup ∧ l.Clear) := by
  refine ⟨_, openflowFreeFlows_eq h.toCounting s.2, ?_, ?_⟩
  · refine ⟨⟨⟨h.sizes.flowStats, ?_, h.sizes.actions, h.sizes.row⟩, Nat.zero_le _,
      fun i k hk => (h.counts_free hk).1⟩, rfl, fun i k hk => (h.counts_free hk).2, ?_, ?_⟩
    · have hrows := h.rows
      rw [← h.sizes.nbActions] at hrows ⊢
      rw [List.length_append, List.length_replicate, List.length_drop]
      exact Nat.add_sub_cancel' hrows
    · rw [h.known_free]
      exact h.owns.release s.1.countedCells
    · intro c hc
      change c ∈ l.spent ∪ {c | c ∈ l.known ∧ c.1 < l.nbFlows} ↔ ∃ r, s.1.pointer c = some r
      rw [Ledger.mem_known_free, not_and, not_not] at hc
      by_cases hknown : c ∈ l.known
      · obtain ⟨r, hr, -⟩ := h.owns.live c hknown
        exact ⟨fun _ => ⟨r, hr⟩, fun _ => .inr ⟨hknown, hc hknown⟩⟩
      · rw [← h.spent c hknown]
        constructor
        · rintro (hspent | hfreed)
          · exact hspent
          · exact absurd hfreed.1 hknown
        · exact .inl
  · rw [h.owns.release_nodup_iff s.1.countedCells_nodup]
    apply and_congr_right'
    constructor
    · intro hnull c hc hi hj
      by_contra hknown
      obtain ⟨r, hr⟩ := (h.spent c hknown).mp hc
      rw [hnull c (h.mem_countedCells.mpr ⟨hi, hj⟩) hknown] at hr
      cases hr
    · intro hclear c hc hknown
      obtain ⟨hi, hj⟩ := h.mem_countedCells.mp hc
      apply Option.eq_none_iff_forall_ne_some.mpr
      intro r hr
      exact hknown (hclear c ((h.spent c hknown).mpr ⟨r, hr⟩) hi hj)

theorem flowsCall_booked {call : FlowsCall} (h : Booked s l) (hserved : call.Served)
    (hroom : l.Room call) :
    ∃ s', flowsCall s call = .ok s' ∧ Booked s' (l.call call) ∧
      (s'.2.freed.Nodup ↔ s.2.freed.Nodup ∧ (call = .freeFlows → l.Clear)) := by
  cases call with
  | freeFlows =>
    obtain ⟨s', hok, hs', hnodup⟩ := freeFlows_booked h
    refine ⟨s', hok, hs', ?_⟩
    rw [hnodup]
    simp
  | getFlows connection transactionId stack answer =>
    have hkept : ∀ freed : List Ref, freed.Nodup ↔ freed.Nodup ∧
        (FlowsCall.getFlows connection transactionId stack answer = .freeFlows → l.Clear) := by
      simp
    cases answer with
    | none =>
      obtain ⟨connection', hrefused⟩ :=
        openflowGetFlows_refused transactionId stack s.1 s.2 hserved
      refine ⟨s, ?_, h, hkept _⟩
      rw [flowsCall, hrefused]
      rfl
    | some answer =>
      obtain ⟨s', hok, hfreed, hs'⟩ := getFlows_booked stack h hserved hroom
      refine ⟨s', hok, hs', ?_⟩
      rw [hfreed]
      exact hkept _

theorem zeroed_pointer : OpenflowFlows.zeroed.pointer = fun _ => none := by
  funext c
  apply Option.eq_none_iff_forall_ne_some.mpr
  intro r hr
  obtain ⟨row, d, hrow, hd, hdata⟩ := OpenflowFlows.pointer_eq_some.mp hr
  rw [List.eq_of_mem_replicate (List.mem_of_getElem? hrow)] at hd
  rw [List.eq_of_mem_replicate (List.mem_of_getElem? hd)] at hdata
  cases hdata

theorem Ledger.known_zeroed : zeroed.known = ∅ := by
  apply Set.eq_empty_of_forall_notMem
  rintro c ⟨action, h⟩
  cases h

theorem zeroed_booked : Booked (.zeroed, Heap.empty) .zeroed where
  sizes := (zeroed_stored Heap.empty).sizes
  rows := Nat.zero_le _
  cells := by
    intro i k hk
    rw [List.eq_of_mem_replicate (List.mem_of_getElem? hk)]
    exact Nat.zero_le _
  nbFlows := rfl
  counts := by
    intro i k hk
    rw [List.eq_of_mem_replicate (List.mem_of_getElem? hk)]
    rfl
  owns := by
    rw [zeroed_pointer, Ledger.known_zeroed]
    exact .empty
  spent := by
    intro c _
    rw [zeroed_pointer]
    constructor
    · intro hspent
      exact absurd hspent (Set.notMem_empty c)
    · rintro ⟨r, hr⟩
      cases hr

end Booked

end OrssNic
