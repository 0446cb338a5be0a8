import OrssNic.OpenflowParse
import OrssNic.Library.Runs

/-!
# Entries with any actions

OpenFlow 1.0 has more actions than the two that the parser knows, and puts no
bound on their number. The first action of another type ends the entry for the
parser. The two loops over a part store its entries one after the other, and
`storeEntry` says what that does to the tables, whatever they held before.
-/

namespace OrssNic
open CLoops CLists CRuns

inductive WireAction
  | known (action : FlowAction)
  /-- An action of which the parser reads the type only. -/
  | other (type : UInt16) (content : List UInt8)
      (unknown : type ≠ OFPAT_OUTPUT ∧ type ≠ OFPAT_SET_VLAN_VID)

namespace WireAction

def bytes : WireAction → List UInt8
  | known action => action.bytes
  | other type content _ => be16 type ++ be16 (UInt16.ofNat (4 + content.length)) ++ content

def store (descriptor : ActionDescriptor) (payloads : Heap ActionPayload) :
    WireAction → ActionDescriptor × Heap ActionPayload
  | known action =>
    let (ref, payloads) := payloads.alloc action.decoded
    (⟨action.type, some ref⟩, payloads)
  | other type _ _ => ({ descriptor with type := type }, payloads)

def next (actionsEnd responseHead : ℕ) : WireAction → ℕ
  | known _ => responseHead + ACTION_SIZE
  | other _ _ _ => actionsEnd

/-- The actions that take a cell of the row: up to the first of another type. -/
def stored : List WireAction → List WireAction
  | [] => []
  | known action :: actions => known action :: stored actions
  | other type content unknown :: _ => [other type content unknown]

theorem bytes_pos (a : WireAction) : 0 < a.bytes.length := by
  cases a with
  | known action =>
    rw [bytes, action.bytes_length]
    decide
  | other type content unknown =>
    simp only [bytes, List.length_append, be16_length]
    omega

theorem stored_cons (a : WireAction) (actions : List WireAction) :
    stored (a :: actions) = a :: match a with
      | known _ => stored actions
      | other _ _ _ => [] := by
  cases a <;> rfl

end WireAction

structure WireEntry where
  /-- The bytes of the fixed part behind the length field. -/
  stats : List UInt8
  sized : stats.length = FLOW_STATS_SIZE - 2
  actions : List WireAction

namespace WireEntry

def size (e : WireEntry) : ℕ := FLOW_STATS_SIZE + (e.actions.flatMap WireAction.bytes).length

def fixedBytes (e : WireEntry) : List UInt8 := be16 (UInt16.ofNat e.size) ++ e.stats

def bytes (e : WireEntry) : List UInt8 := e.fixedBytes ++ e.actions.flatMap WireAction.bytes

def decoded (e : WireEntry) : OpenflowFlowStats :=
  ntohOpenflowFlowStats (loadFlowStats e.fixedBytes)

def stored (e : WireEntry) : List WireAction := WireAction.stored e.actions

theorem fixedBytes_length (e : WireEntry) : e.fixedBytes.length = FLOW_STATS_SIZE := by
  rw [fixedBytes, List.length_append, be16_length, e.sized, FLOW_STATS_SIZE]

theorem bytes_length (e : WireEntry) : e.bytes.length = e.size := by
  rw [bytes, List.length_append, e.fixedBytes_length, size]

theorem decoded_length {e : WireEntry} (h : e.size < 2 ^ 16) : e.decoded.length.toNat = e.size := by
  have hlength : e.decoded.length = UInt16.ofNat e.size :=
    ntohs_loadU16 (by rw [fixedBytes, List.drop_zero, take_be16])
  rw [hlength, UInt16.toNat_ofNat', Nat.mod_eq_of_lt h]

end WireEntry

/-! ## The tables -/

def storeAction (s : OpenflowFlows × Heap ActionPayload) (a : WireAction) :
    Except Halt (OpenflowFlows × Heap ActionPayload) := do
  let i := s.1.nbFlows.toNat
  let nbActions ← readAt .outOfBounds s.1.nbActions i
  let row ← readAt .outOfBounds s.1.actions i
  let descriptor ← readAt .outOfBounds row nbActions.toNat
  let (descriptor, payloads) := a.store descriptor s.2
  return ({ s.1 with
    actions := s.1.actions.set i (row.set nbActions.toNat descriptor)
    nbActions := s.1.nbActions.set i (nbActions + 1) }, payloads)

def storeEntry (s : OpenflowFlows × Heap ActionPayload) (e : WireEntry) :
    Except Halt (OpenflowFlows × Heap ActionPayload) := do
  let flowStats ← writeAt .outOfBounds s.1.flowStats s.1.nbFlows.toNat e.decoded
  let s ← run storeAction e.stored ({ s.1 with flowStats := flowStats }, s.2)
  return ({ s.1 with nbFlows := s.1.nbFlows + 1 }, s.2)

section Tables
variable {s s' : OpenflowFlows × Heap ActionPayload} {a : WireAction} {k : UInt8}

theorem storeAction_cases (hsizes : TableSizes s.1)
    (hk : s.1.nbActions[s.1.nbFlows.toNat]? = some k) :
    (k.toNat < MAX_ACTIONS ∧ ∃ row descriptor, s.1.actions[s.1.nbFlows.toNat]? = some row ∧
      row[k.toNat]? = some descriptor ∧ storeAction s a = .ok ({ s.1 with
        actions := s.1.actions.set s.1.nbFlows.toNat
          (row.set k.toNat (a.store descriptor s.2).1)
        nbActions := s.1.nbActions.set s.1.nbFlows.toNat (k + 1) }, (a.store descriptor s.2).2)) ∨
    (MAX_ACTIONS ≤ k.toNat ∧ storeAction s a = .error .outOfBounds) := by
  have hi : s.1.nbFlows.toNat < s.1.actions.length := by
    rw [hsizes.actions, ← hsizes.nbActions]
    exact (List.getElem?_eq_some_iff.mp hk).1
  obtain ⟨row, hrow⟩ : ∃ row, s.1.actions[s.1.nbFlows.toNat]? = some row :=
    ⟨_, List.getElem?_eq_getElem hi⟩
  have hlen := hsizes.row _ _ hrow
  rcases Nat.lt_or_ge k.toNat MAX_ACTIONS with hlt | hge
  · obtain ⟨descriptor, hdescriptor⟩ : ∃ d, row[k.toNat]? = some d :=
      ⟨_, List.getElem?_eq_getElem (hlen ▸ hlt)⟩
    refine .inl ⟨hlt, row, descriptor, hrow, hdescriptor, ?_⟩
    simp only [storeAction, readAt_of_getElem? hk, readAt_of_getElem? hrow,
      readAt_of_getElem? hdescriptor, bind, Except.bind, pure, Except.pure]
  · have hnone : row[k.toNat]? = none := List.getElem?_eq_none_iff.mpr (hlen.trans_le hge)
    refine .inr ⟨hge, ?_⟩
    simp only [storeAction, readAt_of_getElem? hk, readAt_of_getElem? hrow,
      readAt_of_getElem?_none hnone, bind, Except.bind]

/-- What storing actions leaves alone, and the new count of the row. -/
structure RowExtended (s : OpenflowFlows × Heap ActionPayload) (k : UInt8) (n : ℕ)
    (s' : OpenflowFlows × Heap ActionPayload) : Prop where
  sizes : TableSizes s'.1
  nbFlows : s'.1.nbFlows = s.1.nbFlows
  flowStats : s'.1.flowStats = s.1.flowStats
  nbActions : s'.1.nbActions = s.1.nbActions.set s.1.nbFlows.toNat (k + UInt8.ofNat n)

theorem storeAction_extends (hsizes : TableSizes s.1)
    (hk : s.1.nbActions[s.1.nbFlows.toNat]? = some k) (h : storeAction s a = .ok s') :
    k.toNat < MAX_ACTIONS ∧ RowExtended s k 1 s' := by
  obtain ⟨hlt, row, descriptor, hrow, -, hok⟩ | ⟨-, herror⟩ := storeAction_cases (a := a) hsizes hk
  · rw [hok, Except.ok.injEq] at h
    subst h
    exact ⟨hlt, hsizes.stored hrow _ _ _, rfl, rfl, rfl⟩
  · rw [herror] at h
    cases h

theorem RowExtended.refl (hsizes : TableSizes s.1)
    (hk : s.1.nbActions[s.1.nbFlows.toNat]? = some k) : RowExtended s k 0 s where
  sizes := hsizes
  nbFlows := rfl
  flowStats := rfl
  nbActions := by
    have hzero : k + UInt8.ofNat 0 = k := UInt8.add_zero k
    obtain ⟨hlt, hget⟩ := List.getElem?_eq_some_iff.mp hk
    rw [hzero, ← hget, List.set_getElem_self]

theorem RowExtended.trans {m n : ℕ} {t : OpenflowFlows × Heap ActionPayload}
    (h : RowExtended s k m s') (h' : RowExtended s' (k + UInt8.ofNat m) n t) :
    RowExtended s k (m + n) t where
  sizes := h'.sizes
  nbFlows := h'.nbFlows.trans h.nbFlows
  flowStats := h'.flowStats.trans h.flowStats
  nbActions := by
    rw [h'.nbActions, h.nbActions, h.nbFlows, List.set_set, UInt8.add_assoc, ← UInt8.ofNat_add]

theorem RowExtended.getElem? {n : ℕ} (h : RowExtended s k n s')
    (hk : s.1.nbActions[s.1.nbFlows.toNat]? = some k) :
    s'.1.nbActions[s'.1.nbFlows.toNat]? = some (k + UInt8.ofNat n) := by
  rw [h.nbActions, h.nbFlows, List.getElem?_set_self (List.getElem?_eq_some_iff.mp hk).1]

theorem storeActions_cases (actions : List WireAction) (hsizes : TableSizes s.1)
    (hk : s.1.nbActions[s.1.nbFlows.toNat]? = some k) :
    ((actions = [] ∨ k.toNat + actions.length ≤ MAX_ACTIONS) ∧
      ∃ s', run storeAction actions s = .ok s' ∧ RowExtended s k actions.length s') ∨
    (¬(actions = [] ∨ k.toNat + actions.length ≤ MAX_ACTIONS) ∧
      run storeAction actions s = .error .outOfBounds) := by
  induction actions generalizing s k with
  | nil => exact .inl ⟨.inl rfl, s, rfl, .refl hsizes hk⟩
  | cons a actions ih =>
    rw [run_cons, List.length_cons]
    cases hstep : storeAction s a with
    | error e =>
      obtain ⟨-, row, descriptor, -, -, hok⟩ | ⟨hge, herror⟩ :=
        storeAction_cases (a := a) hsizes hk
      · rw [hok] at hstep
        cases hstep
      · rw [hstep, Except.error.injEq] at herror
        subst herror
        refine .inr ⟨?_, rfl⟩
        rintro (hnil | hle)
        · cases hnil
        · omega
    | ok t =>
      obtain ⟨hlt, hext⟩ := storeAction_extends hsizes hk hstep
      have hnext : (k + UInt8.ofNat 1).toNat = k.toNat + 1 := nbActions_next hlt
      rcases ih hext.sizes (hext.getElem? hk) with ⟨hroom, t', hrun, hext'⟩ | ⟨hroom, herror⟩
      · refine .inl ⟨.inr ?_, t', hrun, ?_⟩
        · rcases hroom with rfl | hle
          · rw [List.length_nil]
            omega
          · omega
        · rw [add_comm actions.length]
          exact hext.trans hext'
      · refine .inr ⟨?_, herror⟩
        rintro (hnil | hle)
        · cases hnil
        · exact hroom (.inr (by omega))

def RowRoom (k : UInt8) (e : WireEntry) : Prop :=
  e.stored = [] ∨ k.toNat + e.stored.length ≤ MAX_ACTIONS

structure EntryStored (s : OpenflowFlows × Heap ActionPayload) (k : UInt8) (e : WireEntry)
    (s' : OpenflowFlows × Heap ActionPayload) : Prop where
  sizes : TableSizes s'.1
  nbFlows : s'.1.nbFlows.toNat = s.1.nbFlows.toNat + 1
  nbActions : s'.1.nbActions =
    s.1.nbActions.set s.1.nbFlows.toNat (k + UInt8.ofNat e.stored.length)

theorem storeEntry_full {e : WireEntry} (hsizes : TableSizes s.1)
    (hfull : MAX_HANDLED_FLOWS ≤ s.1.nbFlows.toNat) : storeEntry s e = .error .outOfBounds := by
  rw [storeEntry, writeAt_of_ge (hsizes.flowStats.trans_le hfull)]
  rfl

theorem storeEntry_cases (e : WireEntry) (hsizes : TableSizes s.1)
    (hk : s.1.nbActions[s.1.nbFlows.toNat]? = some k) :
    (RowRoom k e ∧ ∃ s', storeEntry s e = .ok s' ∧ EntryStored s k e s') ∨
      (¬RowRoom k e ∧ storeEntry s e = .error .outOfBounds) := by
  have hlt : s.1.nbFlows.toNat < MAX_HANDLED_FLOWS := by
    rw [← hsizes.nbActions]
    exact (List.getElem?_eq_some_iff.mp hk).1
  have hwrite : s.1.nbFlows.toNat < s.1.flowStats.length := hsizes.flowStats.symm ▸ hlt
  have hentry : storeEntry s e = (run storeAction e.stored ({ s.1 with
      flowStats := s.1.flowStats.set s.1.nbFlows.toNat e.decoded }, s.2) >>= fun s =>
        .ok ({ s.1 with nbFlows := s.1.nbFlows + 1 }, s.2)) := by
    rw [storeEntry, writeAt_of_lt hwrite]
    rfl
  rcases storeActions_cases (s := ({ s.1 with
      flowStats := s.1.flowStats.set s.1.nbFlows.toNat e.decoded }, s.2)) e.stored
      (hsizes.filled _ e.decoded) hk with
    ⟨hroom, t, hrun, hext⟩ | ⟨hroom, herror⟩
  · refine .inl ⟨hroom, ({ t.1 with nbFlows := t.1.nbFlows + 1 }, t.2), ?_, ?_, ?_, ?_⟩
    · rw [hentry, hrun]
      rfl
    · exact hext.sizes.counted _
    · have hsame : t.1.nbFlows = s.1.nbFlows := hext.nbFlows
      dsimp only
      rw [hsame, nbFlows_next hlt]
    · exact hext.nbActions
  · refine .inr ⟨hroom, ?_⟩
    rw [hentry, herror]
    rfl

theorem storeEntry_ok {e : WireEntry} (hsizes : TableSizes s.1) (h : storeEntry s e = .ok s') :
    s.1.nbFlows.toNat < MAX_HANDLED_FLOWS ∧ TableSizes s'.1 ∧
      s'.1.nbFlows.toNat = s.1.nbFlows.toNat + 1 := by
  rcases Nat.lt_or_ge s.1.nbFlows.toNat MAX_HANDLED_FLOWS with hlt | hfull
  · obtain ⟨k, hk⟩ : ∃ k, s.1.nbActions[s.1.nbFlows.toNat]? = some k :=
      ⟨_, List.getElem?_eq_getElem (hsizes.nbActions.symm ▸ hlt)⟩
    rcases storeEntry_cases e hsizes hk with ⟨-, t, hok, hstored⟩ | ⟨-, herror⟩
    · rw [h, Except.ok.injEq] at hok
      subst hok
      exact ⟨hlt, hstored.sizes, hstored.nbFlows⟩
    · rw [h] at herror
      cases herror
  · rw [storeEntry_full hsizes hfull] at h
    cases h

/-- From row `j` on, there is a row for every entry, and a cell for every action. -/
structure InRows (nbActions : List UInt8) (j : ℕ) (entries : List WireEntry) : Prop where
  rows : j + entries.length ≤ MAX_HANDLED_FLOWS
  cells : ∀ (i : ℕ) (e : WireEntry) (k : UInt8), entries[i]? = some e →
    nbActions[j + i]? = some k → RowRoom k e

/-- The entries are in the rows from the old count on, and the other rows are untouched. -/
structure EntriesStored (s : OpenflowFlows × Heap ActionPayload) (entries : List WireEntry)
    (s' : OpenflowFlows × Heap ActionPayload) : Prop where
  sizes : TableSizes s'.1
  nbFlows : s'.1.nbFlows.toNat = s.1.nbFlows.toNat + entries.length
  before : ∀ i < s.1.nbFlows.toNat, s'.1.nbActions[i]? = s.1.nbActions[i]?
  counts : ∀ (i : ℕ) (e : WireEntry) (k : UInt8), entries[i]? = some e →
    s.1.nbActions[s.1.nbFlows.toNat + i]? = some k →
      s'.1.nbActions[s.1.nbFlows.toNat + i]? = some (k + UInt8.ofNat e.stored.length)

theorem inRows_cons {nbActions : List UInt8} {j : ℕ} {e : WireEntry} {entries : List WireEntry}
    (hk : nbActions[j]? = some k) (k' : UInt8) :
    InRows nbActions j (e :: entries) ↔
      RowRoom k e ∧ InRows (nbActions.set j k') (j + 1) entries := by
  have hlater : ∀ i, (nbActions.set j k')[j + 1 + i]? = nbActions[j + (i + 1)]? := by
    intro i
    rw [List.getElem?_set_ne (by omega)]
    congr 1
    omega
  constructor
  · intro h
    have hrows := h.rows
    rw [List.length_cons] at hrows
    refine ⟨h.cells 0 e k rfl hk, by omega, fun i e' k₁ he hk₁ => ?_⟩
    exact h.cells (i + 1) e' k₁ he ((hlater i).symm.trans hk₁)
  · rintro ⟨hroom, hrest⟩
    have hrows := hrest.rows
    refine ⟨by rw [List.length_cons]; omega, fun i e' k₁ he hk₁ => ?_⟩
    cases i with
    | zero =>
      rw [add_zero, hk, Option.some.injEq] at hk₁
      cases he
      exact hk₁ ▸ hroom
    | succ i => exact hrest.cells i e' k₁ he ((hlater i).trans hk₁)

theorem EntriesStored.cons {e : WireEntry} {entries : List WireEntry}
    {t : OpenflowFlows × Heap ActionPayload} (hk : s.1.nbActions[s.1.nbFlows.toNat]? = some k)
    (h : EntryStored s k e s') (h' : EntriesStored s' entries t) :
    EntriesStored s (e :: entries) t := by
  have hlt := (List.getElem?_eq_some_iff.mp hk).1
  refine ⟨h'.sizes, ?_, fun i hi => ?_, fun i e' k' he hk' => ?_⟩
  · rw [h'.nbFlows, h.nbFlows, List.length_cons]
    omega
  · have hi' : i < s'.1.nbFlows.toNat := by
      rw [h.nbFlows]
      omega
    rw [h'.before i hi', h.nbActions, List.getElem?_set_ne (by omega)]
  · cases i with
    | zero =>
      have hrow : s.1.nbFlows.toNat < s'.1.nbFlows.toNat := by
        rw [h.nbFlows]
        omega
      rw [add_zero, hk, Option.some.injEq] at hk'
      cases he
      rw [add_zero, h'.before _ hrow, h.nbActions, List.getElem?_set_self hlt, hk']
    | succ i =>
      have hindex : s.1.nbFlows.toNat + (i + 1) = s'.1.nbFlows.toNat + i := by
        rw [h.nbFlows]
        omega
      rw [hindex] at hk' ⊢
      refine h'.counts i e' k' he ?_
      rw [h.nbActions, List.getElem?_set_ne (by rw [h.nbFlows]; omega), hk']

theorem storeEntries_cases (entries : List WireEntry) (hsizes : TableSizes s.1)
    (hle : s.1.nbFlows.toNat ≤ MAX_HANDLED_FLOWS) :
    (InRows s.1.nbActions s.1.nbFlows.toNat entries ∧
      ∃ s', run storeEntry entries s = .ok s' ∧ EntriesStored s entries s') ∨
    (¬InRows s.1.nbActions s.1.nbFlows.toNat entries ∧
      run storeEntry entries s = .error .outOfBounds) := by
  induction entries generalizing s with
  | nil =>
    refine .inl ⟨⟨hle, ?_⟩, s, rfl, hsizes, rfl, fun i _ => rfl, ?_⟩
    all_goals
      intro i e k he
      cases he
  | cons e entries ih =>
    rw [run_cons]
    rcases hle.eq_or_lt with hfull | hlt
    · refine .inr ⟨fun h => ?_, ?_⟩
      · have hrows := h.rows
        rw [List.length_cons] at hrows
        omega
      · rw [storeEntry_full hsizes hfull.ge]
        rfl
    · obtain ⟨k, hk⟩ : ∃ k, s.1.nbActions[s.1.nbFlows.toNat]? = some k :=
        ⟨_, List.getElem?_eq_getElem (hsizes.nbActions.symm ▸ hlt)⟩
      rw [inRows_cons hk (k + UInt8.ofNat e.stored.length)]
      rcases storeEntry_cases e hsizes hk with ⟨hroom, t, hstep, hstored⟩ | ⟨hroom, herror⟩
      · have hle' : t.1.nbFlows.toNat ≤ MAX_HANDLED_FLOWS := by
          rw [hstored.nbFlows]
          omega
        rw [hstep, ← hstored.nbActions, ← hstored.nbFlows]
        rcases ih hstored.sizes hle' with ⟨hrows, t', hrun, hstored'⟩ | ⟨hrows, herror⟩
        · exact .inl ⟨⟨hroom, hrows⟩, t', hrun, .cons hk hstored hstored'⟩
        · exact .inr ⟨fun h => hrows h.2, herror⟩
      · refine .inr ⟨fun h => hroom h.1, ?_⟩
        rw [herror]
        rfl

end Tables

/-! ## The loops of the parser -/

section Parse
variable {data rest : List UInt8} {actionsEnd : ℕ} {responseEnd : ℤ}
variable {flows : OpenflowFlows} {payloads : Heap ActionPayload} {responseHead : ℕ}

theorem readAction_store {descriptor : ActionDescriptor} (a : WireAction)
    (h : data.drop responseHead = a.bytes ++ rest) :
    readAction data actionsEnd payloads descriptor responseHead =
      .ok ((a.store descriptor payloads).1, (a.store descriptor payloads).2,
        a.next actionsEnd responseHead) := by
  cases a with
  | known action => exact readAction_eq action h
  | other type content unknown =>
    have htype : loadBytes data responseHead 2 = .ok (be16 type) := by
      rw [loadBytes_drop h (WireAction.bytes_pos _) (by simp [WireAction.bytes])]
      simp [WireAction.bytes, List.append_assoc]
    have hload : ntohs (loadU16 (be16 type) 0) = type :=
      ntohs_loadU16 (by rw [List.drop_zero, ← be16_length type, List.take_length])
    simp only [readAction, htype, hload, if_neg unknown.1, if_neg unknown.2, WireAction.store,
      WireAction.next, bind, Except.bind, pure, Except.pure]

theorem actionStep_store (a : WireAction) (hlt : responseHead < actionsEnd)
    (h : data.drop responseHead = a.bytes ++ rest) :
    actionStep data actionsEnd ⟨flows, payloads, responseHead⟩ =
      (storeAction (flows, payloads) a).map fun s =>
        some ⟨s.1, s.2, a.next actionsEnd responseHead⟩ := by
  simp only [actionStep, if_pos hlt, storeAction]
  cases hk : readAt Halt.outOfBounds flows.nbActions flows.nbFlows.toNat with
  | error e => rfl
  | ok k =>
    cases hrow : readAt Halt.outOfBounds flows.actions flows.nbFlows.toNat with
    | error e => rfl
    | ok row =>
      cases hdescriptor : readAt Halt.outOfBounds row k.toNat with
      | error e => simp [hdescriptor, bind, Except.bind, Except.map]
      | ok descriptor =>
        simp only [hdescriptor, readAction_store a h, bind, Except.bind, pure, Except.pure,
          Except.map]

theorem actionStep_end (h : ¬responseHead < actionsEnd) :
    actionStep data actionsEnd ⟨flows, payloads, responseHead⟩ = .ok none := by
  rw [actionStep, if_neg h]
  rfl

/-- The budget of the loop suffices: a row that is full stops it. -/
theorem actionLoop_store (actions : List WireAction) {n : ℕ} {k : UInt8}
    (hsizes : TableSizes flows) (hk : flows.nbActions[flows.nbFlows.toNat]? = some k) (hn : 0 < n)
    (hcells : MAX_ACTIONS < n + k.toNat)
    (hdata : data.drop responseHead = actions.flatMap WireAction.bytes ++ rest)
    (hend : actionsEnd = responseHead + (actions.flatMap WireAction.bytes).length) :
    (whileLoop Halt.diverges (actionStep data actionsEnd) n
        ⟨flows, payloads, responseHead⟩).map (fun s => (s.flows, s.payloads)) =
      run storeAction (WireAction.stored actions) (flows, payloads) := by
  induction actions generalizing flows payloads responseHead n k with
  | nil =>
    obtain ⟨n, rfl⟩ := Nat.exists_eq_succ_of_ne_zero hn.ne'
    rw [whileLoop_stop (actionStep_end (by simp [hend]))]
    rfl
  | cons a actions ih =>
    obtain ⟨n, rfl⟩ := Nat.exists_eq_succ_of_ne_zero hn.ne'
    rw [List.flatMap_cons, List.append_assoc] at hdata
    rw [List.flatMap_cons, List.length_append] at hend
    have hlt : responseHead < actionsEnd := by
      have hpos := a.bytes_pos
      omega
    have hstep : actionStep data actionsEnd ⟨flows, payloads, responseHead⟩ = _ :=
      actionStep_store a hlt hdata
    rw [a.stored_cons, run_cons]
    cases hstore : storeAction (flows, payloads) a with
    | error e =>
      rw [hstore] at hstep
      rw [whileLoop, hstep]
      rfl
    | ok t =>
      rw [hstore] at hstep
      obtain ⟨hroom, hext⟩ := storeAction_extends hsizes hk hstore
      rw [whileLoop_step hstep]
      have hk' := hext.getElem? hk
      have hnext : (k + UInt8.ofNat 1).toNat = k.toNat + 1 := nbActions_next hroom
      cases a with
      | known action =>
        have hsize : (WireAction.known action).bytes.length = ACTION_SIZE := action.bytes_length
        refine ih hext.sizes hk' (by omega) (by omega) ?_ ?_
        · rw [WireAction.next, ← List.drop_drop, hdata, ← hsize, List.drop_left]
        · rw [hend, hsize, WireAction.next, add_assoc]
      | other type content unknown =>
        obtain ⟨n, rfl⟩ := Nat.exists_eq_succ_of_ne_zero (n := n) (by omega)
        rw [WireAction.next, whileLoop_stop (actionStep_end (Nat.lt_irrefl _))]
        rfl

theorem flowStep_store (e : WireEntry) (hsizes : TableSizes flows) (hsize : e.size < 2 ^ 16)
    (hdata : data.drop responseHead = e.bytes ++ rest) (hlt : (responseHead : ℤ) < responseEnd) :
    flowStep data responseEnd ⟨flows, payloads, responseHead⟩ =
      (storeEntry (flows, payloads) e).map fun s => some ⟨s.1, s.2, responseHead + e.size⟩ := by
  have hpos : 0 < e.bytes.length := by
    rw [e.bytes_length, WireEntry.size, FLOW_STATS_SIZE]
    omega
  have hfixed : loadBytes data responseHead FLOW_STATS_SIZE = .ok e.fixedBytes := by
    rw [loadBytes_drop hdata hpos (by rw [e.bytes_length, WireEntry.size]; omega), WireEntry.bytes,
      ← e.fixedBytes_length, List.take_left]
  have hrest : data.drop (responseHead + FLOW_STATS_SIZE) =
      e.actions.flatMap WireAction.bytes ++ rest := by
    rw [← List.drop_drop, hdata, WireEntry.bytes, List.append_assoc, ← e.fixedBytes_length,
      List.drop_left]
  have hdecoded : ntohOpenflowFlowStats (loadFlowStats e.fixedBytes) = e.decoded := rfl
  simp only [flowStep, if_pos hlt, hfixed, hdecoded, WireEntry.decoded_length hsize, storeEntry,
    bind, Except.bind]
  rcases Nat.lt_or_ge flows.nbFlows.toNat MAX_HANDLED_FLOWS with hroom | hfull
  · rw [writeAt_of_lt (hsizes.flowStats.symm ▸ hroom)]
    obtain ⟨k, hk⟩ : ∃ k, flows.nbActions[flows.nbFlows.toNat]? = some k :=
      ⟨_, List.getElem?_eq_getElem (hsizes.nbActions.symm ▸ hroom)⟩
    have hend : responseHead + e.size = responseHead + FLOW_STATS_SIZE +
        (e.actions.flatMap WireAction.bytes).length := by
      rw [WireEntry.size, add_assoc]
    rw [WireEntry.stored]
    dsimp only
    rw [← actionLoop_store (n := MAX_ACTIONS + 1) e.actions (hsizes.filled _ e.decoded) hk
      (Nat.succ_pos _) (Nat.lt_add_right _ (Nat.lt_succ_self _)) hrest hend]
    cases whileLoop Halt.diverges (actionStep data (responseHead + e.size)) (MAX_ACTIONS + 1)
      ⟨{ flows with flowStats := flows.flowStats.set flows.nbFlows.toNat e.decoded }, payloads,
        responseHead + FLOW_STATS_SIZE⟩ <;> rfl
  · rw [writeAt_of_ge (hsizes.flowStats.trans_le hfull)]
    rfl

theorem flowStep_end (h : ¬(responseHead : ℤ) < responseEnd) :
    flowStep data responseEnd ⟨flows, payloads, responseHead⟩ = .ok none := by
  rw [flowStep, if_neg h]
  rfl

theorem flowLoop_store (entries : List WireEntry) {n : ℕ} (hsizes : TableSizes flows)
    (hsize : ∀ e ∈ entries, e.size < 2 ^ 16) (hn : 0 < n)
    (hrows : MAX_HANDLED_FLOWS < n + flows.nbFlows.toNat)
    (hdata : data.drop responseHead = entries.flatMap WireEntry.bytes)
    (hhead : responseHead ≤ data.length) (hend : responseEnd = data.length) :
    (whileLoop Halt.diverges (flowStep data responseEnd) n
        ⟨flows, payloads, responseHead⟩).map (fun s => (s.flows, s.payloads)) =
      run storeEntry entries (flows, payloads) := by
  induction entries generalizing flows payloads responseHead n with
  | nil =>
    obtain ⟨n, rfl⟩ := Nat.exists_eq_succ_of_ne_zero hn.ne'
    have hlen := congrArg List.length hdata
    rw [List.length_drop, List.flatMap_nil, List.length_nil] at hlen
    rw [whileLoop_stop (flowStep_end (by omega))]
    rfl
  | cons e entries ih =>
    obtain ⟨n, rfl⟩ := Nat.exists_eq_succ_of_ne_zero hn.ne'
    rw [List.forall_mem_cons] at hsize
    rw [List.flatMap_cons] at hdata
    have hlen := congrArg List.length hdata
    rw [List.length_drop, List.length_append, e.bytes_length, WireEntry.size, FLOW_STATS_SIZE]
      at hlen
    have hlt : (responseHead : ℤ) < responseEnd := by omega
    have hstep : flowStep data responseEnd ⟨flows, payloads, responseHead⟩ = _ :=
      flowStep_store e hsizes hsize.1 hdata hlt
    rw [run_cons]
    cases hstore : storeEntry (flows, payloads) e with
    | error e' =>
      rw [hstore] at hstep
      rw [whileLoop, hstep]
      rfl
    | ok t =>
      rw [hstore] at hstep
      rw [whileLoop_step hstep]
      obtain ⟨hroom, hsizes', hnb⟩ := storeEntry_ok hsizes hstore
      dsimp only at hroom hnb
      refine ih hsizes' hsize.2 (by omega) (by omega) ?_ ?_
      · rw [← List.drop_drop, hdata, ← e.bytes_length, List.drop_left]
      · rw [WireEntry.size, FLOW_STATS_SIZE]
        omega

end Parse

end OrssNic
