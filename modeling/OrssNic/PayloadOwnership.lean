import OrssNic.PayloadLedger

/-!
# Payloads are freed once

`nb_flows` counts the entries of the last answer only, but `nb_actions` counts
the actions of all answers since the row was freed. A row that the last answer
does not reach is not freed; and an action of an unknown type is counted with
the pointer that its cell held before, which may have been freed.
-/

namespace OrssNic
open CLoops CLists CRuns

def WithinTables (calls : List FlowsCall) : Prop :=
  ∀ before call after, calls = before ++ call :: after → (Ledger.after before).Room call

/-- At every query, each row of the answer has room for the actions of its entry
behind those that the answers before have left there. -/
def RowsHaveRoom (calls : List FlowsCall) : Prop :=
  ∀ before connection transactionId stack answer after,
    calls = before ++ .getFlows connection transactionId stack (some answer) :: after →
      ∀ (i : ℕ) (e : WireEntry), answer.entries[i]? = some e →
        ((Ledger.after before).row i).length + e.stored.length ≤ MAX_ACTIONS

/-- Every answer is well-formed, and for itself within the sizes of the tables. -/
structure WellSized (calls : List FlowsCall) : Prop where
  served : ∀ call ∈ calls, call.Served
  sizes : ∀ call ∈ calls, Ledger.zeroed.Room call

/-- No row is freed while an action of an unknown type stands in one of its
spent cells, and none is left with an action of a known type. -/
structure Balanced (calls : List FlowsCall) : Prop where
  clear : ∀ before after, calls = before ++ .freeFlows :: after → (Ledger.after before).Clear
  left : ∀ c, c ∉ (Ledger.after calls).known

theorem withinTables_nil : WithinTables [] := by
  intro before call after h
  cases before <;> cases h

theorem withinTables_concat {calls : List FlowsCall} {call : FlowsCall} :
    WithinTables (calls ++ [call]) ↔ WithinTables calls ∧ (Ledger.after calls).Room call := by
  constructor
  · intro h
    refine ⟨fun before c after hsplit => h before c (after ++ [call]) ?_, h calls call [] rfl⟩
    rw [hsplit, List.append_assoc]
    rfl
  · rintro ⟨h, hroom⟩ before c after hsplit
    exact forall_split_concat.mpr ⟨fun before after => h before c after, fun hc => hc ▸ hroom⟩
      before after hsplit

theorem run_booked {calls : List FlowsCall} (hserved : ∀ call ∈ calls, call.Served)
    (hwithin : WithinTables calls) :
    ∃ s, run flowsCall calls (.zeroed, Heap.empty) = .ok s ∧ Booked s (.after calls) ∧
      (s.2.freed.Nodup ↔ ∀ before after, calls = before ++ .freeFlows :: after →
        (Ledger.after before).Clear) := by
  induction calls using List.reverseRecOn with
  | nil =>
    refine ⟨_, rfl, zeroed_booked, ?_⟩
    simp [Heap.empty]
  | append_singleton calls call ih =>
    rw [List.forall_mem_append, List.forall_mem_singleton] at hserved
    rw [withinTables_concat] at hwithin
    obtain ⟨s, hrun, hs, hnodup⟩ := ih hserved.1 hwithin.1
    obtain ⟨s', hstep, hs', hnodup'⟩ := flowsCall_booked hs hserved.2 hwithin.2
    refine ⟨s', run_concat_ok.mpr ⟨s, hrun, hstep⟩, ?_, ?_⟩
    · rw [Ledger.after, List.foldl_append]
      exact hs'
    · rw [hnodup', hnodup, forall_split_concat]

theorem flowsCall_ok_iff {s : OpenflowFlows × Heap ActionPayload} {l : Ledger} {call : FlowsCall}
    (h : Booked s l) (hserved : call.Served) :
    (∃ s', flowsCall s call = .ok s') ↔ l.Room call := by
  constructor
  · intro hok
    obtain ⟨s', hcall⟩ := hok
    cases call with
    | freeFlows => trivial
    | getFlows connection transactionId stack answer =>
      cases answer with
      | none => trivial
      | some answer =>
        rcases openflowGetFlows_classified stack s.2 h.sizes hserved with ⟨hin, -⟩ | ⟨-, herror⟩
        · exact h.fits_iff.mpr hin
        · rw [flowsCall, herror] at hcall
          cases hcall
  · intro hroom
    obtain ⟨s', hcall, -⟩ := flowsCall_booked h hserved hroom
    exact ⟨s', hcall⟩

theorem run_ok_iff {calls : List FlowsCall} (hserved : ∀ call ∈ calls, call.Served) :
    (∃ s, run flowsCall calls (.zeroed, Heap.empty) = .ok s) ↔ WithinTables calls := by
  induction calls using List.reverseRecOn with
  | nil => exact iff_of_true ⟨_, rfl⟩ withinTables_nil
  | append_singleton calls call ih =>
    rw [List.forall_mem_append, List.forall_mem_singleton] at hserved
    rw [withinTables_concat, ← ih hserved.1]
    constructor
    · intro hok
      obtain ⟨s', hrun⟩ := hok
      obtain ⟨s, hbefore, hcall⟩ := run_concat_ok.mp hrun
      obtain ⟨t, hbefore', ht, -⟩ := run_booked hserved.1 ((ih hserved.1).mp ⟨s, hbefore⟩)
      rw [hbefore, Except.ok.injEq] at hbefore'
      subst hbefore'
      exact ⟨⟨s, hbefore⟩, (flowsCall_ok_iff ht hserved.2).mp ⟨s', hcall⟩⟩
    · intro h
      obtain ⟨hbefore, hroom⟩ := h
      obtain ⟨s, hrun, hs, -⟩ := run_booked hserved.1 ((ih hserved.1).mp hbefore)
      obtain ⟨s', hcall⟩ := (flowsCall_ok_iff hs hserved.2).mpr hroom
      exact ⟨s', run_concat_ok.mpr ⟨s, hrun, hcall⟩⟩

theorem run_released_iff {calls : List FlowsCall} (hserved : ∀ call ∈ calls, call.Served) :
    (∃ s, run flowsCall calls (.zeroed, Heap.empty) = .ok s ∧ s.2.ReleasedOnce) ↔
      WithinTables calls ∧ Balanced calls := by
  have hbalanced : ∀ {s : OpenflowFlows × Heap ActionPayload}, WithinTables calls →
      run flowsCall calls (.zeroed, Heap.empty) = .ok s →
      (s.2.ReleasedOnce ↔ Balanced calls) := by
    intro s hwithin hrun
    obtain ⟨t, hrun', ht, hnodup⟩ := run_booked hserved hwithin
    rw [hrun, Except.ok.injEq] at hrun'
    subst hrun'
    rw [ht.owns.releasedOnce_iff, hnodup]
    exact ⟨fun h => ⟨h.1, h.2⟩, fun h => ⟨h.clear, h.left⟩⟩
  constructor
  · intro h
    obtain ⟨s, hrun, hreleased⟩ := h
    have hwithin := (run_ok_iff hserved).mp ⟨s, hrun⟩
    exact ⟨hwithin, (hbalanced hwithin hrun).mp hreleased⟩
  · intro h
    obtain ⟨hwithin, hbalance⟩ := h
    obtain ⟨s, hrun⟩ := (run_ok_iff hserved).mpr hwithin
    exact ⟨s, hrun, (hbalanced hwithin hrun).mpr hbalance⟩

/-- Of answers that stay within the sizes of the tables, only the actions in
their rows add up. -/
theorem withinTables_iff_rowsHaveRoom {calls : List FlowsCall}
    (hsizes : ∀ call ∈ calls, Ledger.zeroed.Room call) :
    WithinTables calls ↔ RowsHaveRoom calls := by
  constructor
  · intro h before connection transactionId stack answer after hsplit
    have hfits : (Ledger.after before).Fits answer := h before _ after hsplit
    exact hfits.cells
  · intro h before call after hsplit
    have hmem : call ∈ calls := by
      rw [hsplit]
      exact List.mem_append_right _ List.mem_cons_self
    cases call with
    | freeFlows => trivial
    | getFlows connection transactionId stack answer =>
      cases answer with
      | none => trivial
      | some answer =>
        have hfits : Ledger.zeroed.Fits answer := hsizes _ hmem
        exact ⟨hfits.parts, hfits.rows, h before _ _ _ _ after hsplit⟩

/-- Calls that end with `openflow_free_flows` return and release every payload
once just when the rows have room for what adds up in them, and the calls are
balanced. -/
theorem flowsCalls_release_once_iff {calls : List FlowsCall} (h : WellSized calls) :
    (∃ s, run flowsCall (calls ++ [.freeFlows]) (.zeroed, Heap.empty) = .ok s ∧
        s.2.ReleasedOnce) ↔
      RowsHaveRoom calls ∧ Balanced (calls ++ [.freeFlows]) := by
  have hserved' : ∀ call ∈ calls ++ [.freeFlows], call.Served := by
    rw [List.forall_mem_append, List.forall_mem_singleton]
    exact ⟨h.served, trivial⟩
  have hwithin : WithinTables (calls ++ [.freeFlows]) ↔ WithinTables calls :=
    withinTables_concat.trans (and_iff_left trivial)
  rw [run_released_iff hserved', hwithin, withinTables_iff_rowsHaveRoom h.sizes]

/-! ## The queries of the main loop -/

namespace Ledger

theorem foldl_store_spent (entries : List WireEntry) (l : Ledger) :
    (entries.foldl store l).spent = l.spent := by
  induction entries generalizing l with
  | nil => rfl
  | cons e entries ih => exact ih (l.store e)

theorem foldl_store_nbFlows (entries : List WireEntry) (l : Ledger) :
    (entries.foldl store l).nbFlows = l.nbFlows + entries.length := by
  induction entries generalizing l with
  | nil => rfl
  | cons e entries ih =>
    rw [List.foldl_cons, ih, store_nbFlows, List.length_cons]
    omega

theorem foldl_store_row_of_outside (entries : List WireEntry) (l : Ledger) {i : ℕ}
    (hi : i < l.nbFlows ∨ l.nbFlows + entries.length ≤ i) :
    (entries.foldl store l).row i = l.row i := by
  induction entries generalizing l with
  | nil => rfl
  | cons e entries ih =>
    rw [List.length_cons] at hi
    rw [List.foldl_cons, ih (l.store e) (by rw [store_nbFlows]; omega),
      l.row_store_of_ne e (by omega)]

theorem foldl_store_row (entries : List WireEntry) (l : Ledger) {i : ℕ} {e : WireEntry}
    (he : entries[i]? = some e) :
    (entries.foldl store l).row (l.nbFlows + i) = l.row (l.nbFlows + i) ++ e.stored := by
  induction entries generalizing l i with
  | nil => cases he
  | cons e' entries ih =>
    rw [List.foldl_cons]
    cases i with
    | zero =>
      cases he
      rw [foldl_store_row_of_outside entries _ (.inl (by rw [store_nbFlows]; omega))]
      exact Function.update_self ..
    | succ i =>
      have hindex : l.nbFlows + (i + 1) = (l.store e').nbFlows + i := by
        rw [store_nbFlows]
        omega
      rw [hindex, ih _ he, l.row_store_of_ne e' (by rw [store_nbFlows]; omega)]

theorem foldl_store_zeroed (entries : List WireEntry) (i : ℕ) :
    (entries.foldl store zeroed).row i = entries[i]?.elim [] WireEntry.stored := by
  cases he : entries[i]? with
  | none =>
    have hi : zeroed.nbFlows + entries.length ≤ i := by
      rw [zeroed, zero_add]
      exact List.getElem?_eq_none_iff.mp he
    rw [foldl_store_row_of_outside entries zeroed (.inr hi)]
    rfl
  | some e =>
    have hrow := foldl_store_row entries zeroed he
    have hindex : zeroed.nbFlows + i = i := zero_add i
    rw [hindex] at hrow
    exact hrow

end Ledger

theorem balanced_of_clear {calls : List FlowsCall} (h : .freeFlows ∉ calls)
    (hclear : (Ledger.after calls).Clear) :
    Balanced (calls ++ [.freeFlows]) ↔
      ∀ c ∈ (Ledger.after calls).known, c.1 < (Ledger.after calls).nbFlows := by
  have hafter : Ledger.after (calls ++ [.freeFlows]) = (Ledger.after calls).free := by
    rw [Ledger.after, List.foldl_append]
    rfl
  constructor
  · intro hbalanced c hknown
    have hleft := hbalanced.left c
    rw [hafter, Ledger.mem_known_free, not_and, not_not] at hleft
    exact hleft hknown
  · intro hcounted
    constructor
    · refine forall_split_concat.mpr ⟨fun before after hsplit => absurd ?_ h, fun _ => hclear⟩
      rw [hsplit]
      exact List.mem_append_right _ List.mem_cons_self
    · intro c
      rw [hafter, Ledger.mem_known_free, not_and, not_not]
      exact hcounted c

/-- Between two queries into the same structure, the main loop loses the known
actions of the rows that the second answer does not reach. -/
theorem queries_balanced_iff (connection connection' : OpenflowConnection)
    (transactionId transactionId' : UInt32) (stack stack' : ℕ → OpenflowMessage)
    (answer answer' : Answer) :
    Balanced [.getFlows connection transactionId stack (some answer),
        .getFlows connection' transactionId' stack' (some answer'), .freeFlows] ↔
      ∀ (i : ℕ) (e : WireEntry), answer'.entries.length ≤ i → answer.entries[i]? = some e →
        ∀ action, .known action ∉ e.stored := by
  -- The second answer is stored from row 0 on, over what the first one left.
  have hafter : Ledger.after [.getFlows connection transactionId stack (some answer),
      .getFlows connection' transactionId' stack' (some answer')] =
        answer'.entries.foldl Ledger.store
          { answer.entries.foldl Ledger.store .zeroed with nbFlows := 0 } := rfl
  have hnbFlows := Ledger.foldl_store_nbFlows answer'.entries
    { answer.entries.foldl Ledger.store .zeroed with nbFlows := 0 }
  have hspent := Ledger.foldl_store_spent answer'.entries
    { answer.entries.foldl Ledger.store .zeroed with nbFlows := 0 }
  have hbehind : ∀ i, answer'.entries.length ≤ i → (answer'.entries.foldl Ledger.store
      { answer.entries.foldl Ledger.store .zeroed with nbFlows := 0 }).row i =
        answer.entries[i]?.elim [] WireEntry.stored := by
    intro i hi
    rw [Ledger.foldl_store_row_of_outside _ _ (.inr (by rwa [zero_add]))]
    exact Ledger.foldl_store_zeroed answer.entries i
  rw [zero_add] at hnbFlows
  have hqueries : FlowsCall.freeFlows ∉ [.getFlows connection transactionId stack (some answer),
      .getFlows connection' transactionId' stack' (some answer')] := by
    simp
  refine (balanced_of_clear hqueries ?_).trans ?_
  · intro c hc
    rw [hafter, hspent, Ledger.foldl_store_spent] at hc
    exact absurd hc (Set.notMem_empty c)
  · rw [hafter, hnbFlows]
    constructor
    · intro h i e hi he action hmem
      obtain ⟨j, hj⟩ := List.getElem?_of_mem hmem
      have hknown := h (i, j) ⟨action, by rw [hbehind i hi, he, Option.elim_some, hj]⟩
      exact absurd hknown (Nat.not_lt.mpr hi)
    · rintro h ⟨i, j⟩ ⟨action, haction⟩
      by_contra hlt
      have hi := Nat.le_of_not_lt hlt
      dsimp only at hi haction
      rw [hbehind i hi] at haction
      cases he : answer.entries[i]? with
      | none =>
        rw [he] at haction
        cases haction
      | some e =>
        rw [he, Option.elim_some] at haction
        exact h i e hi he action (List.mem_of_getElem? haction)

/-- The two answers share the rows of the tables. -/
theorem queries_rowsHaveRoom_iff (connection connection' : OpenflowConnection)
    (transactionId transactionId' : UInt32) (stack stack' : ℕ → OpenflowMessage)
    {answer answer' : Answer} (hsizes : Ledger.zeroed.Fits answer)
    (hsizes' : Ledger.zeroed.Fits answer') :
    RowsHaveRoom [.getFlows connection transactionId stack (some answer),
        .getFlows connection' transactionId' stack' (some answer')] ↔
      ∀ (i : ℕ) (e e' : WireEntry), answer.entries[i]? = some e → answer'.entries[i]? = some e' →
        e.stored.length + e'.stored.length ≤ MAX_ACTIONS := by
  have hrow : ∀ i, (Ledger.after [.getFlows connection transactionId stack (some answer)]).row i =
      answer.entries[i]?.elim [] WireEntry.stored := Ledger.foldl_store_zeroed answer.entries
  constructor
  · intro h i e e' he he'
    have hroom := h [.getFlows connection transactionId stack (some answer)] _ _ _ _ [] rfl i e' he'
    rwa [hrow, he] at hroom
  · intro h before _ _ _ _ after hsplit i e' he'
    cases before with
    | nil =>
      cases hsplit
      exact hsizes.cells i e' he'
    | cons call before =>
      cases before with
      | nil =>
        cases hsplit
        rw [hrow]
        cases he : answer.entries[i]? with
        | none => exact hsizes'.cells i e' he'
        | some e => exact h i e e' he he'
      | cons call' before =>
        have hlength := congrArg List.length hsplit
        simp only [List.length_append, List.length_cons, List.length_nil] at hlength
        omega

/-! ## Short sequences -/

def answeredCall (xid : UInt32) (entries : List WireEntry) : FlowsCall :=
  .getFlows (.ofSocket ⟨((onePartAnswer entries).parts xid).bytes, List.replicate 300 (some 64),
    [], [], []⟩) xid (fun _ => default) (some (onePartAnswer entries))

theorem onePartAnswer_fits {l : Ledger} {entries : List WireEntry}
    (hrows : entries.length ≤ MAX_HANDLED_FLOWS)
    (hcells : ∀ (i : ℕ) (h : i < entries.length),
      (l.row i).length + entries[i].stored.length ≤ MAX_ACTIONS) :
    l.Fits (onePartAnswer entries) := by
  have hentries : (onePartAnswer entries).entries = entries := by
    rw [Answer.entries, onePartAnswer, List.flatMap_singleton]
  refine ⟨Nat.le_of_ble_eq_true rfl, by rwa [hentries], fun i e he => ?_⟩
  rw [hentries] at he
  obtain ⟨hi, rfl⟩ := List.getElem?_eq_some_iff.mp he
  exact hcells i hi

namespace WellSized
variable {calls : List FlowsCall}

theorem nil : WellSized [] where
  served := List.forall_mem_nil _
  sizes := List.forall_mem_nil _

theorem freed (h : WellSized calls) : WellSized (.freeFlows :: calls) where
  served := List.forall_mem_cons.mpr ⟨trivial, h.served⟩
  sizes := List.forall_mem_cons.mpr ⟨trivial, h.sizes⟩

theorem answered {xid : UInt32} {entries : List WireEntry}
    (hlength : ((onePartAnswer entries).parts xid).bytes.length ≤ 300)
    (hrows : entries.length ≤ MAX_HANDLED_FLOWS)
    (hcells : ∀ e ∈ entries, e.stored.length ≤ MAX_ACTIONS) (h : WellSized calls) :
    WellSized (answeredCall xid entries :: calls) where
  served := List.forall_mem_cons.mpr ⟨onePartAnswer_delivered hlength, h.served⟩
  sizes := by
    refine List.forall_mem_cons.mpr ⟨onePartAnswer_fits hrows fun i hi => ?_, h.sizes⟩
    exact (Nat.zero_add _).trans_le (hcells _ (List.getElem_mem hi))

end WellSized

theorem flowsCalls_release_once_iff_outputs :
    (∃ s, run flowsCall ([answeredCall 5 (outputs 1), answeredCall 6 (outputs 1)] ++
        [.freeFlows]) (.zeroed, Heap.empty) = .ok s ∧ s.2.ReleasedOnce) ↔
      RowsHaveRoom [answeredCall 5 (outputs 1), answeredCall 6 (outputs 1)] ∧
        Balanced ([answeredCall 5 (outputs 1), answeredCall 6 (outputs 1)] ++ [.freeFlows]) := by
  apply flowsCalls_release_once_iff
  apply WellSized.answered (by decide +kernel) (by decide) (by decide)
  exact .answered (by decide +kernel) (by decide) (by decide) .nil

/-! ## Payloads that are lost or freed twice -/

/-- The main loop: an answer with two entries, then one with the first of them only. -/
def shrinkingQueries : List FlowsCall :=
  [answeredCall 5 (outputs 1 ++ outputs 1), answeredCall 6 (outputs 1)]

theorem stripVlan_unknown : (3 : UInt16) ≠ OFPAT_OUTPUT ∧ (3 : UInt16) ≠ OFPAT_SET_VLAN_VID := by
  decide

/-- Type 3 is `OFPAT_STRIP_VLAN`. -/
def stripVlan : WireAction := .other 3 [0, 0, 0, 0] stripVlan_unknown

/-- An output that is freed, and then an action of an unknown type in its cell. -/
def reusedCell : List FlowsCall :=
  [answeredCall 5 (outputs 1), .freeFlows, answeredCall 6 [outputEntry [stripVlan]]]

/-- The main loop: the same answer twice, with more outputs than half a row. -/
def crowdedQueries : List FlowsCall :=
  [answeredCall 5 (outputs 3 ++ outputs 3), answeredCall 6 (outputs 3 ++ outputs 3)]

/-- The first sequence loses payload 1, the second frees payload 0 twice, and the
third, although balanced, leaves the first row. -/
theorem flowsCalls_lost_and_freed_twice :
    (WellSized shrinkingQueries ∧
      ∃ s, run flowsCall (shrinkingQueries ++ [.freeFlows]) (.zeroed, Heap.empty) = .ok s ∧
        1 < s.2.next ∧ s.2.freed.count 1 = 0 ∧ ¬s.2.ReleasedOnce) ∧
    (WellSized reusedCell ∧
      ∃ s, run flowsCall (reusedCell ++ [.freeFlows]) (.zeroed, Heap.empty) = .ok s ∧
        0 < s.2.next ∧ s.2.freed.count 0 = 2 ∧ ¬s.2.ReleasedOnce) ∧
    WellSized crowdedQueries ∧ Balanced (crowdedQueries ++ [.freeFlows]) ∧
      ¬RowsHaveRoom crowdedQueries ∧
      run flowsCall (crowdedQueries ++ [.freeFlows]) (.zeroed, Heap.empty) =
        .error .outOfBounds := by
  have hlost : returns (run flowsCall (shrinkingQueries ++ [.freeFlows]) (.zeroed, Heap.empty))
      (fun s => 1 < s.2.next ∧ s.2.freed.count 1 = 0) = true := by decide +kernel
  have htwice : returns (run flowsCall (reusedCell ++ [.freeFlows]) (.zeroed, Heap.empty))
      (fun s => 0 < s.2.next ∧ s.2.freed.count 0 = 2) = true := by decide +kernel
  obtain ⟨s, hs, hcount⟩ := exists_of_returns hlost
  obtain ⟨t, ht, hcount'⟩ := exists_of_returns htwice
  obtain ⟨hnext, hzero⟩ := of_decide_eq_true hcount
  obtain ⟨hnext', htwo⟩ := of_decide_eq_true hcount'
  refine ⟨⟨?_, s, hs, hnext, hzero, fun h => ?_⟩, ⟨?_, t, ht, hnext', htwo, fun h => ?_⟩,
    ?_, ?_, fun h => ?_, eq_error_of_raises (by decide +kernel)⟩
  · apply WellSized.answered (by decide +kernel) (by decide) (by decide)
    exact .answered (by decide +kernel) (by decide) (by decide) .nil
  · exact absurd (hzero.symm.trans (h.once 1 hnext)) Nat.zero_ne_one
  · apply WellSized.answered (by decide +kernel) (by decide) (by decide)
    exact .freed (.answered (by decide +kernel) (by decide) (by decide) .nil)
  · have honce := h.once 0 hnext'
    omega
  · apply WellSized.answered (by decide +kernel) (by decide) (by decide)
    exact .answered (by decide +kernel) (by decide) (by decide) .nil
  · apply (queries_balanced_iff _ _ _ _ _ _ _ _).mpr
    intro i e hi he
    exact absurd (List.getElem?_eq_some_iff.mp he).1 (Nat.not_lt.mpr hi)
  · have hfits : Ledger.zeroed.Fits (onePartAnswer (outputs 3 ++ outputs 3)) :=
      onePartAnswer_fits (by decide) (by decide)
    have hsix := (queries_rowsHaveRoom_iff _ _ _ _ _ _ hfits hfits).mp h 0
    exact absurd (hsix _ _ rfl rfl) (by decide)

end OrssNic
