import OrssNic.TableBounds

/-!
# Querying again

The main loop queries twice into the same structure. `nb_flows` starts again at
zero, and so does every entry of `flow_stats`, but the actions of an entry are
stored behind those that `nb_actions` counted before.
-/

namespace OrssNic
open CLoops CLists CRuns

/-- The structures that calls leave behind. -/
inductive Filled : OpenflowFlows → Prop
  | zeroed : Filled .zeroed
  | query {flows : OpenflowFlows} {connection : OpenflowConnection} {transactionId : UInt32}
      {stack : ℕ → OpenflowMessage} {payloads : Heap ActionPayload} {r : GetFlows}
      (h : Filled flows)
      (hok : openflowGetFlows connection transactionId stack flows payloads = .ok r) :
      Filled r.flows

/-- The first `nb_actions[i]` actions of entry `i`, with what their pointers point to. -/
def GetFlows.actionsOf (r : GetFlows) (i : ℕ) : Option (List (UInt16 × Option ActionPayload)) := do
  let nbActions ← r.flows.nbActions[i]?
  let row ← r.flows.actions[i]?
  return (row.take nbActions.toNat).map fun d => (d.type, d.data.map r.payloads.cell)

structure SameAnswer (r z : GetFlows) : Prop where
  nbFlows : r.flows.nbFlows = z.flows.nbFlows
  flowStats : ∀ i < r.flows.nbFlows.toNat, r.flows.flowStats[i]? = z.flows.flowStats[i]?
  nbActions : ∀ i < r.flows.nbFlows.toNat, r.flows.nbActions[i]? = z.flows.nbActions[i]?
  actions : ∀ i < r.flows.nbFlows.toNat, r.actionsOf i = z.actionsOf i

/-! ## What calls leave behind -/

/-- Behind the actions that are counted, the rows are as they were initialised. -/
structure Untouched (flows : OpenflowFlows) : Prop where
  sizes : TableSizes flows
  cells : ∀ (i j : ℕ) (k : UInt8) (row : List ActionDescriptor) (d : ActionDescriptor),
    flows.nbActions[i]? = some k → flows.actions[i]? = some row → k.toNat ≤ j →
      row[j]? = some d → d = ⟨0, none⟩

theorem zeroed_untouched : Untouched .zeroed where
  sizes := (zeroed_stored Heap.empty).sizes
  cells := by
    intro i j k row d _ hrow _ hd
    rw [List.eq_of_mem_replicate (List.mem_of_getElem? hrow)] at hd
    exact List.eq_of_mem_replicate (List.mem_of_getElem? hd)

section Untouched
variable {data : List UInt8} {actionsEnd : ℕ} {responseEnd : ℤ} {s s' : Parsing}

theorem actionStep_untouched (h : Untouched s.flows)
    (hok : actionStep data actionsEnd s = .ok (some s')) : Untouched s'.flows := by
  obtain ⟨-, k, row, d, d', hk, hrow, hd, -, hflows⟩ := actionStep_ok hok
  have hlen := h.sizes.row _ _ hrow
  have hlt : k.toNat < MAX_ACTIONS := hlen ▸ (List.getElem?_eq_some_iff.mp hd).1
  rw [hflows]
  refine ⟨h.sizes.stored hrow _ _ _, ?_⟩
  · intro i j k' row' e hk' hrow' hj he
    dsimp only at hk' hrow'
    by_cases hi : i = s.flows.nbFlows.toNat
    · subst hi
      rw [List.getElem?_set_self (List.getElem?_eq_some_iff.mp hk).1, Option.some.injEq] at hk'
      rw [List.getElem?_set_self (List.getElem?_eq_some_iff.mp hrow).1, Option.some.injEq]
        at hrow'
      subst hk' hrow'
      have hnext := nbActions_next hlt
      rw [List.getElem?_set_ne (by omega)] at he
      exact h.cells _ j k row e hk hrow (by omega) he
    · rw [List.getElem?_set_ne (Ne.symm hi)] at hk' hrow'
      exact h.cells i j k' row' e hk' hrow' hj he

theorem flowStep_untouched (h : Untouched s.flows)
    (hok : flowStep data responseEnd s = .ok (some s')) : Untouched s'.flows := by
  obtain ⟨-, bytes, stats, t, -, -, -, hloop, rfl⟩ := flowStep_ok hok
  have ht : Untouched t.flows := (whileLoop_correct hloop).1.invariant
    (P := fun t => Untouched t.flows)
    ⟨h.sizes.filled _ stats, h.cells⟩ fun _ _ => actionStep_untouched
  exact ⟨ht.sizes.counted _, ht.cells⟩

end Untouched

theorem Filled.untouched {flows : OpenflowFlows} (h : Filled flows) : Untouched flows := by
  induction h with
  | zeroed => exact zeroed_untouched
  | query _ hok ih =>
    obtain ⟨asked, -, rfl | ⟨s, parsed, -, hparse, rfl⟩⟩ := openflowGetFlows_ok hok
    · exact ih
    · refine parseReplies_invariant (fun _ _ _ _ => flowStep_untouched) ?_ hparse
      exact ⟨ih.sizes.counted 0, ih.cells⟩

/-! ## Two runs of the same answer -/

/-- The runs cannot be told apart by the rows below `m`, nor by the first `j`
entries of `flow_stats`. -/
structure Agree (j m : ℕ) (s t : OpenflowFlows × Heap ActionPayload) : Prop where
  sizes : TableSizes s.1
  sizes' : TableSizes t.1
  nbFlows : s.1.nbFlows = t.1.nbFlows
  payloads : s.2 = t.2
  flowStats : ∀ i < j, s.1.flowStats[i]? = t.1.flowStats[i]?
  nbActions : ∀ i < m, s.1.nbActions[i]? = t.1.nbActions[i]?
  actions : ∀ i < m, s.1.actions[i]? = t.1.actions[i]?

section Agree
variable {j m : ℕ} {s t t' : OpenflowFlows × Heap ActionPayload}

theorem storeAction_agree {a : WireAction} (h : Agree j m s t) (hrow : t.1.nbFlows.toNat < m)
    (hm : m ≤ MAX_HANDLED_FLOWS) (hok : storeAction t a = .ok t') :
    ∃ s', storeAction s a = .ok s' ∧ Agree j m s' t' ∧ t'.1.nbFlows = t.1.nbFlows := by
  obtain ⟨k, hk⟩ : ∃ k, t.1.nbActions[t.1.nbFlows.toNat]? = some k :=
    ⟨_, List.getElem?_eq_getElem (h.sizes'.nbActions.symm ▸ hrow.trans_le hm)⟩
  have hks : s.1.nbActions[s.1.nbFlows.toNat]? = some k := by
    rw [h.nbFlows, h.nbActions _ hrow, hk]
  obtain ⟨hlt, hext⟩ := storeAction_extends h.sizes' hk hok
  rcases storeAction_cases (a := a) h.sizes' hk with ⟨-, row, d, hrow', hd, ht⟩ | ⟨hge, -⟩
  · rcases storeAction_cases (a := a) h.sizes hks with ⟨-, row₁, d₁, hrow₁, hd₁, hs⟩ | ⟨hge, -⟩
    · rw [h.nbFlows, h.actions _ hrow, hrow', Option.some.injEq] at hrow₁
      subst hrow₁
      rw [hd, Option.some.injEq] at hd₁
      subst hd₁
      obtain ⟨-, hexts⟩ := storeAction_extends h.sizes hks hs
      rw [ht, Except.ok.injEq] at hok
      subst hok
      refine ⟨_, hs, ⟨hexts.sizes, hext.sizes, h.nbFlows, ?_, h.flowStats, ?_, ?_⟩, rfl⟩
      · rw [h.payloads]
      · intro i hi
        dsimp only
        rw [h.nbFlows]
        exact getElem?_set_congr (h.sizes.nbActions.trans h.sizes'.nbActions.symm)
          (h.nbActions i hi) _ _
      · intro i hi
        dsimp only
        rw [h.nbFlows, h.payloads]
        exact getElem?_set_congr (h.sizes.actions.trans h.sizes'.actions.symm)
          (h.actions i hi) _ _
    · omega
  · omega

theorem storeEntry_agree {e : WireEntry} (h : Agree t.1.nbFlows.toNat m s t)
    (hrow : t.1.nbFlows.toNat < m) (hm : m ≤ MAX_HANDLED_FLOWS) (hok : storeEntry t e = .ok t') :
    ∃ s', storeEntry s e = .ok s' ∧ Agree t'.1.nbFlows.toNat m s' t' ∧
      t'.1.nbFlows.toNat = t.1.nbFlows.toNat + 1 := by
  obtain ⟨-, hsizes', hnb⟩ := storeEntry_ok h.sizes' hok
  obtain ⟨stats, hwrite, hactions⟩ := bind_eq_ok.mp hok
  obtain ⟨t₁, hrun, hlast⟩ := bind_eq_ok.mp hactions
  have hlt : t.1.nbFlows.toNat < t.1.flowStats.length := h.sizes'.flowStats.symm ▸ hrow.trans_le hm
  have hlt' : s.1.nbFlows.toNat < s.1.flowStats.length := by
    rw [h.nbFlows, h.sizes.flowStats, ← h.sizes'.flowStats]
    exact hlt
  rw [writeAt_of_lt hlt, Except.ok.injEq] at hwrite
  subst hwrite
  cases hlast
  -- The entry's statistics agree from here on, and the actions leave them alone.
  have hstart : Agree (t.1.nbFlows.toNat + 1) m
      ({ s.1 with flowStats := s.1.flowStats.set s.1.nbFlows.toNat e.decoded }, s.2)
      ({ t.1 with flowStats := t.1.flowStats.set t.1.nbFlows.toNat e.decoded }, t.2) := by
    refine ⟨h.sizes.filled _ e.decoded, h.sizes'.filled _ e.decoded, h.nbFlows, h.payloads, ?_,
      h.nbActions, h.actions⟩
    intro i hi
    dsimp only
    rcases Nat.lt_succ_iff_lt_or_eq.mp hi with hi | rfl
    · rw [h.nbFlows]
      exact getElem?_set_congr (h.sizes.flowStats.trans h.sizes'.flowStats.symm)
        (h.flowStats i hi) _ _
    · rw [List.getElem?_set_self hlt, ← h.nbFlows, List.getElem?_set_self hlt']
  obtain ⟨s₁, hrun₁, hagree, hsame⟩ := run_matched
    (R := fun _ s t' => Agree (t.1.nbFlows.toNat + 1) m s t' ∧ t'.1.nbFlows = t.1.nbFlows)
    (fun a _ s t₁ t₂ hst hstep => by
      obtain ⟨s', hs', hagree, hkept⟩ :=
        storeAction_agree hst.1 (hst.2 ▸ hrow) hm hstep
      exact ⟨s', hs', hagree, hkept.trans hst.2⟩) ⟨hstart, rfl⟩ hrun
  refine ⟨({ s₁.1 with nbFlows := s₁.1.nbFlows + 1 }, s₁.2), ?_, ?_, hnb⟩
  · rw [storeEntry, writeAt_of_lt hlt']
    exact bind_eq_ok.mpr ⟨_, rfl, bind_eq_ok.mpr ⟨s₁, hrun₁, rfl⟩⟩
  · rw [hnb]
    refine ⟨hagree.sizes.counted _, hsizes', ?_, hagree.payloads, hagree.flowStats,
      hagree.nbActions, hagree.actions⟩
    dsimp only
    rw [hagree.nbFlows]

theorem storeEntries_agree {entries : List WireEntry} (h : Agree j m s t)
    (hj : t.1.nbFlows.toNat = j) (hrows : j + entries.length ≤ m) (hm : m ≤ MAX_HANDLED_FLOWS)
    (hok : run storeEntry entries t = .ok t') :
    ∃ s', run storeEntry entries s = .ok s' ∧ Agree t'.1.nbFlows.toNat m s' t' := by
  subst hj
  obtain ⟨s', hrun, hagree, -⟩ := run_matched
    (R := fun entries s t => Agree t.1.nbFlows.toNat m s t ∧
      t.1.nbFlows.toNat + entries.length ≤ m)
    (fun e entries s t₁ t₂ hst hstep => by
      obtain ⟨hagree, hle⟩ := hst
      rw [List.length_cons] at hle
      obtain ⟨s', hs', hagree', hnb⟩ := storeEntry_agree hagree (by omega) hm hstep
      exact ⟨s', hs', hagree', by omega⟩) ⟨h, hrows⟩ hok
  exact ⟨s', hrun, hagree⟩

end Agree

/-! ## The whole query -/

section Query
variable {flows : OpenflowFlows} {connection : OpenflowConnection} {transactionId : UInt32}
variable {stack : ℕ → OpenflowMessage} {payloads : Heap ActionPayload} {answer : Answer}

theorem Filled.agree (hfilled : Filled flows) {m : ℕ} (hm : m ≤ MAX_HANDLED_FLOWS)
    (hzero : ∀ i < m, flows.nbActions[i]? = some 0) :
    Agree 0 m ({ flows with nbFlows := 0 }, payloads)
      ({ OpenflowFlows.zeroed with nbFlows := 0 }, payloads) := by
  obtain ⟨hsizes, hcells⟩ := hfilled.untouched
  have hzeroed := zeroed_untouched.sizes
  refine ⟨hsizes.counted 0, hzeroed.counted 0, rfl, rfl,
    fun i hi => absurd hi (Nat.not_lt_zero i), fun i hi => ?_, fun i hi => ?_⟩
  · rw [hzero i hi]
    exact (List.getElem?_replicate_of_lt (hi.trans_le hm)).symm
  · obtain ⟨row, hrow⟩ : ∃ row, flows.actions[i]? = some row :=
      ⟨_, List.getElem?_eq_getElem (hsizes.actions.symm ▸ hi.trans_le hm)⟩
    have hclear : row = List.replicate MAX_ACTIONS ⟨0, none⟩ := by
      refine List.eq_replicate_iff.mpr ⟨hsizes.row i row hrow, fun d hd => ?_⟩
      obtain ⟨j, hj⟩ := List.mem_iff_getElem?.mp hd
      exact hcells i j 0 row d (hzero i hi) hrow (Nat.zero_le _) hj
    rw [hclear] at hrow
    exact hrow.trans (List.getElem?_replicate_of_lt (hi.trans_le hm)).symm

theorem Agree.sameAnswer {r z : GetFlows} {m : ℕ}
    (h : Agree z.flows.nbFlows.toNat m (r.flows, r.payloads) (z.flows, z.payloads))
    (hm : z.flows.nbFlows.toNat ≤ m) : SameAnswer r z := by
  have hnb : r.flows.nbFlows = z.flows.nbFlows := h.nbFlows
  refine ⟨hnb, fun i hi => ?_, fun i hi => ?_, fun i hi => ?_⟩
  all_goals rw [hnb] at hi
  · exact h.flowStats i hi
  · exact h.nbActions i (hi.trans_le hm)
  · have hcounts : r.flows.nbActions[i]? = z.flows.nbActions[i]? :=
      h.nbActions i (hi.trans_le hm)
    have hrows : r.flows.actions[i]? = z.flows.actions[i]? := h.actions i (hi.trans_le hm)
    have hpayloads : r.payloads = z.payloads := h.payloads
    rw [GetFlows.actionsOf, GetFlows.actionsOf, hcounts, hrows, hpayloads]

theorem openflowGetFlows_stored {r : GetFlows} (hsizes : TableSizes flows)
    (h : answer.Arrives connection transactionId) (hparts : answer.length ≤ MAX_STATS_REPLY)
    (hok : openflowGetFlows connection transactionId stack flows payloads = .ok r) :
    EntriesStored ({ flows with nbFlows := 0 }, payloads) answer.entries (r.flows, r.payloads) := by
  obtain ⟨connection', hcall⟩ := openflowGetFlows_store stack payloads hsizes h hparts
  rw [hok] at hcall
  rcases storeEntries_cases (s := ({ flows with nbFlows := 0 }, payloads)) answer.entries
    (hsizes.counted 0) (Nat.zero_le _) with ⟨-, s, hrun, hstored⟩ | ⟨-, herror⟩
  · rw [hrun] at hcall
    cases hcall
    exact hstored
  · rw [herror] at hcall
    cases hcall

/-- A structure gives the answer that a zeroed one gives just when it counts no
actions in the rows of the answer. -/
theorem requery_same_iff (hfilled : Filled flows) (h : answer.Arrives connection transactionId)
    (hin : answer.InTables OpenflowFlows.zeroed.nbActions) :
    (∃ r z, openflowGetFlows connection transactionId stack flows payloads = .ok r ∧
      openflowGetFlows connection transactionId stack .zeroed payloads = .ok z ∧
      SameAnswer r z) ↔ ∀ i < answer.entries.length, flows.nbActions[i]? = some 0 := by
  have hsizes := hfilled.untouched.sizes
  have hzeroed := zeroed_untouched.sizes
  have hm : answer.entries.length ≤ MAX_HANDLED_FLOWS := by
    have hrows := hin.rows.rows
    omega
  constructor
  · rintro ⟨r, z, hr, hz, hsame⟩ i hi
    have hrstored := openflowGetFlows_stored hsizes h hin.parts hr
    have hzstored := openflowGetFlows_stored hzeroed h hin.parts hz
    obtain ⟨k, hk⟩ : ∃ k, flows.nbActions[i]? = some k :=
      ⟨_, List.getElem?_eq_getElem (hsizes.nbActions.symm ▸ hi.trans_le hm)⟩
    have hentry := List.getElem?_eq_getElem hi
    have hzero : OpenflowFlows.zeroed.nbActions[i]? = some 0 :=
      List.getElem?_replicate_of_lt (hi.trans_le hm)
    have hrcount := hrstored.counts i _ k hentry (by rw [← hk]; congr 1; exact Nat.zero_add i)
    have hzcount := hzstored.counts i _ 0 hentry (by rw [← hzero]; congr 1; exact Nat.zero_add i)
    have hlt : i < r.flows.nbFlows.toNat := by
      have hnb := hrstored.nbFlows
      dsimp only at hnb
      rw [hnb]
      exact Nat.lt_add_left _ hi
    have hcounts := hsame.nbActions i hlt
    dsimp only at hrcount hzcount
    rw [UInt16.toNat_zero, Nat.zero_add] at hrcount hzcount
    rw [hrcount, hzcount, Option.some.injEq] at hcounts
    rw [hk, add_right_cancel hcounts]
  · intro hzero
    obtain ⟨connection₁, hr⟩ := openflowGetFlows_store stack payloads hsizes h hin.parts
    obtain ⟨connection₂, hz⟩ := openflowGetFlows_store stack payloads hzeroed h hin.parts
    rcases storeEntries_cases (s := ({ OpenflowFlows.zeroed with nbFlows := 0 }, payloads))
      answer.entries ⟨hzeroed.flowStats, hzeroed.nbActions, hzeroed.actions, hzeroed.row⟩
      (Nat.zero_le _) with ⟨-, t, hrun, hstored⟩ | ⟨hrows, -⟩
    · obtain ⟨s, hrun', hagree⟩ := storeEntries_agree (hfilled.agree hm hzero) rfl
        (Nat.zero_add _).le hm hrun
      rw [hrun'] at hr
      rw [hrun] at hz
      refine ⟨_, _, hr, hz, Agree.sameAnswer hagree ?_⟩
      exact (hstored.nbFlows.trans (Nat.zero_add _)).le
    · exact absurd hin.rows hrows

end Query

/-! ## The same answer twice -/

theorem oneOutput_inTables :
    (onePartAnswer (outputs 1)).InTables OpenflowFlows.zeroed.nbActions where
  parts := by decide
  rows := by
    refine ⟨by decide, fun i e k he hk => .inr ?_⟩
    have hk' : k = 0 := List.eq_of_mem_replicate (List.mem_of_getElem? hk)
    have hlength : ∀ e ∈ (onePartAnswer (outputs 1)).entries, e.stored.length = 1 := by decide
    rw [hk', hlength e (List.mem_of_getElem? he)]
    decide

/-- After an answer whose entry has no actions. -/
theorem requery_same_iff_output :
    ∃ first, openflowGetFlows (answeredConnection (outputs 0)) 5 (fun _ => default) .zeroed
        Heap.empty = .ok first ∧
      ((∃ r z, openflowGetFlows (answeredConnection (outputs 1)) 5 (fun _ => default) first.flows
          first.payloads = .ok r ∧
        openflowGetFlows (answeredConnection (outputs 1)) 5 (fun _ => default) .zeroed
          first.payloads = .ok z ∧ SameAnswer r z) ↔
        ∀ i < (onePartAnswer (outputs 1)).entries.length, first.flows.nbActions[i]? = some 0) := by
  have hreturns : returns (openflowGetFlows (answeredConnection (outputs 0)) 5 (fun _ => default)
      .zeroed Heap.empty) (fun _ => true) = true := by
    decide +kernel
  obtain ⟨first, hfirst, -⟩ := exists_of_returns hreturns
  exact ⟨first, hfirst, requery_same_iff (.query .zeroed hfirst)
    (onePartAnswer_arrives (by decide +kernel)) oneOutput_inTables⟩

/-- The second time, the action of the entry is stored behind the first one. -/
theorem requery_appends :
    (onePartAnswer (outputs 1)).Arrives (answeredConnection (outputs 1)) 5 ∧
      ∃ first second z, openflowGetFlows (answeredConnection (outputs 1)) 5 (fun _ => default)
          .zeroed Heap.empty = .ok first ∧
        openflowGetFlows (answeredConnection (outputs 1)) 5 (fun _ => default) first.flows
          first.payloads = .ok second ∧
        openflowGetFlows (answeredConnection (outputs 1)) 5 (fun _ => default) .zeroed
          first.payloads = .ok z ∧
        ¬SameAnswer second z := by
  refine ⟨onePartAnswer_arrives (by decide +kernel), ?_⟩
  have hruns : returns (openflowGetFlows (answeredConnection (outputs 1)) 5 (fun _ => default)
      .zeroed Heap.empty) (fun first =>
        returns (openflowGetFlows (answeredConnection (outputs 1)) 5 (fun _ => default) first.flows
          first.payloads) fun second =>
        returns (openflowGetFlows (answeredConnection (outputs 1)) 5 (fun _ => default) .zeroed
          first.payloads) fun z =>
        decide (0 < second.flows.nbFlows.toNat ∧
          second.flows.nbActions[0]? ≠ z.flows.nbActions[0]?)) = true := by
    decide +kernel
  obtain ⟨first, hfirst, hruns⟩ := exists_of_returns hruns
  obtain ⟨second, hsecond, hruns⟩ := exists_of_returns hruns
  obtain ⟨z, hz, hruns⟩ := exists_of_returns hruns
  obtain ⟨hrow, hdiffer⟩ := of_decide_eq_true hruns
  exact ⟨first, second, z, hfirst, hsecond, hz, fun hsame => hdiffer (hsame.nbActions 0 hrow)⟩

end OrssNic
