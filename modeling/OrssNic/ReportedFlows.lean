import OrssNic.PlacementLedger

/-!
# Flows that are no longer reported

The activity flag of a ring buffer is set by every sample and never reset, so
that the cleanup at the end of an iteration finds no inactive flow: the map
keeps all flows that were ever reported, and balances them.
-/

namespace OrssNic
open CLoops CRuns Placement

namespace Iteration.Iterates
variable {r : Iteration} {sampled : MapState} {flows : List (FiveTuple × Ref)}
variable {coreLoad : Repartition} {s : BalanceState}

theorem mem_keys (h : r.Iterates sampled flows coreLoad s) (key : FiveTuple) :
    key ∈ r.after.map.hashmap.keys ↔
      key ∈ r.before.map.hashmap.keys ∨ key ∈ reported r.flows := by
  have hkeys : r.after.map.hashmap.keys = sampled.hashmap.keys := by rw [h.after]
  rw [hkeys, ← not_iff_not, ← MapState.ring_eq_none, h.ring, foldl_sample_eq_none,
    MapState.ring_eq_none, not_or]
  rfl

theorem keys_iff_reported (h : r.Iterates sampled flows coreLoad s) :
    (∀ key, key ∈ r.after.map.hashmap.keys ↔ key ∈ reported r.flows) ↔
      r.before.map.hashmap.keys ⊆ reported r.flows := by
  constructor
  · intro hkeys key hkey
    exact (hkeys key).mp ((h.mem_keys key).mpr (.inl hkey))
  · intro hsub key
    rw [h.mem_keys]
    exact ⟨fun hkey => hkey.elim (@hsub key) id, .inr⟩

theorem moved_unreported (h : r.Iterates sampled flows coreLoad s) {m : FiveTuple × ℕ}
    (hm : m ∈ moves r.migrations) (hkey : m.1 ∉ reported r.flows) :
    m.1 ∈ r.before.map.hashmap.keys ∧ 0 < weight r.before.map.hashmap r.before.map.heap m.1 := by
  obtain ⟨migration, hmem, rfl⟩ := List.mem_map.mp hm
  rw [← h.migrations] at hmem
  obtain ⟨-, e, he, hkey', hload⟩ := h.balancing.moved migration hmem
  rw [← hkey'] at hkey ⊢
  have hentry := h.visited.subset he
  have hring : r.before.map.ring e.1 = sampled.ring e.1 := by
    rw [h.ring, foldl_sample_unreported hkey]
  constructor
  · rw [MapState.mem_keys_iff_ring, hring]
    exact ⟨_, MapState.ring_of_mem h.live.inv hentry⟩
  · rw [MapState.weight_eq_ring, hring, ← MapState.weight_eq_ring,
      weight_of_mem h.live.inv _ hentry]
    exact hload

end Iteration.Iterates

theorem MainState.start_keys (connection : OpenflowConnection) (transactionId : UInt32) :
    (MainState.start connection transactionId).map.hashmap.keys = [] := by
  simp [MainState.start, HashMap.keys, hashmapInit_entries]

section Eviction
variable {connection : OpenflowConnection} {transactionId : UInt32}
variable {inputs : List Surroundings} {rs : List Iteration}

theorem isChain_cons_congr {l l' : List FiveTuple} {ls : List (List FiveTuple)}
    (h : ∀ key, key ∈ l ↔ key ∈ l') :
    List.IsChain (· ⊆ ·) (l :: ls) ↔ List.IsChain (· ⊆ ·) (l' :: ls) := by
  have hsub : ∀ y : List FiveTuple, l ⊆ y ↔ l' ⊆ y :=
    fun y => forall_congr' fun key => imp_congr_left (h key)
  simp only [List.isChain_cons, hsub]

theorem trace_evicts_iff {s : MainState} (hs : s.map.Live)
    (h : trace iteration Iteration.after inputs s = .ok rs) :
    (∀ r ∈ rs, ∀ key, key ∈ r.after.map.hashmap.keys ↔ key ∈ reported r.flows) ↔
      List.IsChain (· ⊆ ·) (s.map.hashmap.keys :: rs.map fun r => reported r.flows) := by
  induction inputs generalizing s rs with
  | nil =>
    cases h
    simp
  | cons i inputs ih =>
    obtain ⟨r, rs', hr, hrs', rfl⟩ := trace_cons_ok.mp h
    obtain ⟨rfl, sampled, flows, coreLoad, t, hiter⟩ := iteration_spec hs hr
    rw [List.forall_mem_cons, ih hiter.afterLive hrs', List.map_cons, List.isChain_cons_cons,
      ← hiter.keys_iff_reported]
    exact and_congr_right fun hkeys => isChain_cons_congr hkeys

/-- The map holds exactly the reported flows after every iteration, if and only
if no report lacks a flow of the report before it. -/
theorem stale_flows_evicted_iff (h : mainLoop connection transactionId inputs = .ok rs) :
    (∀ r ∈ rs, ∀ key, key ∈ r.after.map.hashmap.keys ↔ key ∈ reported r.flows) ↔
      List.IsChain (fun r r' => reported r.flows ⊆ reported r'.flows) rs := by
  rw [trace_evicts_iff .start h, MainState.start_keys, List.isChain_cons, List.isChain_map]
  exact and_iff_right fun _ _ => List.nil_subset _

def vanishingFlow : List Surroundings := [answering 5 [taggedEntry 80 100], answering 17 []]

theorem stale_flows_evicted_iff_pausing :
    ∃ rs, mainLoop idleConnection 5 pausingFlows = .ok rs ∧
      ((∀ r ∈ rs, ∀ key, key ∈ r.after.map.hashmap.keys ↔ key ∈ reported r.flows) ↔
        List.IsChain (fun r r' => reported r.flows ⊆ reported r'.flows) rs) := by
  have hrun : returns (mainLoop idleConnection 5 pausingFlows) (fun _ => true) = true := by
    decide +kernel
  obtain ⟨rs, hrs, -⟩ := exists_of_returns hrun
  exact ⟨rs, hrs, stale_flows_evicted_iff hrs⟩

theorem stale_flows_stay :
    ¬ ∀ (connection : OpenflowConnection) (transactionId : UInt32) (inputs : List Surroundings)
      (rs : List Iteration), mainLoop connection transactionId inputs = .ok rs →
      ∀ r ∈ rs, ∀ key, key ∈ r.after.map.hashmap.keys ↔ key ∈ reported r.flows := by
  intro hexact
  have hrun : returns (mainLoop idleConnection 5 vanishingFlow) (fun rs => decide (∃ r ∈ rs,
      ∃ key ∈ r.after.map.hashmap.keys, key ∉ reported r.flows)) = true := by
    decide +kernel
  obtain ⟨rs, hrs, htest⟩ := exists_of_returns hrun
  obtain ⟨r, hr, key, hkey, hnot⟩ := of_decide_eq_true htest
  exact hnot ((hexact _ _ _ rs hrs r hr key).mp hkey)

/-- A `FLOW_MOD` is for a reported flow whenever every loaded flow of the map is
reported. -/
theorem flow_mods_reported (h : mainLoop connection transactionId inputs = .ok rs) :
    ∀ r ∈ rs, (∀ key ∈ r.before.map.hashmap.keys,
        0 < weight r.before.map.hashmap r.before.map.heap key → key ∈ reported r.flows) →
      ∀ message ∈ r.flowMods, message.fiveTuple ∈ reported r.flows := by
  refine trace_forall (P := fun s => s.map.Live) ?_ .start h
  intro s i r hlive hok
  obtain ⟨rfl, sampled, flows, coreLoad, t, hr⟩ := iteration_spec hlive hok
  refine ⟨fun hloaded message hmessage => ?_, hr.afterLive⟩
  by_contra hkey
  have hmove : message.move ∈ moves r.migrations :=
    hr.writes.sublist.subset (List.mem_map_of_mem hmessage)
  obtain ⟨hbound, hload⟩ := hr.moved_unreported hmove hkey
  exact hkey (hloaded _ hbound hload)

theorem flow_mods_reported_pausing :
    ∃ rs, mainLoop idleConnection 5 pausingFlows = .ok rs ∧
      (rs.map fun r => r.flowMods.length) = [10, 0] ∧
      ∀ r ∈ rs, ∀ message ∈ r.flowMods, message.fiveTuple ∈ reported r.flows := by
  have hrun : returns (mainLoop idleConnection 5 pausingFlows) (fun rs => decide (
      (rs.map fun r => r.flowMods.length) = [10, 0] ∧
      ∀ r ∈ rs, ∀ key ∈ r.before.map.hashmap.keys,
        0 < weight r.before.map.hashmap r.before.map.heap key →
          key ∈ reported r.flows)) = true := by
    decide +kernel
  obtain ⟨rs, hrs, htest⟩ := exists_of_returns hrun
  obtain ⟨hcounts, hloaded⟩ := of_decide_eq_true htest
  exact ⟨rs, hrs, hcounts, fun r hr => flow_mods_reported hrs r hr (hloaded r hr)⟩

/-- The second iteration, which also misses the flow, ends with the clean-up. -/
def lapsedFlow : List Surroundings := vanishingFlow ++ [answering 29 []]

/-- The third iteration still sends `FLOW_MOD`s for the flow of the first. -/
theorem flow_mods_ghost :
    ¬ ∀ (connection : OpenflowConnection) (transactionId : UInt32) (inputs : List Surroundings)
      (rs : List Iteration), mainLoop connection transactionId inputs = .ok rs →
      ∀ r ∈ rs, ∀ message ∈ r.flowMods, message.fiveTuple ∈ reported r.flows := by
  intro hreported
  have hrun : returns (mainLoop idleConnection 5 lapsedFlow) (fun rs => decide (∃ r ∈ rs.drop 2,
      ∃ message ∈ r.flowMods, message.fiveTuple ∉ reported r.flows)) = true := by
    decide +kernel
  obtain ⟨rs, hrs, htest⟩ := exists_of_returns hrun
  obtain ⟨r, hr, message, hmessage, hnot⟩ := of_decide_eq_true htest
  exact hnot (hreported _ _ _ rs hrs r (List.mem_of_mem_drop hr) message hmessage)

end Eviction

end OrssNic
