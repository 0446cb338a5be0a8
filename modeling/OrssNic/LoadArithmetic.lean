import OrssNic.PlacementLedger
import OrssNic.RingBufferLoads

/-!
# The arithmetic of the loads, over whole runs

A flow's ring buffer is the fresh one after all the counters that the run has
sampled for the flow, up to the assigned core. While the counters never
decrease and their latest values fit together in 64 bits, the subtractions of
`ringbuffer_add` and the sums of the balancer are those of the integers.
-/

namespace OrssNic
open CLoops CRuns

def counterOf (stats : OpenflowFlowStats) : UInt64 := openflowOvsbe64ToUint64 stats.packetCount

def countersOf (key : FiveTuple) (stats : List OpenflowFlowStats) : List UInt64 :=
  (stats.filter fun s => fiveTupleOf s = key).map counterOf

def latestCounter (stats : List OpenflowFlowStats) (key : FiveTuple) : ℕ :=
  ((countersOf key stats).getLast?.getD 0).toNat

structure Tracks (ring : FiniteMap FiveTuple RingBuffer) (stats : List OpenflowFlowStats) :
    Prop where
  bound : ∀ key rb, ring key = some rb →
    rb = { ringbufferSampled (countersOf key stats) with assignedCore := rb.assignedCore }
  absent : ∀ key, ring key = none → countersOf key stats = []

theorem countersOf_append (key : FiveTuple) (stats stats' : List OpenflowFlowStats) :
    countersOf key (stats ++ stats') = countersOf key stats ++ countersOf key stats' := by
  simp only [countersOf, List.filter_append, List.map_append]

theorem countersOf_singleton (s : OpenflowFlowStats) (key : FiveTuple) :
    countersOf key [s] = if fiveTupleOf s = key then [counterOf s] else [] := by
  by_cases h : fiveTupleOf s = key <;> simp [countersOf, h]

namespace Tracks
variable {ring : FiniteMap FiveTuple RingBuffer} {stats : List OpenflowFlowStats}

theorem start : Tracks FiniteMap.empty [] where
  bound := by
    intro key rb h
    cases h
  absent := fun _ _ => rfl

theorem getD (h : Tracks ring stats) (key : FiveTuple) :
    ∃ core, (ring key).getD default =
      { ringbufferSampled (countersOf key stats) with assignedCore := core } := by
  cases hr : ring key with
  | none =>
    rw [h.absent key hr]
    exact ⟨0, rfl⟩
  | some rb => exact ⟨rb.assignedCore, h.bound key rb hr⟩

theorem sample (h : Tracks ring stats) (s : OpenflowFlowStats) :
    Tracks (sample ring s) (stats ++ [s]) where
  bound := by
    intro key rb hrb
    rw [countersOf_append, countersOf_singleton]
    by_cases hkey : key = fiveTupleOf s
    · subst hkey
      obtain ⟨core, hcore⟩ := h.getD (fiveTupleOf s)
      rw [sample_self, hcore, Option.some.injEq] at hrb
      rw [if_pos rfl, ringbufferSampled_concat, ← hrb]
      rfl
    · rw [sample_of_ne hkey] at hrb
      rw [if_neg (Ne.symm hkey), List.append_nil]
      exact h.bound key rb hrb
  absent := by
    intro key hnone
    have hkey : key ≠ fiveTupleOf s := by
      rintro rfl
      rw [sample_self] at hnone
      cases hnone
    rw [sample_of_ne hkey] at hnone
    rw [countersOf_append, countersOf_singleton, if_neg (Ne.symm hkey), List.append_nil]
    exact h.absent key hnone

theorem samples (h : Tracks ring stats) (report : List OpenflowFlowStats) :
    Tracks (report.foldl OrssNic.sample ring) (stats ++ report) := by
  induction report generalizing ring stats with
  | nil => rwa [List.append_nil]
  | cons s report ih =>
    have := ih (h.sample s)
    rwa [List.append_assoc] at this

theorem balanced {hashmap : HashMap} {heap heap' : Heap RingBuffer}
    (h : Tracks (MapState.ring ⟨hashmap, heap⟩) stats) (hsamples : SameSamples heap heap') :
    Tracks (MapState.ring ⟨hashmap, heap'⟩) stats where
  bound := by
    intro key rb hrb
    obtain ⟨r, hr, rfl⟩ := Option.map_eq_some_iff.mp hrb
    have hcell := h.bound key (heap.cell r) (Option.map_eq_some_iff.mpr ⟨r, hr, rfl⟩)
    rw [hsamples.cell r, hcell]
  absent := by
    intro key hnone
    refine h.absent key (Option.map_eq_none_iff.mpr (Option.map_eq_none_iff.mp hnone))

theorem addsExactly (h : Tracks ring stats) {s : OpenflowFlowStats}
    (hsorted : (countersOf (fiveTupleOf s) (stats ++ [s])).Pairwise (· ≤ ·)) :
    ((ring (fiveTupleOf s)).getD default).AddsExactly (counterOf s) := by
  obtain ⟨core, hcore⟩ := h.getD (fiveTupleOf s)
  rw [countersOf_append, countersOf_singleton, if_pos rfl] at hsorted
  obtain ⟨hle, hstored⟩ := ringbufferSampled_addsExactly hsorted
  rw [hcore]
  exact ⟨hle, hstored⟩

theorem totalLoad_le {map : MapState} (h : Tracks map.ring stats) (hinv : map.hashmap.Inv)
    (hsorted : ∀ key, (countersOf key stats).Pairwise (· ≤ ·)) :
    totalLoad map.hashmap map.heap ≤ (map.hashmap.keys.map (latestCounter stats)).sum := by
  rw [totalLoad, HashMap.keys, List.map_map]
  apply List.sum_le_sum
  intro e he
  have hcell := h.bound e.1 _ (MapState.ring_of_mem hinv he)
  have hlast : ringbufferGetLast (map.heap.cell e.2) =
      ringbufferGetLast (ringbufferSampled (countersOf e.1 stats)) := by
    rw [hcell, ringbufferGetLast_assign]
  rw [flowLoad, hlast]
  exact getLast_le_latest (hsorted e.1)

end Tracks

/-! ## One iteration -/

/-- All sums of the balancer in one state of its loop are those of the integers. -/
structure LoadsExact (hashmap : HashMap) (s : BalanceState) : Prop where
  contents : List.Perm (s.coreLoad.flatMap CoreLoad.entries) hashmap.entries
  load : ∀ core ∈ s.coreLoad, core.load.toNat = (core.entries.map (flowLoad s.heap)).sum
  sum : ∃ scan, forLoop (scanStep s.coreLoad) NB_CORES
      ⟨0, 0, UInt64.ofNat (2 ^ 64 - 1), 0, 0⟩ = .ok scan ∧
    scan.averageLoad.toNat = (s.coreLoad.map fun core => core.load.toNat).sum
  total : (s.coreLoad.map fun core => core.load.toNat).sum = totalLoad hashmap s.heap

theorem Balancing.loadsExact {hashmap : HashMap} {heap₀ : Heap RingBuffer} {s : BalanceState}
    (hinv : hashmap.Inv) (hassigned : Assigned hashmap heap₀ NB_CORES)
    (hsum : totalLoad hashmap heap₀ < 2 ^ 64)
    (hs : Balancing hashmap hashmap.entries heap₀ NB_CORES s) : LoadsExact hashmap s := by
  have hdescribe := hs.coresDescribe hinv hassigned hsum
  have htotal := hs.cores.sum_loads hinv (hs.assigned hinv hassigned)
    (hs.totalLoad_eq.symm ▸ hsum)
  obtain ⟨scan, hloop, hscan⟩ := scanLoop_spec hs.cores.length
  refine ⟨hdescribe.contents, hdescribe.load, ⟨scan, hloop, ?_⟩, htotal⟩
  rw [hscan.sum, List.map_map]
  apply Nat.mod_eq_of_lt
  change (s.coreLoad.map fun core => core.load.toNat).sum < 2 ^ 64
  rw [htotal, hs.totalLoad_eq]
  exact hsum

theorem iteration_computes {s : MainState} {i : Surroundings} {r : Iteration} (h : s.map.Live)
    (hok : iteration s i = .ok r) :
    ∃ sampled coreLoad, forLoop (sampleStep r.flows) r.flows.nbFlows.toNat s.map = .ok sampled ∧
      sampled.Live ∧ sampled.ring = (reportedStats r.flows).foldl sample s.map.ring ∧
      balancerComputeRepartition sampled.hashmap sampled.heap i.previousKey
        (UInt8.ofNat NB_CORES) = .ok coreLoad ∧
      r.after.map.hashmap = sampled.hashmap ∧ SameSamples sampled.heap r.after.map.heap := by
  obtain ⟨connection, r₁, r₂, map, migrations, freed, -, -, -, hget, -, hr⟩ := iteration_ok hok
  obtain ⟨sampled, visited, coreLoad, t, hloop, hlive, hring, -, hcompute, -, -, -, hs, rfl, rfl,
    hlive'⟩ := getMigrations_correct h hget
  have hcleanup := hashmapCleanup_active fun e he => hlive'.isActive he
  rw [hcleanup] at hr
  subst hr
  exact ⟨sampled, coreLoad, hloop, hlive, hring, hcompute, rfl, hs.samples⟩

def Iteration.AddsExactly (r : Iteration) : Prop :=
  ∀ (j : ℕ) (map : MapState) (stats : OpenflowFlowStats), j < r.flows.nbFlows.toNat →
    forLoop (sampleStep r.flows) j r.before.map = .ok map →
    r.flows.flowStats[j]? = some stats →
    ((map.ring (fiveTupleOf stats)).getD default).AddsExactly (counterOf stats)

/-- In every state of the balancing loop of the iteration, the loads are exact. -/
def Iteration.LoadsExact (r : Iteration) (previousKey : FiveTuple) : Prop :=
  ∃ sampled coreLoad,
    forLoop (sampleStep r.flows) r.flows.nbFlows.toNat r.before.map = .ok sampled ∧
    balancerComputeRepartition sampled.hashmap sampled.heap previousKey (UInt8.ofNat NB_CORES) =
      .ok coreLoad ∧
    ∀ s, Reaches (balanceStep NB_CORES) (balanceStart sampled coreLoad) s →
      OrssNic.LoadsExact sampled.hashmap s

def statsOf (rs : List Iteration) : List OpenflowFlowStats :=
  rs.flatMap fun r => reportedStats r.flows

def NeverDecrease (stats : List OpenflowFlowStats) : Prop :=
  ∀ key, (countersOf key stats).Pairwise (· ≤ ·)

theorem NeverDecrease.of_prefix {stats stats' : List OpenflowFlowStats} (h : NeverDecrease stats')
    (hpre : stats <+: stats') : NeverDecrease stats := by
  intro key
  obtain ⟨rest, rfl⟩ := hpre
  have hkey := h key
  rw [countersOf_append] at hkey
  exact (List.pairwise_append.mp hkey).1

theorem neverDecrease_of_occurring {stats : List OpenflowFlowStats}
    (h : ∀ key ∈ stats.map fiveTupleOf, (countersOf key stats).Pairwise (· ≤ ·)) :
    NeverDecrease stats := by
  intro key
  by_cases hkey : key ∈ stats.map fiveTupleOf
  · exact h key hkey
  · have hnil : countersOf key stats = [] := by
      rw [countersOf, List.map_eq_nil_iff, List.filter_eq_nil_iff]
      intro s hs heq
      exact hkey (List.mem_map.mpr ⟨s, hs, by simpa using heq⟩)
    rw [hnil]
    exact List.Pairwise.nil

theorem iteration_addsExactly {s : MainState} {i : Surroundings} {r : Iteration}
    {history : List OpenflowFlowStats} (h : s.map.Live) (htracks : Tracks s.map.ring history)
    (hok : iteration s i = .ok r) (hsorted : NeverDecrease (history ++ reportedStats r.flows)) :
    r.AddsExactly := by
  obtain ⟨rfl, -⟩ := iteration_spec h hok
  intro j map stats hj hloop hstats
  obtain ⟨-, hring⟩ := sampleLoop_correct h.toSound hloop
  have hmap : Tracks map.ring (history ++ r.flows.flowStats.take j) := hring ▸ htracks.samples _
  apply hmap.addsExactly
  have htake : history ++ r.flows.flowStats.take j ++ [stats] <+:
      history ++ reportedStats r.flows := by
    have hnext : r.flows.flowStats.take j ++ [stats] = r.flows.flowStats.take (j + 1) := by
      rw [List.take_add_one, hstats]
      rfl
    rw [List.append_assoc, hnext, List.prefix_append_right_inj, reportedStats]
    exact List.take_prefix_take_left hj
  exact hsorted.of_prefix htake (fiveTupleOf stats)

theorem iteration_loadsExact {s : MainState} {i : Surroundings} {r : Iteration}
    {history : List OpenflowFlowStats} (h : s.map.Live) (htracks : Tracks s.map.ring history)
    (hok : iteration s i = .ok r) (hsorted : NeverDecrease (history ++ reportedStats r.flows))
    (hsum : (r.after.map.hashmap.keys.map
      (latestCounter (history ++ reportedStats r.flows))).sum < 2 ^ 64)
    (hkey : i.previousKey ∉ r.after.map.hashmap.keys) : r.LoadsExact i.previousKey := by
  obtain ⟨rfl, -⟩ := iteration_spec h hok
  obtain ⟨sampled, coreLoad, hloop, hlive, hring, hcompute, hafter, -⟩ := iteration_computes h hok
  refine ⟨sampled, coreLoad, hloop, hcompute, fun t hreach => ?_⟩
  rw [hafter] at hsum hkey
  have hmap : Tracks sampled.ring (history ++ reportedStats r.flows) := hring ▸ htracks.samples _
  have htotal := (hmap.totalLoad_le hlive.inv hsorted).trans_lt hsum
  have hcores := balancerComputeRepartition_correct (by decide) hlive.inv hlive.isPrefix
    hlive.assigned hcompute
  rw [HashMap.walkIndex_absent hkey, List.drop_zero] at hcores
  exact (Balancing.reaches (by decide) (by decide) hlive.inv hlive.refs (List.Sublist.refl _)
    hcores hreach).loadsExact hlive.inv hlive.assigned htotal

theorem iteration_tracks {s : MainState} {i : Surroundings} {r : Iteration}
    {history : List OpenflowFlowStats} (h : s.map.Live) (htracks : Tracks s.map.ring history)
    (hok : iteration s i = .ok r) :
    Tracks r.after.map.ring (history ++ reportedStats r.flows) := by
  obtain ⟨sampled, coreLoad, -, -, hring, -, hafter, hsamples⟩ := iteration_computes h hok
  have hmap : Tracks sampled.ring (history ++ reportedStats r.flows) := hring ▸ htracks.samples _
  have hbalanced : Tracks (MapState.ring ⟨sampled.hashmap, r.after.map.heap⟩) _ :=
    hmap.balanced hsamples
  rwa [← hafter] at hbalanced

/-! ## Whole runs -/

section Runs
variable {connection : OpenflowConnection} {transactionId : UInt32}
variable {inputs : List Surroundings} {rs : List Iteration}

theorem statsOf_take_succ {n : ℕ} {r : Iteration} (hr : rs[n]? = some r) :
    statsOf (rs.take (n + 1)) = statsOf (rs.take n) ++ reportedStats r.flows := by
  rw [List.take_add_one, hr, statsOf, statsOf, List.flatMap_append]
  simp

theorem statsOf_take_isPrefix (rs : List Iteration) (n : ℕ) : statsOf (rs.take n) <+: statsOf rs := by
  refine ⟨statsOf (rs.drop n), ?_⟩
  rw [statsOf, statsOf, ← List.flatMap_append, List.take_append_drop, statsOf]

theorem mainLoop_history (h : mainLoop connection transactionId inputs = .ok rs) {n : ℕ}
    {i : Surroundings} {r : Iteration} (hi : inputs[n]? = some i) (hr : rs[n]? = some r) :
    ∃ s : MainState, s.map.Live ∧ Tracks s.map.ring (statsOf (rs.take n)) ∧
      iteration s i = .ok r := by
  have hempty : Tracks (MainState.start connection transactionId).map.ring [] := by
    rw [MainState.start, MapState.ring_start]
    exact .start
  have hstart : (MainState.start connection transactionId).map.Live ∧
      Tracks (MainState.start connection transactionId).map.ring (statsOf []) := ⟨.start, hempty⟩
  refine trace_history
    (P := fun (history : List Iteration) (s : MainState) =>
      s.map.Live ∧ Tracks s.map.ring (statsOf history))
    (Q := fun (history : List Iteration) (i : Surroundings) (r : Iteration) =>
      ∃ s : MainState, s.map.Live ∧ Tracks s.map.ring (statsOf history) ∧ iteration s i = .ok r)
    ?_ hstart h hi hr
  intro history s i r hs hok
  obtain ⟨hlive, htracks⟩ := hs
  obtain ⟨-, sampled, flows, coreLoad, t, hiter⟩ := iteration_spec hlive hok
  have hnext := iteration_tracks hlive htracks hok
  refine ⟨⟨s, hlive, htracks, hok⟩, hiter.afterLive, ?_⟩
  rw [statsOf, List.flatMap_append, List.flatMap_singleton]
  exact hnext

/-- No subtraction wraps and all sums are exact, in every iteration of a run
whose counters never decrease and fit together in 64 bits. -/
theorem load_arithmetic_exact (h : mainLoop connection transactionId inputs = .ok rs)
    (hsorted : NeverDecrease (statsOf rs))
    (hsums : ∀ (n : ℕ) (r : Iteration), rs[n]? = some r → (r.after.map.hashmap.keys.map
      (latestCounter (statsOf (rs.take (n + 1))))).sum < 2 ^ 64)
    (hkeys : ∀ (n : ℕ) (i : Surroundings) (r : Iteration), inputs[n]? = some i →
      rs[n]? = some r → i.previousKey ∉ r.after.map.hashmap.keys) :
    ∀ (n : ℕ) (i : Surroundings) (r : Iteration), inputs[n]? = some i → rs[n]? = some r →
      r.AddsExactly ∧ r.LoadsExact i.previousKey := by
  intro n i r hi hr
  obtain ⟨s, hlive, htracks, hok⟩ := mainLoop_history h hi hr
  have hreports := statsOf_take_succ hr
  have hprefix := hsorted.of_prefix (statsOf_take_isPrefix rs (n + 1))
  have hsum := hsums n r hr
  rw [hreports] at hprefix hsum
  exact ⟨iteration_addsExactly hlive htracks hok hprefix,
    iteration_loadsExact hlive htracks hok hprefix hsum (hkeys n i r hi hr)⟩

theorem load_arithmetic_exact_pausing :
    ∃ rs, mainLoop idleConnection 5 pausingFlows = .ok rs ∧
      ∀ (n : ℕ) (i : Surroundings) (r : Iteration), pausingFlows[n]? = some i →
        rs[n]? = some r → r.AddsExactly ∧ r.LoadsExact i.previousKey := by
  have hrun : returns (mainLoop idleConnection 5 pausingFlows) (fun rs => decide (
      (∀ key ∈ (statsOf rs).map fiveTupleOf, (countersOf key (statsOf rs)).Pairwise (· ≤ ·)) ∧
      (∀ n < rs.length, ∀ r ∈ rs[n]?, (r.after.map.hashmap.keys.map
        (latestCounter (statsOf (rs.take (n + 1))))).sum < 2 ^ 64) ∧
      ∀ r ∈ rs, default ∉ r.after.map.hashmap.keys)) = true := by
    decide +kernel
  obtain ⟨rs, hrs, htest⟩ := exists_of_returns hrun
  obtain ⟨hsorted, hsums, hkeys⟩ := of_decide_eq_true htest
  refine ⟨rs, hrs, load_arithmetic_exact hrs (neverDecrease_of_occurring hsorted) ?_ ?_⟩
  · intro n r hr
    exact hsums n (List.getElem?_eq_some_iff.mp hr).1 r hr
  · intro n i r hi hr
    have hprevious : ∀ i ∈ pausingFlows, i.previousKey = default := by
      simp [pausingFlows, answering]
    rw [hprevious i (List.mem_of_getElem? hi)]
    exact hkeys r (List.mem_of_getElem? hr)

end Runs

end OrssNic
