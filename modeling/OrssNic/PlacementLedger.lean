import OrssNic.MainInvariant
import OrssNic.OpenflowReply

/-!
# The placement ledger

The `FLOW_MOD`s written so far are a ledger of moves: replayed from core 0, it
gives the assigned cores in the map. An iteration extends the ledger by exactly
the changes of assigned cores that its balancing loop makes, in their order.
-/

namespace OrssNic
open CLoops CRuns Placement

/-- The map agrees with the ledger, for unbound flows on core 0. -/
def Replayed (s : MainState) : Prop :=
  assignment s.map.hashmap s.map.heap = replay (fun _ => 0) (ledger s.connection.fd)

/-- The changes of assigned cores in an iteration, and the writes that tell the
switch of them. `sampled` is the map after the sampling loop, and `s` the end
of the balancing loop. -/
structure Iteration.Emits (r : Iteration) (sampled : MapState) (coreLoad : Repartition)
    (s : BalanceState) : Prop where
  sampling : forLoop (sampleStep r.flows) r.flows.nbFlows.toNat r.before.map = .ok sampled
  /-- Sampling changes no assigned core, and a new flow is on core 0. -/
  unchanged : ∀ key, assignment sampled.hashmap sampled.heap key =
    assignment r.before.map.hashmap r.before.map.heap key
  created : ∀ key ∈ sampled.hashmap.keys, key ∉ r.before.map.hashmap.keys →
    assignment sampled.hashmap sampled.heap key = 0
  computed : ∃ previousKey, balancerComputeRepartition sampled.hashmap sampled.heap previousKey
    (UInt8.ofNat NB_CORES) = .ok coreLoad
  reaches : Reaches (balanceStep NB_CORES) (balanceStart sampled coreLoad) s
  stops : balanceStep NB_CORES s = .ok none
  /-- A step of the loop moves one flow, and appends its migration. -/
  changed : ∀ t t', Reaches (balanceStep NB_CORES) (balanceStart sampled coreLoad) t →
    balanceStep NB_CORES t = .ok (some t') →
    ∃ m : Migration, t'.migrations = t.migrations ++ [m] ∧
      assignment sampled.hashmap t'.heap =
        Function.update (assignment sampled.hashmap t.heap) m.key m.destinationCore
  after : assignment r.after.map.hashmap r.after.map.heap = assignment sampled.hashmap s.heap
  emitted : ledger r.after.connection.fd = ledger r.before.connection.fd ++ moves s.migrations

theorem Replayed.start (connection : OpenflowConnection) (transactionId : UInt32) :
    Replayed (.start connection transactionId) := by
  have hmap : assignment hashmapInit Heap.empty = fun _ => 0 := by
    have h := MapState.assignment_eq_coreOf ⟨hashmapInit, Heap.empty⟩
    rw [MapState.ring_start] at h
    exact h
  exact hmap

namespace Iteration.Iterates
variable {r : Iteration} {sampled : MapState} {flows : List (FiveTuple × Ref)}
variable {coreLoad : Repartition} {s : BalanceState}

theorem sampled_assignment (h : r.Iterates sampled flows coreLoad s) :
    assignment sampled.hashmap sampled.heap =
      assignment r.before.map.hashmap r.before.map.heap := by
  rw [sampled.assignment_eq_coreOf, r.before.map.assignment_eq_coreOf, h.ring,
    coreOf_foldl_sample]

theorem changed (h : r.Iterates sampled flows coreLoad s) {t t' : BalanceState}
    (hreach : Reaches (balanceStep NB_CORES) (balanceStart sampled coreLoad) t)
    (hstep : balanceStep NB_CORES t = .ok (some t')) :
    ∃ m : Migration, t'.migrations = t.migrations ++ [m] ∧
      assignment sampled.hashmap t'.heap =
        Function.update (assignment sampled.hashmap t.heap) m.key m.destinationCore := by
  have ht := Balancing.reaches (by decide) (by decide) h.live.inv h.live.refs h.visited h.cores
    hreach
  rcases balanceStep_cases (by decide) (by decide) (Balancing.refs h.live.refs h.visited)
    (Balancing.length_le h.visited) ht.cores with ⟨hstop, -⟩ | ⟨scan, e, t'', hok, hm, -⟩
  · rw [hstop] at hstep
    cases hstep
  · rw [hok] at hstep
    cases hstep
    have htarget := hm.target_lt ht.cores
    rw [NB_CORES] at htarget
    refine ⟨⟨e.1, scan.smallestLoadIdx⟩, hm.migrations, ?_⟩
    rw [hm.heap, assignment_reassign h.live.inv h.live.refs _ (h.visited.subset hm.mem)
      (by omega)]

theorem emits (h : r.Iterates sampled flows coreLoad s)
    (hwrites : r.after.connection.fd.FlowModsSucceed) :
    r.Emits sampled coreLoad s where
  sampling := h.sampling
  unchanged := congrFun h.sampled_assignment
  created := by
    intro key _ hkey
    rw [h.sampled_assignment, assignment, HashMap.lookup_eq_none.mpr hkey]
  computed := h.computed
  reaches := h.reaches
  stops := h.stops
  changed := fun _ _ => h.changed
  after := by rw [h.after]
  emitted := h.migrations ▸ h.writes.ledger hwrites

theorem replayed (h : r.Iterates sampled flows coreLoad s)
    (hwrites : r.after.connection.fd.FlowModsSucceed) (hbefore : Replayed r.before) :
    Replayed r.after := by
  rw [Replayed, h.writes.ledger hwrites, replay_append, ← hbefore, ← h.sampled_assignment,
    ← h.migrations, ← h.balancing.replayed, h.after]

end Iteration.Iterates

/-- After every iteration of every run: the assigned core of a flow is the tag
of its last `FLOW_MOD`, and the `FLOW_MOD`s are the changes in their order. -/
theorem placement_ledger {connection : OpenflowConnection} {transactionId : UInt32}
    {inputs : List Surroundings} {rs : List Iteration}
    (h : mainLoop connection transactionId inputs = .ok rs) :
    ∀ r ∈ rs, r.after.connection.fd.FlowModsSucceed →
      (∀ e ∈ r.after.map.hashmap.entries, flowCore r.after.map.heap e =
        (lastMove (ledger r.after.connection.fd) e.1).getD 0) ∧
      ∃ sampled coreLoad s, r.Emits sampled coreLoad s := by
  refine trace_forall (P := fun s => s.map.Live ∧
    (s.connection.fd.FlowModsSucceed → Replayed s)) ?_ ⟨.start, fun _ => .start _ _⟩ h
  rintro s i r ⟨hlive, hreplayed⟩ hok
  obtain ⟨rfl, sampled, flows, coreLoad, t, hr⟩ := iteration_spec hlive hok
  have hafter : r.after.connection.fd.FlowModsSucceed → Replayed r.after :=
    fun hwrites => hr.replayed hwrites (hreplayed (hr.writes.failed hwrites))
  refine ⟨fun hwrites => ⟨fun e he => ?_, sampled, coreLoad, t, hr.emits hwrites⟩,
    hr.afterLive, hafter⟩
  rw [← assignment_of_mem hr.afterLive.inv _ he, hafter hwrites, replay_eq_lastMove]

def idleConnection : OpenflowConnection := .ofSocket ⟨[], [], [], [], []⟩

/-- An iteration whose two queries, from `xid` on, get the same answer. -/
def answering (xid : UInt32) (entries : List FlowEntry) : Surroundings where
  arrived := Script.bytes [([], ⟨1, OFPST_FLOW, 0, entries⟩)] xid ++
    Script.bytes [([], ⟨1, OFPST_FLOW, 0, entries⟩)] (xid + 1)
  reads := none :: List.replicate 4 (some 1024)
  writes := []
  stack := fun _ => default
  stack' := fun _ => default
  previousKey := default

/-- Two flows that send, and pause in the second iteration. -/
def pausingFlows : List Surroundings :=
  [answering 5 [taggedEntry 80 100, taggedEntry 443 100],
    answering 17 [taggedEntry 80 100, taggedEntry 443 100]]

theorem placement_ledger_pausing :
    ∃ rs, mainLoop idleConnection 5 pausingFlows = .ok rs ∧ rs.length = 2 ∧ ∀ r ∈ rs,
      (∀ e ∈ r.after.map.hashmap.entries, flowCore r.after.map.heap e =
        (lastMove (ledger r.after.connection.fd) e.1).getD 0) ∧
      ∃ sampled coreLoad s, r.Emits sampled coreLoad s := by
  have hrun : returns (mainLoop idleConnection 5 pausingFlows) (fun rs => decide (rs.length = 2 ∧
      ∀ r ∈ rs, r.after.connection.fd.FlowModsSucceed)) = true := by
    decide +kernel
  obtain ⟨rs, hrs, htest⟩ := exists_of_returns hrun
  obtain ⟨hlength, hwrites⟩ := of_decide_eq_true htest
  exact ⟨rs, hrs, hlength, fun r hr => placement_ledger hrs r hr (hwrites r hr)⟩

end OrssNic
