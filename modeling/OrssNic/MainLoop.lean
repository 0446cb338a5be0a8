import OrssNic.Balancer
import OrssNic.OpenflowFlows
import OrssNic.OpenflowControl
import OrssNic.Library.Runs

/-!
# The main loop (`main.c`)

One iteration of the loop of `main`, with the socket's behaviour and the
uninitialised locals of that iteration as its input, and runs of any number of
iterations. The signal handler only ends the loop between two iterations, and
`sleep` has no effect on the state.
-/

namespace OrssNic
open CLoops CRuns

def applyMigration (fd : Socket) (transactionId : UInt32) (migration : Migration) :
    Socket × UInt32 :=
  openflowModVlan fd transactionId migration.key (UInt16.ofNat migration.destinationCore)

def applyMigrations (fd : Socket) (transactionId : UInt32) (migrations : List Migration) :
    Socket × UInt32 :=
  migrations.foldl (fun s migration => applyMigration s.1 s.2 migration) (fd, transactionId)

def fiveTupleOf (stats : OpenflowFlowStats) : FiveTuple where
  srcIp := stats.match.nwSrc
  dstIp := stats.match.nwDst
  srcPort := stats.match.tpSrc
  dstPort := stats.match.tpDst
  proto := stats.match.nwProto

def getOrNew (map : MapState) (key : FiveTuple) : Except Halt (Ref × MapState) := do
  match ← hashmapGet map.hashmap key with
  | some ringBuffer => return (ringBuffer, map)
  | none =>
    let (ringBuffer, hashmap, heap) ← hashmapNew map.hashmap map.heap key
    return (ringBuffer, ⟨hashmap, heap⟩)

def sampleStep (flows : OpenflowFlows) (i : ℕ) (map : MapState) : Except Halt MapState := do
  let stats ← readAt .outOfBounds flows.flowStats i
  let (ringBuffer, map) ← getOrNew map (fiveTupleOf stats)
  let sample := openflowOvsbe64ToUint64 stats.packetCount
  return { map with
    heap := map.heap.write ringBuffer (ringbufferAdd (map.heap.cell ringBuffer) sample) }

def getMigrations (flows : OpenflowFlows) (map : MapState) (previousKey : FiveTuple)
    (migrations : List Migration) : Except Halt (MapState × List Migration) := do
  let map ← forLoop (sampleStep flows) flows.nbFlows.toNat map
  let (heap, migrations) ← balancerBalance map.hashmap map.heap previousKey NB_CORES migrations
  return (⟨map.hashmap, heap⟩, migrations)

structure MainState where
  connection : OpenflowConnection
  transactionId : UInt32
  map : MapState
  payloads : Heap ActionPayload

/-- What one iteration meets: the bytes that arrive, the outcomes of its reads
and writes, and the uninitialised locals of its calls. -/
structure Surroundings where
  arrived : List UInt8
  reads : List (Option ℕ)
  writes : List Bool
  stack : ℕ → OpenflowMessage
  stack' : ℕ → OpenflowMessage
  previousKey : FiveTuple

def OpenflowConnection.meets (connection : OpenflowConnection) (i : Surroundings) :
    OpenflowConnection :=
  { connection with fd := { connection.fd with
      stream := connection.fd.stream ++ i.arrived
      reads := i.reads
      writes := i.writes } }

/-- An iteration with its locals `flows`, as `get_migrations` sees it, and `migrations`. -/
structure Iteration where
  before : MainState
  flows : OpenflowFlows
  migrations : List Migration
  after : MainState

def iteration (s : MainState) (i : Surroundings) : Except Halt Iteration := do
  let connection ← openflowControl (s.connection.meets i)
  let r ← openflowGetFlows connection s.transactionId i.stack .zeroed s.payloads
  let r ← openflowGetFlows r.connection r.transactionId i.stack' r.flows r.payloads
  let (map, migrations) ← getMigrations r.flows s.map i.previousKey []
  let (fd, transactionId) := applyMigrations r.connection.fd r.transactionId migrations
  let (_, payloads) ← openflowFreeFlows r.flows r.payloads
  let (hashmap, heap) := hashmapCleanupInactiveFlows map.hashmap map.heap
  return {
    before := s
    flows := r.flows
    migrations := migrations
    after := ⟨{ r.connection with fd := fd }, transactionId, ⟨hashmap, heap⟩, payloads⟩ }

theorem iteration_ok {s : MainState} {i : Surroundings} {r : Iteration}
    (h : iteration s i = .ok r) :
    ∃ connection r₁ r₂ map migrations freed,
      openflowControl (s.connection.meets i) = .ok connection ∧
      openflowGetFlows connection s.transactionId i.stack .zeroed s.payloads = .ok r₁ ∧
      openflowGetFlows r₁.connection r₁.transactionId i.stack' r₁.flows r₁.payloads = .ok r₂ ∧
      getMigrations r₂.flows s.map i.previousKey [] = .ok (map, migrations) ∧
      openflowFreeFlows r₂.flows r₂.payloads = .ok freed ∧
      r = {
        before := s
        flows := r₂.flows
        migrations := migrations
        after := ⟨{ r₂.connection with
            fd := (applyMigrations r₂.connection.fd r₂.transactionId migrations).1 },
          (applyMigrations r₂.connection.fd r₂.transactionId migrations).2,
          ⟨(hashmapCleanupInactiveFlows map.hashmap map.heap).1,
            (hashmapCleanupInactiveFlows map.hashmap map.heap).2⟩, freed.2⟩ } := by
  obtain ⟨connection, hcontrol, h⟩ := bind_eq_ok.mp h
  obtain ⟨r₁, hfirst, h⟩ := bind_eq_ok.mp h
  obtain ⟨r₂, hsecond, h⟩ := bind_eq_ok.mp h
  obtain ⟨⟨map, migrations⟩, hget, h⟩ := bind_eq_ok.mp h
  obtain ⟨freed, hfree, h⟩ := bind_eq_ok.mp h
  cases h
  exact ⟨connection, r₁, r₂, map, migrations, freed, hcontrol, hfirst, hsecond, hget, hfree, rfl⟩

/-- The state in front of the loop. The record of the writes starts here. -/
def MainState.start (connection : OpenflowConnection) (transactionId : UInt32) : MainState where
  connection := { connection with fd := { connection.fd with sent := [], failed := [] } }
  transactionId := transactionId
  map := ⟨hashmapInit, Heap.empty⟩
  payloads := Heap.empty

def mainLoop (connection : OpenflowConnection) (transactionId : UInt32)
    (inputs : List Surroundings) : Except Halt (List Iteration) :=
  trace iteration Iteration.after inputs (.start connection transactionId)

end OrssNic
