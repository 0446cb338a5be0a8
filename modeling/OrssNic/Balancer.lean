import OrssNic.HashMap

/-!
# The load balancer (`balancer.c`)

A core keeps its flows in two parallel arrays, used up to `nbFlows`, with a
cached load and the index of a heaviest flow. The ring buffers are shared with
the map through the heap. Core pointers are indices into the array of cores, so
that the two arguments of `balancerMigrate` may be the same core.
-/

namespace OrssNic
open CLoops

structure CoreLoad where
  coreIdx : UInt8
  load : UInt64
  biggestLoadIdx : ℕ
  nbFlows : ℕ
  flows : List Ref
  flowKeys : List FiveTuple

def CoreLoad.zeroed : CoreLoad :=
  ⟨0, 0, 0, 0, List.replicate HASHMAP_SIZE 0, List.replicate HASHMAP_SIZE default⟩

abbrev Repartition := List CoreLoad

structure Migration where
  key : FiveTuple
  destinationCore : ℕ
  deriving DecidableEq, Repr

structure LoadSum where
  load : UInt64
  biggestLoadIdx : ℕ
  biggestLoad : UInt64

def loadSumStep (heap : Heap RingBuffer) (flows : List Ref) (j : ℕ) (s : LoadSum) :
    Except Halt LoadSum := do
  let flow ← readAt .outOfBounds flows j
  let currentLoad := ringbufferGetLast (heap.cell flow)
  let load := s.load + currentLoad
  if s.biggestLoad < currentLoad then
    return ⟨load, j, currentLoad⟩
  return ⟨load, s.biggestLoadIdx, s.biggestLoad⟩

def balancerUpdateCoreInfo (heap : Heap RingBuffer) (core : CoreLoad) : Except Halt CoreLoad := do
  let s ← forLoop (loadSumStep heap core.flows) core.nbFlows ⟨0, 0, 0⟩
  return { core with load := s.load, biggestLoadIdx := s.biggestLoadIdx }

def addFlow (core : CoreLoad) (key : FiveTuple) (flow : Ref) : Except Halt CoreLoad := do
  let flowKeys ← writeAt .outOfBounds core.flowKeys core.nbFlows key
  let flows ← writeAt .outOfBounds core.flows core.nbFlows flow
  return { core with flowKeys := flowKeys, flows := flows, nbFlows := core.nbFlows + 1 }

def repartitionStep (hashmap : HashMap) (heap : Heap RingBuffer) (s : FiveTuple × Repartition) :
    Except Halt (Option (FiveTuple × Repartition)) := do
  let (previousKey, coreLoad) := s
  match ← hashmapGetNext hashmap previousKey with
  | none => return none
  | some (currentKey, value) =>
    let c := (heap.cell value).assignedCore.toNat
    let core ← readAt .outOfBounds coreLoad c
    if HASHMAP_SIZE < core.nbFlows then
      throw .coreFull
    let core ← addFlow core currentKey value
    return some (currentKey, coreLoad.set c core)

def coreInfoStep (heap : Heap RingBuffer) (i : ℕ) (coreLoad : Repartition) :
    Except Halt Repartition := do
  let core ← readAt .outOfBounds coreLoad i
  let core ← balancerUpdateCoreInfo heap { core with coreIdx := UInt8.ofNat i }
  return coreLoad.set i core

/-- `previousKey` is the content of the uninitialised local variable. The budget
suffices for every map: each pass fills a cell of one of the cores. -/
def balancerComputeRepartition (hashmap : HashMap) (heap : Heap RingBuffer)
    (previousKey : FiveTuple) (nbCores : UInt8) : Except Halt Repartition := do
  let coreLoad := List.replicate nbCores.toNat CoreLoad.zeroed
  let (_, coreLoad) ← whileLoop .diverges (repartitionStep hashmap heap)
    (nbCores.toNat * HASHMAP_SIZE + 1) (previousKey, coreLoad)
  forLoop (coreInfoStep heap) nbCores.toNat coreLoad

def removeBiggest (core : CoreLoad) : Except Halt (FiveTuple × Ref × CoreLoad) := do
  let flow ← readAt .outOfBounds core.flows core.biggestLoadIdx
  let key ← readAt .outOfBounds core.flowKeys core.biggestLoadIdx
  -- From 0, `nb_flows--` gives -1 and the next read is in front of the array.
  if core.nbFlows = 0 then
    throw .outOfBounds
  let nbFlows := core.nbFlows - 1
  let lastFlow ← readAt .outOfBounds core.flows nbFlows
  let flows ← writeAt .outOfBounds core.flows core.biggestLoadIdx lastFlow
  let lastKey ← readAt .outOfBounds core.flowKeys nbFlows
  let flowKeys ← writeAt .outOfBounds core.flowKeys core.biggestLoadIdx lastKey
  return (key, flow, { core with nbFlows := nbFlows, flows := flows, flowKeys := flowKeys })

def updateCoreAt (heap : Heap RingBuffer) (coreLoad : Repartition) (i : ℕ) :
    Except Halt Repartition := do
  let core ← readAt .outOfBounds coreLoad i
  let core ← balancerUpdateCoreInfo heap core
  return coreLoad.set i core

def balancerMigrate (heap : Heap RingBuffer) (coreLoad : Repartition) (bigCore smallCore : ℕ) :
    Except Halt (Heap RingBuffer × Repartition × Migration) := do
  let big ← readAt .outOfBounds coreLoad bigCore
  let (key, flow, big) ← removeBiggest big
  let coreLoad := coreLoad.set bigCore big
  let small ← readAt .outOfBounds coreLoad smallCore
  let small ← addFlow small key flow
  let coreLoad := coreLoad.set smallCore small
  let heap := heap.write flow { heap.cell flow with assignedCore := small.coreIdx }
  let coreLoad ← updateCoreAt heap coreLoad bigCore
  let coreLoad ← updateCoreAt heap coreLoad smallCore
  return (heap, coreLoad, ⟨key, small.coreIdx.toNat⟩)

/-- The quotient of two `uint64_t` in `long double`, read as an exact rational. -/
inductive LongDouble
  | nan
  | infinity
  | finite (q : ℚ)

namespace LongDouble

def div (x y : UInt64) : LongDouble :=
  if y = 0 then if x = 0 then nan else infinity else finite (x.toNat / y.toNat)

def gt : LongDouble → ℚ → Bool
  | nan, _ => false
  | infinity, _ => true
  | finite q, t => decide (t < q)

def lt : LongDouble → ℚ → Bool
  | nan, _ => false
  | infinity, _ => false
  | finite q, t => decide (q < t)

end LongDouble

structure LoadScan where
  averageLoad : UInt64
  biggestLoad : UInt64
  smallestLoad : UInt64
  biggestLoadIdx : ℕ
  smallestLoadIdx : ℕ

def LoadScan.visit (s : LoadScan) (i : ℕ) (load : UInt64) : LoadScan where
  averageLoad := s.averageLoad + load
  biggestLoad := if s.biggestLoad < load then load else s.biggestLoad
  biggestLoadIdx := if s.biggestLoad < load then i else s.biggestLoadIdx
  smallestLoad := if load < s.smallestLoad then load else s.smallestLoad
  smallestLoadIdx := if load < s.smallestLoad then i else s.smallestLoadIdx

def scanStep (coreLoad : Repartition) (i : ℕ) (s : LoadScan) : Except Halt LoadScan := do
  let core ← readAt .outOfBounds coreLoad i
  return s.visit i core.load

def scanLoads (coreLoad : Repartition) (nbCores : ℕ) : Except Halt LoadScan := do
  let s ← forLoop (scanStep coreLoad) nbCores ⟨0, 0, UInt64.ofNat (2 ^ 64 - 1), 0, 0⟩
  return { s with averageLoad := s.averageLoad / UInt64.ofNat nbCores }

/-- `&&` binds tighter than `||`. -/
def LoadScan.imbalanced (s : LoadScan) : Bool :=
  (LongDouble.div s.biggestLoad s.averageLoad).gt (1 + IMBALANCE_THRESHOLD) ||
    ((LongDouble.div s.smallestLoad s.averageLoad).lt (1 - IMBALANCE_THRESHOLD) &&
      decide (0 < s.averageLoad))

structure BalanceState where
  heap : Heap RingBuffer
  coreLoad : Repartition
  migrations : List Migration

/-- One pass of the `while` of `balancer_balance`; `nb_migrations` is the length
of the list of migrations. -/
def balanceStep (nbCores : ℕ) (s : BalanceState) : Except Halt (Option BalanceState) := do
  if s.migrations.length < MAX_REBALANCE_ITERATIONS then
    let scan ← scanLoads s.coreLoad nbCores
    if scan.imbalanced then
      let (heap, coreLoad, migration) ←
        balancerMigrate s.heap s.coreLoad scan.biggestLoadIdx scan.smallestLoadIdx
      return some ⟨heap, coreLoad, s.migrations ++ [migration]⟩
    return none
  return none

/-- Only the pointers that the printing follows matter. -/
def balancerPrintMigrations (hashmap : HashMap) : List Migration → Except Halt Unit
  | [] => .ok ()
  | migration :: migrations => do
    match ← hashmapGet hashmap migration.key with
    | none => throw .nullPointer
    | some _ => balancerPrintMigrations hashmap migrations

def balancerBalance (hashmap : HashMap) (heap : Heap RingBuffer) (previousKey : FiveTuple)
    (nbCores : ℕ) (migrations : List Migration) :
    Except Halt (Heap RingBuffer × List Migration) := do
  let coreLoad ← balancerComputeRepartition hashmap heap previousKey (UInt8.ofNat nbCores)
  let s ← whileLoop .diverges (balanceStep nbCores) (MAX_REBALANCE_ITERATIONS + 1)
    ⟨heap, coreLoad, migrations⟩
  balancerPrintMigrations hashmap s.migrations
  return (s.heap, s.migrations)

end OrssNic
