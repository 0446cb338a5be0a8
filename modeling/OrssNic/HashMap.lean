import OrssNic.RingBuffer

/-!
# The flow table (`hashmap.c`)

A `HashMap` is a block of `HASHMAP_SIZE` slots and a count of the valid ones;
the count is the only bound of the scan of `hashmapContains`. The values are
pointers to ring buffers, that is, heap references. `none` is the null pointer
that `hashmap_get` returns, and the 0 that `hashmap_get_next` returns together
with a zeroed key and a null value.
-/

namespace OrssNic
open CLoops

structure FiveTuple where
  srcIp : UInt32
  dstIp : UInt32
  srcPort : UInt16
  dstPort : UInt16
  proto : UInt8
  deriving DecidableEq, Repr, Inhabited

structure KeyValuePair where
  valid : Bool
  key : FiveTuple
  value : Ref
  deriving Inhabited

structure HashMap where
  map : List KeyValuePair
  size : ℤ
  allocated : map.length = HASHMAP_SIZE

structure MapState where
  hashmap : HashMap
  heap : Heap RingBuffer

def hashmapInit : HashMap where
  map := List.replicate HASHMAP_SIZE default
  size := 0
  allocated := List.length_replicate

def fiveTupleEquals (a b : FiveTuple) : Bool :=
  a.srcIp == b.srcIp && a.dstIp == b.dstIp && a.srcPort == b.srcPort &&
    a.dstPort == b.dstPort && a.proto == b.proto

/-- The loop of `hashmap_contains` from slot `iterator` on, whose slots are the
given list. Running off the list is a read past the allocated block. -/
def containsFrom (size : ℤ) (key : FiveTuple) :
    List KeyValuePair → (iterator itemCount : ℕ) → Except Halt ℤ
  | [], _, itemCount => if (itemCount : ℤ) < size then .error .outOfBounds else .ok (-1)
  | slot :: slots, iterator, itemCount =>
    if (itemCount : ℤ) < size then
      if slot.valid then
        if fiveTupleEquals slot.key key then .ok iterator
        else containsFrom size key slots (iterator + 1) (itemCount + 1)
      else containsFrom size key slots (iterator + 1) itemCount
    else .ok (-1)

def hashmapContains (hashmap : HashMap) (key : FiveTuple) : Except Halt ℤ :=
  containsFrom hashmap.size key hashmap.map 0 0

def hashmapInsertAtIndex (hashmap : HashMap) (index : ℕ) (value : Ref) (key : FiveTuple) :
    HashMap where
  map := hashmap.map.set index ⟨true, key, value⟩
  size := hashmap.size
  allocated := by rw [List.length_set, hashmap.allocated]

def firstFreeFrom : List KeyValuePair → (i : ℕ) → ℤ
  | [], _ => -1
  | slot :: slots, i => if !slot.valid then i else firstFreeFrom slots (i + 1)

def hashmapFirstFreeSlot (hashmap : HashMap) : ℤ :=
  firstFreeFrom hashmap.map 0

def hashmapInsert (hashmap : HashMap) (key : FiveTuple) (value : Ref) : Except Halt HashMap := do
  let index ← hashmapContains hashmap key
  if 0 ≤ index then
    return hashmapInsertAtIndex hashmap index.toNat value key
  let index := hashmapFirstFreeSlot hashmap
  if 0 ≤ index then
    let hashmap := hashmapInsertAtIndex hashmap index.toNat value key
    return { hashmap with size := hashmap.size + 1 }
  throw .hashmapFull

def hashmapGet (hashmap : HashMap) (key : FiveTuple) : Except Halt (Option Ref) := do
  let index ← hashmapContains hashmap key
  if 0 ≤ index then
    let slot ← readAt .outOfBounds hashmap.map index.toNat
    return some slot.value
  return none

def hashmapRemove (hashmap : HashMap) (heap : Heap RingBuffer) (key : FiveTuple) :
    Except Halt (HashMap × Heap RingBuffer) := do
  let index ← hashmapContains hashmap key
  if 0 ≤ index then
    let slot ← readAt .outOfBounds hashmap.map index.toNat
    let map := hashmap.map.set index.toNat { slot with valid := false }
    let heap := ringbufferDestroy heap slot.value
    return (⟨map, hashmap.size - 1, by rw [List.length_set, hashmap.allocated]⟩, heap)
  return (hashmap, heap)

def hashmapNew (hashmap : HashMap) (heap : Heap RingBuffer) (key : FiveTuple) :
    Except Halt (Ref × HashMap × Heap RingBuffer) := do
  let (value, heap) := ringbufferInit heap
  let hashmap ← hashmapInsert hashmap key value
  return (value, hashmap, heap)

def hashmapGetNext (hashmap : HashMap) (currentKey : FiveTuple) :
    Except Halt (Option (FiveTuple × Ref)) := do
  let index ← hashmapContains hashmap currentKey
  let i := (index + 1).toNat
  -- `return 0` stands inside the `for`: its first iteration is also its last.
  if i < HASHMAP_SIZE then
    let slot ← readAt .outOfBounds hashmap.map i
    if slot.valid then
      return some (slot.key, slot.value)
    return none
  throw .missingReturn

def cleanupFrom : List KeyValuePair → ℤ → Heap RingBuffer →
    List KeyValuePair × ℤ × Heap RingBuffer
  | [], size, heap => ([], size, heap)
  | slot :: slots, size, heap =>
    if slot.valid && !(heap.cell slot.value).isActive then
      let rest := cleanupFrom slots (size - 1) (ringbufferDestroy heap slot.value)
      ({ slot with valid := false } :: rest.1, rest.2)
    else
      let rest := cleanupFrom slots size heap
      (slot :: rest.1, rest.2)

theorem cleanupFrom_length (slots : List KeyValuePair) (size : ℤ) (heap : Heap RingBuffer) :
    (cleanupFrom slots size heap).1.length = slots.length := by
  induction slots generalizing size heap with
  | nil => rfl
  | cons slot slots ih =>
    rw [cleanupFrom]
    split_ifs <;> simp [ih]

def hashmapCleanupInactiveFlows (hashmap : HashMap) (heap : Heap RingBuffer) :
    HashMap × Heap RingBuffer :=
  let r := cleanupFrom hashmap.map hashmap.size heap
  (⟨r.1, r.2.1, by rw [cleanupFrom_length, hashmap.allocated]⟩, r.2.2)

end OrssNic
