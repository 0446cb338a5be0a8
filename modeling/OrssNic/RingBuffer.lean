import OrssNic.Env

/-!
# Ring buffers (`ringbuffer.c`)

One ring buffer per flow: the core the flow is assigned to and its last
samples. `pos` and `size` are C `int`s and `%` is the truncating remainder.
-/

namespace OrssNic
open CLoops

structure RingBuffer where
  assignedCore : UInt8
  pos : ℤ
  size : ℤ
  buffer : ℤ → UInt64
  isActive : Bool

/-- The zeroed block of `calloc`. -/
instance : Inhabited RingBuffer := ⟨⟨0, 0, 0, fun _ => 0, false⟩⟩

def ringbufferInit (heap : Heap RingBuffer) : Ref × Heap RingBuffer :=
  heap.alloc { (default : RingBuffer) with assignedCore := 0 }

def ringbufferDestroy (heap : Heap RingBuffer) (rb : Ref) : Heap RingBuffer :=
  heap.free rb

def ringbufferAdd (rb : RingBuffer) (value : UInt64) : RingBuffer :=
  let lastPos := rb.pos
  let newPos := (rb.pos + 1).tmod RING_SIZE
  let stored := if rb.size = 0 then value else value - rb.buffer lastPos
  { rb with
    pos := newPos
    buffer := Function.update rb.buffer newPos stored
    size := if rb.size < RING_SIZE then rb.size + 1 else rb.size
    isActive := true }

def ringbufferGetLast (rb : RingBuffer) : UInt64 :=
  if rb.size = 0 then 0 else rb.buffer rb.pos

structure Averaging where
  i : ℤ
  sum : UInt64
  pos : ℤ

def readBuffer (rb : RingBuffer) (pos : ℤ) : Except Halt UInt64 :=
  if 0 ≤ pos ∧ pos < RING_SIZE then .ok (rb.buffer pos) else .error .outOfBounds

def averageStep (rb : RingBuffer) (count : Int32) (s : Averaging) :
    Except Halt (Option Averaging) := do
  if s.i < count.toInt ∧ s.i < rb.size then
    let value ← readBuffer rb s.pos
    let pos := (s.pos - 1).tmod RING_SIZE
    return some ⟨s.i + 1, s.sum + value, if pos < 0 then RING_SIZE - 1 else pos⟩
  return none

/-- The division turns `count` into an unsigned number. -/
def ringbufferGetAverage (rb : RingBuffer) (count : Int32) : Except Halt UInt64 := do
  if rb.size = 0 then
    return 0
  let s ← whileLoop .diverges (averageStep rb count) (rb.size.toNat + 1) ⟨0, 0, rb.pos⟩
  if count = 0 then
    .error .divisionByZero
  else
    return s.sum / UInt64.ofInt count.toInt

def ringbufferPredictNext (rb : RingBuffer) (count : Int32) : Except Halt UInt64 := do
  if rb.size = 0 then
    return 0
  let last := ringbufferGetLast rb
  let average ← ringbufferGetAverage rb count
  return last + (average - last)

@[simp] theorem ringbufferAdd_isActive (rb : RingBuffer) (value : UInt64) :
    (ringbufferAdd rb value).isActive = true := rfl

@[simp] theorem ringbufferGetLast_assign (rb : RingBuffer) (core : UInt8) :
    ringbufferGetLast { rb with assignedCore := core } = ringbufferGetLast rb := rfl

@[simp] theorem ringbufferInit_ref (heap : Heap RingBuffer) :
    (ringbufferInit heap).1 = heap.next := rfl

@[simp] theorem ringbufferInit_next (heap : Heap RingBuffer) :
    (ringbufferInit heap).2.next = heap.next + 1 := rfl

@[simp] theorem ringbufferInit_cell_new (heap : Heap RingBuffer) :
    (ringbufferInit heap).2.cell heap.next = default := by
  simp [ringbufferInit]
  rfl

theorem ringbufferInit_cell_of_lt (heap : Heap RingBuffer) {r : Ref} (hr : r < heap.next) :
    (ringbufferInit heap).2.cell r = heap.cell r :=
  heap.alloc_cell_of_lt _ hr

@[simp] theorem ringbufferDestroy_cell (heap : Heap RingBuffer) (r : Ref) :
    (ringbufferDestroy heap r).cell = heap.cell := rfl

@[simp] theorem ringbufferDestroy_next (heap : Heap RingBuffer) (r : Ref) :
    (ringbufferDestroy heap r).next = heap.next := rfl

end OrssNic
