import Mathlib

/-!
# A typed heap with fresh allocation

Blocks of one type are named by the order of their allocation, so that every
`calloc` returns a block nobody else holds. Freeing leaves the contents alone
and only records the block; whether a freed block is used again, or freed
twice, is read off the record.
-/

universe u

/-- The name of a heap block. -/
abbrev Ref := ℕ

structure Heap (α : Type u) where
  next : ℕ
  cell : Ref → α
  freed : List Ref

namespace Heap
variable {α : Type u}

def empty [Inhabited α] : Heap α := ⟨0, fun _ => default, []⟩

def ofList [Inhabited α] (l : List α) : Heap α := ⟨l.length, fun r => l.getD r default, []⟩

def alloc (h : Heap α) (a : α) : Ref × Heap α :=
  (h.next, ⟨h.next + 1, Function.update h.cell h.next a, h.freed⟩)

def write (h : Heap α) (r : Ref) (a : α) : Heap α :=
  { h with cell := Function.update h.cell r a }

def free (h : Heap α) (r : Ref) : Heap α :=
  { h with freed := h.freed ++ [r] }

@[simp] theorem alloc_ref (h : Heap α) (a : α) : (h.alloc a).1 = h.next := rfl

@[simp] theorem alloc_next (h : Heap α) (a : α) : (h.alloc a).2.next = h.next + 1 := rfl

@[simp] theorem alloc_cell_new (h : Heap α) (a : α) : (h.alloc a).2.cell h.next = a := by
  simp [alloc]

theorem alloc_cell (h : Heap α) (a : α) :
    (h.alloc a).2.cell = Function.update h.cell h.next a := rfl

theorem alloc_cell_of_lt (h : Heap α) (a : α) {r : Ref} (hr : r < h.next) :
    (h.alloc a).2.cell r = h.cell r := by
  simp [alloc, Function.update_of_ne (Nat.ne_of_lt hr)]

@[simp] theorem write_next (h : Heap α) (r : Ref) (a : α) : (h.write r a).next = h.next := rfl

@[simp] theorem write_cell_self (h : Heap α) (r : Ref) (a : α) : (h.write r a).cell r = a := by
  simp [write]

theorem write_cell (h : Heap α) (r : Ref) (a : α) :
    (h.write r a).cell = Function.update h.cell r a := rfl

theorem write_cell_of_ne (h : Heap α) {r q : Ref} (a : α) (hq : q ≠ r) :
    (h.write r a).cell q = h.cell q := by
  simp [write, Function.update_of_ne hq]

@[simp] theorem free_next (h : Heap α) (r : Ref) : (h.free r).next = h.next := rfl

@[simp] theorem free_cell (h : Heap α) (r : Ref) : (h.free r).cell = h.cell := rfl

end Heap
