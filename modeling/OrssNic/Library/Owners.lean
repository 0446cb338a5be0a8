import OrssNic.Library.Heap

/-!
# Owners of heap blocks

A block has one owner until it is freed. `OwnedBy` says so of a whole heap in
one permutation: the owners and the freed blocks together are the blocks that
were allocated, each once. `load` and `release` are the checked accesses, which
stop at a block that is not alive.
-/

universe u

namespace Heap
variable {ε : Type*} {α : Type u} {h : Heap α} {r : Ref} {owners owners' : List Ref}

def Alive (h : Heap α) (r : Ref) : Prop := r < h.next ∧ r ∉ h.freed

instance (h : Heap α) (r : Ref) : Decidable (h.Alive r) := inferInstanceAs (Decidable (_ ∧ _))

def load (fault : ε) (h : Heap α) (r : Ref) : Except ε α :=
  if h.Alive r then .ok (h.cell r) else .error fault

def release (fault : ε) (h : Heap α) (r : Ref) : Except ε (Heap α) :=
  if h.Alive r then .ok (h.free r) else .error fault

theorem load_of_alive {fault : ε} (hr : h.Alive r) : h.load fault r = .ok (h.cell r) :=
  if_pos hr

theorem release_of_alive {fault : ε} (hr : h.Alive r) : h.release fault r = .ok (h.free r) :=
  if_pos hr

@[simp] theorem free_freed (h : Heap α) (r : Ref) : (h.free r).freed = h.freed ++ [r] := rfl

@[simp] theorem alloc_freed (h : Heap α) (a : α) : (h.alloc a).2.freed = h.freed := rfl

theorem alloc_write (h : Heap α) (a b : α) : (h.alloc a).2.write h.next b = (h.alloc b).2 := by
  simp only [alloc, write, Function.update_idem]

def OwnedBy (h : Heap α) (owners : List Ref) : Prop :=
  (owners ++ h.freed).Perm (List.range h.next)

namespace OwnedBy

theorem empty [Inhabited α] : OwnedBy (Heap.empty : Heap α) [] := List.Perm.refl []

theorem perm (h' : h.OwnedBy owners) (hp : owners'.Perm owners) : h.OwnedBy owners' :=
  (hp.append_right h.freed).trans h'

theorem nodup (ho : h.OwnedBy owners) : (owners ++ h.freed).Nodup :=
  ho.nodup_iff.mpr List.nodup_range

theorem lt_next (ho : h.OwnedBy owners) (hr : r ∈ owners) : r < h.next :=
  List.mem_range.mp (ho.mem_iff.mp (List.mem_append_left _ hr))

theorem alive (ho : h.OwnedBy owners) (hr : r ∈ owners) : h.Alive r := by
  refine ⟨ho.lt_next hr, fun hfreed => ?_⟩
  exact (List.nodup_append.mp ho.nodup).2.2 r hr r hfreed rfl

theorem alloc (ho : h.OwnedBy owners) (a : α) : (h.alloc a).2.OwnedBy (owners ++ [h.next]) := by
  have hmove : (owners ++ [h.next] ++ h.freed).Perm (owners ++ h.freed ++ [h.next]) := by
    rw [List.append_assoc, List.append_assoc]
    exact List.perm_append_comm.append_left owners
  rw [OwnedBy, alloc_next, alloc_freed, List.range_succ]
  exact hmove.trans (ho.append_right [h.next])

theorem free (ho : h.OwnedBy (r :: owners)) : (h.free r).OwnedBy owners := by
  rw [OwnedBy, free_freed, free_next, ← List.append_assoc]
  exact (List.perm_append_singleton r (owners ++ h.freed)).trans ho

theorem count_blocks (ho : h.OwnedBy owners) : owners.length + h.freed.length = h.next := by
  have hlength := List.Perm.length_eq ho
  rwa [List.length_append, List.length_range] at hlength

end OwnedBy

end Heap
