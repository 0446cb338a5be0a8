import Mathlib

/-!
# The window of a ring

`size` cells that are written round and round. With the cursor on the cell
written last, the latest values lie behind it: going back from the cursor one
meets them newest first, until the ring closes.
-/

namespace CRing

variable {α : Type*} {size : ℕ} {cells : ℤ → α} {cursor : ℤ} {recents : List α} {value : α}

/-- The slot `k` steps behind the cursor. -/
def slot (size : ℕ) (cursor : ℤ) (k : ℕ) : ℤ := (cursor - k) % size

/-- The latest values, newest first, lie behind the cursor. -/
def Window (size : ℕ) (cells : ℤ → α) (cursor : ℤ) (recents : List α) : Prop :=
  ∀ k (h : k < recents.length), k < size → cells (slot size cursor k) = recents[k]

theorem slot_bounds (hsize : 0 < size) (cursor : ℤ) (k : ℕ) :
    0 ≤ slot size cursor k ∧ slot size cursor k < size := by
  have hpos : (0 : ℤ) < size := by exact_mod_cast hsize
  exact ⟨Int.emod_nonneg _ (ne_of_gt hpos), Int.emod_lt_of_pos _ hpos⟩

theorem slot_zero (h : 0 ≤ cursor) (hlt : cursor < size) : slot size cursor 0 = cursor := by
  rw [slot, Nat.cast_zero, sub_zero, Int.emod_eq_of_lt h hlt]

theorem slot_succ (cursor : ℤ) (k : ℕ) :
    slot size cursor (k + 1) = (slot size cursor k - 1) % size := by
  rw [slot, slot, Int.emod_sub_emod, Nat.cast_add, Nat.cast_one, sub_add_eq_sub_sub]

/-- The truncating remainder of a step back, with -1 patched to the last cell. -/
theorem tmod_step_back (hsize : 0 < size) (h : 0 ≤ cursor) (hlt : cursor < size) :
    (if (cursor - 1).tmod size < 0 then (size : ℤ) - 1 else (cursor - 1).tmod size) =
      (cursor - 1) % size := by
  rcases h.eq_or_lt with rfl | hpos
  · rcases Nat.lt_or_ge 1 size with hone | hone
    · have htmod : (0 - 1 : ℤ).tmod size = -1 := by
        rw [zero_sub, Int.neg_tmod, Int.tmod_eq_of_lt (by omega) (by omega)]
      rw [htmod, if_pos (by omega), zero_sub, ← Int.add_emod_right,
        Int.emod_eq_of_lt (by omega) (by omega)]
      ring
    · obtain rfl : size = 1 := by omega
      rfl
  · have htmod : (cursor - 1).tmod size = cursor - 1 :=
      Int.tmod_eq_of_lt (by omega) (by omega)
    rw [htmod, if_neg (by omega), Int.emod_eq_of_lt (by omega) (by omega)]

theorem Window.nil : Window size cells cursor [] := fun _ h => absurd h (Nat.not_lt_zero _)

/-- The write moves the cursor on, so that every older value is one step further
behind it; the cell it takes is the one that falls out of the window. -/
theorem Window.push (hwindow : Window size cells cursor recents) :
    Window size (Function.update cells ((cursor + 1) % size) value) ((cursor + 1) % size)
      (value :: recents) := by
  intro k hk hlt
  cases k with
  | zero =>
    rw [slot, Nat.cast_zero, sub_zero, Int.emod_emod, Function.update_self, List.getElem_cons_zero]
  | succ k =>
    have hslot : slot size ((cursor + 1) % size) (k + 1) = slot size cursor k := by
      rw [slot, slot, Int.emod_sub_emod]
      congr 1
      rw [Nat.cast_add, Nat.cast_one]
      ring
    have hne : slot size cursor k ≠ (cursor + 1) % size := by
      intro heq
      rw [slot, Int.emod_eq_emod_iff_emod_sub_eq_zero, ← Int.dvd_iff_emod_eq_zero,
        ← Int.dvd_neg] at heq
      have := Int.le_of_dvd (by omega) heq
      omega
    rw [hslot, Function.update_of_ne hne, List.getElem_cons_succ]
    exact hwindow k _ (by omega)

end CRing
