import OrssNic.Library.Placement

/-!
# Items that are too heavy to balance

An item that outweighs all others together is the only one that greedy moves
ever touch: it wanders between the places that the others load least, and the
others stay where they are. Near balance is out of reach for much less.
-/

namespace Placement

universe u v
variable {κ : Type u} {ι : Type v} [DecidableEq κ] [DecidableEq ι]
variable {items : Finset κ} {places : Finset ι} {w : κ → ℕ} {A : κ → ι} {k j : κ} {b c : ι}

structure Dominates (items : Finset κ) (w : κ → ℕ) (k : κ) : Prop where
  item : k ∈ items
  heavy : ∑ j ∈ items.erase k, w j < w k

theorem dominates_iff (hk : k ∈ items) : Dominates items w k ↔ ∑ j ∈ items, w j < 2 * w k := by
  have hsum := Finset.sum_erase_add items w hk
  constructor
  · intro h
    have hheavy := h.heavy
    omega
  · intro h
    exact ⟨hk, by omega⟩

omit [DecidableEq κ] in
theorem weight_le_load (hk : k ∈ items) : w k ≤ load items w A (A k) :=
  Finset.single_le_sum (fun _ _ => Nat.zero_le _) (Finset.mem_filter.mpr ⟨hk, rfl⟩)

theorem load_erase_of_ne (hc : c ≠ A k) : load items w A c = load (items.erase k) w A c := by
  apply Finset.sum_congr _ fun _ _ => rfl
  rw [Finset.filter_erase, Finset.erase_eq_of_notMem]
  exact fun hmem => hc (Finset.mem_filter.mp hmem).2.symm

theorem load_erase_le_sum (c : ι) : load (items.erase k) w A c ≤ ∑ j ∈ items.erase k, w j :=
  Finset.sum_le_sum_of_subset (Finset.filter_subset _ _)

omit [DecidableEq κ] in
theorem load_congr {A' : κ → ι} (h : ∀ j ∈ items, A j = A' j) (c : ι) :
    load items w A c = load items w A' c := by
  apply Finset.sum_congr _ fun _ _ => rfl
  apply Finset.filter_congr
  intro j hj
  rw [h j hj]

theorem sum_eq_of_support {items' : Finset κ} {f : κ → ℕ} (h : ∀ k ∉ items, f k = 0)
    (h' : ∀ k ∉ items', f k = 0) : ∑ k ∈ items, f k = ∑ k ∈ items', f k := by
  rw [Finset.sum_subset Finset.subset_union_left fun k _ hk => h k hk,
    Finset.sum_subset Finset.subset_union_right fun k _ hk => h' k hk]

theorem load_eq_of_support {items' : Finset κ} (h : ∀ k ∉ items, w k = 0)
    (h' : ∀ k ∉ items', w k = 0) (c : ι) : load items w A c = load items' w A c := by
  rw [load, load, Finset.sum_filter, Finset.sum_filter]
  apply sum_eq_of_support
  · intro k hk
    rw [h k hk, ite_self]
  · intro k hk
    rw [h' k hk, ite_self]

namespace Dominates

theorem le_of_ne (h : Dominates items w k) (hj : j ∈ items) (hne : j ≠ k) : w j < w k :=
  (Finset.single_le_sum (fun _ _ => Nat.zero_le _) (Finset.mem_erase.mpr ⟨hne, hj⟩)).trans_lt
    h.heavy

/-- The place of the dominating item is the only most loaded one. -/
theorem load_lt (h : Dominates items w k) (hc : c ≠ A k) :
    load items w A c < load items w A (A k) := by
  rw [load_erase_of_ne hc]
  exact ((load_erase_le_sum c).trans_lt h.heavy).trans_le (weight_le_load h.item)

theorem moved (h : Dominates items w k) (hplaced : A k ∈ places)
    (hm : GreedyMove items places w A j b) : j = k := by
  by_contra hne
  by_cases hplace : A j = A k
  · exact absurd (hm.heaviest k h.item hplace.symm) (not_le.mpr (h.le_of_ne hm.item hne))
  · exact absurd (hm.most (A k) hplaced) (not_le.mpr (h.load_lt hplace))

theorem run (h : Dominates items w k) {moves : List (κ × ι)} (hplaced : ∀ j ∈ items, A j ∈ places)
    (hr : GreedyRun items places w A moves) : ∀ m ∈ moves, m.1 = k := by
  induction moves generalizing A with
  | nil =>
    intro m hm
    cases hm
  | cons m moves ih =>
    rw [List.forall_mem_cons]
    exact ⟨h.moved (hplaced k h.item) hr.1, ih (hr.1.mapsTo hplaced) hr.2⟩

end Dominates

omit [DecidableEq ι] in
theorem replay_of_forall_eq {moves : List (κ × ι)} (h : ∀ m ∈ moves, m.1 = k) (hj : j ≠ k) :
    replay A moves j = A j := by
  have hnone : lastMove moves j = none :=
    lastMove_eq_none_iff.mpr fun m hm => (h m hm).trans_ne hj.symm
  rw [replay_eq_lastMove, hnone, Option.getD_none]

/-- Where the dominating item goes: of the places that it is not on, the one
that the others, which have not moved, load least. -/
theorem Dominates.target (h : Dominates items w k) {moves moves' : List (κ × ι)} {m : κ × ι}
    (hplaced : ∀ j ∈ items, A j ∈ places)
    (hr : GreedyRun items places w A (moves ++ m :: moves')) :
    m.2 ∈ places ∧ m.2 ≠ replay A moves k ∧ ∀ c ∈ places, c ≠ replay A moves k →
      load (items.erase k) w A m.2 ≤ load (items.erase k) w A c := by
  have hall := h.run hplaced hr
  rw [List.forall_mem_append, List.forall_mem_cons] at hall
  have hm := hr.split
  rw [hall.2.1] at hm
  have hothers : ∀ c, load (items.erase k) w (replay A moves) c =
      load (items.erase k) w A c := by
    apply load_congr
    intro j hj
    exact replay_of_forall_eq hall.1 (Finset.ne_of_mem_erase hj)
  refine ⟨hm.target, hm.ne, fun c hc hne => ?_⟩
  rw [← hothers, ← hothers, ← load_erase_of_ne hm.ne, ← load_erase_of_ne hne]
  exact hm.least c hc

end Placement
