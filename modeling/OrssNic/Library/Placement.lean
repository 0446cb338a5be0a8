import Mathlib

/-!
# Placements of weighted items and greedy moves

Items of a finite set sit on places; the load of a place is the weight that
sits there. A greedy move takes a heaviest item off a most loaded place and
puts it on another, least loaded one. The last section follows a whole run of
such moves: where the items end up, and how bad the worst place can get.
-/

namespace Placement

universe u v
variable {κ : Type u} {ι : Type v} [DecidableEq κ] [DecidableEq ι]

def load (items : Finset κ) (w : κ → ℕ) (A : κ → ι) (c : ι) : ℕ :=
  ∑ k ∈ items.filter (fun k => A k = c), w k

def replay (A : κ → ι) (moves : List (κ × ι)) : κ → ι :=
  moves.foldl (fun A m => Function.update A m.1 m.2) A

/-- The place an item was last moved to, if it was moved at all. -/
def lastMove (moves : List (κ × ι)) (k : κ) : Option ι :=
  moves.foldl (fun last m => if m.1 = k then some m.2 else last) none

structure GreedyMove (items : Finset κ) (places : Finset ι) (w : κ → ℕ) (A : κ → ι)
    (k : κ) (b : ι) : Prop where
  item : k ∈ items
  heaviest : ∀ j ∈ items, A j = A k → w j ≤ w k
  source : A k ∈ places
  most : ∀ c ∈ places, load items w A c ≤ load items w A (A k)
  target : b ∈ places
  least : ∀ c ∈ places, load items w A b ≤ load items w A c
  ne : b ≠ A k

def GreedyRun (items : Finset κ) (places : Finset ι) (w : κ → ℕ) :
    (κ → ι) → List (κ × ι) → Prop
  | _, [] => True
  | A, m :: moves => GreedyMove items places w A m.1 m.2 ∧
      GreedyRun items places w (Function.update A m.1 m.2) moves

variable {items : Finset κ} {places : Finset ι} {w : κ → ℕ} {A : κ → ι}

/-! ## Loads -/

omit [DecidableEq κ] in
theorem sum_load (h : ∀ k ∈ items, A k ∈ places) :
    ∑ c ∈ places, load items w A c = ∑ k ∈ items, w k :=
  Finset.sum_fiberwise_of_maps_to h w

theorem load_update_target {k : κ} {b : ι} (hk : k ∈ items) (hb : b ≠ A k) :
    load items w (Function.update A k b) b = load items w A b + w k := by
  have hfilter : items.filter (fun j => Function.update A k b j = b) =
      insert k (items.filter fun j => A j = b) := by
    ext j
    by_cases hj : j = k
    · simp [hj, hk]
    · simp [hj]
  rw [load, hfilter, Finset.sum_insert (by simp [hb.symm]), add_comm, load]

theorem load_update_le {k : κ} {b c : ι} (hc : c ≠ b) :
    load items w (Function.update A k b) c ≤ load items w A c := by
  apply Finset.sum_le_sum_of_subset
  intro j hj
  rw [Finset.mem_filter] at hj ⊢
  refine ⟨hj.1, ?_⟩
  by_cases hjk : j = k
  · rw [hjk, Function.update_self] at hj
    exact absurd hj.2.symm hc
  · rw [Function.update_of_ne hjk] at hj
    exact hj.2

omit [DecidableEq κ] in
theorem least_le_average (h : ∀ k ∈ items, A k ∈ places) {b : ι} (hb : b ∈ places)
    (hleast : ∀ c ∈ places, load items w A b ≤ load items w A c) :
    load items w A b ≤ (∑ k ∈ items, w k) / places.card := by
  rw [Nat.le_div_iff_mul_le (Finset.card_pos.mpr ⟨b, hb⟩), ← sum_load h, mul_comm,
    ← smul_eq_mul]
  exact Finset.card_nsmul_le_sum _ _ _ hleast

/-! ## Replaying moves -/

omit [DecidableEq ι] in
@[simp] theorem replay_nil (A : κ → ι) : replay A [] = A := rfl

omit [DecidableEq ι] in
@[simp] theorem replay_cons (A : κ → ι) (m : κ × ι) (moves : List (κ × ι)) :
    replay A (m :: moves) = replay (Function.update A m.1 m.2) moves := rfl

omit [DecidableEq ι] in
theorem replay_concat (A : κ → ι) (moves : List (κ × ι)) (m : κ × ι) :
    replay A (moves ++ [m]) = Function.update (replay A moves) m.1 m.2 := by
  simp [replay]

omit [DecidableEq ι] in
theorem replay_append (A : κ → ι) (moves moves' : List (κ × ι)) :
    replay A (moves ++ moves') = replay (replay A moves) moves' := by
  simp [replay]

omit [DecidableEq ι] in
@[simp] theorem lastMove_nil (k : κ) : lastMove ([] : List (κ × ι)) k = none := rfl

omit [DecidableEq ι] in
theorem lastMove_concat (moves : List (κ × ι)) (m : κ × ι) (k : κ) :
    lastMove (moves ++ [m]) k = if m.1 = k then some m.2 else lastMove moves k := by
  simp [lastMove]

omit [DecidableEq ι] in
theorem lastMove_singleton (m : κ × ι) (k : κ) :
    lastMove [m] k = if m.1 = k then some m.2 else none := rfl

omit [DecidableEq ι] in
theorem replay_eq_lastMove (A : κ → ι) (moves : List (κ × ι)) (k : κ) :
    replay A moves k = (lastMove moves k).getD (A k) := by
  induction moves using List.reverseRecOn with
  | nil => rfl
  | append_singleton moves m ih =>
    rw [replay_concat, lastMove_concat]
    by_cases hk : m.1 = k
    · simp [← hk]
    · rw [Function.update_of_ne (Ne.symm hk), ih, if_neg hk]

omit [DecidableEq ι] in
theorem lastMove_eq_none_iff {moves : List (κ × ι)} {k : κ} :
    lastMove moves k = none ↔ ∀ m ∈ moves, m.1 ≠ k := by
  induction moves using List.reverseRecOn with
  | nil => simp
  | append_singleton moves m ih =>
    rw [lastMove_concat, List.forall_mem_append, List.forall_mem_singleton, ← ih]
    split_ifs with hk <;> simp [hk]

omit [DecidableEq ι] in
theorem mem_of_lastMove {moves : List (κ × ι)} {k : κ} {c : ι} (h : lastMove moves k = some c) :
    (k, c) ∈ moves := by
  induction moves using List.reverseRecOn with
  | nil => simp at h
  | append_singleton moves m ih =>
    rw [lastMove_concat] at h
    split_ifs at h with hk
    · simp [← hk, ← Option.some.inj h]
    · exact List.mem_append_left _ (ih h)

omit [DecidableEq ι] in
theorem lastMove_append (moves moves' : List (κ × ι)) (k : κ) :
    lastMove (moves ++ moves') k = (lastMove moves' k).or (lastMove moves k) := by
  induction moves' using List.reverseRecOn with
  | nil => simp
  | append_singleton moves' m ih =>
    rw [← List.append_assoc, lastMove_concat, lastMove_concat, ih]
    split_ifs <;> simp

/-! ## Greedy runs -/

theorem GreedyMove.mapsTo {k : κ} {b : ι} (hm : GreedyMove items places w A k b)
    (h : ∀ j ∈ items, A j ∈ places) : ∀ j ∈ items, Function.update A k b j ∈ places := by
  intro j hj
  by_cases hjk : j = k
  · rw [hjk, Function.update_self]
    exact hm.target
  · rw [Function.update_of_ne hjk]
    exact h j hj

theorem GreedyMove.load_le {k : κ} {b : ι} (hm : GreedyMove items places w A k b)
    (h : ∀ j ∈ items, A j ∈ places) (c : ι) :
    load items w (Function.update A k b) c ≤
      max (load items w A c) ((∑ j ∈ items, w j) / places.card + w k) := by
  by_cases hc : c = b
  · rw [hc, load_update_target hm.item hm.ne]
    exact le_max_of_le_right
      (Nat.add_le_add_right (least_le_average h hm.target hm.least) _)
  · exact le_max_of_le_left (load_update_le hc)

theorem greedyRun_concat {moves : List (κ × ι)} {m : κ × ι} :
    GreedyRun items places w A (moves ++ [m]) ↔
      GreedyRun items places w A moves ∧
        GreedyMove items places w (replay A moves) m.1 m.2 := by
  induction moves generalizing A with
  | nil => simp [GreedyRun]
  | cons m' moves ih => simp [GreedyRun, ih, and_assoc]

theorem GreedyRun.split {moves moves' : List (κ × ι)} {m : κ × ι}
    (h : GreedyRun items places w A (moves ++ m :: moves')) :
    GreedyMove items places w (replay A moves) m.1 m.2 := by
  induction moves generalizing A with
  | nil => exact h.1
  | cons m' moves ih => exact ih h.2

theorem GreedyRun.mapsTo {moves : List (κ × ι)} (hr : GreedyRun items places w A moves)
    (h : ∀ j ∈ items, A j ∈ places) : ∀ j ∈ items, replay A moves j ∈ places := by
  induction moves generalizing A with
  | nil => exact h
  | cons m moves ih => exact ih hr.2 (hr.1.mapsTo h)

/-- The worst place after any greedy run: no worse than before, or the average
plus one moved item. -/
theorem GreedyRun.load_le {moves : List (κ × ι)} (hr : GreedyRun items places w A moves)
    (h : ∀ j ∈ items, A j ∈ places) {M W : ℕ} (hW : ∀ m ∈ moves, w m.1 ≤ W)
    (hM : ∀ c ∈ places, load items w A c ≤ M) :
    ∀ c ∈ places, load items w (replay A moves) c ≤
      max M ((∑ j ∈ items, w j) / places.card + W) := by
  induction moves using List.reverseRecOn with
  | nil => exact fun c hc => le_max_of_le_left (hM c hc)
  | append_singleton moves m ih =>
    obtain ⟨hr', hm⟩ := greedyRun_concat.mp hr
    intro c hc
    rw [replay_concat]
    have hstep := hm.load_le (hr'.mapsTo h) c
    rw [List.forall_mem_append, List.forall_mem_singleton] at hW
    have hprev := ih hr' hW.1 c hc
    have hw := hW.2
    omega

/-- An item is only moved again off the place it was last moved to, while it
is a heaviest item of that place and that place is a most loaded one. -/
theorem GreedyRun.again {moves between moves' : List (κ × ι)} {k : κ} {b b' : ι}
    (hr : GreedyRun items places w A (moves ++ (k, b) :: (between ++ (k, b') :: moves')))
    (hbetween : ∀ m ∈ between, m.1 ≠ k) :
    replay A (moves ++ (k, b) :: between) k = b ∧
      GreedyMove items places w (replay A (moves ++ (k, b) :: between)) k b' := by
  have hr' : GreedyRun items places w A ((moves ++ (k, b) :: between) ++ (k, b') :: moves') := by
    simpa using hr
  refine ⟨?_, hr'.split⟩
  rw [replay_append, replay_cons, replay_eq_lastMove, lastMove_eq_none_iff.mpr hbetween]
  simp

end Placement
