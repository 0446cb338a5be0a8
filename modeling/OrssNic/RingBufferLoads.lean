import OrssNic.RingBuffer

/-!
# Loads kept by a ring buffer

A ring buffer is given the cumulative packet counter of its flow. What
`ringbufferAdd` subtracts is the value stored before and not the counter
sampled before, so the stored values are the alternating sums of the counters.
They stay below the counters as long as no counter restarts.
-/

namespace OrssNic

namespace RingBuffer

structure Sampled (rb : RingBuffer) (n : ℕ) : Prop where
  pos_eq : rb.pos = (n % RING_SIZE : ℕ)
  size_eq : rb.size = (min n RING_SIZE : ℕ)

variable {rb : RingBuffer} {n : ℕ}

theorem default_sampled : Sampled default 0 := ⟨rfl, rfl⟩

theorem Sampled.add (h : rb.Sampled n) (value : UInt64) :
    (ringbufferAdd rb value).Sampled (n + 1) := by
  constructor
  · have hpos : (ringbufferAdd rb value).pos = (rb.pos + 1).tmod RING_SIZE := rfl
    rw [hpos, h.pos_eq, Int.tmod_eq_emod_of_nonneg (by omega)]
    simp only [RING_SIZE]
    omega
  · have hsize : (ringbufferAdd rb value).size =
        if rb.size < RING_SIZE then rb.size + 1 else rb.size := rfl
    rw [hsize, h.size_eq]
    simp only [RING_SIZE]
    split_ifs <;> omega

theorem Sampled.foldl (h : rb.Sampled n) (counters : List UInt64) :
    (counters.foldl ringbufferAdd rb).Sampled (n + counters.length) := by
  induction counters generalizing rb n with
  | nil => exact h
  | cons value counters ih =>
    rw [List.foldl_cons, List.length_cons, Nat.add_comm counters.length, ← Nat.add_assoc]
    exact ih (h.add value)

theorem Sampled.pos_bounds (h : rb.Sampled n) : 0 ≤ rb.pos ∧ rb.pos < RING_SIZE := by
  rw [h.pos_eq]
  simp only [RING_SIZE]
  omega

theorem Sampled.getLast_add (h : rb.Sampled n) (value : UInt64) :
    ringbufferGetLast (ringbufferAdd rb value) = value - ringbufferGetLast rb := by
  have hne : (ringbufferAdd rb value).size ≠ 0 := by
    rw [(h.add value).size_eq]
    simp only [RING_SIZE]
    omega
  rw [ringbufferGetLast, if_neg hne]
  simp only [ringbufferAdd, ringbufferGetLast, Function.update_self]
  split_ifs with h0
  · exact (UInt64.sub_zero value).symm
  · rfl

end RingBuffer

def ringbufferSampled (counters : List UInt64) : RingBuffer :=
  counters.foldl ringbufferAdd default

theorem ringbufferSampled_sampled (counters : List UInt64) :
    (ringbufferSampled counters).Sampled counters.length := by
  have h := RingBuffer.default_sampled.foldl counters
  rwa [Nat.zero_add] at h

theorem ringbufferSampled_concat (counters : List UInt64) (value : UInt64) :
    ringbufferSampled (counters ++ [value]) = ringbufferAdd (ringbufferSampled counters) value := by
  simp only [ringbufferSampled, List.foldl_append, List.foldl_cons, List.foldl_nil]

theorem getLast_concat (counters : List UInt64) (value : UInt64) :
    ringbufferGetLast (ringbufferSampled (counters ++ [value])) =
      value - ringbufferGetLast (ringbufferSampled counters) := by
  rw [ringbufferSampled_concat, (ringbufferSampled_sampled counters).getLast_add]

/-! ## Counters that never decrease -/

/-- The subtraction of `ringbuffer_add` is that of the integers: the stored
value is between 0 and the counter. -/
structure RingBuffer.AddsExactly (rb : RingBuffer) (value : UInt64) : Prop where
  subtrahend : ringbufferGetLast rb ≤ value
  stored : (ringbufferGetLast (ringbufferAdd rb value)).toNat =
    value.toNat - (ringbufferGetLast rb).toNat

theorem getLast_le_of_sorted {counters : List UInt64} {value : UInt64}
    (h : (counters ++ [value]).Pairwise (· ≤ ·)) :
    ringbufferGetLast (ringbufferSampled counters) ≤ value := by
  induction counters using List.reverseRecOn generalizing value with
  | nil => exact UInt64.zero_le
  | append_singleton counters previous ih =>
    obtain ⟨hfront, -, hle⟩ := List.pairwise_append.mp h
    have hprevious : previous ≤ value := hle previous (by simp) value (by simp)
    have hstored := ih hfront
    rw [getLast_concat, UInt64.le_iff_toNat_le, UInt64.toNat_sub_of_le _ _ hstored]
    rw [UInt64.le_iff_toNat_le] at hprevious
    omega

theorem RingBuffer.addsExactly_of_le {rb : RingBuffer} {n : ℕ} {value : UInt64}
    (h : rb.Sampled n) (hle : ringbufferGetLast rb ≤ value) : rb.AddsExactly value where
  subtrahend := hle
  stored := by rw [h.getLast_add, UInt64.toNat_sub_of_le _ _ hle]

/-- No sample of a counter that never decreases wraps, however often the ring
has been filled. -/
theorem ringbufferSampled_addsExactly {counters : List UInt64} {value : UInt64}
    (h : (counters ++ [value]).Pairwise (· ≤ ·)) :
    (ringbufferSampled counters).AddsExactly value :=
  RingBuffer.addsExactly_of_le (ringbufferSampled_sampled counters) (getLast_le_of_sorted h)

theorem getLast_le_latest {counters : List UInt64} (h : counters.Pairwise (· ≤ ·)) :
    (ringbufferGetLast (ringbufferSampled counters)).toNat ≤
      (counters.getLast?.getD 0).toNat := by
  rcases List.eq_nil_or_concat counters with rfl | ⟨older, value, rfl⟩
  · exact Nat.zero_le _
  · rw [List.concat_eq_append] at h ⊢
    have hstored := (ringbufferSampled_addsExactly h).stored
    rw [← ringbufferSampled_concat] at hstored
    rw [hstored, List.getLast?_concat]
    exact Nat.sub_le _ _

/-! ## The load of an interval -/

/-- `v₁ - v₂ + v₃ - …` for the counters `v₁, v₂, v₃, …`, in the integers. -/
def alternatingCounters (counters : List UInt64) : ℤ :=
  (counters.map fun value => (value.toNat : ℤ)).alternatingSum

theorem sub_toNat_modEq (a b : UInt64) :
    ((a - b).toNat : ℤ) ≡ a.toNat - b.toNat [ZMOD 2 ^ 64] := by
  have hb : b.toNat < 2 ^ 64 := b.toNat_lt
  have h : ((2 ^ 64 - b.toNat + a.toNat : ℕ) : ℤ) = a.toNat - b.toNat + 2 ^ 64 := by omega
  rw [UInt64.toNat_sub, Int.natCast_mod, h]
  exact (Int.mod_modEq _ _).trans Int.add_modEq_right

theorem sub_eq_left_iff {a b : UInt64} : a - b = a ↔ b = 0 := by
  constructor
  · intro h
    grind
  · intro h
    rw [h, UInt64.sub_zero]

theorem getLast_modEq (counters : List UInt64) :
    ((ringbufferGetLast (ringbufferSampled counters)).toNat : ℤ) ≡
      alternatingCounters counters.reverse [ZMOD 2 ^ 64] := by
  induction counters using List.reverseRecOn with
  | nil => rfl
  | append_singleton counters value ih =>
    rw [getLast_concat, List.reverse_append, List.reverse_singleton, List.singleton_append,
      alternatingCounters, List.map_cons, List.alternatingSum_cons]
    exact (sub_toNat_modEq _ _).trans ((Int.ModEq.refl _).sub ih)

theorem getLast_eq_zero_iff (counters : List UInt64) :
    ringbufferGetLast (ringbufferSampled counters) = 0 ↔
      (2 ^ 64 : ℤ) ∣ alternatingCounters counters.reverse := by
  rw [← UInt64.toNat_inj, ← Int.modEq_zero_iff_dvd]
  have h := getLast_modEq counters
  constructor
  · intro h0
    rw [h0] at h
    exact h.symm
  · intro h0
    have hlt := (ringbufferGetLast (ringbufferSampled counters)).toNat_lt
    have hz := h.trans h0
    rw [Int.ModEq] at hz
    simp only [UInt64.toNat_zero]
    omega

/-- The packets counted between the last two samples; before the first one
nothing was counted. -/
def packetsSincePrevious (counters : List UInt64) : UInt64 :=
  match counters.reverse with
  | [] => 0
  | [value] => value
  | value :: previous :: _ => value - previous

/-- The ring buffer returns the load of the last interval exactly when the
counters before the last two cancel in their alternating sum. -/
theorem ringbufferGetLast_interval_iff (heap : Heap RingBuffer) (counters : List UInt64) :
    let rb := (ringbufferInit heap).2.cell (ringbufferInit heap).1
    ringbufferGetLast (counters.foldl ringbufferAdd rb) = packetsSincePrevious counters ↔
      (2 ^ 64 : ℤ) ∣ alternatingCounters (counters.reverse.drop 2) := by
  intro rb
  have hrb : rb = default := ringbufferInit_cell_new heap
  rw [hrb]
  change ringbufferGetLast (ringbufferSampled counters) = _ ↔ _
  rcases List.eq_nil_or_concat counters with rfl | ⟨older, value, rfl⟩
  · simp [packetsSincePrevious, alternatingCounters, ringbufferSampled]
    rfl
  rcases List.eq_nil_or_concat older with rfl | ⟨oldest, previous, rfl⟩
  · simp [packetsSincePrevious, alternatingCounters, ringbufferSampled]
    rfl
  simp only [List.concat_eq_append, List.reverse_append, List.reverse_singleton,
    List.singleton_append, List.drop_succ_cons, List.drop_zero, packetsSincePrevious]
  rw [← getLast_eq_zero_iff, getLast_concat, getLast_concat, UInt64.sub_right_inj,
    sub_eq_left_iff]

theorem ringbufferGetLast_third_sample :
    let rb := (ringbufferInit Heap.empty).2.cell (ringbufferInit Heap.empty).1
    ringbufferGetLast ([1, 2, 3].foldl ringbufferAdd rb) = 2 ∧
      packetsSincePrevious [1, 2, 3] = 1 := by
  decide

/-! ## Counters that restart -/

def largestCounter (counters : List UInt64) : UInt64 :=
  counters.foldl (fun largest value => if largest < value then value else largest) 0

theorem le_largestCounter_concat (counters : List UInt64) (value : UInt64) :
    value ≤ largestCounter (counters ++ [value]) := by
  simp only [largestCounter, List.foldl_append, List.foldl_cons, List.foldl_nil]
  split_ifs with h
  · exact UInt64.le_refl value
  · exact UInt64.not_lt.mp h

/-- The stored load does not exceed the counter, or exceeds it by so much that
the wrapped difference is small again. -/
def StaysSmall (older : List UInt64) (value : UInt64) : Prop :=
  let stored : ℤ := alternatingCounters older.reverse % 2 ^ 64
  stored ≤ value.toNat ∨
    2 ^ 64 + value.toNat ≤ stored + (largestCounter (older ++ [value])).toNat

theorem getLast_toNat (counters : List UInt64) :
    ((ringbufferGetLast (ringbufferSampled counters)).toNat : ℤ) =
      alternatingCounters counters.reverse % 2 ^ 64 := by
  have hlt := (ringbufferGetLast (ringbufferSampled counters)).toNat_lt
  rw [← (getLast_modEq counters).eq, Int.emod_eq_of_lt (by omega) (by omega)]

theorem sub_le_iff {a b m : UInt64} (h : a ≤ m) :
    a - b ≤ m ↔ b.toNat ≤ a.toNat ∨ 2 ^ 64 + a.toNat ≤ b.toNat + m.toNat := by
  have ha := a.toNat_lt
  have hb := b.toNat_lt
  rw [UInt64.le_iff_toNat_le] at h ⊢
  rw [UInt64.toNat_sub]
  omega

theorem getLast_concat_le_iff (older : List UInt64) (value : UInt64) :
    ringbufferGetLast (ringbufferSampled (older ++ [value])) ≤ largestCounter (older ++ [value]) ↔
      StaysSmall older value := by
  rw [getLast_concat, sub_le_iff (le_largestCounter_concat older value), StaysSmall, ← getLast_toNat]
  omega

/-- No load is above the largest counter so far exactly when no counter falls
below the load stored before it, a fall of almost `2 ^ 64` apart. -/
theorem ringbufferGetLast_bounded_iff (heap : Heap RingBuffer) (counters : List UInt64) :
    let rb := (ringbufferInit heap).2.cell (ringbufferInit heap).1
    (∀ n ≤ counters.length, ringbufferGetLast ((counters.take n).foldl ringbufferAdd rb) ≤
        largestCounter (counters.take n)) ↔
      ∀ n value, counters[n]? = some value → StaysSmall (counters.take n) value := by
  intro rb
  have hrb : rb = default := ringbufferInit_cell_new heap
  rw [hrb]
  change (∀ n ≤ counters.length, ringbufferGetLast (ringbufferSampled (counters.take n)) ≤ _) ↔ _
  constructor
  · intro h n value hvalue
    have hn := (List.getElem?_eq_some_iff.mp hvalue).1
    have hnext := h (n + 1) hn
    rw [List.take_add_one, hvalue] at hnext
    exact (getLast_concat_le_iff _ value).mp hnext
  · intro h n hn
    cases n with
    | zero => exact UInt64.zero_le
    | succ n =>
      have hvalue := List.getElem?_eq_getElem hn
      rw [List.take_add_one, hvalue]
      exact (getLast_concat_le_iff _ _).mpr (h n _ hvalue)

/-- A counter that restarts at 3 after a load of 5. -/
theorem ringbufferGetLast_restart :
    let rb := (ringbufferInit Heap.empty).2.cell (ringbufferInit Heap.empty).1
    ringbufferGetLast ([5, 3].foldl ringbufferAdd rb) = 18446744073709551614 ∧
      largestCounter [5, 3] = 5 := by
  decide

end OrssNic
