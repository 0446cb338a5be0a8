import OrssNic.RingBufferLoads
import OrssNic.Library.RingWindow

/-!
# The window of a ring buffer and its average

The last `RING_SIZE` stored values lie behind the cursor, newest first, and
`ringbuffer_get_average` goes back over as many of them as it is asked for and
the ring holds. It divides by the number it was asked for, which is not always
the number of values it has added up.
-/

namespace OrssNic
open CLoops CRing

/-- What each sample puts into its slot, oldest first. -/
def ringbufferStored : RingBuffer → List UInt64 → List UInt64
  | _, [] => []
  | rb, value :: counters =>
    (ringbufferAdd rb value).buffer (ringbufferAdd rb value).pos ::
      ringbufferStored (ringbufferAdd rb value) counters

theorem ringbufferStored_length (rb : RingBuffer) (counters : List UInt64) :
    (ringbufferStored rb counters).length = counters.length := by
  induction counters generalizing rb with
  | nil => rfl
  | cons value counters ih => rw [ringbufferStored, List.length_cons, ih, List.length_cons]

namespace RingBuffer

/-- The ring after the samples that stored `recents`, newest first. -/
structure Holds (rb : RingBuffer) (recents : List UInt64) : Prop where
  sampled : rb.Sampled recents.length
  window : Window RING_SIZE rb.buffer rb.pos recents

variable {rb : RingBuffer} {recents : List UInt64}

theorem default_holds : Holds default [] := ⟨default_sampled, Window.nil⟩

theorem Holds.add (h : rb.Holds recents) (value : UInt64) :
    (ringbufferAdd rb value).Holds
      ((ringbufferAdd rb value).buffer (ringbufferAdd rb value).pos :: recents) := by
  have hpos : (ringbufferAdd rb value).pos = (rb.pos + 1) % RING_SIZE := by
    obtain ⟨hnonneg, -⟩ := h.sampled.pos_bounds
    exact Int.tmod_eq_emod_of_nonneg (by omega)
  constructor
  · rw [List.length_cons]
    exact h.sampled.add value
  · obtain ⟨stored, hbuffer⟩ : ∃ stored, (ringbufferAdd rb value).buffer =
        Function.update rb.buffer (ringbufferAdd rb value).pos stored := ⟨_, rfl⟩
    rw [hbuffer, Function.update_self, hpos]
    exact h.window.push

theorem Holds.foldl (h : rb.Holds recents) (counters : List UInt64) :
    (counters.foldl ringbufferAdd rb).Holds ((ringbufferStored rb counters).reverse ++ recents) := by
  induction counters generalizing rb recents with
  | nil => exact h
  | cons value counters ih =>
    rw [List.foldl_cons, ringbufferStored, List.reverse_cons, List.append_assoc,
      List.singleton_append]
    exact ih (h.add value)

theorem Holds.size_eq (h : rb.Holds recents) : rb.size = (min recents.length RING_SIZE : ℕ) :=
  h.sampled.size_eq

theorem Holds.readBuffer (h : rb.Holds recents) {k : ℕ} (hk : k < recents.length)
    (hlt : k < RING_SIZE) : readBuffer rb (slot RING_SIZE rb.pos k) = .ok recents[k] := by
  rw [OrssNic.readBuffer, if_pos (slot_bounds (by decide) rb.pos k), h.window k hk hlt]

end RingBuffer

/-! ## The walk -/

def walkLength (rb : RingBuffer) (count : Int32) : ℕ := (min count.toInt rb.size).toNat

/-- The walk of `ringbuffer_get_average` and the positions at which it reads. -/
def averageWalk (rb : RingBuffer) (count : Int32) : Except Halt (Averaging × List ℤ) :=
  whileLoop .diverges (recording Averaging.pos (averageStep rb count)) (rb.size.toNat + 1)
    (⟨0, 0, rb.pos⟩, [])

theorem averageWalk_map (rb : RingBuffer) (count : Int32) :
    (averageWalk rb count).map Prod.fst =
      whileLoop .diverges (averageStep rb count) (rb.size.toNat + 1) ⟨0, 0, rb.pos⟩ :=
  whileLoop_recording _ _ _ _

def sumOf (values : List UInt64) : ℕ := (values.map UInt64.toNat).sum

theorem sumOf_take_succ {values : List UInt64} {i : ℕ} (hi : i < values.length) :
    sumOf (values.take (i + 1)) = sumOf (values.take i) + values[i].toNat := by
  rw [sumOf, sumOf, List.take_add_one, List.getElem?_eq_getElem hi, Option.toList_some,
    List.map_append, List.sum_append, List.map_singleton, List.sum_singleton]

structure Averaging.Walked (rb : RingBuffer) (recents : List UInt64) (i : ℕ)
    (s : Averaging × List ℤ) : Prop where
  i_eq : s.1.i = i
  sum_eq : s.1.sum = UInt64.ofNat (sumOf (recents.take i))
  pos_eq : s.1.pos = slot RING_SIZE rb.pos i
  visited_eq : s.2 = (List.range i).map (slot RING_SIZE rb.pos)

section Walk
variable {rb : RingBuffer} {recents : List UInt64} {count : Int32} {i : ℕ}
  {s : Averaging × List ℤ}

theorem averageStep_walked (h : rb.Holds recents) (hs : Averaging.Walked rb recents i s)
    (hi : i < walkLength rb count) :
    ∃ s', recording Averaging.pos (averageStep rb count) s = .ok (some s') ∧
      Averaging.Walked rb recents (i + 1) s' := by
  obtain ⟨s, visited⟩ := s
  have hi_eq : s.i = i := hs.i_eq
  have hsum : s.sum = UInt64.ofNat (sumOf (recents.take i)) := hs.sum_eq
  have hpos : s.pos = slot RING_SIZE rb.pos i := hs.pos_eq
  have hsize := h.size_eq
  rw [walkLength] at hi
  have hlength : i < recents.length := by omega
  have hring : i < RING_SIZE := by omega
  have hguard : s.i < count.toInt ∧ s.i < rb.size := by
    rw [hi_eq]
    omega
  have hread : readBuffer rb s.pos = .ok recents[i] := by
    rw [hpos]
    exact h.readBuffer hlength hring
  have hstep : averageStep rb count s = .ok (some ⟨s.i + 1, s.sum + recents[i],
      if (s.pos - 1).tmod RING_SIZE < 0 then RING_SIZE - 1 else (s.pos - 1).tmod RING_SIZE⟩) := by
    simp only [averageStep, if_pos hguard, hread, bind, Except.bind, pure, Except.pure]
  refine ⟨_, recording_step hstep visited, ?_, ?_, ?_, ?_⟩
  · change s.i + 1 = _
    rw [hi_eq, Nat.cast_add, Nat.cast_one]
  · change s.sum + recents[i] = _
    rw [hsum, sumOf_take_succ hlength, UInt64.ofNat_add, UInt64.ofNat_toNat]
  · change (if (s.pos - 1).tmod RING_SIZE < 0 then _ else _) = _
    have hring : 0 < RING_SIZE := by decide
    obtain ⟨hnonneg, hlt⟩ := slot_bounds hring rb.pos i
    rw [hpos, tmod_step_back (by decide) hnonneg hlt, slot_succ]
  · have hvisited : visited = (List.range i).map (slot RING_SIZE rb.pos) := hs.visited_eq
    change visited ++ [s.pos] = _
    rw [hvisited, hpos, List.range_succ, List.map_append, List.map_singleton]

theorem averageStep_stops (hs : Averaging.Walked rb recents (walkLength rb count) s) :
    recording Averaging.pos (averageStep rb count) s = .ok none := by
  obtain ⟨s, visited⟩ := s
  have hi : s.i = walkLength rb count := hs.i_eq
  have hguard : ¬(s.i < count.toInt ∧ s.i < rb.size) := by
    rw [hi, walkLength]
    omega
  apply recording_stop
  rw [averageStep, if_neg hguard]
  rfl

/-- The walk goes over the latest values, newest first, and stops at the smaller
of the two bounds. -/
theorem averageWalk_total (h : rb.Holds recents) (count : Int32) :
    ∃ s, averageWalk rb count = .ok s ∧ Averaging.Walked rb recents (walkLength rb count) s := by
  have hsize := h.size_eq
  have hstart : Averaging.Walked rb recents 0 (⟨0, 0, rb.pos⟩, []) := by
    obtain ⟨hnonneg, hlt⟩ := h.sampled.pos_bounds
    exact ⟨rfl, rfl, (slot_zero hnonneg hlt).symm, rfl⟩
  obtain ⟨s, hloop, i, hi, hs⟩ := whileLoop_total (n := rb.size.toNat + 1) Halt.diverges
    (P := fun s => ∃ i ≤ walkLength rb count, Averaging.Walked rb recents i s)
    (fun s => walkLength rb count - s.1.i.toNat) ⟨0, Nat.zero_le _, hstart⟩
    (by simp only [walkLength]; omega) fun t ht => by
      obtain ⟨i, hi, ht⟩ := ht
      rcases hi.eq_or_lt with rfl | hlt
      · exact .inl (averageStep_stops ht)
      · obtain ⟨t', hstep, ht'⟩ := averageStep_walked h ht hlt
        refine .inr ⟨t', hstep, ⟨i + 1, hlt, ht'⟩, ?_⟩
        rw [ht.i_eq, ht'.i_eq]
        omega
  rcases hi.eq_or_lt with rfl | hlt
  · exact ⟨s, hloop, hs⟩
  · obtain ⟨s', hstep, -⟩ := averageStep_walked h hs hlt
    rw [(whileLoop_correct hloop).2] at hstep
    cases hstep

end Walk

theorem averageLoop_total {rb : RingBuffer} {recents : List UInt64} (h : rb.Holds recents)
    (count : Int32) :
    ∃ s, whileLoop .diverges (averageStep rb count) (rb.size.toNat + 1) ⟨0, 0, rb.pos⟩ = .ok s ∧
      s.sum = UInt64.ofNat (sumOf (recents.take (walkLength rb count))) := by
  obtain ⟨s, hwalk, hs⟩ := averageWalk_total h count
  refine ⟨s.1, ?_, hs.sum_eq⟩
  rw [← averageWalk_map, hwalk]
  rfl

theorem ringbufferInit_holds (heap : Heap RingBuffer) (counters : List UInt64) :
    let fresh := (ringbufferInit heap).2.cell (ringbufferInit heap).1
    (counters.foldl ringbufferAdd fresh).Holds (ringbufferStored fresh counters).reverse := by
  intro fresh
  have hfresh : fresh = default := ringbufferInit_cell_new heap
  have hstart : fresh.Holds [] := hfresh ▸ RingBuffer.default_holds
  have hfoldl := hstart.foldl counters
  rwa [List.append_nil] at hfoldl

/-- The window of a fresh ring buffer after any number of samples, and the walk
over it for any count. -/
theorem ringbuffer_window (heap : Heap RingBuffer) (counters : List UInt64) (count : Int32) :
    let fresh := (ringbufferInit heap).2.cell (ringbufferInit heap).1
    let rb := counters.foldl ringbufferAdd fresh
    let recents := (ringbufferStored fresh counters).reverse
    rb.size = (min counters.length RING_SIZE : ℕ) ∧ 0 ≤ rb.pos ∧ rb.pos < RING_SIZE ∧
      (∀ k : ℕ, k < rb.size → recents[k]? = some (rb.buffer ((rb.pos - k) % RING_SIZE))) ∧
      ∃ s, averageWalk rb count = .ok s ∧
        whileLoop .diverges (averageStep rb count) (rb.size.toNat + 1) ⟨0, 0, rb.pos⟩ = .ok s.1 ∧
        s.2 = (List.range (min count.toInt rb.size).toNat).map (fun k : ℕ => (rb.pos - k) % RING_SIZE) ∧
        ∀ pos ∈ s.2, 0 ≤ pos ∧ pos < RING_SIZE := by
  intro fresh rb recents
  have hholds : rb.Holds recents := ringbufferInit_holds heap counters
  have hlength : recents.length = counters.length := by
    rw [List.length_reverse, ringbufferStored_length]
  have hsize := hholds.size_eq
  rw [hlength] at hsize
  obtain ⟨hnonneg, hlt⟩ := hholds.sampled.pos_bounds
  refine ⟨hsize, hnonneg, hlt, ?_, ?_⟩
  · intro k hk
    rw [hsize] at hk
    have hk' : k < recents.length := by omega
    rw [List.getElem?_eq_getElem hk', ← hholds.window k hk' (by omega)]
    rfl
  · obtain ⟨s, hwalk, hs⟩ := averageWalk_total hholds count
    have hloop := averageWalk_map rb count
    rw [hwalk] at hloop
    refine ⟨s, hwalk, hloop.symm, hs.visited_eq, ?_⟩
    intro pos hpos
    rw [hs.visited_eq] at hpos
    obtain ⟨k, -, rfl⟩ := List.mem_map.mp hpos
    exact slot_bounds (by decide) rb.pos k

/-! ## The average -/

theorem ringbufferGetAverage_eq {rb : RingBuffer} {recents : List UInt64} (h : rb.Holds recents)
    {count : Int32} (hcount : 1 ≤ count.toInt)
    (hsum : sumOf (recents.take (walkLength rb count)) < 2 ^ 64) :
    ringbufferGetAverage rb count =
      .ok (UInt64.ofNat (sumOf (recents.take (walkLength rb count)) / count.toInt.toNat)) := by
  by_cases hempty : rb.size = 0
  · have hlength : walkLength rb count = 0 := by
      rw [walkLength, hempty]
      omega
    rw [ringbufferGetAverage, if_pos hempty, hlength]
    simp only [List.take_zero, sumOf, List.map_nil, List.sum_nil, Nat.zero_div]
    rfl
  · obtain ⟨s, hloop, hs⟩ := averageLoop_total h count
    have hne : count ≠ 0 := by
      rintro rfl
      exact absurd hcount (by decide)
    have hlt : count.toInt < 2 ^ 31 := count.toInt_lt
    have hdivisor : (UInt64.ofInt count.toInt).toNat = count.toInt.toNat := by
      rw [UInt64.ofInt, Int.emod_eq_of_lt (by omega) (by omega), UInt64.toNat_ofNat',
        Nat.mod_eq_of_lt (by omega)]
    have hquotient : s.sum / UInt64.ofInt count.toInt =
        UInt64.ofNat (sumOf (recents.take (walkLength rb count)) / count.toInt.toNat) := by
      rw [← UInt64.toNat_inj, UInt64.toNat_div, hs, UInt64.toNat_ofNat', UInt64.toNat_ofNat',
        hdivisor, Nat.mod_eq_of_lt hsum,
        Nat.mod_eq_of_lt ((Nat.div_le_self _ _).trans_lt hsum)]
    simp only [ringbufferGetAverage, if_neg hempty, hloop, if_neg hne, hquotient, bind,
      Except.bind, pure, Except.pure]

/-- Adding and subtracting the last value cancel, with or without a wrap. -/
theorem ringbufferPredictNext_eq (rb : RingBuffer) (count : Int32) :
    ringbufferPredictNext rb count = ringbufferGetAverage rb count := by
  by_cases hempty : rb.size = 0
  · rw [ringbufferPredictNext, ringbufferGetAverage, if_pos hempty, if_pos hempty]
  · rw [ringbufferPredictNext, if_neg hempty]
    cases ringbufferGetAverage rb count with
    | error e => rfl
    | ok average =>
      have hcancel : ringbufferGetLast rb + (average - ringbufferGetLast rb) = average := by
        rw [UInt64.add_comm, UInt64.sub_add_cancel]
      simp only [bind, Except.bind, pure, Except.pure, hcancel]

/-- Dividing by more than the number of summands does no harm when the remainder
covers the mean of every missing one. -/
theorem div_eq_div_min_iff {total asked held : ℕ} (hasked : 0 < asked) (hheld : 0 < held) :
    total / asked = total / min asked held ↔
      asked ≤ held ∨ (asked - held) * (total / held) ≤ total % held := by
  rcases Nat.le_total asked held with hle | hle
  · rw [min_eq_left hle]
    exact iff_of_true rfl (.inl hle)
  · rw [min_eq_right hle]
    have hdiv := Nat.div_add_mod total held
    have hsplit : asked * (total / held) =
        held * (total / held) + (asked - held) * (total / held) := by
      rw [← Nat.add_mul, Nat.add_sub_cancel' hle]
    have hmono : total / asked ≤ total / held := Nat.div_le_div_left hle hheld
    constructor
    · intro heq
      right
      have hmul := Nat.mul_div_le total asked
      rw [heq] at hmul
      omega
    · rintro (hge | hcovers)
      · rw [le_antisymm hge hle]
      · apply le_antisymm hmono
        rw [Nat.le_div_iff_mul_le hasked, Nat.mul_comm]
        omega

/-- The average is the mean of the latest values exactly when no more values are
asked for than the ring holds, or the remainder covers the missing ones. -/
theorem ringbufferGetAverage_mean_iff (heap : Heap RingBuffer) (counters : List UInt64)
    (count : Int32) (hcount : 1 ≤ count.toInt) :
    let fresh := (ringbufferInit heap).2.cell (ringbufferInit heap).1
    let rb := counters.foldl ringbufferAdd fresh
    let held := min counters.length RING_SIZE
    let asked := count.toInt.toNat
    let total := sumOf ((ringbufferStored fresh counters).reverse.take (min asked held))
    let mean := UInt64.ofNat (total / min asked held)
    total < 2 ^ 64 →
      (ringbufferGetAverage rb count = .ok mean ∧ ringbufferPredictNext rb count = .ok mean ↔
        asked ≤ held ∨ (asked - held) * (total / held) ≤ total % held) := by
  intro fresh rb held asked total mean htotal
  have hholds : rb.Holds (ringbufferStored fresh counters).reverse :=
    ringbufferInit_holds heap counters
  have hsize : rb.size = held := by
    rw [hholds.size_eq, List.length_reverse, ringbufferStored_length]
  have hlength : walkLength rb count = min asked held := by
    rw [walkLength, hsize]
    omega
  have haverage : ringbufferGetAverage rb count = .ok (UInt64.ofNat (total / asked)) := by
    have heq := ringbufferGetAverage_eq hholds hcount
    rw [hlength] at heq
    exact heq htotal
  rw [ringbufferPredictNext_eq, and_self, haverage, Except.ok.injEq]
  rcases Nat.eq_zero_or_pos held with hzero | hheld
  · have hnone : total = 0 := by
      change sumOf (List.take (min asked held) _) = 0
      rw [hzero, Nat.min_zero, List.take_zero]
      rfl
    have hmean : mean = 0 := by
      change UInt64.ofNat (total / _) = 0
      rw [hnone, Nat.zero_div]
      rfl
    rw [hmean, hnone, Nat.zero_div, Nat.zero_div, Nat.mul_zero]
    exact iff_of_true rfl (.inr (Nat.zero_le _))
  · have hasked : 0 < asked := by omega
    rw [← div_eq_div_min_iff hasked hheld]
    have hlt : ∀ d, total / d < 2 ^ 64 := fun d => (Nat.div_le_self _ _).trans_lt htotal
    constructor
    · intro heq
      have hnat := congrArg UInt64.toNat heq
      rwa [UInt64.toNat_ofNat', UInt64.toNat_ofNat', Nat.mod_eq_of_lt (hlt _),
        Nat.mod_eq_of_lt (hlt _)] at hnat
    · intro heq
      exact congrArg UInt64.ofNat heq

/-- Three samples that store 1, 2 and 2, and an average of five. -/
theorem ringbufferGetAverage_mean_iff_covered :
    let rb := [1, 3, 4].foldl ringbufferAdd
      ((ringbufferInit Heap.empty).2.cell (ringbufferInit Heap.empty).1)
    ringbufferGetAverage rb 5 = .ok 1 ∧ ringbufferPredictNext rb 5 = .ok 1 := by
  have hiff := ringbufferGetAverage_mean_iff Heap.empty [1, 3, 4] 5 (by decide) (by decide)
  exact hiff.mpr (.inr (by decide))

/-- The average of two values when there is one, 10. -/
theorem ringbufferGetAverage_single_sample :
    let fresh := (ringbufferInit Heap.empty).2.cell (ringbufferInit Heap.empty).1
    let rb := [10].foldl ringbufferAdd fresh
    let recents := (ringbufferStored fresh [10]).reverse.take (min 2 1)
    rb.size = 1 ∧ sumOf recents = 10 ∧ sumOf recents / recents.length = 10 ∧
      ringbufferGetAverage rb 2 = .ok 5 ∧ ringbufferPredictNext rb 2 = .ok 5 := by
  refine ⟨rfl, ?_, ?_, rfl, rfl⟩
  · decide
  · decide

end OrssNic
