import OrssNic.OpenflowFraming

/-!
# Exact reads

`safe_read` keeps a 16-bit count of the bytes it has put into the buffer. In
front of every `read` the buffer holds that many of the next bytes of the
stream and the stream has lost exactly these, whatever the reads before did.
-/

namespace OrssNic
open CLoops

/-- The first `bytesRead` bytes have moved from the stream into the buffer. -/
structure SafeRead.Filled (fd : Socket) (buf : List UInt8) (count : UInt16) (s : SafeRead) :
    Prop where
  le : s.bytesRead ≤ count
  available : s.bytesRead.toNat ≤ fd.stream.length
  room : s.bytesRead.toNat ≤ buf.length
  stream : s.fd.stream = fd.stream.drop s.bytesRead.toNat
  buf : s.buf = fd.stream.take s.bytesRead.toNat ++ buf.drop s.bytesRead.toNat

/-- One pass adds to the counter the number of bytes it takes from the stream. -/
structure SafeRead.Advances (s s' : SafeRead) (n : ℕ) : Prop where
  counter : s'.bytesRead.toNat = s.bytesRead.toNat + n
  handed : n ≤ s.fd.stream.length
  stream : s'.fd.stream = s.fd.stream.drop n
  stored : storeBytes s.buf s.bytesRead.toNat (s.fd.stream.take n) = .ok s'.buf

section Step
variable {fd : Socket} {buf : List UInt8} {count : UInt16} {s s' : SafeRead}

theorem SafeRead.Filled.size (hs : s.Filled fd buf count) : s.buf.length = buf.length := by
  have havailable := hs.available
  have hroom := hs.room
  rw [hs.buf, List.length_append, List.length_take, List.length_drop]
  omega

theorem storeBytes_nil {block : List UInt8} {offset : ℕ} (h : offset ≤ block.length) :
    storeBytes block offset [] = .ok block := by
  rw [storeBytes_eq (by simpa using h)]
  simp

theorem storeBytes_ok {block block' bytes : List UInt8} {offset : ℕ}
    (h : storeBytes block offset bytes = .ok block') :
    offset + bytes.length ≤ block.length ∧
      block' = block.take offset ++ bytes ++ block.drop (offset + bytes.length) := by
  rw [storeBytes] at h
  split_ifs at h with hfit
  cases h
  exact ⟨hfit, rfl⟩

/-- What is missing fits into 16 bits, and so does its sum with the counter. -/
theorem safeReadStep_advances (hs : s.Filled fd buf count)
    (hstep : safeReadStep count s = .ok (some s')) :
    ∃ n, n ≤ count.toNat - s.bytesRead.toNat ∧ s.Advances s' n := by
  have hroom : s.bytesRead.toNat ≤ s.buf.length := by
    rw [hs.size]
    exact hs.room
  obtain ⟨hlt, valread, hread, hcases⟩ := safeReadStep_ok hstep
  obtain ⟨reads, ⟨-, rfl, hfd⟩ | ⟨k, -, rfl, hfd⟩⟩ := read_ok hread
  · obtain ⟨-, hbuf, hcounter⟩ | ⟨bytes, hnone, -⟩ := hcases
    · refine ⟨0, Nat.zero_le _, ?_, Nat.zero_le _, ?_, ?_⟩
      · rw [hcounter, add_zero]
      · rw [hfd]
        rfl
      · rw [List.take_zero, storeBytes_nil hroom, hbuf]
    · cases hnone
  · obtain ⟨hnone, -⟩ | ⟨bytes, hsome, hstore, hcounter⟩ := hcases
    · cases hnone
    · cases hsome
      have hlt' := UInt16.lt_iff_toNat_lt.mp hlt
      have hcount := count.toNat_lt
      have hmin : min (min k (count.toNat - s.bytesRead.toNat)) s.fd.stream.length ≤
          count.toNat - s.bytesRead.toNat := by omega
      -- The stream may end before the read is satisfied.
      refine ⟨min (min k (count.toNat - s.bytesRead.toNat)) s.fd.stream.length, hmin, ?_,
        min_le_right _ _, ?_, ?_⟩
      · rw [hcounter]
        simp only [UInt16.toNat_add, UInt16.toNat_ofNat', List.length_take]
        omega
      · rw [hfd]
        exact List.drop_eq_drop_min
      · rwa [← List.take_eq_take_min]

theorem SafeRead.Advances.filled {n : ℕ} (hs : s.Filled fd buf count)
    (hn : n ≤ count.toNat - s.bytesRead.toNat) (h : s.Advances s' n) :
    s'.Filled fd buf count := by
  have hle := UInt16.le_iff_toNat_le.mp hs.le
  have havailable := hs.available
  have hhanded := h.handed
  obtain ⟨hfit, hbuf⟩ := storeBytes_ok h.stored
  have hfront : (fd.stream.take s.bytesRead.toNat).length = s.bytesRead.toNat := by
    rw [List.length_take]
    omega
  have htaken : (s.fd.stream.take n).length = n := by
    rw [List.length_take]
    omega
  rw [hs.stream, List.length_drop] at hhanded
  rw [hs.size, htaken] at hfit
  constructor
  · rw [UInt16.le_iff_toNat_le, h.counter]
    omega
  · rw [h.counter]
    omega
  · rw [h.counter]
    exact hfit
  · rw [h.counter, h.stream, hs.stream, List.drop_drop]
  · have hkept : s.buf.take s.bytesRead.toNat = fd.stream.take s.bytesRead.toNat := by
      rw [hs.buf, List.take_left' hfront]
    have hrest : s.buf.drop (s.bytesRead.toNat + n) = buf.drop (s.bytesRead.toNat + n) := by
      rw [hs.buf, ← List.drop_drop, List.drop_left' hfront, List.drop_drop]
    rw [hbuf, htaken, hkept, hrest, hs.stream, ← List.take_add, h.counter]

theorem safeReadStep_filled (hs : s.Filled fd buf count)
    (hstep : safeReadStep count s = .ok (some s')) : s'.Filled fd buf count := by
  obtain ⟨n, hn, hadvances⟩ := safeReadStep_advances hs hstep
  exact hadvances.filled hs hn

theorem safeReadStep_stop (hstep : safeReadStep count s = .ok none) : count ≤ s.bytesRead := by
  rw [safeReadStep] at hstep
  split_ifs at hstep with hlt
  · obtain ⟨⟨valread, fd'⟩, -, hstep⟩ := bind_eq_ok.mp hstep
    cases valread with
    | none => cases hstep
    | some bytes =>
      obtain ⟨buf', -, hstep⟩ := bind_eq_ok.mp hstep
      cases hstep
  · exact UInt16.not_lt.mp hlt

end Step

theorem safeRead_filled {fd : Socket} {buf : List UInt8} {count : UInt16} {t : SafeRead}
    (h : Reaches (safeReadStep count) ⟨fd, buf, 0⟩ t) : t.Filled fd buf count := by
  apply h.invariant (P := SafeRead.Filled fd buf count)
  · exact ⟨UInt16.zero_le, Nat.zero_le _, Nat.zero_le _, rfl, by simp⟩
  · intro t t' ht hstep
    exact safeReadStep_filled ht hstep

/-- A call that returns has read exactly `count` bytes, and in every state on the
way, also of a call that does not return, the counter is the number of bytes
read so far. -/
theorem safeRead_exact (fd : Socket) (buf : List UInt8) (count : UInt16) :
    (∀ s, safeRead fd buf count = .ok s →
      s.bytesRead = count ∧ s.buf = fd.stream.take count.toNat ++ buf.drop count.toNat ∧
        s.fd.stream = fd.stream.drop count.toNat ∧ count.toNat ≤ fd.stream.length ∧
        count.toNat ≤ buf.length) ∧
      ∀ t, Reaches (safeReadStep count) ⟨fd, buf, 0⟩ t →
        t.Filled fd buf count ∧
          ∀ t', safeReadStep count t = .ok (some t') → ∃ n, t.Advances t' n := by
  constructor
  · intro s hs
    obtain ⟨hreach, hstop⟩ := whileLoop_correct hs
    have hfilled := safeRead_filled hreach
    have hcount : s.bytesRead = count := UInt16.le_antisymm hfilled.le (safeReadStep_stop hstop)
    obtain ⟨-, havailable, hroom, hstream, hbuf⟩ := hfilled
    rw [hcount] at havailable hroom hstream hbuf
    exact ⟨hcount, hbuf, hstream, havailable, hroom⟩
  · intro t ht
    refine ⟨safeRead_filled ht, ?_⟩
    intro t' hstep
    obtain ⟨n, -, hadvances⟩ := safeReadStep_advances (safeRead_filled ht) hstep
    exact ⟨n, hadvances⟩

/-- Four of six bytes, with failed, empty and short reads in between. -/
def piecewiseSocket : Socket where
  stream := [1, 2, 3, 4, 5, 6]
  reads := [none, some 0, some 2, none, some 9]
  writes := []
  sent := []
  failed := []

theorem safeRead_exact_piecewise :
    ∃ s, safeRead piecewiseSocket [0, 0, 0, 0] 4 = .ok s ∧ s.bytesRead = 4 ∧
      s.buf = [1, 2, 3, 4] ∧ s.fd.stream = [5, 6] := by
  have hreturns : returns (safeRead piecewiseSocket [0, 0, 0, 0] 4) (fun _ => true) = true := by
    decide
  obtain ⟨s, hs, -⟩ := exists_of_returns hreturns
  obtain ⟨hcount, hbuf, hstream, -⟩ := (safeRead_exact piecewiseSocket [0, 0, 0, 0] 4).1 s hs
  exact ⟨s, hs, hcount, hbuf, hstream⟩

end OrssNic
