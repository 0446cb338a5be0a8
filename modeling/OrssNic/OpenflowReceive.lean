import OrssNic.OpenflowDecode

/-!
# Receiving messages

The messages on the wire, and what the reading functions make of a stream of
them. `Delivers reads n` bounds the behaviour of the socket: no read that hands
over bytes stops inside a header, and `n` of the coming reads do hand over.
-/

namespace OrssNic
open CLoops CEndian

structure WireMessage where
  version : UInt8
  type : UInt8
  xid : UInt32
  body : List UInt8

namespace WireMessage

def size (m : WireMessage) : ℕ := OFP_HEADER_LEN + m.body.length

def header (m : WireMessage) : OpenflowHeader := ⟨m.version, m.type, UInt16.ofNat m.size, m.xid⟩

def headerBytes (m : WireMessage) : List UInt8 :=
  [m.version, m.type] ++ be16 (UInt16.ofNat m.size) ++ be32 m.xid

def bytes (m : WireMessage) : List UInt8 := m.headerBytes ++ m.body

def Fits (m : WireMessage) : Prop := m.size < 2 ^ 16

theorem headerBytes_length (m : WireMessage) : m.headerBytes.length = OFP_HEADER_LEN := by
  simp [headerBytes, OFP_HEADER_LEN]

theorem bytes_length (m : WireMessage) : m.bytes.length = m.size := by
  rw [bytes, List.length_append, m.headerBytes_length, size]

theorem Fits.length_toNat {m : WireMessage} (h : m.Fits) : m.header.length.toNat = m.size := by
  rw [header, UInt16.toNat_ofNat', Nat.mod_eq_of_lt h]

theorem loadHeader_headerBytes (m : WireMessage) :
    { loadHeader m.headerBytes with
      length := ntohs (loadHeader m.headerBytes).length
      xid := ntohl (loadHeader m.headerBytes).xid } = m.header := by
  simp only [loadHeader, headerBytes, header, List.append_assoc]
  rw [ntohs_loadU16 (x := UInt16.ofNat m.size) (by simp), ntohl_loadU32_be32 (x := m.xid) (by simp)]
  simp [loadU8_eq]

end WireMessage

structure Delivers (reads : List (Option ℕ)) (n : ℕ) : Prop where
  caps : ∀ k, some k ∈ reads → OFP_HEADER_LEN ≤ k
  budget : n ≤ reads.countP Option.isSome

namespace Delivers
variable {reads : List (Option ℕ)} {n : ℕ}

theorem ne_nil (h : Delivers reads n) (hn : 0 < n) : reads ≠ [] := by
  rintro rfl
  have := h.budget
  simp at this
  omega

theorem tail_none (h : Delivers (none :: reads) n) : Delivers reads n := by
  refine ⟨fun k hk => h.caps k (List.mem_cons_of_mem _ hk), ?_⟩
  simpa using h.budget

theorem tail_some {k m : ℕ} (h : Delivers (some k :: reads) (m + n)) (hm : 1 ≤ m) :
    Delivers reads n := by
  refine ⟨fun k hk => h.caps k (List.mem_cons_of_mem _ hk), ?_⟩
  have := h.budget
  rw [List.countP_cons_of_pos rfl] at this
  omega

theorem cap_le {k : ℕ} (h : Delivers (some k :: reads) n) : OFP_HEADER_LEN ≤ k :=
  h.caps k List.mem_cons_self

end Delivers

/-! ## The body -/

/-- The outcomes of `read` that are left when a block of `count` bytes is
complete, if it ever is. -/
def readsAfter : List (Option ℕ) → ℕ → Option (List (Option ℕ))
  | reads, 0 => some reads
  | [], _ + 1 => none
  | none :: reads, count + 1 => readsAfter reads (count + 1)
  | some k :: reads, count + 1 => readsAfter reads (count + 1 - k)

theorem readsAfter_zero (reads : List (Option ℕ)) : readsAfter reads 0 = some reads := by
  cases reads <;> rfl

theorem readsAfter_nil {count : ℕ} (h : 0 < count) : readsAfter [] count = none := by
  obtain ⟨count, rfl⟩ := Nat.exists_eq_add_of_lt h
  rw [zero_add, readsAfter]

theorem readsAfter_none (reads : List (Option ℕ)) {count : ℕ} (h : 0 < count) :
    readsAfter (none :: reads) count = readsAfter reads count := by
  obtain ⟨count, rfl⟩ := Nat.exists_eq_add_of_lt h
  rw [zero_add, readsAfter]

theorem readsAfter_some (reads : List (Option ℕ)) (k : ℕ) {count : ℕ} (h : 0 < count) :
    readsAfter (some k :: reads) count = readsAfter reads (count - min k count) := by
  obtain ⟨count, rfl⟩ := Nat.exists_eq_add_of_lt h
  have hrest : 0 + count + 1 - min k (0 + count + 1) = count + 1 - k := by omega
  rw [hrest, zero_add, readsAfter]

theorem readsAfter_suffix {reads reads' : List (Option ℕ)} {count : ℕ}
    (h : readsAfter reads count = some reads') : reads' <:+ reads := by
  induction reads, count using readsAfter.induct with
  | case1 reads =>
    rw [readsAfter_zero, Option.some.injEq] at h
    rw [h]
  | case2 count => cases h
  | case3 reads count ih => exact (ih h).trans (List.suffix_cons _ _)
  | case4 k reads count ih => exact (ih h).trans (List.suffix_cons _ _)

theorem readsAfter_total {reads : List (Option ℕ)} {count n : ℕ}
    (hpositive : ∀ k, some k ∈ reads → 0 < k)
    (hbudget : count + n ≤ reads.countP Option.isSome) :
    ∃ reads', readsAfter reads count = some reads' ∧ n ≤ reads'.countP Option.isSome := by
  induction reads, count using readsAfter.induct with
  | case1 reads => exact ⟨reads, readsAfter_zero reads, (Nat.le_add_left n 0).trans hbudget⟩
  | case2 count =>
    rw [List.countP_nil] at hbudget
    omega
  | case3 reads count ih =>
    rw [readsAfter]
    exact ih (fun k hk => hpositive k (List.mem_cons_of_mem _ hk)) (by simpa using hbudget)
  | case4 k reads count ih =>
    have hk := hpositive k List.mem_cons_self
    rw [List.countP_cons_of_pos rfl] at hbudget
    rw [readsAfter]
    exact ih (fun k hk => hpositive k (List.mem_cons_of_mem _ hk)) (by omega)

theorem Delivers.readsAfter {reads : List (Option ℕ)} {count n : ℕ}
    (h : Delivers reads (count + n)) :
    ∃ reads', readsAfter reads count = some reads' ∧ Delivers reads' n := by
  have hpositive : ∀ k, some k ∈ reads → 0 < k :=
    fun k hk => lt_of_lt_of_le (by decide) (h.caps k hk)
  obtain ⟨reads', hafter, hbudget⟩ := readsAfter_total hpositive h.budget
  exact ⟨reads', hafter, fun k hk => h.caps k ((readsAfter_suffix hafter).subset hk), hbudget⟩

theorem storeBytes_eq {block bytes : List UInt8} {offset : ℕ}
    (h : offset + bytes.length ≤ block.length) :
    storeBytes block offset bytes =
      .ok (block.take offset ++ bytes ++ block.drop (offset + bytes.length)) := by
  rw [storeBytes, if_pos h]

/-- What `safe_read` comes to: the block is filled with the next bytes of the
stream, or the reads run out before that. -/
def SafeRead.completed (count : UInt16) (s : SafeRead) : Except Halt SafeRead :=
  match readsAfter s.fd.reads (count.toNat - s.bytesRead.toNat) with
  | none => .error .blocked
  | some reads => .ok ⟨{ s.fd with
      stream := s.fd.stream.drop (count.toNat - s.bytesRead.toNat), reads := reads },
      s.buf.take s.bytesRead.toNat ++ s.fd.stream.take (count.toNat - s.bytesRead.toNat), count⟩

theorem safeReadStep_none {count : UInt16} {s : SafeRead} {reads : List (Option ℕ)}
    (hlt : s.bytesRead < count) (hreads : s.fd.reads = none :: reads) :
    safeReadStep count s = .ok (some { s with fd := { s.fd with reads := reads } }) := by
  simp only [safeReadStep, if_pos hlt, read, hreads, bind, Except.bind, pure, Except.pure]

theorem safeReadStep_some {count : UInt16} {k m : ℕ} {s : SafeRead} {reads : List (Option ℕ)}
    (hm : m = min k (count.toNat - s.bytesRead.toNat))
    (hstream : count.toNat - s.bytesRead.toNat ≤ s.fd.stream.length)
    (hsize : s.buf.length = count.toNat) (hlt : s.bytesRead < count)
    (hreads : s.fd.reads = some k :: reads) :
    safeReadStep count s = .ok (some ⟨{ s.fd with stream := s.fd.stream.drop m, reads := reads },
      s.buf.take s.bytesRead.toNat ++ s.fd.stream.take m ++ s.buf.drop (s.bytesRead.toNat + m),
      s.bytesRead + UInt16.ofNat m⟩) := by
  have hlt' := UInt16.lt_iff_toNat_lt.mp hlt
  have htake : (s.fd.stream.take m).length = m := by
    rw [List.length_take]
    omega
  have hfit : s.bytesRead.toNat + (s.fd.stream.take m).length ≤ s.buf.length := by
    rw [htake, hsize]
    omega
  have hstore := storeBytes_eq hfit
  rw [htake] at hstore
  simp only [safeReadStep, if_pos hlt, read, hreads, ← hm, hstore, htake, bind, Except.bind, pure,
    Except.pure]

theorem safeReadLoop_eq {count : UInt16} {n : ℕ} {s : SafeRead}
    (hle : s.bytesRead.toNat ≤ count.toNat) (hsize : s.buf.length = count.toNat)
    (hstream : count.toNat - s.bytesRead.toNat ≤ s.fd.stream.length)
    (hn : s.fd.reads.length < n) :
    whileLoop .blocked (safeReadStep count) n s = s.completed count := by
  induction n generalizing s with
  | zero => exact absurd hn (Nat.not_lt_zero _)
  | succ n ih =>
    by_cases hlt : s.bytesRead < count
    · have hlt' := UInt16.lt_iff_toNat_lt.mp hlt
      have hpos : 0 < count.toNat - s.bytesRead.toNat := by omega
      cases hreads : s.fd.reads with
      | nil =>
        simp only [whileLoop, safeReadStep, if_pos hlt, read, hreads, SafeRead.completed,
          readsAfter_nil hpos, bind, Except.bind]
      | cons outcome reads =>
        rw [hreads, List.length_cons] at hn
        cases outcome with
        | none =>
          have hshort : reads.length < n := by simpa using hn
          have hrest := ih (s := { s with fd := { s.fd with reads := reads } }) hle hsize hstream
            hshort
          rw [whileLoop_step (safeReadStep_none hlt hreads), hrest, SafeRead.completed,
            SafeRead.completed, hreads, readsAfter_none reads hpos]
        | some k =>
          obtain ⟨m, hm⟩ : ∃ m, m = min k (count.toNat - s.bytesRead.toNat) := ⟨_, rfl⟩
          have hcount := count.toNat_lt
          have hnext : (s.bytesRead + UInt16.ofNat m).toNat = s.bytesRead.toNat + m := by
            rw [UInt16.toNat_add, UInt16.toNat_ofNat']
            omega
          have hrest : count.toNat - (s.bytesRead.toNat + m) =
              count.toNat - s.bytesRead.toNat - m := by omega
          have hsplit : m + (count.toNat - s.bytesRead.toNat - m) =
              count.toNat - s.bytesRead.toNat := by omega
          have hfront : (s.buf.take s.bytesRead.toNat ++ s.fd.stream.take m).length =
              s.bytesRead.toNat + m := by
            rw [List.length_append, List.length_take, List.length_take]
            omega
          rw [whileLoop_step (safeReadStep_some hm hstream hsize hlt hreads), ih]
          · simp only [SafeRead.completed, hnext, hrest, hreads, readsAfter_some reads k hpos, ← hm,
              List.drop_drop, hsplit]
            rw [← hfront, List.take_left, List.append_assoc, ← List.take_add, hsplit]
          · rw [hnext]
            omega
          · simp only [List.length_append, List.length_take, List.length_drop]
            omega
          · simp only [hnext, List.length_drop]
            omega
          · simpa using hn
    · have hge := not_lt.mp (mt UInt16.lt_iff_toNat_lt.mpr hlt)
      have hdone : s.bytesRead = count := UInt16.toNat_inj.mp (le_antisymm hle hge)
      have hstop : safeReadStep count s = .ok none := by
        rw [safeReadStep, if_neg hlt]
        rfl
      rw [whileLoop_stop hstop, SafeRead.completed, hdone, Nat.sub_self, readsAfter_zero, ← hsize]
      simp only [List.take_length, List.take_zero, List.append_nil, List.drop_zero]
      rw [← hdone]

theorem safeRead_body {fd : Socket} {body rest : List UInt8}
    (hstream : fd.stream = body ++ rest) (hlt : body.length < 2 ^ 16) :
    safeRead fd (List.replicate body.length 0) (UInt16.ofNat body.length) =
      match readsAfter fd.reads body.length with
      | none => .error .blocked
      | some reads => .ok ⟨{ fd with stream := rest, reads := reads }, body,
        UInt16.ofNat body.length⟩ := by
  have htoNat : (UInt16.ofNat body.length).toNat = body.length := by
    rw [UInt16.toNat_ofNat', Nat.mod_eq_of_lt hlt]
  have hloop := @safeReadLoop_eq (UInt16.ofNat body.length) (fd.reads.length + 1)
    ⟨fd, List.replicate body.length 0, 0⟩ (by simp) (by rw [List.length_replicate, htoNat])
    (by rw [htoNat, hstream]; simp) (Nat.lt_succ_self _)
  rw [safeRead, hloop, SafeRead.completed, htoNat]
  simp only [UInt16.toNat_zero, Nat.sub_zero, List.take_zero, List.nil_append, hstream,
    List.drop_left, List.take_left]

/-! ## A message -/

theorem OpenflowHeader.bytes_length (header : OpenflowHeader) :
    header.bytes.length = OFP_HEADER_LEN := by
  simp [bytes, OFP_HEADER_LEN]

/-- Without data the old header is swapped once more, and nothing is consumed. -/
theorem readOpenflowMessage_none {fd : Socket} {reads : List (Option ℕ)}
    (hreads : fd.reads = none :: reads) (msg : OpenflowMessage) :
    ∃ msg', readOpenflowMessage fd msg = .ok (0, { fd with reads := reads }, msg') := by
  have hstore : storeBytes msg.header.bytes 0 [] = .ok msg.header.bytes := by
    rw [storeBytes_eq (by simp)]
    simp
  simp [readOpenflowMessage, read, hreads, hstore, bind, Except.bind, pure, Except.pure]

/-- A message that fits arrives as it was sent when its header comes in one
piece. A message without a body leaves the old `data` in place. -/
theorem readOpenflowMessage_whole {fd : Socket} {reads : List (Option ℕ)} {k : ℕ}
    {m : WireMessage} {rest : List UInt8} (hreads : fd.reads = some k :: reads)
    (hstream : fd.stream = m.bytes ++ rest) (hfits : m.Fits) (hcap : OFP_HEADER_LEN ≤ k)
    (msg : OpenflowMessage) :
    readOpenflowMessage fd msg =
      match readsAfter reads m.body.length with
      | none => .error .blocked
      | some reads' => .ok (1, { fd with stream := rest, reads := reads' },
        ⟨m.header, if m.body = [] then msg.data else some m.body⟩) := by
  have hfront : fd.stream.take OFP_HEADER_LEN = m.headerBytes := by
    rw [hstream, WireMessage.bytes, List.append_assoc, ← m.headerBytes_length, List.take_left]
  have hback : fd.stream.drop OFP_HEADER_LEN = m.body ++ rest := by
    rw [hstream, WireMessage.bytes, List.append_assoc, ← m.headerBytes_length, List.drop_left]
  have hstore : storeBytes msg.header.bytes 0 m.headerBytes = .ok m.headerBytes := by
    rw [storeBytes_eq (by rw [m.headerBytes_length, msg.header.bytes_length]; decide),
      m.headerBytes_length, zero_add, ← msg.header.bytes_length]
    simp
  have hpos : 0 < m.headerBytes.length := by
    rw [m.headerBytes_length]
    decide
  have hread : read fd OFP_HEADER_LEN =
      .ok (some m.headerBytes, { fd with stream := m.body ++ rest, reads := reads }) := by
    simp only [read, hreads, Nat.min_eq_right hcap, hfront, hback]
  have hheader := m.loadHeader_headerBytes
  have hlength : (ntohs (loadHeader m.headerBytes).length).toNat = m.size := by
    rw [← hfits.length_toNat]
    exact congrArg (fun header : OpenflowHeader => header.length.toNat) hheader
  simp only [readOpenflowMessage, hread, bind, Except.bind, pure, Except.pure, Option.getD_some,
    hstore, hheader, if_pos hpos, hlength]
  by_cases hbody : m.body = []
  · have hnot : ¬OFP_HEADER_LEN < m.size := by
      rw [WireMessage.size, hbody]
      simp
    rw [if_neg hnot, if_pos hbody, hbody, List.nil_append, List.length_nil, readsAfter_zero]
  · have hlong : OFP_HEADER_LEN < m.size := by
      have := List.length_pos_iff.mpr hbody
      rw [WireMessage.size]
      omega
    have hcount : m.size - OFP_HEADER_LEN = m.body.length := by
      rw [WireMessage.size, Nat.add_sub_cancel_left]
    have hlt : m.body.length < 2 ^ 16 := by
      have h : m.size < 2 ^ 16 := hfits
      rw [WireMessage.size] at h
      omega
    have hrest : ({ fd with stream := m.body ++ rest, reads := reads } : Socket).stream =
        m.body ++ rest := rfl
    rw [if_pos hlong, if_neg hbody, hcount, safeRead_body hrest hlt]
    cases readsAfter reads m.body.length <;> rfl

theorem readOpenflowMessage_some {fd : Socket} {reads : List (Option ℕ)} {k n : ℕ}
    {m : WireMessage} {rest : List UInt8} (hreads : fd.reads = some k :: reads)
    (hstream : fd.stream = m.bytes ++ rest) (hfits : m.Fits)
    (hdelivers : Delivers fd.reads (m.size + n)) (msg : OpenflowMessage) :
    ∃ reads', readOpenflowMessage fd msg = .ok (1, { fd with stream := rest, reads := reads' },
        ⟨m.header, if m.body = [] then msg.data else some m.body⟩) ∧
      Delivers reads' n ∧ reads'.length < fd.reads.length := by
  rw [hreads, WireMessage.size, add_assoc] at hdelivers
  obtain ⟨reads', hafter, hdelivers'⟩ := (hdelivers.tail_some (by decide)).readsAfter
  refine ⟨reads', ?_, hdelivers', ?_⟩
  · rw [readOpenflowMessage_whole hreads hstream hfits hdelivers.cap_le, hafter]
  · rw [hreads]
    exact Nat.lt_succ_of_le (readsAfter_suffix hafter).length_le

/-! ## Waiting -/

def WireMessage.Unrelated (type : UInt8) (xid : UInt32) (m : WireMessage) : Prop :=
  m.Fits ∧ (m.type ≠ type ∨ m.xid ≠ xid)

def WireMessage.SetAside (type : UInt8) (xid : UInt32) (m : WireMessage) : Prop :=
  m.Fits ∧ ¬(m.type = type ∧ (xid = 0 ∨ m.xid = xid))

theorem WireMessage.Unrelated.setAside {type : UInt8} {xid : UInt32} {m : WireMessage}
    (h : m.Unrelated type xid) (hxid : xid ≠ 0) : m.SetAside type xid := by
  refine ⟨h.1, ?_⟩
  rintro ⟨htype, hzero | hequal⟩
  · exact hxid hzero
  · exact h.2.elim (· htype) (· hequal)

def wireBytes (messages : List WireMessage) : List UInt8 := messages.flatMap WireMessage.bytes

section Wait
variable {type : UInt8} {xid : UInt32} {m : WireMessage} {rest : List UInt8} {n total : ℕ}
variable {fd : Socket}

structure Waiting.Pending (type : UInt8) (xid : UInt32) (m : WireMessage) (rest : List UInt8)
    (n total : ℕ) (fd : Socket) (left : List WireMessage) (s : Waiting) : Prop where
  flag : s.msgReceived = false
  socket : s.connection.fd =
    { fd with stream := wireBytes (left ++ [m]) ++ rest, reads := s.connection.fd.reads }
  delivers : Delivers s.connection.fd.reads ((wireBytes (left ++ [m])).length + n)
  count : s.connection.nbMsgBuffered.toNat + left.length = total
  aside : ∀ u ∈ left, u.SetAside type xid

structure Waiting.Received (m : WireMessage) (rest : List UInt8) (n total : ℕ) (fd : Socket)
    (s : Waiting) : Prop where
  flag : s.msgReceived = true
  socket : s.connection.fd = { fd with stream := rest, reads := s.connection.fd.reads }
  delivers : Delivers s.connection.fd.reads n
  count : s.connection.nbMsgBuffered.toNat = total
  msg : s.msg = ⟨m.header, some m.body⟩

theorem Waiting.Pending.reads_ne_nil {left : List WireMessage} {s : Waiting}
    (hs : s.Pending type xid m rest n total fd left) : s.connection.fd.reads ≠ [] := by
  have hpos : 0 < (wireBytes (left ++ [m])).length + n := by
    simp only [wireBytes, List.flatMap_append, List.flatMap_singleton, List.length_append,
      m.bytes_length, WireMessage.size, OFP_HEADER_LEN]
    omega
  exact hs.delivers.ne_nil hpos

theorem waitStep_idle {left : List WireMessage} {s : Waiting} {reads : List (Option ℕ)}
    (hs : s.Pending type xid m rest n total fd left)
    (hreads : s.connection.fd.reads = none :: reads) :
    ∃ s', waitStep type xid s = .ok (some s') ∧
      s'.connection.fd.reads.length < s.connection.fd.reads.length ∧
      s'.Pending type xid m rest n total fd left := by
  obtain ⟨msg', hread⟩ := readOpenflowMessage_none hreads s.msg
  refine ⟨⟨{ s.connection with fd := { s.connection.fd with reads := reads } }, msg', false⟩,
    ?_, by simp [hreads], rfl, ?_, ?_, hs.count, hs.aside⟩
  · simp [waitStep, hs.flag, hread, bind, Except.bind, pure, Except.pure]
  · rw [hs.socket]
  · exact (hreads ▸ hs.delivers).tail_none

theorem waitStep_awaited {s : Waiting} {reads : List (Option ℕ)} {k : ℕ} (hfits : m.Fits)
    (hbody : m.body ≠ []) (hmatch : m.type = type ∧ m.xid = xid)
    (hs : s.Pending type xid m rest n total fd [])
    (hreads : s.connection.fd.reads = some k :: reads) :
    ∃ s', waitStep type xid s = .ok (some s') ∧
      s'.connection.fd.reads.length < s.connection.fd.reads.length ∧
      s'.Received m rest n total fd := by
  have hstream : s.connection.fd.stream = m.bytes ++ rest := by
    rw [hs.socket]
    simp [wireBytes]
  have hbudget : Delivers s.connection.fd.reads (m.size + n) := by
    simpa [wireBytes, m.bytes_length] using hs.delivers
  obtain ⟨reads', hread, hdel, hlen⟩ :=
    readOpenflowMessage_some hreads hstream hfits hbudget s.msg
  rw [if_neg hbody] at hread
  refine ⟨⟨{ s.connection with fd := { s.connection.fd with
    stream := rest, reads := reads' } }, ⟨m.header, some m.body⟩, true⟩, ?_, hlen, rfl, ?_, hdel,
    by simpa using hs.count, rfl⟩
  · have hthis : m.header.type = type ∧ (xid = 0 ∨ m.header.xid = xid) :=
      ⟨hmatch.1, .inr hmatch.2⟩
    simp [waitStep, hs.flag, hread, hthis, bind, Except.bind, pure, Except.pure]
  · rw [hs.socket]

theorem waitStep_setAside {u : WireMessage} {left : List WireMessage} {s : Waiting}
    {reads : List (Option ℕ)} {k : ℕ} (htotal : total ≤ MSG_BUFFER_SIZE)
    (hs : s.Pending type xid m rest n total fd (u :: left))
    (hreads : s.connection.fd.reads = some k :: reads) :
    ∃ s', waitStep type xid s = .ok (some s') ∧
      s'.connection.fd.reads.length < s.connection.fd.reads.length ∧
      s'.Pending type xid m rest n total fd left := by
  obtain ⟨hflag, hsocket, hdelivers, hcount, haside⟩ := hs
  rw [List.forall_mem_cons] at haside
  obtain ⟨hufits, hnot⟩ := haside.1
  have hstream : s.connection.fd.stream = u.bytes ++ (wireBytes (left ++ [m]) ++ rest) := by
    rw [hsocket]
    simp [wireBytes]
  have hbudget : Delivers s.connection.fd.reads
      (u.size + ((wireBytes (left ++ [m])).length + n)) := by
    have h : (wireBytes (u :: left ++ [m])).length =
        u.size + (wireBytes (left ++ [m])).length := by
      rw [wireBytes, List.cons_append, List.flatMap_cons, List.length_append,
        u.bytes_length, wireBytes]
    rwa [h, add_assoc] at hdelivers
  obtain ⟨reads', hread, hdel, hlen⟩ :=
    readOpenflowMessage_some hreads hstream hufits hbudget s.msg
  rw [List.length_cons] at hcount
  have hroom : s.connection.nbMsgBuffered.toNat < MSG_BUFFER_SIZE := by omega
  have hnext : (s.connection.nbMsgBuffered + 1).toNat = s.connection.nbMsgBuffered.toNat + 1 := by
    have : MSG_BUFFER_SIZE = 16 := rfl
    rw [UInt8.toNat_add]
    simp
    omega
  refine ⟨⟨⟨{ s.connection.fd with stream := wireBytes (left ++ [m]) ++ rest, reads := reads' },
    s.connection.msgBuffer.set s.connection.nbMsgBuffered.toNat
      ⟨u.header, if u.body = [] then s.msg.data else some u.body⟩,
    s.connection.nbMsgBuffered + 1, by rw [List.length_set, s.connection.allocated]⟩,
    ⟨u.header, if u.body = [] then s.msg.data else some u.body⟩, false⟩, ?_, hlen, rfl, ?_, hdel,
    ?_, haside.2⟩
  · change ¬(u.header.type = type ∧ (xid = 0 ∨ u.header.xid = xid)) at hnot
    simp only [waitStep, hflag, hread, if_neg hnot, bufferMessage, if_pos hroom, bind,
      Except.bind, pure, Except.pure, Bool.false_eq_true, if_false, zero_lt_one, if_true]
  · rw [hsocket]
  · simp only [hnext]
    omega

theorem waitStep_pending {left : List WireMessage} {s : Waiting} (htotal : total ≤ MSG_BUFFER_SIZE)
    (hfits : m.Fits) (hbody : m.body ≠ []) (hmatch : m.type = type ∧ m.xid = xid)
    (hs : s.Pending type xid m rest n total fd left) :
    ∃ s', waitStep type xid s = .ok (some s') ∧
      s'.connection.fd.reads.length < s.connection.fd.reads.length ∧
      (s'.Received m rest n total fd ∨ ∃ left', s'.Pending type xid m rest n total fd left') := by
  obtain ⟨outcome, reads, hreads⟩ := List.exists_cons_of_ne_nil hs.reads_ne_nil
  cases outcome with
  | none =>
    obtain ⟨s', hok, hlt, hs'⟩ := waitStep_idle hs hreads
    exact ⟨s', hok, hlt, .inr ⟨left, hs'⟩⟩
  | some k =>
    cases left with
    | nil =>
      obtain ⟨s', hok, hlt, hs'⟩ := waitStep_awaited hfits hbody hmatch hs hreads
      exact ⟨s', hok, hlt, .inl hs'⟩
    | cons u left =>
      obtain ⟨s', hok, hlt, hs'⟩ := waitStep_setAside htotal hs hreads
      exact ⟨s', hok, hlt, .inr ⟨left, hs'⟩⟩

def Waiting.passes (s : Waiting) : ℕ :=
  s.connection.fd.reads.length + if s.msgReceived then 0 else 1

def Waiting.Going (type : UInt8) (xid : UInt32) (m : WireMessage) (rest : List UInt8)
    (n total : ℕ) (fd : Socket) (s : Waiting) : Prop :=
  s.Received m rest n total fd ∨ ∃ left, s.Pending type xid m rest n total fd left

theorem waitStep_cases {s : Waiting} (htotal : total ≤ MSG_BUFFER_SIZE)
    (hfits : m.Fits) (hbody : m.body ≠ []) (hmatch : m.type = type ∧ m.xid = xid)
    (hs : s.Going type xid m rest n total fd) :
    waitStep type xid s = .ok none ∨ ∃ s', waitStep type xid s = .ok (some s') ∧
      s'.Going type xid m rest n total fd ∧ s'.passes < s.passes := by
  rcases hs with hs | ⟨left, hs⟩
  · exact .inl (by simp [waitStep, hs.flag, pure, Except.pure])
  · obtain ⟨s', hok, hlt, hs'⟩ := waitStep_pending htotal hfits hbody hmatch hs
    refine .inr ⟨s', hok, hs', ?_⟩
    simp only [Waiting.passes, hs.flag, Bool.false_eq_true, if_false]
    split_ifs <;> omega

theorem openflowWaitForMessage_eq {connection : OpenflowConnection} {others : List WireMessage}
    (hroom : connection.nbMsgBuffered.toNat + others.length ≤ MSG_BUFFER_SIZE)
    (hfits : m.Fits) (hbody : m.body ≠ []) (hmatch : m.type = type ∧ m.xid = xid)
    (hothers : ∀ u ∈ others, u.SetAside type xid)
    (hstream : connection.fd.stream = wireBytes (others ++ [m]) ++ rest)
    (hdelivers : Delivers connection.fd.reads ((wireBytes (others ++ [m])).length + n))
    (msg : OpenflowMessage) :
    ∃ connection' reads', openflowWaitForMessage connection type msg xid =
        .ok (connection', ⟨m.header, some m.body⟩) ∧
      connection'.fd = { connection.fd with stream := rest, reads := reads' } ∧
      Delivers reads' n ∧
      connection'.nbMsgBuffered.toNat = connection.nbMsgBuffered.toNat + others.length := by
  obtain ⟨total, htotal⟩ : ∃ total, connection.nbMsgBuffered.toNat + others.length = total :=
    ⟨_, rfl⟩
  have hstart : (⟨connection, msg, false⟩ : Waiting).Going type xid m rest n total
      connection.fd :=
    .inr ⟨others, rfl, by rw [← hstream], hdelivers, htotal, hothers⟩
  obtain ⟨s, hloop, hs⟩ := whileLoop_total (n := connection.fd.reads.length + 2) Halt.blocked
    Waiting.passes hstart (by simp [Waiting.passes]) fun t ht =>
      waitStep_cases (htotal ▸ hroom) hfits hbody hmatch ht
  rcases hs with hs | ⟨left, hs⟩
  · refine ⟨s.connection, s.connection.fd.reads, ?_, hs.socket, hs.delivers,
      hs.count.trans htotal.symm⟩
    simp [openflowWaitForMessage, hloop, hs.msg, bind, Except.bind, pure, Except.pure]
  · obtain ⟨t', hok, -⟩ := waitStep_pending (htotal ▸ hroom) hfits hbody hmatch hs
    rw [(whileLoop_correct hloop).2] at hok
    cases hok

end Wait

end OrssNic
