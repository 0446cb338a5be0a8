import OrssNic.OpenflowReceive

/-!
# Framing

`receiveMessages` calls `read_openflow_message` until the stream is used up and
keeps what it returns 1 for. The body of a message is collected piece by piece;
its header is the result of a single `read`. The messages therefore come out as
they were sent exactly when no read stops inside a header.
-/

namespace OrssNic
open CLoops

/-- Without an announced body `data` is what an older message left there. -/
def OpenflowMessage.body (message : OpenflowMessage) : List UInt8 :=
  if OFP_HEADER_LEN < message.header.length.toNat then message.data.getD [] else []

def OpenflowMessage.content (message : OpenflowMessage) : OpenflowHeader × List UInt8 :=
  (message.header, message.body)

def WireMessage.content (m : WireMessage) : OpenflowHeader × List UInt8 := (m.header, m.body)

theorem WireMessage.Fits.content {m : WireMessage} (h : m.Fits) (data : Option (List UInt8)) :
    (⟨m.header, if m.body = [] then data else some m.body⟩ : OpenflowMessage).content =
      m.content := by
  simp only [OpenflowMessage.content, OpenflowMessage.body, WireMessage.content, h.length_toNat,
    WireMessage.size]
  by_cases hbody : m.body = []
  · simp [hbody]
  · have hpos := List.length_pos_iff.mpr hbody
    simp [hbody, hpos]

structure Receiving where
  fd : Socket
  message : OpenflowMessage
  kept : List (OpenflowHeader × List UInt8)

def receiveStep (s : Receiving) : Except Halt (Option Receiving) := do
  if s.fd.stream = [] then
    return none
  let (received, fd, message) ← readOpenflowMessage s.fd s.message
  if 0 < received then
    return some ⟨fd, message, s.kept ++ [message.content]⟩
  return some ⟨fd, message, s.kept⟩

def receiveMessages (fd : Socket) (message : OpenflowMessage) : Except Halt Receiving :=
  whileLoop .blocked receiveStep (fd.reads.length + 1) ⟨fd, message, []⟩

/-- The reads hand over all messages, and every read that meets the first byte
of a message may hand over its whole header. `missing` is what the body at hand
still lacks. -/
def HeadersWhole : List (Option ℕ) → ℕ → List WireMessage → Prop
  | [], missing, messages => missing = 0 ∧ messages = []
  | none :: reads, missing, messages => HeadersWhole reads missing messages
  | some k :: reads, missing + 1, messages => HeadersWhole reads (missing + 1 - k) messages
  | some _ :: _, 0, [] => True
  | some k :: reads, 0, m :: messages =>
    OFP_HEADER_LEN ≤ k ∧ HeadersWhole reads m.body.length messages

theorem headersWhole_readsAfter (reads : List (Option ℕ)) (missing : ℕ)
    (messages : List WireMessage) :
    HeadersWhole reads missing messages ↔
      ∃ reads', readsAfter reads missing = some reads' ∧ HeadersWhole reads' 0 messages := by
  induction reads, missing using readsAfter.induct with
  | case1 reads => simp [readsAfter_zero]
  | case2 count => simp [HeadersWhole, readsAfter]
  | case3 reads count ih =>
    rw [HeadersWhole, readsAfter]
    exact ih
  | case4 k reads count ih =>
    rw [HeadersWhole, readsAfter]
    exact ih

theorem headersWhole_nil (reads : List (Option ℕ)) : HeadersWhole reads 0 [] := by
  induction reads with
  | nil => exact ⟨rfl, rfl⟩
  | cons outcome reads ih =>
    cases outcome with
    | none => exact ih
    | some k => trivial

def PositiveReads (reads : List (Option ℕ)) : Prop := ∀ k, some k ∈ reads → 0 < k

theorem PositiveReads.tail {outcome : Option ℕ} {reads : List (Option ℕ)}
    (h : PositiveReads (outcome :: reads)) : PositiveReads reads :=
  fun k hk => h k (List.mem_cons_of_mem _ hk)

/-! ## What one call consumes -/

theorem storeBytes_length {block block' bytes : List UInt8} {offset : ℕ}
    (h : storeBytes block offset bytes = .ok block') : block'.length = block.length := by
  rw [storeBytes] at h
  split_ifs at h with hfit
  cases h
  simp only [List.length_append, List.length_take, List.length_drop]
  omega

/-- What holds in front of every read of `safe_read`, also when the stream ends early. -/
structure SafeRead.Within (fd : Socket) (buf : List UInt8) (count : UInt16) (s : SafeRead) :
    Prop where
  consumed : fd.stream.length ≤ s.fd.stream.length + s.bytesRead.toNat
  le : s.bytesRead.toNat ≤ count.toNat
  size : s.buf.length = buf.length
  reads : s.fd.reads.length ≤ fd.reads.length

theorem safeReadStep_within {fd : Socket} {buf : List UInt8} {count : UInt16} {s s' : SafeRead}
    (hs : s.Within fd buf count) (hstep : safeReadStep count s = .ok (some s')) :
    s'.Within fd buf count := by
  obtain ⟨hconsumed, hle, hsize, hreads'⟩ := hs
  obtain ⟨hlt, valread, hread, hcases⟩ := safeReadStep_ok hstep
  obtain ⟨reads, ⟨hreads, rfl, hfd⟩ | ⟨k, hreads, rfl, hfd⟩⟩ := read_ok hread
  · obtain ⟨-, hbuf, hcounter⟩ | ⟨bytes, hnone, -⟩ := hcases
    · rw [hreads] at hreads'
      constructor
      · rw [hfd, hcounter]
        exact hconsumed
      · rw [hcounter]
        exact hle
      · rw [hbuf]
        exact hsize
      · rw [hfd]
        exact (Nat.le_succ _).trans hreads'
    · cases hnone
  · obtain ⟨hnone, -⟩ | ⟨bytes, hsome, hstore, hcounter⟩ := hcases
    · cases hnone
    · cases hsome
      rw [hreads] at hreads'
      have hlt' := UInt16.lt_iff_toNat_lt.mp hlt
      have hcount := count.toNat_lt
      constructor
      · rw [hfd, hcounter]
        simp only [UInt16.toNat_add, UInt16.toNat_ofNat', List.length_drop, List.length_take]
        omega
      · rw [hcounter]
        simp only [UInt16.toNat_add, UInt16.toNat_ofNat', List.length_take]
        omega
      · exact (storeBytes_length hstore).trans hsize
      · rw [hfd]
        exact (Nat.le_succ _).trans hreads'

theorem safeRead_within {fd : Socket} {buf : List UInt8} {count : UInt16} {s : SafeRead}
    (h : Reaches (safeReadStep count) ⟨fd, buf, 0⟩ s) : s.Within fd buf count :=
  h.invariant ⟨by simp, by simp, rfl, le_rfl⟩ fun _ _ ht hstep => safeReadStep_within ht hstep

theorem safeRead_consumes {fd : Socket} {buf : List UInt8} {count : UInt16} {s : SafeRead}
    (h : safeRead fd buf count = .ok s) :
    fd.stream.length ≤ s.fd.stream.length + count.toNat ∧ s.buf.length = buf.length := by
  have hs := safeRead_within (whileLoop_correct h).1
  exact ⟨hs.consumed.trans (Nat.add_le_add_left hs.le _), hs.size⟩

theorem readOpenflowMessage_consumes {fd fd' : Socket} {msg msg' : OpenflowMessage} {r : ℤ}
    (h : readOpenflowMessage fd msg = .ok (r, fd', msg')) :
    (∃ k reads, fd.reads = some k :: reads ∧ r = 1 ∧
      fd.stream.length ≤ fd'.stream.length + min k OFP_HEADER_LEN + msg'.body.length) ∨
    (r = 0 ∧ fd.stream.length ≤ fd'.stream.length ∧
      ∀ k reads, fd.reads = some k :: reads → fd.stream.take (min k OFP_HEADER_LEN) = []) := by
  obtain ⟨⟨valread, fd₁⟩, hread, h⟩ := bind_eq_ok.mp h
  obtain ⟨bytes, -, h⟩ := bind_eq_ok.mp h
  obtain ⟨reads, ⟨hreads, rfl, rfl⟩ | ⟨k, hreads, rfl, rfl⟩⟩ := read_ok hread
  · cases h
    refine .inr ⟨rfl, le_rfl, ?_⟩
    intro k reads' hsome
    rw [hreads] at hsome
    cases hsome
  · simp only [Option.getD_some] at h
    split_ifs at h with hpos hlong
    · obtain ⟨s, hsafe, h⟩ := bind_eq_ok.mp h
      cases h
      obtain ⟨hused, hsize⟩ := safeRead_consumes hsafe
      refine .inl ⟨k, reads, hreads, rfl, ?_⟩
      have hbound := UInt16.toNat_lt (ntohs (loadHeader bytes).length)
      simp only [List.length_drop, UInt16.toNat_ofNat', List.length_replicate] at hused hsize
      simp only [OpenflowMessage.body, if_pos hlong, Option.getD_some, hsize]
      omega
    · cases h
      refine .inl ⟨k, reads, hreads, rfl, ?_⟩
      simp only [List.length_drop]
      omega
    · cases h
      have hnone := List.eq_nil_of_length_eq_zero (Nat.eq_zero_of_not_pos hpos)
      refine .inr ⟨rfl, ?_, ?_⟩
      · rw [List.length_take] at hpos
        simp only [List.length_drop]
        omega
      · intro k' reads' hsome
        rw [hreads] at hsome
        cases hsome
        exact hnone

/-! ## The messages that are left -/

theorem wireBytes_cons (m : WireMessage) (messages : List WireMessage) :
    wireBytes (m :: messages) = m.bytes ++ wireBytes messages := by
  rw [wireBytes, List.flatMap_cons, wireBytes]

theorem wireBytes_cons_ne_nil (m : WireMessage) (messages : List WireMessage) :
    wireBytes (m :: messages) ≠ [] := by
  rw [wireBytes_cons, WireMessage.bytes, WireMessage.headerBytes]
  simp

theorem wireBytes_cons_length (m : WireMessage) (messages : List WireMessage) :
    (wireBytes (m :: messages)).length =
      OFP_HEADER_LEN + m.body.length + (wireBytes messages).length := by
  rw [wireBytes_cons, List.length_append, m.bytes_length, WireMessage.size]

structure Receiving.Left (left : List WireMessage) (s : Receiving) : Prop where
  fits : ∀ m ∈ left, m.Fits
  stream : s.fd.stream = wireBytes left
  positive : PositiveReads s.fd.reads

namespace Receiving.Left
variable {left : List WireMessage} {m : WireMessage} {s : Receiving} {reads : List (Option ℕ)}

theorem ne_nil (hs : s.Left (m :: left)) : ¬s.fd.stream = [] := by
  rw [hs.stream]
  exact wireBytes_cons_ne_nil m left

theorem stop (hs : s.Left []) : receiveStep s = .ok none := by
  have hstream : s.fd.stream = [] := hs.stream
  simp only [receiveStep, if_pos hstream, pure, Except.pure]

theorem step_nil (hs : s.Left (m :: left)) (hreads : s.fd.reads = []) :
    receiveStep s = .error .blocked := by
  simp only [receiveStep, if_neg hs.ne_nil, readOpenflowMessage, read, hreads, bind, Except.bind]

theorem step_none (hs : s.Left (m :: left)) (hreads : s.fd.reads = none :: reads) :
    ∃ s', receiveStep s = .ok (some s') ∧ s'.fd.reads = reads ∧ s'.kept = s.kept ∧
      s'.Left (m :: left) := by
  obtain ⟨msg', hread⟩ := readOpenflowMessage_none hreads s.message
  have hpositive := hs.positive
  rw [hreads] at hpositive
  refine ⟨⟨{ s.fd with reads := reads }, msg', s.kept⟩, ?_, rfl, rfl, hs.fits, hs.stream,
    hpositive.tail⟩
  simp only [receiveStep, if_neg hs.ne_nil, hread, bind, Except.bind, pure, Except.pure,
    lt_self_iff_false, if_false]

/-- The header comes in one piece, but the reads run out inside the body. -/
theorem step_blocked {k : ℕ} (hs : s.Left (m :: left)) (hreads : s.fd.reads = some k :: reads)
    (hk : OFP_HEADER_LEN ≤ k) (hafter : readsAfter reads m.body.length = none) :
    receiveStep s = .error .blocked := by
  have hsplit : s.fd.stream = m.bytes ++ wireBytes left := by rw [hs.stream, wireBytes_cons]
  have hread := readOpenflowMessage_whole hreads hsplit (hs.fits m List.mem_cons_self) hk s.message
  rw [hafter] at hread
  simp only [receiveStep, if_neg hs.ne_nil, hread, bind, Except.bind]

/-- The header comes in one piece, and so does the body, if in several reads. -/
theorem step_whole {k : ℕ} {reads' : List (Option ℕ)} (hs : s.Left (m :: left))
    (hreads : s.fd.reads = some k :: reads) (hk : OFP_HEADER_LEN ≤ k)
    (hafter : readsAfter reads m.body.length = some reads') :
    ∃ s', receiveStep s = .ok (some s') ∧ s'.fd.reads = reads' ∧
      s'.kept = s.kept ++ [m.content] ∧ s'.Left left := by
  have hsplit : s.fd.stream = m.bytes ++ wireBytes left := by rw [hs.stream, wireBytes_cons]
  obtain ⟨hfits, hfits'⟩ := List.forall_mem_cons.mp hs.fits
  have hread := readOpenflowMessage_whole hreads hsplit hfits hk s.message
  rw [hafter] at hread
  have hpositive := hs.positive
  rw [hreads] at hpositive
  have hpositive' : PositiveReads reads' :=
    fun k' hk' => hpositive.tail k' ((readsAfter_suffix hafter).subset hk')
  refine ⟨⟨{ s.fd with stream := wireBytes left, reads := reads' },
    ⟨m.header, if m.body = [] then s.message.data else some m.body⟩, s.kept ++ [m.content]⟩, ?_,
    rfl, rfl, hfits', rfl, hpositive'⟩
  simp only [receiveStep, if_neg hs.ne_nil, hread, bind, Except.bind, pure, Except.pure,
    zero_lt_one, if_true, hfits.content s.message.data]

end Receiving.Left

/-! ## Whole headers suffice -/

theorem receiveStep_stop {s : Receiving} (h : receiveStep s = .ok none) : s.fd.stream = [] := by
  rw [receiveStep] at h
  split_ifs at h with hstream
  · exact hstream
  · obtain ⟨⟨received, fd, message⟩, -, h⟩ := bind_eq_ok.mp h
    dsimp only at h
    split_ifs at h
    · cases h
    · cases h

/-- What was kept and what is left are the messages that were sent. -/
def Receiving.Framed (messages : List WireMessage) (s : Receiving) : Prop :=
  ∃ left, s.Left left ∧
    s.kept ++ left.map WireMessage.content = messages.map WireMessage.content ∧
    HeadersWhole s.fd.reads 0 left

theorem receiveStep_framed {messages : List WireMessage} {s : Receiving}
    (hs : s.Framed messages) :
    receiveStep s = .ok none ∨ ∃ s', receiveStep s = .ok (some s') ∧ s'.Framed messages ∧
      s'.fd.reads.length < s.fd.reads.length := by
  obtain ⟨left, hs, hkept, hwhole⟩ := hs
  cases left with
  | nil => exact .inl hs.stop
  | cons m left =>
    right
    cases hreads : s.fd.reads with
    | nil =>
      rw [hreads] at hwhole
      exact absurd hwhole.2 (List.cons_ne_nil m left)
    | cons outcome reads =>
      rw [hreads] at hwhole
      cases outcome with
      | none =>
        obtain ⟨s', hok, hreads', hkept', hs'⟩ := hs.step_none hreads
        refine ⟨s', hok, ⟨m :: left, hs', by rw [hkept', hkept], ?_⟩, ?_⟩
        · rw [hreads']
          exact hwhole
        · rw [hreads', List.length_cons]
          exact Nat.lt_succ_self _
      | some k =>
        obtain ⟨hk, hwhole⟩ := hwhole
        obtain ⟨reads', hafter, hwhole⟩ := (headersWhole_readsAfter _ _ left).mp hwhole
        obtain ⟨s', hok, hreads', hkept', hs'⟩ := hs.step_whole hreads hk hafter
        refine ⟨s', hok, ⟨left, hs', ?_, hreads' ▸ hwhole⟩, ?_⟩
        · rw [hkept', ← hkept, List.map_cons, List.append_assoc, List.singleton_append]
        · rw [hreads', List.length_cons]
          exact Nat.lt_succ_of_le (readsAfter_suffix hafter).length_le

theorem receiveMessages_of_headersWhole {fd : Socket} {messages : List WireMessage}
    {message : OpenflowMessage} (hstart : (⟨fd, message, []⟩ : Receiving).Left messages)
    (hwhole : HeadersWhole fd.reads 0 messages) :
    ∃ s, receiveMessages fd message = .ok s ∧ s.kept = messages.map WireMessage.content := by
  have hframed : (⟨fd, message, []⟩ : Receiving).Framed messages :=
    ⟨messages, hstart, by simp, hwhole⟩
  obtain ⟨s, hloop, left, hs, hkept, -⟩ := whileLoop_total (n := fd.reads.length + 1) Halt.blocked
    (fun s : Receiving => s.fd.reads.length) hframed (Nat.lt_succ_self _)
    fun s hs => receiveStep_framed hs
  refine ⟨s, hloop, ?_⟩
  cases left with
  | nil => rw [← hkept, List.map_nil, List.append_nil]
  | cons m left =>
    have hempty := receiveStep_stop (whileLoop_correct hloop).2
    rw [hs.stream] at hempty
    exact absurd hempty (wireBytes_cons_ne_nil m left)

/-! ## Whole headers are needed -/

/-- The bytes that the kept messages would take up on the wire. -/
def contentBytes (kept : List (OpenflowHeader × List UInt8)) : ℕ :=
  (kept.map fun content => OFP_HEADER_LEN + content.2.length).sum

theorem contentBytes_append (kept kept' : List (OpenflowHeader × List UInt8)) :
    contentBytes (kept ++ kept') = contentBytes kept + contentBytes kept' := by
  simp [contentBytes]

theorem contentBytes_messages (messages : List WireMessage) :
    contentBytes (messages.map WireMessage.content) = (wireBytes messages).length := by
  induction messages with
  | nil => rfl
  | cons m messages ih =>
    rw [wireBytes_cons_length, ← ih]
    simp [contentBytes, WireMessage.content]

theorem receiveStep_cases {s s' : Receiving} (h : receiveStep s = .ok (some s')) :
    ∃ received message, readOpenflowMessage s.fd s.message = .ok (received, s'.fd, message) ∧
      s'.kept = s.kept ++ if 0 < received then [message.content] else [] := by
  rw [receiveStep] at h
  split_ifs at h with hstream
  · cases h
  · obtain ⟨⟨received, fd, message⟩, hread, h⟩ := bind_eq_ok.mp h
    dsimp only at h
    split_ifs at h with hpos
    · cases h
      exact ⟨received, message, hread, by rw [if_pos hpos]⟩
    · cases h
      exact ⟨received, message, hread, by rw [if_neg hpos, List.append_nil]⟩

/-- What leaves the stream is never more than what is kept. -/
theorem receiveStep_accounts {s s' : Receiving} (h : receiveStep s = .ok (some s')) :
    s.fd.stream.length + contentBytes s.kept ≤ s'.fd.stream.length + contentBytes s'.kept ∧
      s.kept <+: s'.kept := by
  obtain ⟨received, message, hread, hkept⟩ := receiveStep_cases h
  refine ⟨?_, ⟨_, hkept.symm⟩⟩
  rw [hkept, contentBytes_append]
  rcases readOpenflowMessage_consumes hread with ⟨k, reads, -, rfl, hused⟩ | ⟨rfl, hused, -⟩
  · have hcontent : contentBytes [message.content] = OFP_HEADER_LEN + message.body.length := by
      simp [contentBytes, OpenflowMessage.content]
    rw [if_pos zero_lt_one, hcontent]
    omega
  · omega

theorem receiveLoop_accounts {n : ℕ} {s t : Receiving}
    (h : whileLoop .blocked receiveStep n s = .ok t) :
    s.fd.stream.length + contentBytes s.kept ≤ contentBytes t.kept ∧ s.kept <+: t.kept := by
  obtain ⟨hreach, hstop⟩ := whileLoop_correct h
  have haccounts := hreach.invariant (P := fun t : Receiving =>
    s.fd.stream.length + contentBytes s.kept ≤ t.fd.stream.length + contentBytes t.kept ∧
      s.kept <+: t.kept) ⟨le_rfl, List.prefix_rfl⟩ fun t t' ht hstep => by
    obtain ⟨hbytes, hprefix⟩ := receiveStep_accounts hstep
    exact ⟨ht.1.trans hbytes, ht.2.trans hprefix⟩
  rw [receiveStep_stop hstop, List.length_nil, zero_add] at haccounts
  exact haccounts

/-- A read that stops inside the header of `m` leaves too much of the stream
for the messages that remain to be kept. -/
theorem receiveLoop_header {n k : ℕ} {s t : Receiving} {m : WireMessage}
    {left : List WireMessage} {reads : List (Option ℕ)} (hs : s.Left (m :: left))
    (hloop : whileLoop .blocked receiveStep n s = .ok t)
    (hkept : t.kept = s.kept ++ (m :: left).map WireMessage.content)
    (hreads : s.fd.reads = some k :: reads) : OFP_HEADER_LEN ≤ k := by
  cases n with
  | zero => cases hloop
  | succ n =>
    have hne := wireBytes_cons_ne_nil m left
    rw [whileLoop] at hloop
    split at hloop
    · cases hloop
    · next hstop => exact absurd (hs.stream.symm.trans (receiveStep_stop hstop)) hne
    · next s' hstep =>
      obtain ⟨received, message, hread, hkept'⟩ := receiveStep_cases hstep
      obtain ⟨haccounts, hprefix⟩ := receiveLoop_accounts hloop
      have hpositive := hs.positive
      rw [hreads] at hpositive
      have hk := hpositive k List.mem_cons_self
      rcases readOpenflowMessage_consumes hread with ⟨k', reads', hreads', rfl, hused⟩ |
        ⟨-, -, hnothing⟩
      · rw [hreads] at hreads'
        cases hreads'
        rw [if_pos zero_lt_one] at hkept'
        rw [hkept', hkept, List.map_cons, List.prefix_append_right_inj, List.cons_prefix_cons]
          at hprefix
        have hbody : message.body = m.body := congrArg Prod.snd hprefix.1
        rw [hkept', hkept, contentBytes_append, contentBytes_append, contentBytes_messages,
          hprefix.1, wireBytes_cons_length] at haccounts
        have hcontent : contentBytes [m.content] = OFP_HEADER_LEN + m.body.length := by
          simp [contentBytes, WireMessage.content]
        rw [hs.stream, wireBytes_cons_length, hbody] at hused
        omega
      · have htake := hnothing k reads hreads
        rw [hs.stream, List.take_eq_nil_iff, OFP_HEADER_LEN] at htake
        rcases htake with hzero | hnil
        · omega
        · exact absurd hnil hne

theorem headersWhole_of_receiveLoop {n : ℕ} {s t : Receiving} {left : List WireMessage}
    (hs : s.Left left) (hloop : whileLoop .blocked receiveStep n s = .ok t)
    (hkept : t.kept = s.kept ++ left.map WireMessage.content) :
    HeadersWhole s.fd.reads 0 left := by
  induction n generalizing s left with
  | zero => cases hloop
  | succ n ih =>
    cases left with
    | nil => exact headersWhole_nil _
    | cons m left =>
      cases hreads : s.fd.reads with
      | nil =>
        rw [whileLoop, hs.step_nil hreads] at hloop
        cases hloop
      | cons outcome reads =>
        cases outcome with
        | none =>
          obtain ⟨s', hok, hreads', hkept', hs'⟩ := hs.step_none hreads
          rw [whileLoop_step hok] at hloop
          have hwhole := ih hs' hloop (by rw [hkept, hkept'])
          rwa [hreads'] at hwhole
        | some k =>
          have hk := receiveLoop_header hs hloop hkept hreads
          cases hafter : readsAfter reads m.body.length with
          | none =>
            rw [whileLoop, hs.step_blocked hreads hk hafter] at hloop
            cases hloop
          | some reads' =>
            obtain ⟨s', hok, hreads', hkept', hs'⟩ := hs.step_whole hreads hk hafter
            rw [whileLoop_step hok] at hloop
            have hwhole := ih hs' hloop (by rw [hkept, hkept']; simp)
            rw [hreads'] at hwhole
            exact ⟨hk, (headersWhole_readsAfter _ _ left).mpr ⟨reads', hafter, hwhole⟩⟩

/-- The messages come out as they were sent exactly when the reads hand all of
them over and none stops inside a header. -/
theorem receiveMessages_exact_iff {fd : Socket} {messages : List WireMessage}
    (message : OpenflowMessage) (hfits : ∀ m ∈ messages, m.Fits)
    (hstream : fd.stream = wireBytes messages) (hpositive : PositiveReads fd.reads) :
    (∃ s, receiveMessages fd message = .ok s ∧ s.kept = messages.map WireMessage.content) ↔
      HeadersWhole fd.reads 0 messages := by
  have hstart : (⟨fd, message, []⟩ : Receiving).Left messages := ⟨hfits, hstream, hpositive⟩
  constructor
  · intro hreceived
    obtain ⟨s, hloop, hkept⟩ := hreceived
    exact headersWhole_of_receiveLoop hstart hloop hkept
  · exact receiveMessages_of_headersWhole hstart

def echoRequests : List WireMessage :=
  [⟨OFP_VERSION, OFP_ECHO_REQUEST, 7, []⟩, ⟨OFP_VERSION, OFP_ECHO_REQUEST, 8, [1, 2, 3, 4, 5]⟩]

def echoRequestsSocket (reads : List (Option ℕ)) : Socket where
  stream := wireBytes echoRequests
  reads := reads ++ List.replicate 21 (some 8)
  writes := []
  sent := []
  failed := []

theorem receiveMessages_exact_iff_pieces :
    ∃ s, receiveMessages (echoRequestsSocket [none, some 8, none, some 9, some 2, none, some 1])
      default = .ok s ∧ s.kept = echoRequests.map WireMessage.content := by
  refine (receiveMessages_exact_iff default ?_ rfl ?_).mpr ?_
  · simp [echoRequests, WireMessage.Fits, WireMessage.size, OFP_HEADER_LEN]
  · simp [PositiveReads, echoRequestsSocket]
  · simp [HeadersWhole, echoRequestsSocket, echoRequests, OFP_HEADER_LEN]

/-- Three bytes of the first header arrive before the rest. -/
theorem receiveMessages_split_header :
    (∀ m ∈ echoRequests, m.Fits) ∧
      (echoRequestsSocket [some 3]).stream = wireBytes echoRequests ∧
      PositiveReads (echoRequestsSocket [some 3]).reads ∧
      (wireBytes echoRequests).length ≤
        (echoRequestsSocket [some 3]).reads.countP Option.isSome ∧
      ¬∃ s, receiveMessages (echoRequestsSocket [some 3]) default = .ok s ∧
        s.kept = echoRequests.map WireMessage.content := by
  refine ⟨?_, rfl, ?_, by decide, ?_⟩
  · simp [echoRequests, WireMessage.Fits, WireMessage.size, OFP_HEADER_LEN]
  · simp [PositiveReads, echoRequestsSocket]
  · rintro ⟨s, hok, hkept⟩
    have hfour : returns (receiveMessages (echoRequestsSocket [some 3]) default)
        (fun s => s.kept.length == 4) = true := by decide +kernel
    obtain ⟨s', hok', hlength⟩ := exists_of_returns hfour
    rw [hok] at hok'
    cases hok'
    rw [hkept] at hlength
    exact absurd hlength (by decide)

end OrssNic
