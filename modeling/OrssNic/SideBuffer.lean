import OrssNic.ConnectionRuns
import OrssNic.OpenflowFraming

/-!
# The side buffer

A wait leaves the side buffer when more messages arrive ahead of the awaited one
than there is room for, and nothing else on the connection leaves an array.
Whether a run of the connection overflows is thus decided wait by wait.
-/

namespace OrssNic
open CLoops CRuns

/-! ## Reading alone leaves no array -/

theorem read_reads {fd fd' : Socket} {count : ℕ} {bytes : Option (List UInt8)}
    (h : read fd count = .ok (bytes, fd')) :
    fd'.reads.length < fd.reads.length ∧ (bytes.getD []).length ≤ count := by
  obtain ⟨reads, ⟨hreads, rfl, rfl⟩ | ⟨k, hreads, rfl, rfl⟩⟩ := read_ok h
  · rw [hreads]
    exact ⟨Nat.lt_succ_self _, Nat.zero_le _⟩
  · rw [hreads]
    refine ⟨Nat.lt_succ_self _, ?_⟩
    simp only [Option.getD_some, List.length_take]
    omega

theorem read_error {fd : Socket} {count : ℕ} {e : Halt} (h : read fd count = .error e) :
    e = .blocked := by
  rw [read] at h
  split at h <;> cases h
  rfl

theorem safeRead_error {fd : Socket} {buf : List UInt8} {count : UInt16} {e : Halt}
    (hbuf : buf.length = count.toNat) (h : safeRead fd buf count = .error e) : e = .blocked := by
  rcases whileLoop_error h with rfl | ⟨s, hreach, hstep⟩
  · rfl
  · have hs := safeRead_within hreach
    rw [safeReadStep] at hstep
    split_ifs at hstep with hlt
    · have hlt' := UInt16.lt_iff_toNat_lt.mp hlt
      cases hread : read s.fd (count.toNat - s.bytesRead.toNat) with
      | error e' =>
        rw [hread] at hstep
        cases hstep
        exact read_error hread
      | ok r =>
        obtain ⟨valread, fd'⟩ := r
        rw [hread] at hstep
        cases valread with
        | none => cases hstep
        | some bytes =>
          have hlength := (read_reads hread).2
          rw [Option.getD_some] at hlength
          have hfit : s.bytesRead.toNat + bytes.length ≤ s.buf.length := by
            rw [hs.size, hbuf]
            omega
          simp only [bind, Except.bind, storeBytes_eq hfit] at hstep
          cases hstep
    · cases hstep

theorem readOpenflowMessage_error {fd : Socket} {msg : OpenflowMessage} {e : Halt}
    (h : readOpenflowMessage fd msg = .error e) : e = .blocked := by
  rw [readOpenflowMessage] at h
  cases hread : read fd OFP_HEADER_LEN with
  | error e' =>
    rw [hread] at h
    cases h
    exact read_error hread
  | ok r =>
    obtain ⟨valread, fd'⟩ := r
    have hlength := (read_reads hread).2
    have hfit : 0 + (valread.getD []).length ≤ msg.header.bytes.length := by
      rw [zero_add, msg.header.bytes_length]
      exact hlength
    rw [hread] at h
    simp only [bind, Except.bind, storeBytes_eq hfit] at h
    split_ifs at h
    · split at h
      · next e' hsafe =>
        cases h
        refine safeRead_error ?_ hsafe
        have hbound := UInt16.toNat_lt (ntohs (loadHeader (List.take 0 msg.header.bytes ++
          valread.getD [] ++ msg.header.bytes.drop (0 + (valread.getD []).length))).length)
        rw [List.length_replicate, UInt16.toNat_ofNat', Nat.mod_eq_of_lt (by omega)]
      · cases h
    · cases h
    · cases h

theorem readOpenflowMessage_reads {fd fd' : Socket} {msg msg' : OpenflowMessage} {r : ℤ}
    (h : readOpenflowMessage fd msg = .ok (r, fd', msg')) :
    fd'.reads.length < fd.reads.length := by
  obtain ⟨⟨valread, fd₁⟩, hread, h⟩ := bind_eq_ok.mp h
  obtain ⟨bytes, -, h⟩ := bind_eq_ok.mp h
  have hlt := (read_reads hread).1
  dsimp only at h
  split_ifs at h
  · obtain ⟨s, hsafe, h⟩ := bind_eq_ok.mp h
    cases h
    exact (safeRead_within (whileLoop_correct hsafe).1).reads.trans_lt hlt
  · cases h
    exact hlt
  · cases h
    exact hlt

/-! ## One wait -/

def incoming : ℕ → Socket → OpenflowMessage → List OpenflowMessage
  | 0, _, _ => []
  | n + 1, fd, msg =>
    match readOpenflowMessage fd msg with
    | .error _ => []
    | .ok (received, fd, msg) =>
      if 0 < received then msg :: incoming n fd msg else incoming n fd msg

def OpenflowMessage.isAwaited (type : UInt8) (xid : UInt32) (msg : OpenflowMessage) : Bool :=
  msg.header.type = type ∧ (xid = 0 ∨ msg.header.xid = xid)

/-- How many messages arrive ahead of the awaited one. Every call uses up a read. -/
def aheadOf (fd : Socket) (type : UInt8) (xid : UInt32) (msg : OpenflowMessage) : ℕ :=
  ((incoming (fd.reads.length + 1) fd msg).takeWhile fun m => !m.isAwaited type xid).length

def OpenflowConnection.HasRoom (connection : OpenflowConnection) (type : UInt8) (xid : UInt32)
    (msg : OpenflowMessage) : Prop :=
  connection.nbMsgBuffered.toNat + aheadOf connection.fd type xid msg ≤ MSG_BUFFER_SIZE

instance (connection : OpenflowConnection) (type : UInt8) (xid : UInt32) (msg : OpenflowMessage) :
    Decidable (connection.HasRoom type xid msg) :=
  inferInstanceAs (Decidable (_ ≤ _))

theorem bufferMessage_room (connection : OpenflowConnection) (msg : OpenflowMessage)
    (h : connection.nbMsgBuffered.toNat < MSG_BUFFER_SIZE) :
    ∃ connection', bufferMessage connection msg = .ok connection' ∧
      connection'.fd = connection.fd ∧
      connection'.nbMsgBuffered.toNat = connection.nbMsgBuffered.toNat + 1 := by
  obtain ⟨connection', hok⟩ : ∃ connection', bufferMessage connection msg = .ok connection' :=
    ⟨_, if_pos h⟩
  obtain ⟨-, hfd, -, hnext⟩ := bufferMessage_ok hok
  exact ⟨connection', hok, hfd, hnext⟩

section Step
variable {type : UInt8} {xid : UInt32} {s : Waiting} {received : ℤ} {fd : Socket}
variable {msg : OpenflowMessage}

theorem waitStep_nothing (hflag : s.msgReceived = false)
    (hread : readOpenflowMessage s.connection.fd s.msg = .ok (received, fd, msg))
    (hreceived : ¬0 < received) :
    waitStep type xid s = .ok (some ⟨{ s.connection with fd := fd }, msg, false⟩) := by
  simp only [waitStep, hflag, hread, bind, Except.bind, pure, Except.pure, Bool.false_eq_true,
    if_false, if_neg hreceived]

theorem waitStep_found (hflag : s.msgReceived = false)
    (hread : readOpenflowMessage s.connection.fd s.msg = .ok (received, fd, msg))
    (hreceived : 0 < received) (hawaited : msg.isAwaited type xid = true) :
    waitStep type xid s = .ok (some ⟨{ s.connection with fd := fd }, msg, true⟩) := by
  have hmatch := of_decide_eq_true hawaited
  simp only [waitStep, hflag, hread, bind, Except.bind, pure, Except.pure, Bool.false_eq_true,
    if_false, if_pos hreceived, if_pos hmatch]

theorem waitStep_aside (hflag : s.msgReceived = false)
    (hread : readOpenflowMessage s.connection.fd s.msg = .ok (received, fd, msg))
    (hreceived : 0 < received) (hawaited : ¬msg.isAwaited type xid = true) :
    waitStep type xid s = do
      let connection ← bufferMessage { s.connection with fd := fd } msg
      return some ⟨connection, msg, false⟩ := by
  have hother : ¬(msg.header.type = type ∧ (xid = 0 ∨ msg.header.xid = xid)) :=
    fun hmatch => hawaited (decide_eq_true hmatch)
  simp only [waitStep, hflag, hread, bind, Except.bind, pure, Except.pure, Bool.false_eq_true,
    if_false, if_pos hreceived, if_neg hother]

end Step

theorem waitLoop_overflows_iff {type : UInt8} {xid : UInt32} {n : ℕ} {s : Waiting}
    (hflag : s.msgReceived = false) (hreads : s.connection.fd.reads.length < n)
    (hnb : s.connection.nbMsgBuffered.toNat ≤ MSG_BUFFER_SIZE) :
    whileLoop .blocked (waitStep type xid) (n + 1) s = .error .outOfBounds ↔
      MSG_BUFFER_SIZE < s.connection.nbMsgBuffered.toNat +
        ((incoming n s.connection.fd s.msg).takeWhile fun m => !m.isAwaited type xid).length := by
  induction n generalizing s with
  | zero => exact absurd hreads (Nat.not_lt_zero _)
  | succ n ih =>
    rw [incoming]
    cases hread : readOpenflowMessage s.connection.fd s.msg with
    | error e =>
      have he := readOpenflowMessage_error hread
      subst he
      simp only [whileLoop, waitStep, hflag, hread, bind, Except.bind, Bool.false_eq_true, if_false,
        List.takeWhile_nil, List.length_nil, add_zero, reduceCtorEq, false_iff, not_lt,
        Except.error.injEq]
      exact hnb
    | ok r =>
      obtain ⟨received, fd, msg⟩ := r
      have hfewer := (readOpenflowMessage_reads hread).trans_le (Nat.le_of_lt_succ hreads)
      by_cases hreceived : 0 < received
      · by_cases hawaited : msg.isAwaited type xid = true
        · have hstop : waitStep type xid ⟨{ s.connection with fd := fd }, msg, true⟩ =
              .ok none := rfl
          rw [whileLoop_step (waitStep_found hflag hread hreceived hawaited),
            whileLoop_stop hstop]
          simp only [if_pos hreceived, List.takeWhile_cons, hawaited, Bool.not_true,
            Bool.false_eq_true, if_false, List.length_nil, add_zero, reduceCtorEq, false_iff,
            not_lt]
          exact hnb
        · have hstep := waitStep_aside hflag hread hreceived hawaited
          simp only [if_pos hreceived, List.takeWhile_cons, hawaited, Bool.not_false, if_true,
            List.length_cons]
          by_cases hroom : s.connection.nbMsgBuffered.toNat < MSG_BUFFER_SIZE
          · obtain ⟨connection', hbuffer, hfd, hnext⟩ :=
              bufferMessage_room { s.connection with fd := fd } msg hroom
            simp only [hbuffer, bind, Except.bind, pure, Except.pure] at hstep
            have hlater := ih (s := ⟨connection', msg, false⟩) rfl (by rwa [hfd])
              (by rw [hnext]; exact hroom)
            simp only [hfd, hnext] at hlater
            rw [whileLoop_step hstep, hlater]
            omega
          · have hbuffer : bufferMessage { s.connection with fd := fd } msg =
                .error .outOfBounds := if_neg hroom
            simp only [hbuffer, bind, Except.bind] at hstep
            simp only [whileLoop, hstep, true_iff]
            omega
      · have hlater := ih (s := ⟨{ s.connection with fd := fd }, msg, false⟩) rfl hfewer hnb
        rw [whileLoop_step (waitStep_nothing hflag hread hreceived)]
        simp only [if_neg hreceived]
        exact hlater

theorem openflowWaitForMessage_overflows_iff {connection : OpenflowConnection} {type : UInt8}
    {xid : UInt32} {msg : OpenflowMessage}
    (hnb : connection.nbMsgBuffered.toNat ≤ MSG_BUFFER_SIZE) :
    openflowWaitForMessage connection type msg xid = .error .outOfBounds ↔
      ¬connection.HasRoom type xid msg := by
  have hloop := @waitLoop_overflows_iff type xid (connection.fd.reads.length + 1)
    ⟨connection, msg, false⟩ rfl (Nat.lt_succ_self _) hnb
  rw [OpenflowConnection.HasRoom, not_le, aheadOf, ← hloop, openflowWaitForMessage]
  cases whileLoop Halt.blocked (waitStep type xid) (connection.fd.reads.length + 2)
    ⟨connection, msg, false⟩ with
  | error e => simp [bind, Except.bind]
  | ok s => simp [bind, Except.bind, pure, Except.pure]

theorem openflowWaitForMessage_nbMsgBuffered {connection connection' : OpenflowConnection}
    {type : UInt8} {xid : UInt32} {msg msg' : OpenflowMessage}
    (hnb : connection.nbMsgBuffered.toNat ≤ MSG_BUFFER_SIZE)
    (h : openflowWaitForMessage connection type msg xid = .ok (connection', msg')) :
    connection'.nbMsgBuffered.toNat ≤ MSG_BUFFER_SIZE := by
  obtain ⟨s, hloop, h⟩ := bind_eq_ok.mp h
  cases h
  refine (whileLoop_correct hloop).1.invariant (P := fun s : Waiting =>
    s.connection.nbMsgBuffered.toNat ≤ MSG_BUFFER_SIZE) hnb ?_
  intro t t' ht hstep
  obtain ⟨-, received, fd, msg, -, hcases⟩ := waitStep_ok hstep
  obtain ⟨-, rfl⟩ | ⟨-, -, rfl⟩ | ⟨-, -, connection₁, hbuffer, rfl⟩ := hcases
  · exact ht
  · exact ht
  · obtain ⟨hroom, -, -, hnext⟩ := bufferMessage_ok hbuffer
    rw [hnext]
    exact hroom

/-! ## Housekeeping -/

theorem openflowControl_nbMsgBuffered {connection connection' : OpenflowConnection}
    {calls : List OpenflowMessage}
    (h : openflowControlLogged connection = .ok (connection', calls)) :
    connection'.nbMsgBuffered = 0 := by
  obtain ⟨s, -, h⟩ := bind_eq_ok.mp h
  obtain ⟨t, -, h⟩ := bind_eq_ok.mp h
  cases h
  rfl

theorem openflowControl_error {connection : OpenflowConnection} {e : Halt}
    (hnb : connection.nbMsgBuffered.toNat ≤ MSG_BUFFER_SIZE)
    (h : openflowControlLogged connection = .error e) : e = .blocked := by
  obtain ⟨s, hbuffer, -⟩ : ∃ s, forLoop (controlBufferStepLogged connection.msgBuffer)
      connection.nbMsgBuffered.toNat (connection.fd, []) = .ok s ∧ True :=
    forLoop_total (P := fun _ _ => True) trivial fun i t hi _ => by
      have hlt : i < connection.msgBuffer.length := by
        rw [connection.allocated]
        omega
      have hread : readAt Halt.outOfBounds connection.msgBuffer i = .ok connection.msgBuffer[i] :=
        readAt_of_getElem? (List.getElem?_eq_getElem hlt)
      exact ⟨_, bind_eq_ok.mpr ⟨_, hread, rfl⟩, trivial⟩
  rw [openflowControlLogged, hbuffer] at h
  cases hsocket : whileLoop Halt.blocked controlSocketStepLogged (s.1.reads.length + 2)
    (⟨s.1, default, false⟩, s.2) with
  | ok t =>
    simp only [bind, Except.bind, hsocket] at h
    cases h
  | error e' =>
    simp only [bind, Except.bind, hsocket] at h
    cases h
    rcases whileLoop_error hsocket with rfl | ⟨t, -, hstep⟩
    · rfl
    · unfold controlSocketStepLogged at hstep
      split_ifs at hstep
      · cases hstep
      · cases hread : readOpenflowMessage t.1.fd t.1.message with
        | error e' =>
          rw [hread] at hstep
          cases hstep
          exact readOpenflowMessage_error hread
        | ok r =>
          simp only [hread, bind, Except.bind] at hstep
          split_ifs at hstep
          · cases hstep
          · cases hstep

/-! ## Runs -/

def ConnectionLog.WithinBuffer (l : ConnectionLog) : Prop :=
  l.connection.nbMsgBuffered.toNat ≤ MSG_BUFFER_SIZE

theorem ConnectionLog.WithinBuffer.step {l m : ConnectionLog} {op : ConnectionOp}
    (h : l.WithinBuffer) (hok : l.step op = .ok m) : m.WithinBuffer := by
  cases op with
  | wait type xid msg =>
    obtain ⟨⟨connection, msg'⟩, hwait, hok⟩ := bind_eq_ok.mp hok
    cases hok
    exact openflowWaitForMessage_nbMsgBuffered h hwait
  | write request =>
    cases hok
    exact h
  | enterLoop =>
    cases hok
    exact h
  | arrive i =>
    cases hok
    exact h
  | control =>
    obtain ⟨⟨connection, calls⟩, hcontrol, hok⟩ := bind_eq_ok.mp hok
    cases hok
    rw [WithinBuffer, openflowControl_nbMsgBuffered hcontrol]
    exact Nat.zero_le _

theorem step_overflows_iff {l : ConnectionLog} {op : ConnectionOp} (h : l.WithinBuffer) :
    l.step op = .error .outOfBounds ↔
      ∃ type xid msg, op = .wait type xid msg ∧ ¬l.connection.HasRoom type xid msg := by
  cases op with
  | wait type xid msg =>
    have hwait : l.step (.wait type xid msg) = .error .outOfBounds ↔
        openflowWaitForMessage l.connection type msg xid = .error .outOfBounds := by
      rw [ConnectionLog.step]
      cases openflowWaitForMessage l.connection type msg xid <;>
        simp [bind, Except.bind, pure, Except.pure]
    rw [hwait, openflowWaitForMessage_overflows_iff h]
    constructor
    · intro hroom
      exact ⟨type, xid, msg, rfl, hroom⟩
    · rintro ⟨type', xid', msg', hop, hroom⟩
      cases hop
      exact hroom
  | write request => simp [ConnectionLog.step]
  | enterLoop => simp [ConnectionLog.step]
  | arrive i => simp [ConnectionLog.step]
  | control =>
    simp only [reduceCtorEq, false_and, exists_false, iff_false]
    intro herror
    rw [ConnectionLog.step] at herror
    cases hcontrol : openflowControlLogged l.connection with
    | error e =>
      rw [hcontrol] at herror
      cases herror
      cases openflowControl_error h hcontrol
    | ok r =>
      rw [hcontrol] at herror
      cases herror

theorem run_withinBuffer {l m : ConnectionLog} {ops : List ConnectionOp} (h : l.WithinBuffer)
    (hok : run ConnectionLog.step ops l = .ok m) : m.WithinBuffer :=
  run_invariant (P := fun _ m => m.WithinBuffer) h (fun _ _ _ _ hm hstep => hm.step hstep) hok

/-- The operations may come in any order, that of the program included. -/
theorem side_buffer_within_iff {connection : OpenflowConnection} {ops : List ConnectionOp}
    (hempty : connection.nbMsgBuffered = 0) :
    (run ConnectionLog.step ops (.start connection) ≠ .error .outOfBounds ∧
      ∀ before after l, ops = before ++ after →
        run ConnectionLog.step before (.start connection) = .ok l →
        l.connection.nbMsgBuffered.toNat ≤ MSG_BUFFER_SIZE) ↔
    ∀ before type xid msg after l, ops = before ++ .wait type xid msg :: after →
      run ConnectionLog.step before (.start connection) = .ok l →
      l.connection.HasRoom type xid msg := by
  have hstart : (ConnectionLog.start connection).WithinBuffer := by
    rw [ConnectionLog.WithinBuffer, ConnectionLog.start, hempty]
    exact Nat.zero_le _
  constructor
  · rintro ⟨hsafe, -⟩ before type xid msg after l hsplit hbefore
    by_contra hroom
    have hstep := (step_overflows_iff (run_withinBuffer hstart hbefore)).mpr
      ⟨type, xid, msg, rfl, hroom⟩
    exact hsafe (run_error_iff.mpr ⟨before, _, after, l, hsplit, hbefore, hstep⟩)
  · intro hroom
    refine ⟨?_, fun before after l _ hbefore => run_withinBuffer hstart hbefore⟩
    intro herror
    obtain ⟨before, op, after, l, hsplit, hbefore, hstep⟩ := run_error_iff.mp herror
    obtain ⟨type, xid, msg, rfl, hnot⟩ :=
      (step_overflows_iff (run_withinBuffer hstart hbefore)).mp hstep
    exact hnot (hroom before type xid msg after l hsplit hbefore)

/-- `n` echo requests between the two messages of a handshake. -/
def floodedHandshake (n : ℕ) : List WireMessage :=
  ⟨OFP_VERSION, OFP_HELLO, 1, []⟩ ::
    (List.replicate n ⟨OFP_VERSION, OFP_ECHO_REQUEST, 0, []⟩ ++
      [⟨OFP_VERSION, OFP_FEATURES_REPLY, 5, List.replicate 24 0⟩])

def floodedConnection (n : ℕ) : OpenflowConnection :=
  .ofSocket ⟨wireBytes (floodedHandshake n), List.replicate (n + 3) (some 64), [], [], []⟩

def handshakeOps : List ConnectionOp :=
  [.wait OFP_HELLO 0 default, .write (helloRequest 4), .write (featuresRequest 5),
    .wait OFP_FEATURES_REPLY 5 default]

theorem side_buffer_within_iff_flooded :
    run ConnectionLog.step handshakeOps (.start (floodedConnection 16)) ≠ .error .outOfBounds := by
  refine ((side_buffer_within_iff rfl).mpr ?_).1
  intro before type xid msg after l hsplit hbefore
  rcases before with _ | ⟨hello, _ | ⟨answer, _ | ⟨ask, _ | ⟨features, before⟩⟩⟩⟩
  · cases hsplit
    cases hbefore
    decide +kernel
  · cases hsplit
  · cases hsplit
  · cases hsplit
    have hroom : returns (run ConnectionLog.step [.wait OFP_HELLO 0 default,
        .write (helloRequest 4), .write (featuresRequest 5)] (.start (floodedConnection 16)))
        (fun l => decide (l.connection.HasRoom OFP_FEATURES_REPLY 5 default)) = true := by
      decide +kernel
    obtain ⟨l', hl', hroom'⟩ := exists_of_returns hroom
    rw [hbefore] at hl'
    cases hl'
    exact of_decide_eq_true hroom'
  · have hlength := congrArg List.length hsplit
    simp [handshakeOps] at hlength

/-- One message more than there is room for. -/
theorem side_buffer_overflows :
    (floodedConnection 17).nbMsgBuffered = 0 ∧ InOrder .greeting handshakeOps .connected ∧
      run ConnectionLog.step handshakeOps (.start (floodedConnection 17)) = .error .outOfBounds ∧
      openflowCreateConnection (floodedConnection 17) 4 default = .error .outOfBounds := by
  refine ⟨rfl, ?_, eq_error_of_raises (by decide +kernel), eq_error_of_raises (by decide +kernel)⟩
  exact .cons (.hello _) (.cons (.answer 4) (.cons (.ask 5) (.cons (.features 5 _) (.nil _))))

end OrssNic
