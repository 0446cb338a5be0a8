import OrssNic.MessageConservation

/-!
# The side buffer after the handshake

`openflow_create_connection` fills in the socket, the features and the ports of
the connection, and its two waits append to the side buffer through the counter
`nb_msg_buffered`, which nobody has set. What the waits receive and set aside
does not depend on the counter: `awaitMessage` is the wait without a buffer.
-/

namespace OrssNic
open CLoops

structure Awaiting where
  fd : Socket
  msg : OpenflowMessage
  msgReceived : Bool
  aside : List OpenflowMessage

def awaitStep (type : UInt8) (xid : UInt32) (s : Awaiting) : Except Halt (Option Awaiting) := do
  if s.msgReceived then
    return none
  let (received, fd, msg) ← readOpenflowMessage s.fd s.msg
  if 0 < received then
    if msg.header.type = type ∧ (xid = 0 ∨ msg.header.xid = xid) then
      return some ⟨fd, msg, true, s.aside⟩
    return some ⟨fd, msg, false, s.aside ++ [msg]⟩
  return some ⟨fd, msg, false, s.aside⟩

/-- The awaited message, and the ones in front of it in the order of arrival. -/
def awaitMessage (fd : Socket) (type : UInt8) (msg : OpenflowMessage) (xid : UInt32) :
    Except Halt Awaiting :=
  whileLoop .blocked (awaitStep type xid) (fd.reads.length + 2) ⟨fd, msg, false, []⟩

/-- The messages that arrive during a handshake and are not the ones it waits
for. An error means that what arrives does not complete it. -/
def handshakeArrivals (fd : Socket) (transactionId : UInt32) (message : OpenflowMessage) :
    Except Halt (List OpenflowMessage) := do
  let hello ← awaitMessage fd OFP_HELLO message 0
  let (fd, transactionId) := sendOpenflowHello hello.fd transactionId
  let (featuresXid, fd, _) := sendOpenflowFeaturesRequest fd transactionId
  let reply ← awaitMessage fd OFP_FEATURES_REPLY hello.msg featuresXid
  let _ ← parseFeaturesReply reply.msg
  return hello.aside ++ reply.aside

/-! ## One wait -/

/-- The wait with the buffer has come as far as the one without. -/
structure Waiting.Follows (connection : OpenflowConnection) (s : Waiting) (t : Awaiting) :
    Prop where
  fd : s.connection.fd = t.fd
  msg : s.msg = t.msg
  flag : s.msgReceived = t.msgReceived
  count : s.connection.nbMsgBuffered.toNat = connection.nbMsgBuffered.toNat + t.aside.length
  buffered : s.connection.buffered = connection.buffered ++ t.aside

section Step
variable {connection : OpenflowConnection} {type : UInt8} {xid : UInt32} {s : Waiting}
  {t t' : Awaiting}

theorem awaitStep_aside (h : awaitStep type xid t = .ok (some t')) :
    t.aside.length ≤ t'.aside.length := by
  rw [awaitStep] at h
  split_ifs at h
  · cases h
  · obtain ⟨⟨received, fd, msg⟩, -, h⟩ := bind_eq_ok.mp h
    dsimp only at h
    split_ifs at h
    · cases h
      exact le_rfl
    · cases h
      rw [List.length_append]
      exact Nat.le_add_right _ _
    · cases h
      exact le_rfl

theorem waitStep_follows (hs : s.Follows connection t)
    (hstep : awaitStep type xid t = .ok (some t')) :
    (∃ s', waitStep type xid s = .ok (some s') ∧ s'.Follows connection t') ∨
      (MSG_BUFFER_SIZE < connection.nbMsgBuffered.toNat + t'.aside.length ∧
        waitStep type xid s = .error .outOfBounds) := by
  obtain ⟨hfd, hmsg, hflag, hcount, hbuffered⟩ := hs
  rw [awaitStep] at hstep
  split_ifs at hstep with hreceived
  · cases hstep
  · obtain ⟨⟨received, fd, msg⟩, hread, hstep⟩ := bind_eq_ok.mp hstep
    rw [← hfd, ← hmsg] at hread
    rw [← hflag, Bool.not_eq_true] at hreceived
    dsimp only at hstep
    split_ifs at hstep with hpos hawaited
    · cases hstep
      refine .inl ⟨⟨{ s.connection with fd := fd }, msg, true⟩, ?_, rfl, rfl, rfl, hcount,
        hbuffered⟩
      simp only [waitStep, hreceived, hread, bind, Except.bind, pure, Except.pure,
        Bool.false_eq_true, if_false, if_pos hpos, if_pos hawaited]
    · cases hstep
      by_cases hroom : s.connection.nbMsgBuffered.toNat < MSG_BUFFER_SIZE
      · obtain ⟨next, hbuffer⟩ : ∃ next,
          bufferMessage { s.connection with fd := fd } msg = .ok next := ⟨_, if_pos hroom⟩
        obtain ⟨hfd', hnext⟩ := bufferMessage_buffered hbuffer
        obtain ⟨-, -, -, hnb⟩ := bufferMessage_ok hbuffer
        refine .inl ⟨⟨next, msg, false⟩, ?_, hfd', rfl, rfl, ?_, ?_⟩
        · simp only [waitStep, hreceived, hread, hbuffer, bind, Except.bind, pure, Except.pure,
            Bool.false_eq_true, if_false, if_pos hpos, if_neg hawaited]
        · rw [hnb, hcount, List.length_append, List.length_singleton, Nat.add_assoc]
        · rw [hnext, ← List.append_assoc, ← hbuffered]
          rfl
      · have hbuffer : bufferMessage { s.connection with fd := fd } msg = .error .outOfBounds :=
          if_neg hroom
        refine .inr ⟨?_, ?_⟩
        · rw [List.length_append, List.length_singleton]
          omega
        · simp only [waitStep, hreceived, hread, hbuffer, bind, Except.bind,
            Bool.false_eq_true, if_false, if_pos hpos, if_neg hawaited]
    · cases hstep
      refine .inl ⟨⟨{ s.connection with fd := fd }, msg, false⟩, ?_, rfl, rfl, rfl, hcount,
        hbuffered⟩
      simp only [waitStep, hreceived, hread, bind, Except.bind, pure, Except.pure,
        Bool.false_eq_true, if_false, if_neg hpos]

theorem waitStep_follows_stop (hs : s.Follows connection t)
    (hstep : awaitStep type xid t = .ok none) : waitStep type xid s = .ok none := by
  rw [awaitStep] at hstep
  split_ifs at hstep with hreceived
  · rw [waitStep, hs.flag, if_pos hreceived]
    rfl
  · obtain ⟨⟨received, fd, msg⟩, -, hstep⟩ := bind_eq_ok.mp hstep
    dsimp only at hstep
    split_ifs at hstep
    · cases hstep
    · cases hstep
    · cases hstep

theorem waitLoop_follows {n : ℕ} (hs : s.Follows connection t)
    (hloop : whileLoop .blocked (awaitStep type xid) n t = .ok t') :
    (∃ s', whileLoop .blocked (waitStep type xid) n s = .ok s' ∧ s'.Follows connection t') ∨
      (MSG_BUFFER_SIZE < connection.nbMsgBuffered.toNat + t'.aside.length ∧
        whileLoop .blocked (waitStep type xid) n s = .error .outOfBounds) := by
  induction n generalizing s t with
  | zero => cases hloop
  | succ n ih =>
    rw [whileLoop] at hloop
    split at hloop
    · cases hloop
    · next hstop =>
      cases hloop
      exact .inl ⟨s, whileLoop_stop (waitStep_follows_stop hs hstop) n, hs⟩
    · next t₁ hstep =>
      rcases waitStep_follows hs hstep with ⟨s₁, hok, hs₁⟩ | ⟨hfull, herror⟩
      · rw [whileLoop_step hok]
        exact ih hs₁ hloop
      · have hlonger := (whileLoop_correct hloop).1.invariant
          (P := fun t : Awaiting => t₁.aside.length ≤ t.aside.length) le_rfl
          fun t t' ht hstep => ht.trans (awaitStep_aside hstep)
        refine .inr ⟨hfull.trans_le (Nat.add_le_add_left hlonger _), ?_⟩
        simp only [whileLoop, herror]

end Step

theorem openflowWaitForMessage_appends {connection : OpenflowConnection} {type : UInt8}
    {xid : UInt32} {msg : OpenflowMessage} {t : Awaiting}
    (h : awaitMessage connection.fd type msg xid = .ok t) :
    (∃ connection', openflowWaitForMessage connection type msg xid = .ok (connection', t.msg) ∧
        connection'.fd = t.fd ∧
        connection'.nbMsgBuffered.toNat =
          connection.nbMsgBuffered.toNat + t.aside.length ∧
        connection'.buffered = connection.buffered ++ t.aside) ∨
      (MSG_BUFFER_SIZE < connection.nbMsgBuffered.toNat + t.aside.length ∧
        openflowWaitForMessage connection type msg xid = .error .outOfBounds) := by
  have hstart : (⟨connection, msg, false⟩ : Waiting).Follows connection
      ⟨connection.fd, msg, false, []⟩ := ⟨rfl, rfl, rfl, rfl, (List.append_nil _).symm⟩
  rcases waitLoop_follows hstart h with ⟨s, hloop, hs⟩ | ⟨hfull, hloop⟩
  · refine .inl ⟨s.connection, ?_, hs.fd, hs.count, hs.buffered⟩
    simp only [openflowWaitForMessage, hloop, hs.msg, bind, Except.bind, pure, Except.pure]
  · refine .inr ⟨hfull, ?_⟩
    simp only [openflowWaitForMessage, hloop, bind, Except.bind]

/-! ## The handshake -/

theorem openflowCreateConnection_appends {connection : OpenflowConnection}
    {transactionId : UInt32} {message : OpenflowMessage} {aside : List OpenflowMessage}
    (harrive : handshakeArrivals connection.fd transactionId message = .ok aside) :
    (∃ h, openflowCreateConnection connection transactionId message = .ok h ∧
        h.connection.nbMsgBuffered.toNat = connection.nbMsgBuffered.toNat + aside.length ∧
        h.connection.buffered = connection.buffered ++ aside) ∨
      (MSG_BUFFER_SIZE < connection.nbMsgBuffered.toNat + aside.length ∧
        openflowCreateConnection connection transactionId message = .error .outOfBounds) := by
  obtain ⟨hello, hhello, harrive⟩ := bind_eq_ok.mp harrive
  obtain ⟨reply, hreply, harrive⟩ := bind_eq_ok.mp harrive
  obtain ⟨features, hfeatures, harrive⟩ := bind_eq_ok.mp harrive
  cases harrive
  rw [List.length_append]
  rcases openflowWaitForMessage_appends hhello with
    ⟨first, hwait, hfd, hcount, hbuffered⟩ | ⟨hfull, hwait⟩
  · rw [← hfd] at hreply
    rcases @openflowWaitForMessage_appends { first with fd := _ } _ _ _ _ hreply with
      ⟨second, hwait', -, hcount', hbuffered'⟩ | ⟨hfull, hwait'⟩
    · refine .inl ⟨⟨second, transactionId + 1 + 1, features⟩, ?_, ?_, ?_⟩
      · simp only [openflowCreateConnection, hwait, sendOpenflowHello,
          sendOpenflowFeaturesRequest, hwait', hfeatures, bind, Except.bind, pure, Except.pure]
      · rw [hcount', hcount, Nat.add_assoc]
      · rw [hbuffered', ← List.append_assoc, ← hbuffered]
        rfl
    · refine .inr ⟨?_, ?_⟩
      · change MSG_BUFFER_SIZE < first.nbMsgBuffered.toNat + _ at hfull
        rwa [hcount, Nat.add_assoc] at hfull
      · simp only [openflowCreateConnection, hwait, sendOpenflowHello,
          sendOpenflowFeaturesRequest, hwait', bind, Except.bind]
  · refine .inr ⟨by omega, ?_⟩
    simp only [openflowCreateConnection, hwait, bind, Except.bind]

/-- Whatever the fresh structure holds and whatever arrives, the side buffer
holds the messages set aside by the handshake, and nothing else, exactly when
the counter happened to be zero. -/
theorem openflowCreateConnection_buffer_iff {connection : OpenflowConnection}
    {transactionId : UInt32} {message : OpenflowMessage} {aside : List OpenflowMessage}
    (harrive : handshakeArrivals connection.fd transactionId message = .ok aside)
    (hroom : aside.length ≤ MSG_BUFFER_SIZE) :
    (∃ h, openflowCreateConnection connection transactionId message = .ok h ∧
        h.connection.nbMsgBuffered.toNat = aside.length ∧ h.connection.buffered = aside) ↔
      connection.nbMsgBuffered = 0 := by
  constructor
  · rintro ⟨h, hcreate, hcount, -⟩
    rcases openflowCreateConnection_appends harrive with ⟨h', hcreate', hcount', -⟩ | ⟨-, herror⟩
    · rw [hcreate] at hcreate'
      cases hcreate'
      apply UInt8.toNat_inj.mp
      rw [UInt8.toNat_zero]
      omega
    · rw [hcreate] at herror
      cases herror
  · intro hzero
    have hempty : connection.buffered = [] := by
      rw [OpenflowConnection.buffered, hzero]
      rfl
    rcases openflowCreateConnection_appends harrive with
      ⟨h, hcreate, hcount, hbuffered⟩ | ⟨hfull, -⟩
    · rw [hzero, UInt8.toNat_zero, Nat.zero_add] at hcount
      rw [hempty, List.nil_append] at hbuffered
      exact ⟨h, hcreate, hcount, hbuffered⟩
    · rw [hzero, UInt8.toNat_zero, Nat.zero_add] at hfull
      exact absurd hroom (Nat.not_le_of_lt hfull)

def staleMessage : OpenflowMessage := ⟨⟨0xde, 0xad, 0xbeef, 0⟩, none⟩

/-- A fresh structure whose counter holds `nb`, and a handshake with an echo
request before each of its messages. -/
def staleConnection (nb : UInt8) : OpenflowConnection where
  fd := pingedConnection.fd
  msgBuffer := List.replicate MSG_BUFFER_SIZE staleMessage
  nbMsgBuffered := nb
  allocated := List.length_replicate

theorem staleConnection_arrivals :
    ∃ aside, handshakeArrivals pingedConnection.fd 4 default = .ok aside ∧ aside.length = 2 := by
  have hreturns : returns (handshakeArrivals pingedConnection.fd 4 default)
      (fun aside => aside.length == 2) = true := by decide +kernel
  obtain ⟨aside, harrive, htwo⟩ := exists_of_returns hreturns
  exact ⟨aside, harrive, eq_of_beq htwo⟩

theorem openflowCreateConnection_buffer_iff_zero :
    ∃ (h : Handshake) (aside : List OpenflowMessage),
      handshakeArrivals (staleConnection 0).fd 4 default = .ok aside ∧ aside.length = 2 ∧
        openflowCreateConnection (staleConnection 0) 4 default = .ok h ∧
        h.connection.nbMsgBuffered = 2 ∧ h.connection.buffered = aside := by
  obtain ⟨aside, harrive, htwo⟩ := staleConnection_arrivals
  have harrive' : handshakeArrivals (staleConnection 0).fd 4 default = .ok aside := harrive
  obtain ⟨h, hcreate, hcount, hbuffered⟩ :=
    (openflowCreateConnection_buffer_iff harrive' (by rw [htwo]; decide)).mpr rfl
  rw [htwo] at hcount
  exact ⟨h, aside, harrive', htwo, hcreate, UInt8.toNat_inj.mp hcount, hbuffered⟩

/-- A counter that holds 1 leaves what was there in front of the two messages. -/
theorem openflowCreateConnection_stale :
    (∃ aside, handshakeArrivals (staleConnection 1).fd 4 default = .ok aside ∧
        aside.length = 2) ∧
      ∃ h, openflowCreateConnection (staleConnection 1) 4 default = .ok h ∧
        h.connection.nbMsgBuffered = 3 ∧ h.connection.buffered[0]? = some staleMessage := by
  have hreturns : returns (openflowCreateConnection (staleConnection 1) 4 default)
      (fun h => h.connection.nbMsgBuffered == 3 &&
        h.connection.buffered[0]? == some staleMessage) = true := by decide +kernel
  obtain ⟨h, hcreate, htest⟩ := exists_of_returns hreturns
  rw [Bool.and_eq_true, beq_iff_eq, beq_iff_eq] at htest
  exact ⟨staleConnection_arrivals, h, hcreate, htest⟩

end OrssNic
