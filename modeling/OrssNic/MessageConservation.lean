import OrssNic.ConnectionRuns
import OrssNic.OpenflowFraming
import OrssNic.Library.Mailbox

/-!
# Conservation of messages

When messages arrive whole, the connection is a mailbox: a wait is a selective
receive whose skipped messages go to the side buffer, and `openflow_control` is
a drain. No message is lost or handled twice in a run of the program, and the
echo replies are as many as the echo requests handled.
-/

namespace OrssNic
open CLoops CRuns CMailbox

/-! ## The socket -/

/-- The unread bytes are those of whole messages, and no read stops inside a header. -/
structure Unread (fd : Socket) (unread : List WireMessage) : Prop where
  stream : fd.stream = wireBytes unread
  fits : ∀ m ∈ unread, m.Fits
  whole : ∀ k, some k ∈ fd.reads → OFP_HEADER_LEN ≤ k

def OpenflowRequest.isEchoReply : OpenflowRequest → Bool
  | .echoReply _ => true
  | _ => false

def Socket.echoReplies (fd : Socket) : ℕ :=
  fd.sent.countP OpenflowRequest.isEchoReply + fd.failed.countP OpenflowRequest.isEchoReply

/-- Where `data` points to behind the message: one without a body leaves it. -/
def dataAfter (data : Option (List UInt8)) (m : WireMessage) : Option (List UInt8) :=
  if m.body = [] then data else some m.body

theorem Unread.read_cases {fd fd' : Socket} {unread : List WireMessage}
    {msg msg' : OpenflowMessage} {received : ℤ} (h : Unread fd unread)
    (hok : OrssNic.readOpenflowMessage fd msg = .ok (received, fd', msg')) :
    fd'.echoReplies = fd.echoReplies ∧
      ((received = 0 ∧ Unread fd' unread ∧ msg'.data = msg.data) ∨
        (received = 1 ∧ ∃ m rest, unread = m :: rest ∧ m.Fits ∧
          msg' = ⟨m.header, dataAfter msg.data m⟩ ∧ Unread fd' rest)) := by
  obtain ⟨hstream, hfits, hwhole⟩ := h
  cases hreads : fd.reads with
  | nil =>
    simp [OrssNic.readOpenflowMessage, read, hreads, bind, Except.bind] at hok
  | cons outcome reads =>
    rw [hreads] at hwhole
    have hwhole' : ∀ k, some k ∈ reads → OFP_HEADER_LEN ≤ k :=
      fun k hk => hwhole k (List.mem_cons_of_mem _ hk)
    have hstore : storeBytes msg.header.bytes 0 [] = .ok msg.header.bytes := by
      rw [storeBytes_eq (by simp)]
      simp
    cases outcome with
    | none =>
      simp only [OrssNic.readOpenflowMessage, read, hreads, Option.getD_none, hstore, bind,
        Except.bind, pure, Except.pure, List.length_nil, lt_self_iff_false, if_false] at hok
      cases hok
      exact ⟨rfl, .inl ⟨rfl, ⟨hstream, hfits, hwhole'⟩, rfl⟩⟩
    | some k =>
      cases unread with
      | nil =>
        have hempty : fd.stream = [] := hstream
        simp only [OrssNic.readOpenflowMessage, read, hreads, hempty, List.take_nil, List.drop_nil,
          Option.getD_some, hstore, bind, Except.bind, pure, Except.pure, List.length_nil,
          lt_self_iff_false, if_false] at hok
        cases hok
        exact ⟨rfl, .inl ⟨rfl, ⟨rfl, hfits, hwhole'⟩, rfl⟩⟩
      | cons m rest =>
        rw [List.forall_mem_cons] at hfits
        rw [wireBytes_cons] at hstream
        have hread := readOpenflowMessage_whole hreads hstream hfits.1
          (hwhole k List.mem_cons_self) msg
        rw [hok] at hread
        cases hafter : readsAfter reads m.body.length with
        | none =>
          rw [hafter] at hread
          cases hread
        | some reads' =>
          rw [hafter] at hread
          cases hread
          refine ⟨rfl, .inr ⟨rfl, m, rest, rfl, hfits.1, rfl, rfl, hfits.2, ?_⟩⟩
          exact fun k' hk' => hwhole' k' ((readsAfter_suffix hafter).subset hk')

theorem Unread.readOpenflowMessage {fd fd' : Socket} {unread : List WireMessage}
    {msg msg' : OpenflowMessage} {received : ℤ} (h : Unread fd unread)
    (hok : readOpenflowMessage fd msg = .ok (received, fd', msg')) :
    fd'.echoReplies = fd.echoReplies ∧
      ((received = 0 ∧ Unread fd' unread) ∨
        (received = 1 ∧ ∃ m rest, unread = m :: rest ∧ msg'.content = m.content ∧
          Unread fd' rest)) := by
  obtain ⟨hechoes, hcases⟩ := h.read_cases hok
  refine ⟨hechoes, ?_⟩
  rcases hcases with ⟨rfl, hunread, -⟩ | ⟨rfl, m, rest, rfl, hfits, rfl, hunread⟩
  · exact .inl ⟨rfl, hunread⟩
  · exact .inr ⟨rfl, m, rest, rfl, hfits.content _, hunread⟩

/-! ## Waits -/

abbrev Content := OpenflowHeader × List UInt8

def Awaited (type : UInt8) (xid : UInt32) (c : Content) : Prop :=
  c.1.type = type ∧ (xid = 0 ∨ c.1.xid = xid)

def OpenflowConnection.buffered (connection : OpenflowConnection) : List OpenflowMessage :=
  connection.msgBuffer.take connection.nbMsgBuffered.toNat

theorem bufferMessage_buffered {connection connection' : OpenflowConnection}
    {msg : OpenflowMessage} (h : bufferMessage connection msg = .ok connection') :
    connection'.fd = connection.fd ∧ connection'.buffered = connection.buffered ++ [msg] := by
  obtain ⟨hroom, hfd, hbuffer, hnb⟩ := bufferMessage_ok h
  refine ⟨hfd, ?_⟩
  have hlt : connection.nbMsgBuffered.toNat < connection.msgBuffer.length := by
    rw [connection.allocated]
    exact hroom
  rw [OpenflowConnection.buffered, hbuffer, hnb, List.take_add_one, List.take_set_of_le le_rfl,
    List.getElem?_set_self hlt]
  rfl

/-- The messages read so far: `skipped`, and when the wait is over `last`. -/
structure Waiting.Scanned (connection : OpenflowConnection) (type : UInt8) (xid : UInt32)
    (skipped : List WireMessage) (last : Option WireMessage) (rest : List WireMessage)
    (s : Waiting) : Prop where
  unread : Unread s.connection.fd rest
  echoReplies : s.connection.fd.echoReplies = connection.fd.echoReplies
  buffered : s.connection.buffered.map OpenflowMessage.content =
    connection.buffered.map OpenflowMessage.content ++ skipped.map WireMessage.content
  unrelated : ∀ u ∈ skipped, ¬Awaited type xid u.content
  awaited : ∀ m, last = some m → Awaited type xid m.content ∧ s.msg.content = m.content
  flag : s.msgReceived = last.isSome

theorem waitStep_scanned {connection : OpenflowConnection} {type : UInt8} {xid : UInt32}
    {skipped rest : List WireMessage} {last : Option WireMessage} {s s' : Waiting}
    (hs : s.Scanned connection type xid skipped last rest)
    (hok : waitStep type xid s = .ok (some s')) :
    ∃ skipped' last' rest', s'.Scanned connection type xid skipped' last' rest' ∧
      skipped ++ (last.toList ++ rest) = skipped' ++ (last'.toList ++ rest') := by
  obtain ⟨hunread, hechoes, hbuffered, hskipped, -, hflag⟩ := hs
  obtain ⟨hreceived, received, fd, msg, hread, hstep⟩ := waitStep_ok hok
  have hlast : last = none := by
    rw [hflag] at hreceived
    simpa using hreceived
  subst hlast
  obtain ⟨hsame, hcases⟩ := hunread.readOpenflowMessage hread
  rw [hechoes] at hsame
  rcases hcases with ⟨rfl, hunread'⟩ | ⟨rfl, m, rest', rfl, hcontent, hunread'⟩
  · obtain ⟨-, rfl⟩ | ⟨hpos, -⟩ | ⟨hpos, -⟩ := hstep
    · exact ⟨skipped, none, rest, ⟨hunread', hsame, hbuffered, hskipped, by simp, rfl⟩, rfl⟩
    · exact absurd hpos (lt_irrefl _)
    · exact absurd hpos (lt_irrefl _)
  · have hheader : msg.header = m.header := congrArg Prod.fst hcontent
    obtain ⟨hnot, -⟩ | ⟨-, hawaited, rfl⟩ | ⟨-, hother, connection₁, hbuffer, rfl⟩ := hstep
    · exact absurd zero_lt_one hnot
    · rw [hheader] at hawaited
      refine ⟨skipped, some m, rest', ⟨hunread', hsame, hbuffered, hskipped, ?_, rfl⟩, rfl⟩
      intro m' hm'
      cases hm'
      exact ⟨hawaited, hcontent⟩
    · obtain ⟨hfd, happend⟩ := bufferMessage_buffered hbuffer
      rw [hheader] at hother
      refine ⟨skipped ++ [m], none, rest', ⟨?_, ?_, ?_, ?_, by simp, rfl⟩, by simp⟩
      · rw [hfd]
        exact hunread'
      · rw [hfd]
        exact hsame
      · rw [happend, List.map_append, List.map_append, ← List.append_assoc, ← hbuffered,
          List.map_singleton, List.map_singleton, hcontent]
        rfl
      · rw [List.forall_mem_append, List.forall_mem_singleton]
        exact ⟨hskipped, hother⟩

/-- A wait is a selective receive. -/
theorem openflowWaitForMessage_selects {connection connection' : OpenflowConnection}
    {type : UInt8} {xid : UInt32} {msg msg' : OpenflowMessage} {unread : List WireMessage}
    (h : Unread connection.fd unread)
    (hok : openflowWaitForMessage connection type msg xid = .ok (connection', msg')) :
    ∃ skipped m rest, unread = skipped ++ m :: rest ∧
      (∀ u ∈ skipped, ¬Awaited type xid u.content) ∧ Awaited type xid m.content ∧
      msg'.content = m.content ∧ Unread connection'.fd rest ∧
      connection'.fd.echoReplies = connection.fd.echoReplies ∧
      connection'.buffered.map OpenflowMessage.content =
        connection.buffered.map OpenflowMessage.content ++ skipped.map WireMessage.content := by
  obtain ⟨s, hloop, hok⟩ := bind_eq_ok.mp hok
  cases hok
  obtain ⟨hreach, hstop⟩ := whileLoop_correct hloop
  have hstart : (⟨connection, msg, false⟩ : Waiting).Scanned connection type xid [] none unread :=
    ⟨h, rfl, by simp, by simp, by simp, rfl⟩
  obtain ⟨skipped, last, rest, hs, hsplit⟩ := hreach.invariant (P := fun s : Waiting =>
    ∃ skipped last rest, s.Scanned connection type xid skipped last rest ∧
      unread = skipped ++ (last.toList ++ rest)) ⟨[], none, unread, hstart, rfl⟩
    fun t t' ht hstep => by
      obtain ⟨skipped, last, rest, ht, hsplit⟩ := ht
      obtain ⟨skipped', last', rest', ht', hsame⟩ := waitStep_scanned ht hstep
      exact ⟨skipped', last', rest', ht', hsplit.trans hsame⟩
  have hreceived := waitStep_stop hstop
  rw [hs.flag] at hreceived
  obtain ⟨m, rfl⟩ := Option.isSome_iff_exists.mp hreceived
  obtain ⟨hawaited, hcontent⟩ := hs.awaited m rfl
  exact ⟨skipped, m, rest, hsplit, hs.unrelated, hawaited, hcontent, hs.unread, hs.echoReplies,
    hs.buffered⟩

/-! ## Housekeeping -/

def isEchoRequest (c : Content) : Bool := c.1.type == OFP_ECHO_REQUEST

theorem write_echoReplies (fd : Socket) (request : OpenflowRequest) :
    (write fd request).2.echoReplies =
      fd.echoReplies + if request.isEchoReply then 1 else 0 := by
  unfold write
  split
  · simp only [Socket.echoReplies, List.countP_append, List.countP_singleton]
    omega
  · simp only [Socket.echoReplies, List.countP_append, List.countP_singleton]
    omega
  · simp only [Socket.echoReplies, List.countP_append, List.countP_singleton]
    omega

theorem Unread.write {fd : Socket} {unread : List WireMessage} (h : Unread fd unread)
    (request : OpenflowRequest) : Unread (write fd request).2 unread := by
  unfold OrssNic.write
  split <;> exact ⟨h.stream, h.fits, h.whole⟩

theorem controlLogic_echoReplies (fd : Socket) (message : OpenflowMessage) :
    (controlLogic fd message).echoReplies =
      fd.echoReplies + if isEchoRequest message.content then 1 else 0 := by
  rw [controlLogic]
  by_cases htype : message.header.type = OFP_ECHO_REQUEST
  · rw [if_pos htype, sendOpenflowEchoReply, write_echoReplies]
    simp [isEchoRequest, OpenflowMessage.content, htype, OpenflowRequest.isEchoReply]
  · rw [if_neg htype]
    simp [isEchoRequest, OpenflowMessage.content, htype]

theorem Unread.controlLogic {fd : Socket} {unread : List WireMessage} (h : Unread fd unread)
    (message : OpenflowMessage) : Unread (controlLogic fd message) unread := by
  rw [OrssNic.controlLogic]
  split_ifs
  · exact h.write _
  · exact h

/-- The calls of `control_logic` so far, and what they have written. -/
structure Handling (connection : OpenflowConnection) (drained rest : List WireMessage)
    (fd : Socket) (calls : List OpenflowMessage) : Prop where
  unread : Unread fd rest
  arguments : calls.map OpenflowMessage.content =
    connection.buffered.map OpenflowMessage.content ++ drained.map WireMessage.content
  echoReplies : fd.echoReplies =
    connection.fd.echoReplies + (calls.map OpenflowMessage.content).countP isEchoRequest

theorem controlBuffer_handling {connection : OpenflowConnection} {unread : List WireMessage}
    {s : Socket × List OpenflowMessage} (h : Unread connection.fd unread)
    (hok : forLoop (controlBufferStepLogged connection.msgBuffer) connection.nbMsgBuffered.toNat
      (connection.fd, []) = .ok s) : Handling connection [] unread s.1 s.2 := by
  have hs := forLoop_correct (P := fun i (s : Socket × List OpenflowMessage) =>
    Unread s.1 unread ∧ s.2 = connection.msgBuffer.take i ∧ s.1.echoReplies =
      connection.fd.echoReplies + (s.2.map OpenflowMessage.content).countP isEchoRequest)
    ⟨h, by simp, by simp⟩ ?_ hok
  · refine ⟨hs.1, ?_, hs.2.2⟩
    rw [hs.2.1, List.map_nil, List.append_nil, OpenflowConnection.buffered]
  intro i t t' _ ht hstep
  obtain ⟨hunread, hcalls, hechoes⟩ := ht
  obtain ⟨message, hread, hstep⟩ := bind_eq_ok.mp hstep
  cases hstep
  have hmessage := readAt_eq_ok.mp hread
  refine ⟨hunread.controlLogic message, ?_, ?_⟩
  · rw [List.take_add_one, hmessage, hcalls]
    rfl
  · simp only [controlLogic_echoReplies, hechoes, List.map_append, List.countP_append,
      List.map_singleton, List.countP_singleton]
    omega

theorem openflowControl_drains {connection connection' : OpenflowConnection}
    {calls : List OpenflowMessage} {unread : List WireMessage} (h : Unread connection.fd unread)
    (hok : openflowControlLogged connection = .ok (connection', calls)) :
    connection'.nbMsgBuffered = 0 ∧ ∃ drained rest, unread = drained ++ rest ∧
      Handling connection drained rest connection'.fd calls := by
  obtain ⟨s, hbuffer, hok⟩ := bind_eq_ok.mp hok
  obtain ⟨t, hsocket, hok⟩ := bind_eq_ok.mp hok
  cases hok
  refine ⟨rfl, ?_⟩
  have hstart := controlBuffer_handling h hbuffer
  refine (whileLoop_correct hsocket).1.invariant
    (P := fun t : Draining × List OpenflowMessage => ∃ drained rest, unread = drained ++ rest ∧
      Handling connection drained rest t.1.fd t.2) ⟨[], unread, rfl, hstart⟩ ?_
  intro t t' ht hstep
  obtain ⟨drained, rest, hsplit, hunread, hcalls, hechoes⟩ := ht
  unfold controlSocketStepLogged at hstep
  split_ifs at hstep
  · cases hstep
  · obtain ⟨⟨received, fd, message⟩, hread, hstep⟩ := bind_eq_ok.mp hstep
    obtain ⟨hsame, hcases⟩ := hunread.readOpenflowMessage hread
    rw [hechoes] at hsame
    rcases hcases with ⟨rfl, hunread'⟩ | ⟨rfl, m, rest', rfl, hcontent, hunread'⟩
    · cases hstep
      exact ⟨drained, rest, hsplit, hunread', hcalls, hsame⟩
    · cases hstep
      refine ⟨drained ++ [m], rest', by simp [hsplit], hunread'.controlLogic message, ?_, ?_⟩
      · rw [List.map_append, hcalls, List.map_append, List.map_singleton, List.map_singleton,
          hcontent, List.append_assoc]
      · rw [controlLogic_echoReplies, hsame, List.map_append, List.countP_append,
          List.map_singleton, List.countP_singleton, add_assoc]

/-! ## The connection as a mailbox -/

inductive MailStep : ConnectionOp → List WireMessage → Mailbox Content → Mailbox Content → Prop
  | wait {type : UInt8} {xid : UInt32} {msg : OpenflowMessage} {box : Mailbox Content}
    {skipped rest : List Content} {c : Content} (hunread : box.unread = skipped ++ c :: rest)
    (hskipped : ∀ u ∈ skipped, ¬Awaited type xid u) (hawaited : Awaited type xid c) :
    MailStep (.wait type xid msg) [] box (box.select skipped c rest)
  | write (request : OpenflowRequest) (box : Mailbox Content) : MailStep (.write request) [] box box
  | enterLoop (box : Mailbox Content) : MailStep .enterLoop [] box box
  | arrive (i : Surroundings) (batch : List WireMessage) (box : Mailbox Content) :
    MailStep (.arrive i) batch box (box.arrive (batch.map WireMessage.content))
  | control {box : Mailbox Content} {drained rest : List Content}
    (hunread : box.unread = drained ++ rest) : MailStep .control [] box (box.drain drained rest)

inductive MailRun : List ConnectionOp → List (List WireMessage) → Mailbox Content →
    Mailbox Content → Prop
  | nil (box : Mailbox Content) : MailRun [] [] box box
  | cons {op : ConnectionOp} {ops : List ConnectionOp} {batch : List WireMessage}
    {batches : List (List WireMessage)} {box₁ box₂ box₃ : Mailbox Content}
    (h : MailStep op batch box₁ box₂) (hops : MailRun ops batches box₂ box₃) :
    MailRun (op :: ops) (batch :: batches) box₁ box₃

theorem MailStep.conserves {op : ConnectionOp} {batch : List WireMessage}
    {box box' : Mailbox Content} {arrived : List Content} (hstep : MailStep op batch box box')
    (h : box.Conserves arrived) :
    box'.Conserves (arrived ++ batch.map WireMessage.content) := by
  cases hstep with
  | wait hunread hskipped hawaited =>
    rw [List.map_nil, List.append_nil]
    exact h.select hunread
  | write request => simpa using h
  | enterLoop => simpa using h
  | arrive i batch => exact h.arrive _
  | control hunread =>
    rw [List.map_nil, List.append_nil]
    exact h.drain hunread

structure ConnectionLog.Shows (l : ConnectionLog) (box : Mailbox Content) : Prop where
  returned : box.returned = l.returned.map OpenflowMessage.content
  handled : box.handled = l.handled.map OpenflowMessage.content
  aside : box.aside = l.connection.buffered.map OpenflowMessage.content
  unread : ∃ unread, Unread l.connection.fd unread ∧ box.unread = unread.map WireMessage.content

def Brings : ConnectionOp → List WireMessage → Prop
  | .arrive i, batch => i.arrived = wireBytes batch ∧ (∀ m ∈ batch, m.Fits) ∧
    ∀ k, some k ∈ i.reads → OFP_HEADER_LEN ≤ k
  | _, batch => batch = []

theorem Unread.meets {connection : OpenflowConnection} {i : Surroundings}
    {unread batch : List WireMessage} (h : Unread connection.fd unread)
    (hbrings : Brings (.arrive i) batch) : Unread (connection.meets i).fd (unread ++ batch) where
  stream := by
    rw [wireBytes, List.flatMap_append, ← wireBytes, ← wireBytes, ← h.stream, ← hbrings.1]
    rfl
  fits := by
    rw [List.forall_mem_append]
    exact ⟨h.fits, hbrings.2.1⟩
  whole := hbrings.2.2

theorem ConnectionLog.Shows.step {l m : ConnectionLog} {op : ConnectionOp}
    {batch : List WireMessage} {box : Mailbox Content} (h : l.Shows box)
    (hbrings : Brings op batch) (hok : l.step op = .ok m) :
    ∃ box', MailStep op batch box box' ∧ m.Shows box' := by
  obtain ⟨hreturned, hhandled, haside, unread, hunread, hrest⟩ := h
  cases op with
  | wait type xid msg =>
    cases hbrings
    obtain ⟨⟨connection, msg'⟩, hwait, hok⟩ := bind_eq_ok.mp hok
    cases hok
    obtain ⟨skipped, w, rest, hsplit, hskipped, hawaited, hcontent, hunread', -, hbuffered⟩ :=
      openflowWaitForMessage_selects hunread hwait
    rw [hsplit, List.map_append, List.map_cons] at hrest
    refine ⟨_, .wait hrest ?_ hawaited, ?_, hhandled, ?_, rest, hunread', rfl⟩
    · rw [List.forall_mem_map]
      exact hskipped
    · simp [Mailbox.select, hreturned, hcontent]
    · rw [hbuffered, ← haside]
      rfl
  | write request =>
    cases hbrings
    cases hok
    exact ⟨box, .write request box, hreturned, hhandled, haside, unread, hunread.write request,
      hrest⟩
  | enterLoop =>
    cases hbrings
    cases hok
    exact ⟨box, .enterLoop box, hreturned, hhandled, haside, unread,
      ⟨hunread.stream, hunread.fits, hunread.whole⟩, hrest⟩
  | arrive i =>
    cases hok
    refine ⟨_, .arrive i batch box, hreturned, hhandled, haside, unread ++ batch,
      hunread.meets hbrings, ?_⟩
    rw [Mailbox.arrive, hrest, List.map_append]
  | control =>
    cases hbrings
    obtain ⟨⟨connection, calls⟩, hcontrol, hok⟩ := bind_eq_ok.mp hok
    cases hok
    obtain ⟨hempty, drained, rest, rfl, hunread', hcalls, -⟩ :=
      openflowControl_drains hunread hcontrol
    rw [List.map_append] at hrest
    refine ⟨_, .control hrest, hreturned, ?_, ?_, rest, hunread', rfl⟩
    · simp [Mailbox.drain, hhandled, haside, hcalls]
    · simp [Mailbox.drain, OpenflowConnection.buffered, hempty]

def Place.BeforeLoop : Place → Prop
  | .greeting => True
  | .greeted => True
  | .answered => True
  | .asked _ => True
  | .connected => True
  | _ => False

/-- The replies written, and what is known of the log at some place. -/
structure ConnectionLog.Accounts (p : Place) (l : ConnectionLog) : Prop where
  echoReplies : l.connection.fd.echoReplies =
    (l.handled.map OpenflowMessage.content).countP isEchoRequest
  returned : ∀ m ∈ l.returned, isEchoRequest m.content = false
  early : p.BeforeLoop → l.handled = []
  emptied : p = .controlled → l.connection.nbMsgBuffered = 0

theorem Next.wait_type {p q : Place} {type : UInt8} {xid : UInt32} {msg : OpenflowMessage}
    (h : Next p (.wait type xid msg) q) : type ≠ OFP_ECHO_REQUEST := by
  cases h <;> decide

theorem Next.write_isEchoReply {p q : Place} {request : OpenflowRequest}
    (h : Next p (.write request) q) : request.isEchoReply = false := by
  cases h <;> rfl

theorem ConnectionLog.Accounts.step {p q : Place} {l m : ConnectionLog} {op : ConnectionOp}
    {box : Mailbox Content} (hnext : Next p op q) (hshows : l.Shows box) (h : l.Accounts p)
    (hok : l.step op = .ok m) : m.Accounts q := by
  obtain ⟨hechoes, hreturned, hearly, -⟩ := h
  obtain ⟨-, -, -, unread, hunread, -⟩ := hshows
  cases op with
  | wait type xid msg =>
    obtain ⟨⟨connection, msg'⟩, hwait, hok⟩ := bind_eq_ok.mp hok
    cases hok
    obtain ⟨skipped, w, rest, -, -, hawaited, hcontent, -, hsame, -⟩ :=
      openflowWaitForMessage_selects hunread hwait
    refine ⟨hsame.trans hechoes, ?_, ?_, ?_⟩
    · rw [List.forall_mem_append, List.forall_mem_singleton]
      refine ⟨hreturned, ?_⟩
      rw [hcontent, isEchoRequest, hawaited.1]
      exact beq_eq_false_iff_ne.mpr hnext.wait_type
    · intro hq
      refine hearly ?_
      cases hnext <;> trivial
    · intro hq
      subst hq
      cases hnext
  | write request =>
    cases hok
    refine ⟨?_, hreturned, ?_, ?_⟩
    · simp only [write_echoReplies, hnext.write_isEchoReply]
      exact hechoes
    · intro hq
      refine hearly ?_
      cases hnext <;> trivial
    · intro hq
      subst hq
      cases hnext
  | enterLoop =>
    cases hok
    cases hnext
    have hnone := hearly trivial
    refine ⟨?_, hreturned, fun _ => hnone, fun hq => ?_⟩
    · simp only [hnone, List.map_nil, List.countP_nil]
      rfl
    · cases hq
  | arrive i =>
    cases hok
    cases hnext
    exact ⟨hechoes, hreturned, fun hq => hq.elim, fun hq => by cases hq⟩
  | control =>
    obtain ⟨⟨connection, calls⟩, hcontrol, hok⟩ := bind_eq_ok.mp hok
    cases hok
    cases hnext
    obtain ⟨hempty, drained, rest, -, -, -, hreplies⟩ := openflowControl_drains hunread hcontrol
    refine ⟨?_, hreturned, fun hq => hq.elim, fun _ => hempty⟩
    rw [List.map_append, List.countP_append, ← hechoes]
    exact hreplies

theorem performs_mailRun {p q : Place} {l m : ConnectionLog} {ops : List ConnectionOp}
    {batches : List (List WireMessage)} {box : Mailbox Content} {arrived : List Content}
    (hrun : Performs p l ops q m) (hbrings : List.Forall₂ Brings ops batches)
    (hshows : l.Shows box) (haccounts : l.Accounts p) (hconserves : box.Conserves arrived) :
    ∃ box', MailRun ops batches box box' ∧ m.Shows box' ∧ m.Accounts q ∧
      box'.Conserves (arrived ++ batches.flatten.map WireMessage.content) := by
  obtain ⟨horder, hrun⟩ := hrun
  induction horder generalizing l batches box arrived with
  | nil p =>
    cases hbrings
    cases hrun
    exact ⟨box, .nil box, hshows, haccounts, by simpa using hconserves⟩
  | cons hnext _ ih =>
    cases hbrings with
    | cons hbatch hbrings =>
      obtain ⟨l₁, hstep, hrun⟩ := run_cons_ok.mp hrun
      obtain ⟨box₁, hmail, hshows₁⟩ := hshows.step hbatch hstep
      obtain ⟨box', hmails, hshows', haccounts', hconserves'⟩ := ih hbrings hshows₁
        (haccounts.step hnext hshows hstep) (hmail.conserves hconserves) hrun
      refine ⟨box', .cons hmail hmails, hshows', haccounts', ?_⟩
      rwa [List.flatten_cons, List.map_append, ← List.append_assoc]

/-- A run in which more than 16 messages are set aside before they are handled
has no log, since it leaves the side buffer. -/
theorem openflow_messages_conserved {connection : OpenflowConnection}
    {initial : List WireMessage} {ops : List ConnectionOp}
    {batches : List (List WireMessage)} {place : Place} {l : ConnectionLog}
    (hempty : connection.nbMsgBuffered = 0) (hrecord : connection.fd.echoReplies = 0)
    (hinitial : Unread connection.fd initial) (hbrings : List.Forall₂ Brings ops batches)
    (hrun : Performs .greeting (.start connection) ops place l) :
    ∃ box,
      MailRun ops batches (.start (initial.map WireMessage.content)) box ∧ l.Shows box ∧
      box.Conserves ((initial ++ batches.flatten).map WireMessage.content) ∧
      l.connection.fd.echoReplies = box.handled.countP isEchoRequest ∧
      (place = .controlled → l.connection.nbMsgBuffered = 0 ∧ box.aside = [] ∧
        ((initial ++ batches.flatten).map WireMessage.content).countP isEchoRequest =
          l.connection.fd.echoReplies + box.unread.countP isEchoRequest) := by
  have hshows : (ConnectionLog.start connection).Shows
      (.start (initial.map WireMessage.content)) := by
    refine ⟨rfl, rfl, ?_, initial, hinitial, rfl⟩
    simp [Mailbox.start, ConnectionLog.start, OpenflowConnection.buffered, hempty]
  have haccounts : (ConnectionLog.start connection).Accounts .greeting :=
    ⟨hrecord, by simp [ConnectionLog.start], fun _ => rfl, fun hplace => by cases hplace⟩
  obtain ⟨box, hmail, hlog, haccounts', hconserves⟩ :=
    performs_mailRun hrun hbrings hshows haccounts (.start _)
  rw [← List.map_append] at hconserves
  have hreplies : l.connection.fd.echoReplies = box.handled.countP isEchoRequest := by
    rw [haccounts'.echoReplies, hlog.handled]
  refine ⟨box, hmail, hlog, hconserves, hreplies, fun hplace => ?_⟩
  have hzero := haccounts'.emptied hplace
  have haside : box.aside = [] := by
    rw [hlog.aside, OpenflowConnection.buffered, hzero]
    rfl
  refine ⟨hzero, haside, ?_⟩
  have hreturned : ∀ c ∈ box.returned, isEchoRequest c = false := by
    rw [hlog.returned, List.forall_mem_map]
    exact haccounts'.returned
  rw [hconserves.countP_eq hreturned, haside, List.countP_nil, add_zero, hreplies]

/-- Echo requests before each of the two messages of the handshake. -/
def pingedHandshake : List WireMessage :=
  [⟨OFP_VERSION, OFP_ECHO_REQUEST, 7, []⟩, ⟨OFP_VERSION, OFP_HELLO, 1, []⟩,
    ⟨OFP_VERSION, OFP_ECHO_REQUEST, 8, [1, 2]⟩,
    ⟨OFP_VERSION, OFP_FEATURES_REPLY, 5, List.replicate 24 0⟩]

def pingedConnection : OpenflowConnection :=
  .ofSocket ⟨wireBytes pingedHandshake, none :: List.replicate 6 (some 64), [], [], []⟩

def ping : WireMessage := ⟨OFP_VERSION, OFP_ECHO_REQUEST, 9, []⟩

def pingedOps : List ConnectionOp :=
  [.wait OFP_HELLO 0 default, .write (helloRequest 4), .write (featuresRequest 5),
    .wait OFP_FEATURES_REPLY 5 default, .enterLoop,
    .arrive ⟨ping.bytes, [some 64, none], [], fun _ => default, fun _ => default, default⟩,
    .control]

theorem openflow_messages_conserved_pinged :
    ∃ (l : ConnectionLog) (box : Mailbox Content), l.connection.fd.echoReplies = 3 ∧
      MailRun pingedOps [[], [], [], [], [], [ping], []]
        (.start (pingedHandshake.map WireMessage.content)) box ∧ l.Shows box ∧
      box.Conserves ((pingedHandshake ++ [[], [], [], [], [], [ping], []].flatten).map
        WireMessage.content) := by
  have hreturns : returns (run ConnectionLog.step pingedOps (.start pingedConnection))
      (fun l => l.connection.fd.echoReplies == 3) = true := by decide +kernel
  obtain ⟨l, hl, hthree⟩ := exists_of_returns hreturns
  have horder : InOrder .greeting pingedOps .controlled :=
    .cons (.hello _) (.cons (.answer 4) (.cons (.ask 5) (.cons (.features 5 _)
      (.cons .enterLoop (.cons (.arrive _ trivial) (.cons .control (.nil _)))))))
  have hfits : ∀ m ∈ pingedHandshake ++ [ping], m.size < 2 ^ 16 := by decide
  have hinitial : Unread pingedConnection.fd pingedHandshake := by
    refine ⟨rfl, fun m hm => hfits m (List.mem_append_left _ hm), ?_⟩
    simp [pingedConnection, OpenflowConnection.ofSocket, OFP_HEADER_LEN]
  have hping : Brings (.arrive ⟨ping.bytes, [some 64, none], [], fun _ => default,
      fun _ => default, default⟩) [ping] := by
    refine ⟨(List.append_nil _).symm, fun m hm => hfits m (List.mem_append_right _ hm), ?_⟩
    simp [OFP_HEADER_LEN]
  have hbrings : List.Forall₂ Brings pingedOps [[], [], [], [], [], [ping], []] :=
    .cons rfl (.cons rfl (.cons rfl (.cons rfl (.cons rfl (.cons hping (.cons rfl .nil))))))
  obtain ⟨box, hmail, hlog, hconserves, -⟩ :=
    openflow_messages_conserved rfl rfl hinitial hbrings ⟨horder, hl⟩
  exact ⟨l, box, by simpa using hthree, hmail, hlog, hconserves⟩

end OrssNic
