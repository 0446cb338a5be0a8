import OrssNic.Openflow

/-!
# Reading and waiting for messages (`openflow.c`)

The socket is non-blocking. `stream` is what the peer has sent and nobody has
read; `reads` fixes what the coming calls of `read` do: `none` is the return
value -1, and `some k` hands over at most `k` bytes. A loop that polls the
socket beyond the last of them is `blocked`.
-/

namespace OrssNic
open CLoops CEndian

structure Socket where
  stream : List UInt8
  reads : List (Option ℕ)
  /-- The outcomes of the coming calls of `write`, the later ones being successes. -/
  writes : List Bool
  sent : List OpenflowRequest
  failed : List OpenflowRequest

def read (fd : Socket) (count : ℕ) : Except Halt (Option (List UInt8) × Socket) :=
  match fd.reads with
  | [] => .error .blocked
  | none :: reads => .ok (none, { fd with reads := reads })
  | some k :: reads =>
    .ok (some (fd.stream.take (min k count)),
      { fd with stream := fd.stream.drop (min k count), reads := reads })

def write (fd : Socket) (request : OpenflowRequest) : Bool × Socket :=
  match fd.writes with
  | false :: writes => (false, { fd with writes := writes, failed := fd.failed ++ [request] })
  | true :: writes => (true, { fd with writes := writes, sent := fd.sent ++ [request] })
  | [] => (true, { fd with sent := fd.sent ++ [request] })

def storeBytes (block : List UInt8) (offset : ℕ) (bytes : List UInt8) :
    Except Halt (List UInt8) :=
  if offset + bytes.length ≤ block.length then
    .ok (block.take offset ++ bytes ++ block.drop (offset + bytes.length))
  else .error .outOfBounds

structure SafeRead where
  fd : Socket
  buf : List UInt8
  bytesRead : UInt16

def safeReadStep (count : UInt16) (s : SafeRead) : Except Halt (Option SafeRead) := do
  if s.bytesRead < count then
    let (valread, fd) ← read s.fd (count.toNat - s.bytesRead.toNat)
    match valread with
    | none => return some { s with fd := fd }
    | some bytes =>
      let buf ← storeBytes s.buf s.bytesRead.toNat bytes
      return some ⟨fd, buf, s.bytesRead + UInt16.ofNat bytes.length⟩
  return none

/-- Every pass uses up one of the coming reads. -/
def safeRead (fd : Socket) (buf : List UInt8) (count : UInt16) : Except Halt SafeRead :=
  whileLoop .blocked (safeReadStep count) (fd.reads.length + 1) ⟨fd, buf, 0⟩

def readOpenflowMessage (fd : Socket) (message : OpenflowMessage) :
    Except Halt (ℤ × Socket × OpenflowMessage) := do
  let (valread, fd) ← read fd OFP_HEADER_LEN
  -- A short read leaves the tail of the old header, and -1 all of it.
  let bytes ← storeBytes message.header.bytes 0 (valread.getD [])
  let header := loadHeader bytes
  let header := { header with length := ntohs header.length, xid := ntohl header.xid }
  let message := { message with header := header }
  if 0 < (valread.getD []).length then
    if OFP_HEADER_LEN < header.length.toNat then
      -- The content of the new block is overwritten before it is read.
      let count := header.length.toNat - OFP_HEADER_LEN
      let s ← safeRead fd (List.replicate count 0) (UInt16.ofNat count)
      return (1, s.fd, { message with data := some s.buf })
    return (1, fd, message)
  return (0, fd, message)

structure OpenflowConnection where
  fd : Socket
  msgBuffer : List OpenflowMessage
  nbMsgBuffered : UInt8
  allocated : msgBuffer.length = MSG_BUFFER_SIZE

def OpenflowConnection.ofSocket (fd : Socket) : OpenflowConnection where
  fd := fd
  msgBuffer := List.replicate MSG_BUFFER_SIZE default
  nbMsgBuffered := 0
  allocated := List.length_replicate

def bufferMessage (connection : OpenflowConnection) (msg : OpenflowMessage) :
    Except Halt OpenflowConnection :=
  if connection.nbMsgBuffered.toNat < MSG_BUFFER_SIZE then
    .ok { connection with
      msgBuffer := connection.msgBuffer.set connection.nbMsgBuffered.toNat msg
      nbMsgBuffered := connection.nbMsgBuffered + 1
      allocated := by rw [List.length_set, connection.allocated] }
  else .error .outOfBounds

structure Waiting where
  connection : OpenflowConnection
  msg : OpenflowMessage
  msgReceived : Bool

def waitStep (type : UInt8) (xid : UInt32) (s : Waiting) : Except Halt (Option Waiting) := do
  if s.msgReceived then
    return none
  let (received, fd, msg) ← readOpenflowMessage s.connection.fd s.msg
  let connection := { s.connection with fd := fd }
  if 0 < received then
    if msg.header.type = type ∧ (xid = 0 ∨ msg.header.xid = xid) then
      return some ⟨connection, msg, true⟩
    let connection ← bufferMessage connection msg
    return some ⟨connection, msg, false⟩
  return some ⟨connection, msg, false⟩

/-- Every pass but the last uses up one of the coming reads. -/
def openflowWaitForMessage (connection : OpenflowConnection) (type : UInt8)
    (msg : OpenflowMessage) (xid : UInt32) :
    Except Halt (OpenflowConnection × OpenflowMessage) := do
  let s ← whileLoop .blocked (waitStep type xid) (connection.fd.reads.length + 2)
    ⟨connection, msg, false⟩
  return (s.connection, s.msg)

/-! ## What one pass can do -/

theorem read_ok {fd fd' : Socket} {count : ℕ} {bytes : Option (List UInt8)}
    (h : read fd count = .ok (bytes, fd')) :
    ∃ reads, (fd.reads = none :: reads ∧ bytes = none ∧ fd' = { fd with reads := reads }) ∨
      ∃ k, fd.reads = some k :: reads ∧ bytes = some (fd.stream.take (min k count)) ∧
        fd' = { fd with stream := fd.stream.drop (min k count), reads := reads } := by
  rw [read] at h
  split at h
  · cases h
  · next reads hreads =>
    cases h
    exact ⟨reads, .inl ⟨hreads, rfl, rfl⟩⟩
  · next k reads hreads =>
    cases h
    exact ⟨reads, .inr ⟨k, hreads, rfl, rfl⟩⟩

theorem safeReadStep_ok {count : UInt16} {s s' : SafeRead}
    (h : safeReadStep count s = .ok (some s')) :
    s.bytesRead < count ∧ ∃ valread,
      read s.fd (count.toNat - s.bytesRead.toNat) = .ok (valread, s'.fd) ∧
      ((valread = none ∧ s'.buf = s.buf ∧ s'.bytesRead = s.bytesRead) ∨
        ∃ bytes, valread = some bytes ∧
          storeBytes s.buf s.bytesRead.toNat bytes = .ok s'.buf ∧
          s'.bytesRead = s.bytesRead + UInt16.ofNat bytes.length) := by
  rw [safeReadStep] at h
  split_ifs at h with hlt
  · obtain ⟨⟨valread, fd'⟩, hread, h⟩ := bind_eq_ok.mp h
    cases valread with
    | none =>
      cases h
      exact ⟨hlt, none, hread, .inl ⟨rfl, rfl, rfl⟩⟩
    | some bytes =>
      obtain ⟨buf', hstore, h⟩ := bind_eq_ok.mp h
      cases h
      exact ⟨hlt, some bytes, hread, .inr ⟨bytes, rfl, hstore, rfl⟩⟩
  · cases h

theorem bufferMessage_ok {connection connection' : OpenflowConnection} {msg : OpenflowMessage}
    (h : bufferMessage connection msg = .ok connection') :
    connection.nbMsgBuffered.toNat < MSG_BUFFER_SIZE ∧ connection'.fd = connection.fd ∧
      connection'.msgBuffer = connection.msgBuffer.set connection.nbMsgBuffered.toNat msg ∧
      connection'.nbMsgBuffered.toNat = connection.nbMsgBuffered.toNat + 1 := by
  rw [bufferMessage] at h
  split_ifs at h with hroom
  cases h
  refine ⟨hroom, rfl, rfl, ?_⟩
  rw [MSG_BUFFER_SIZE] at hroom
  simp only [UInt8.toNat_add, UInt8.reduceToNat]
  omega

theorem waitStep_ok {type : UInt8} {xid : UInt32} {s s' : Waiting}
    (h : waitStep type xid s = .ok (some s')) :
    s.msgReceived = false ∧ ∃ received fd msg,
      readOpenflowMessage s.connection.fd s.msg = .ok (received, fd, msg) ∧
      ((¬0 < received ∧ s' = ⟨{ s.connection with fd := fd }, msg, false⟩) ∨
        (0 < received ∧ (msg.header.type = type ∧ (xid = 0 ∨ msg.header.xid = xid)) ∧
          s' = ⟨{ s.connection with fd := fd }, msg, true⟩) ∨
        (0 < received ∧ ¬(msg.header.type = type ∧ (xid = 0 ∨ msg.header.xid = xid)) ∧
          ∃ connection, bufferMessage { s.connection with fd := fd } msg = .ok connection ∧
            s' = ⟨connection, msg, false⟩)) := by
  rw [waitStep] at h
  split_ifs at h with hflag
  · cases h
  · obtain ⟨⟨received, fd, msg⟩, hread, h⟩ := bind_eq_ok.mp h
    refine ⟨Bool.eq_false_iff.mpr hflag, received, fd, msg, hread, ?_⟩
    dsimp only at h
    split_ifs at h with hreceived hawaited
    · cases h
      exact .inr (.inl ⟨hreceived, hawaited, rfl⟩)
    · obtain ⟨connection, hbuffer, h⟩ := bind_eq_ok.mp h
      cases h
      exact .inr (.inr ⟨hreceived, hawaited, connection, hbuffer, rfl⟩)
    · cases h
      exact .inl ⟨hreceived, rfl⟩

theorem waitStep_stop {type : UInt8} {xid : UInt32} {s : Waiting}
    (h : waitStep type xid s = .ok none) : s.msgReceived = true := by
  rw [waitStep] at h
  split_ifs at h with hflag
  · exact hflag
  · obtain ⟨⟨received, fd, msg⟩, -, h⟩ := bind_eq_ok.mp h
    dsimp only at h
    split_ifs at h
    · cases h
    · obtain ⟨connection, -, h⟩ := bind_eq_ok.mp h
      cases h
    · cases h

end OrssNic
