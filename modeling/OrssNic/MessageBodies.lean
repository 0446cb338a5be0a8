import OrssNic.MainLoop
import OrssNic.OpenflowHandshake
import OrssNic.Library.Owners

/-!
# Message bodies on the heap (`openflow.c`)

The same functions one level lower: the `data` of a message is a pointer, its
body is a block that `read_openflow_message` allocates, and
`free_openflow_message_body` gives the block back. A pointer that was never set
points to no block, and the use of a block that is not alive is `outOfBounds`,
as every other access outside the allocated memory.
-/

namespace OrssNic.Bodies
open CLoops CRuns

abbrev BodyHeap := Heap (List UInt8)

structure OpenflowMessage where
  header : OpenflowHeader
  data : Option Ref
  deriving DecidableEq, Repr, Inhabited

def readOpenflowMessage (fd : Socket) (bodies : BodyHeap) (message : OpenflowMessage) :
    Except Halt (ℤ × Socket × BodyHeap × OpenflowMessage) := do
  let (valread, fd) ← read fd OFP_HEADER_LEN
  let bytes ← storeBytes message.header.bytes 0 (valread.getD [])
  let header := loadHeader bytes
  let header := { header with length := ntohs header.length, xid := ntohl header.xid }
  let message := { message with header := header }
  if 0 < (valread.getD []).length then
    if OFP_HEADER_LEN < header.length.toNat then
      let count := header.length.toNat - OFP_HEADER_LEN
      let (data, bodies) := bodies.alloc (List.replicate count 0)
      let s ← safeRead fd (bodies.cell data) (UInt16.ofNat count)
      return (1, s.fd, bodies.write data s.buf, { message with data := some data })
    return (1, fd, bodies, message)
  return (0, fd, bodies, message)

def freeOpenflowMessageBody (bodies : BodyHeap) (message : OpenflowMessage) :
    Except Halt BodyHeap :=
  if OFP_HEADER_LEN < message.header.length.toNat then
    match message.data with
    | some data => bodies.release .outOfBounds data
    | none => .error .outOfBounds
  else .ok bodies

def messageData (bodies : BodyHeap) (message : OpenflowMessage) : Except Halt (List UInt8) :=
  match message.data with
  | some data => bodies.load .outOfBounds data
  | none => .error .outOfBounds

structure OpenflowConnection where
  fd : Socket
  msgBuffer : List OpenflowMessage
  nbMsgBuffered : UInt8
  allocated : msgBuffer.length = MSG_BUFFER_SIZE

def bufferMessage (connection : OpenflowConnection) (msg : OpenflowMessage) :
    Except Halt OpenflowConnection :=
  if connection.nbMsgBuffered.toNat < MSG_BUFFER_SIZE then
    .ok { connection with
      msgBuffer := connection.msgBuffer.set connection.nbMsgBuffered.toNat msg
      nbMsgBuffered := connection.nbMsgBuffered + 1
      allocated := by rw [List.length_set, connection.allocated] }
  else .error .outOfBounds

structure Waiting where
  connection : OpenflowConnection
  bodies : BodyHeap
  msg : OpenflowMessage
  msgReceived : Bool

def waitStep (type : UInt8) (xid : UInt32) (s : Waiting) : Except Halt (Option Waiting) := do
  if s.msgReceived then
    return none
  let (received, fd, bodies, msg) ← readOpenflowMessage s.connection.fd s.bodies s.msg
  let connection := { s.connection with fd := fd }
  if 0 < received then
    if msg.header.type = type ∧ (xid = 0 ∨ msg.header.xid = xid) then
      return some ⟨connection, bodies, msg, true⟩
    let connection ← bufferMessage connection msg
    return some ⟨connection, bodies, msg, false⟩
  return some ⟨connection, bodies, msg, false⟩

def openflowWaitForMessage (connection : OpenflowConnection) (bodies : BodyHeap) (type : UInt8)
    (msg : OpenflowMessage) (xid : UInt32) :
    Except Halt (OpenflowConnection × BodyHeap × OpenflowMessage) := do
  let s ← whileLoop .blocked (waitStep type xid) (connection.fd.reads.length + 2)
    ⟨connection, bodies, msg, false⟩
  return (s.connection, s.bodies, s.msg)

/-! ## Housekeeping -/

def controlLogic (fd : Socket) (message : OpenflowMessage) : Socket :=
  if message.header.type = OFP_ECHO_REQUEST then sendOpenflowEchoReply fd else fd

def controlBufferStep (msgBuffer : List OpenflowMessage) (i : ℕ) (s : Socket × BodyHeap) :
    Except Halt (Socket × BodyHeap) := do
  let message ← readAt .outOfBounds msgBuffer i
  let bodies ← freeOpenflowMessageBody s.2 message
  return (controlLogic s.1 message, bodies)

structure Draining where
  fd : Socket
  bodies : BodyHeap
  message : OpenflowMessage
  drained : Bool

def controlSocketStep (s : Draining) : Except Halt (Option Draining) := do
  if s.drained then
    return none
  let (received, fd, bodies, message) ← readOpenflowMessage s.fd s.bodies s.message
  if 0 < received then
    let bodies ← freeOpenflowMessageBody bodies message
    return some ⟨controlLogic fd message, bodies, message, false⟩
  return some ⟨fd, bodies, message, true⟩

def openflowControl (connection : OpenflowConnection) (bodies : BodyHeap) :
    Except Halt (OpenflowConnection × BodyHeap) := do
  let s ← forLoop (controlBufferStep connection.msgBuffer) connection.nbMsgBuffered.toNat
    (connection.fd, bodies)
  let s ← whileLoop .blocked controlSocketStep (s.1.reads.length + 2) ⟨s.1, s.2, default, false⟩
  return ({ connection with fd := s.fd, nbMsgBuffered := 0 }, s.bodies)

/-! ## Flow statistics -/

structure Collecting where
  connection : OpenflowConnection
  bodies : BodyHeap
  messages : List OpenflowMessage
  nbMessages : ℕ
  replyFullyReceived : Bool

def collectStep (currentXid : UInt32) (s : Collecting) : Except Halt (Option Collecting) := do
  if s.replyFullyReceived then
    return none
  let msg ← readAt .outOfBounds s.messages s.nbMessages
  let (connection, bodies, msg) ←
    openflowWaitForMessage s.connection s.bodies OFP_STATS_REPLY msg currentXid
  let messages ← writeAt .outOfBounds s.messages s.nbMessages msg
  let data ← messageData bodies msg
  let flags ← loadBytes data 2 2
  return some ⟨connection, bodies, messages, s.nbMessages + 1,
    ntohs (loadU16 flags 0) &&& OFPSF_REPLY_MORE == 0⟩

structure Parsed where
  flows : OpenflowFlows
  payloads : Heap ActionPayload
  bodies : BodyHeap

/-- Every part is parsed, and its body is freed before the next one. -/
def parseReplies : List OpenflowMessage → Parsed → Except Halt Parsed
  | [], s => .ok s
  | message :: messages, s => do
    let data ← messageData s.bodies message
    let (flows, payloads) ← parseReply ⟨message.header, some data⟩ s.flows s.payloads
    let bodies ← freeOpenflowMessageBody s.bodies message
    parseReplies messages ⟨flows, payloads, bodies⟩

structure GetFlows where
  connection : OpenflowConnection
  transactionId : UInt32
  parsed : Parsed

/-- `stack` is what the headers in the uninitialised array of messages hold. -/
def openflowGetFlows (connection : OpenflowConnection) (transactionId : UInt32)
    (stack : ℕ → OpenflowHeader) (parsed : Parsed) : Except Halt GetFlows := do
  let currentXid := transactionId
  let transactionId := transactionId + 1
  let (written, fd) := write connection.fd (.statsRequest (flowRequest currentXid))
  let connection := { connection with fd := fd }
  if !written then
    return ⟨connection, transactionId, parsed⟩
  let messages := (List.range MAX_STATS_REPLY).map fun k => ⟨stack k, none⟩
  let s ← whileLoop .diverges (collectStep currentXid) (MAX_STATS_REPLY + 1)
    ⟨connection, parsed.bodies, messages, 0, false⟩
  let parsed ← parseReplies (s.messages.take s.nbMessages)
    ⟨{ parsed.flows with nbFlows := 0 }, parsed.payloads, s.bodies⟩
  return ⟨s.connection, transactionId, parsed⟩

/-! ## The program -/

structure Handshake where
  connection : OpenflowConnection
  bodies : BodyHeap
  transactionId : UInt32
  features : SwitchFeatures

/-- `header` is that of the uninitialised local. The body of the `HELLO` is not freed. -/
def openflowCreateConnection (connection : OpenflowConnection) (transactionId : UInt32)
    (header : OpenflowHeader) : Except Halt Handshake := do
  let (connection, bodies, message) ←
    openflowWaitForMessage connection Heap.empty OFP_HELLO ⟨header, none⟩ 0
  let (fd, transactionId) := sendOpenflowHello connection.fd transactionId
  let (featuresXid, fd, transactionId) := sendOpenflowFeaturesRequest fd transactionId
  let (connection, bodies, message) ←
    openflowWaitForMessage { connection with fd := fd } bodies OFP_FEATURES_REPLY message
      featuresXid
  let data ← messageData bodies message
  let features ← parseFeaturesReply ⟨message.header, some data⟩
  let bodies ← freeOpenflowMessageBody bodies message
  return ⟨connection, bodies, transactionId, features⟩

structure MainState where
  connection : OpenflowConnection
  bodies : BodyHeap
  transactionId : UInt32
  map : MapState
  payloads : Heap ActionPayload

/-- What one iteration meets; the messages on the stack have no bodies. -/
structure Surroundings where
  arrived : List UInt8
  reads : List (Option ℕ)
  writes : List Bool
  stack : ℕ → OpenflowHeader
  stack' : ℕ → OpenflowHeader
  previousKey : FiveTuple

structure Iteration where
  before : MainState
  flows : OpenflowFlows
  migrations : List Migration
  after : MainState

def OpenflowConnection.meets (connection : OpenflowConnection) (i : Surroundings) :
    OpenflowConnection :=
  { connection with fd := { connection.fd with
      stream := connection.fd.stream ++ i.arrived
      reads := i.reads
      writes := i.writes } }

def iteration (s : MainState) (i : Surroundings) : Except Halt Iteration := do
  let (connection, bodies) ← openflowControl (s.connection.meets i) s.bodies
  let r ← openflowGetFlows connection s.transactionId i.stack ⟨.zeroed, s.payloads, bodies⟩
  let r ← openflowGetFlows r.connection r.transactionId i.stack' r.parsed
  let (map, migrations) ← getMigrations r.parsed.flows s.map i.previousKey []
  let (fd, transactionId) := applyMigrations r.connection.fd r.transactionId migrations
  let (_, payloads) ← openflowFreeFlows r.parsed.flows r.parsed.payloads
  let (hashmap, heap) := hashmapCleanupInactiveFlows map.hashmap map.heap
  return {
    before := s
    flows := r.parsed.flows
    migrations := migrations
    after := ⟨{ r.connection with fd := fd }, r.parsed.bodies, transactionId, ⟨hashmap, heap⟩,
      payloads⟩ }

/-- The state in front of the loop. The record of the writes starts here. -/
def MainState.start (handshake : Handshake) : MainState where
  connection := { handshake.connection with
    fd := { handshake.connection.fd with sent := [], failed := [] } }
  bodies := handshake.bodies
  transactionId := handshake.transactionId
  map := ⟨hashmapInit, Heap.empty⟩
  payloads := Heap.empty

/-- `main` up to the interrupt, after the iterations of the list. -/
def program (connection : OpenflowConnection) (transactionId : UInt32) (header : OpenflowHeader)
    (inputs : List Surroundings) : Except Halt (List Iteration) := do
  let handshake ← openflowCreateConnection connection transactionId header
  trace iteration Iteration.after inputs (.start handshake)

end OrssNic.Bodies
