import OrssNic.OpenflowSocket

/-!
# Housekeeping and flow modifications (`openflow.c`)

`openflowControl` answers the echo requests that were set aside and those still
on the socket, and `openflowModVlan` writes the `FLOW_MOD` that tags one flow.
The counter `transaction_id` is passed along.
-/

namespace OrssNic
open CLoops

def sendOpenflowEchoReply (fd : Socket) : Socket :=
  (write fd (.echoReply ⟨OFP_VERSION, OFP_ECHO_REPLY, htons (UInt16.ofNat OFP_HEADER_LEN), 0⟩)).2

def controlLogic (fd : Socket) (message : OpenflowMessage) : Socket :=
  if message.header.type = OFP_ECHO_REQUEST then sendOpenflowEchoReply fd else fd

def controlBufferStep (msgBuffer : List OpenflowMessage) (i : ℕ) (fd : Socket) :
    Except Halt Socket := do
  let message ← readAt .outOfBounds msgBuffer i
  return controlLogic fd message

structure Draining where
  fd : Socket
  message : OpenflowMessage
  drained : Bool

/-- The guard of the second loop reads a message, and its body handles it. -/
def controlSocketStep (s : Draining) : Except Halt (Option Draining) := do
  if s.drained then
    return none
  let (received, fd, message) ← readOpenflowMessage s.fd s.message
  if 0 < received then
    return some ⟨controlLogic fd message, message, false⟩
  return some ⟨fd, message, true⟩

def openflowControl (connection : OpenflowConnection) : Except Halt OpenflowConnection := do
  let fd ← forLoop (controlBufferStep connection.msgBuffer) connection.nbMsgBuffered.toNat
    connection.fd
  let s ← whileLoop .blocked controlSocketStep (fd.reads.length + 2) ⟨fd, default, false⟩
  return { connection with fd := s.fd, nbMsgBuffered := 0 }

def fiveTupleMatch (fiveTuple : FiveTuple) : OpenflowMatch where
  wildcards := htonl OFPW_MATCH_FIVE_TUPLE
  inPort := htons OVS_NETWORK_IFINDEX
  dlSrc := default
  dlDst := default
  dlVlan := 0
  dlVlanPcp := 0
  pad1 := 0
  dlType := htons IPV4_ETH_TYPE
  nwTos := 0
  nwProto := fiveTuple.proto
  pad2 := default
  nwSrc := htonl fiveTuple.srcIp
  nwDst := htonl fiveTuple.dstIp
  tpSrc := htons fiveTuple.srcPort
  tpDst := htons fiveTuple.dstPort

/-- Priority and cookie keep the zeros of the initialiser. -/
def flowModMessage (transactionId : UInt32) (fiveTuple : FiveTuple) (newVlan : UInt16) :
    OpenflowFlowModMessage where
  header := ⟨OFP_VERSION, OFP_FLOW_MOD, htons FLOW_MOD_SIZE, ntohl transactionId⟩
  body := {
    «match» := fiveTupleMatch fiveTuple
    cookie := 0
    command := htons OFPFC_MODIFY
    idleTimeout := htons 0
    hardTimeout := htons 0
    priority := 0
    bufferId := htonl 0xffffffff
    outPort := htons OFPP_NONE
    flags := htons 0 }
  vlanVid := {
    type := htons OFPAT_SET_VLAN_VID
    len := htons (UInt16.ofNat ACTION_SIZE)
    vlanVid := htons newVlan
    pad := default }
  output := {
    type := htons OFPAT_OUTPUT
    len := htons (UInt16.ofNat ACTION_SIZE)
    port := htons OVS_HOST_IFINDEX
    maxLen := htons OVS_OUTPUT_ACTION_MAX_LEN }

/-- A failed write is only reported on the terminal. -/
def openflowModVlan (fd : Socket) (transactionId : UInt32) (fiveTuple : FiveTuple)
    (newVlan : UInt16) : Socket × UInt32 :=
  ((write fd (.flowMod (flowModMessage transactionId fiveTuple newVlan))).2, transactionId + 1)

end OrssNic
