import OrssNic.FlowModBytes
import OrssNic.OpenflowHandshake
import OrssNic.OpenflowReceive
import OrssNic.Library.Framing

/-!
# What the switch hears

The requests as the bytes that `write` hands to the socket, and a switch that
cuts them into messages by the lengths in their headers and decodes each body
in network order.
-/

namespace OrssNic
open CEndian CFraming

/-! ## Requests in memory -/

def OpenflowFlowStatsRequestBody.memory (body : OpenflowFlowStatsRequestBody) : List UInt8 :=
  body.match.memory ++ [body.tableId, body.pad] ++ leBytes 2 body.outPort.toNat

def OpenflowStatsRequestMessage.memory (message : OpenflowStatsRequestMessage) : List UInt8 :=
  message.header.bytes ++ leBytes 2 message.type.toNat ++ leBytes 2 message.flags.toNat ++
    message.body.memory

def OpenflowRequest.memory : OpenflowRequest → List UInt8
  | .hello header => header.bytes
  | .featuresRequest header => header.bytes
  | .echoReply header => header.bytes
  | .statsRequest message => message.memory
  | .flowMod message => message.memory

inductive Utterance
  | hello (xid : UInt32)
  | featuresRequest (xid : UInt32)
  | echoReply
  | flowRequest (xid : UInt32)
  | flowMod (xid : UInt32) (key : FiveTuple) (newVlan : UInt16)
  deriving DecidableEq, Repr

def Utterance.request : Utterance → OpenflowRequest
  | hello xid => helloRequest xid
  | featuresRequest xid => OrssNic.featuresRequest xid
  | echoReply => .echoReply ⟨OFP_VERSION, OFP_ECHO_REPLY, htons (UInt16.ofNat OFP_HEADER_LEN), 0⟩
  | flowRequest xid => .statsRequest (OrssNic.flowRequest xid)
  | flowMod xid key newVlan => .flowMod (flowModMessage xid key newVlan)

/-! ## Messages on the wire -/

/-- The first message, when all of it has come. -/
def nextMessage (bytes : List UInt8) : Option (WireMessage × List UInt8) :=
  let length := (getBe16 bytes 2).toNat
  if OFP_HEADER_LEN ≤ length ∧ length ≤ bytes.length then
    some (⟨loadU8 bytes 0, loadU8 bytes 1, getBe32 bytes 4,
      (bytes.take length).drop OFP_HEADER_LEN⟩, bytes.drop length)
  else none

namespace WireMessage

theorem getBe16_bytes (m : WireMessage) (rest : List UInt8) :
    getBe16 (m.bytes ++ rest) 2 = m.header.length := by
  apply getBe16_eq
  simp [bytes, headerBytes, header]

theorem bytes_ne_nil (m : WireMessage) : m.bytes ≠ [] := by
  simp [bytes, headerBytes]

theorem nextMessage_bytes {m : WireMessage} (h : m.Fits) (rest : List UInt8) :
    nextMessage (m.bytes ++ rest) = some (m, rest) := by
  have hlength : (getBe16 (m.bytes ++ rest) 2).toNat = m.size := by
    rw [getBe16_bytes, h.length_toNat]
  have hxid : getBe32 (m.bytes ++ rest) 4 = m.xid := by
    apply getBe32_eq
    simp [bytes, headerBytes]
  have hbody : m.bytes.drop OFP_HEADER_LEN = m.body := by
    rw [bytes, ← m.headerBytes_length, List.drop_left]
  have hheader : OFP_HEADER_LEN ≤ m.size := Nat.le_add_right _ _
  have hwhole : m.size ≤ (m.bytes ++ rest).length := by
    rw [List.length_append, m.bytes_length]
    omega
  have htake : (m.bytes ++ rest).take m.size = m.bytes := by
    rw [← m.bytes_length, List.take_left]
  have hdrop : (m.bytes ++ rest).drop m.size = rest := by
    rw [← m.bytes_length, List.drop_left]
  simp only [nextMessage, hlength, hheader, hwhole, and_self, if_true, htake, hdrop, hbody, hxid]
  rfl

theorem nextMessage_part {m : WireMessage} (h : m.Fits) {part : List UInt8}
    (hpart : part <+: m.bytes) (hne : part ≠ m.bytes) : nextMessage part = none := by
  obtain ⟨missing, hmissing⟩ := hpart
  have hlt : part.length < m.size := by
    rw [← m.bytes_length, ← hmissing, List.length_append]
    have := List.length_pos_of_ne_nil fun hnil : missing = [] => hne (by rw [← hmissing, hnil,
      List.append_nil])
    omega
  by_cases hheader : OFP_HEADER_LEN ≤ part.length
  · have hlength : getBe16 part 2 = m.header.length := by
      rw [← m.getBe16_bytes [], List.append_nil, ← hmissing, getBe16, getBe16,
        List.drop_append_of_le_length (by rw [OFP_HEADER_LEN] at hheader; omega),
        List.take_append_of_le_length
          (by rw [List.length_drop]; rw [OFP_HEADER_LEN] at hheader; omega)]
    rw [nextMessage, hlength, h.length_toNat, if_neg fun hwhole => by omega]
  · rw [nextMessage, if_neg fun hwhole => by omega]

/-- OpenFlow's framing by the length in the header. -/
def frames : FrameCode WireMessage UInt8 where
  encode := bytes
  decode := nextMessage
  Fits := Fits
  decode_nil := rfl
  encode_ne_nil := bytes_ne_nil
  decode_encode := fun _ rest h => nextMessage_bytes h rest
  decode_part := fun _ _ h hpart hne => nextMessage_part h hpart hne

end WireMessage

/-! ## What a message means -/

inductive ControllerMessage
  | hello (xid : UInt32)
  | echoReply (xid : UInt32) (data : List UInt8)
  | featuresRequest (xid : UInt32)
  | flowStatsRequest (xid : UInt32) («match» : OpenflowMatch) (tableId : UInt8) (outPort : UInt16)
  | flowMod (message : Ofp10FlowMod)
  deriving DecidableEq, Repr

/-- `sizeof(struct ofp10_stats_msg)` and `sizeof(struct ofp10_flow_stats_request)`,
without the header -/
def OFP10_FLOW_STATS_REQUEST_SIZE : ℕ := 48

def decodeFlowStatsRequest (xid : UInt32) (body : List UInt8) : Option ControllerMessage :=
  if body.length = OFP10_FLOW_STATS_REQUEST_SIZE ∧ getBe16 body 0 = OFPST_FLOW then
    some (.flowStatsRequest xid (decodeMatch (body.drop 4)) (loadU8 body 44) (getBe16 body 46))
  else none

def WireMessage.decoded (m : WireMessage) : Option ControllerMessage :=
  if m.version ≠ OFP_VERSION then none
  else if m.type = OFP_HELLO then some (.hello m.xid)
  else if m.type = OFP_ECHO_REPLY then some (.echoReply m.xid m.body)
  else if m.type = OFP_FEATURES_REQUEST then some (.featuresRequest m.xid)
  else if m.type = OFP_STATS_REQUEST then decodeFlowStatsRequest m.xid m.body
  else if m.type = OFP_FLOW_MOD then (decodeFlowMod m.bytes).map .flowMod
  else none

def networkMatch : OpenflowMatch :=
  { (default : OpenflowMatch) with
    inPort := OVS_NETWORK_IFINDEX
    wildcards := OFPFW10_ALL &&& ~~~OFPFW10_IN_PORT }

def flowRequestBody : List UInt8 :=
  be16 OFPST_FLOW ++ be16 0 ++ (networkMatch.bytes ++ ([0xff, 0] ++ be16 OFPP_NONE))

theorem flowRequest_memory (xid : UInt32) :
    (flowRequest xid).memory = (flowRequest xid).header.bytes ++ flowRequestBody := by
  have hbody : leBytes 2 (htons OFPST_FLOW).toNat ++ (leBytes 2 (0 : UInt16).toNat ++
      (flowRequest 0).body.memory) = flowRequestBody := by
    decide
  rw [← hbody, OpenflowStatsRequestMessage.memory, List.append_assoc, List.append_assoc]
  rfl

theorem decodeFlowStatsRequest_body (xid : UInt32) :
    decodeFlowStatsRequest xid flowRequestBody =
      some (.flowStatsRequest xid networkMatch 0xff OFPP_NONE) := by
  have hshape : flowRequestBody.length = OFP10_FLOW_STATS_REQUEST_SIZE ∧
      getBe16 flowRequestBody 0 = OFPST_FLOW := by
    decide
  have hmatch : decodeMatch (flowRequestBody.drop 4) = networkMatch := by decide
  have htable : loadU8 flowRequestBody 44 = 0xff := by decide
  have hport : getBe16 flowRequestBody 46 = OFPP_NONE := by decide
  rw [decodeFlowStatsRequest, if_pos hshape, hmatch, htable, hport]

namespace Utterance

def meaning : Utterance → ControllerMessage
  | hello xid => .hello xid
  | featuresRequest xid => .featuresRequest xid
  | echoReply => .echoReply 0 []
  | flowRequest xid => .flowStatsRequest xid networkMatch 0xff OFPP_NONE
  | flowMod xid key newVlan => .flowMod {
      version := OFP_VERSION
      type := OFP_FLOW_MOD
      length := FLOW_MOD_SIZE
      xid := xid
      «match» := exactMatch key
      cookie := 0
      command := OFPFC_MODIFY
      idleTimeout := 0
      hardTimeout := 0
      priority := 0
      bufferId := 0xffffffff
      outPort := OFPP_NONE
      flags := 0
      actions := retagActions newVlan }

def message : Utterance → WireMessage
  | hello xid => ⟨OFP_VERSION, OFP_HELLO, xid, []⟩
  | featuresRequest xid => ⟨OFP_VERSION, OFP_FEATURES_REQUEST, xid, []⟩
  | echoReply => ⟨OFP_VERSION, OFP_ECHO_REPLY, 0, []⟩
  | flowRequest xid => ⟨OFP_VERSION, OFP_STATS_REQUEST, xid, flowRequestBody⟩
  | flowMod xid key newVlan => ⟨OFP_VERSION, OFP_FLOW_MOD, xid,
      (flowModMessage xid key newVlan).memory.drop OFP_HEADER_LEN⟩

theorem flowMod_size (xid : UInt32) (key : FiveTuple) (newVlan : UInt16) :
    (flowMod xid key newVlan).message.size = FLOW_MOD_SIZE.toNat := by
  rw [message, WireMessage.size, List.length_drop, flowModMessage_memory_length]
  rfl

theorem flowRequest_size (xid : UInt32) :
    (flowRequest xid).message.size = STATS_REQUEST_SIZE.toNat := by
  have hsize : OFP_HEADER_LEN + flowRequestBody.length = STATS_REQUEST_SIZE.toNat := by decide
  exact hsize

theorem fits (u : Utterance) : u.message.Fits := by
  cases u with
  | flowRequest xid =>
    rw [WireMessage.Fits, flowRequest_size]
    decide
  | flowMod xid key newVlan =>
    rw [WireMessage.Fits, flowMod_size]
    decide
  | _ => exact (by decide : OFP_HEADER_LEN < 2 ^ 16)

theorem header_bytes (type : UInt8) (length : UInt16) (xid : UInt32) :
    OpenflowHeader.bytes ⟨OFP_VERSION, type, htons length, htonl xid⟩ =
      [OFP_VERSION, type] ++ be16 length ++ be32 xid := by
  simp only [OpenflowHeader.bytes, leBytes_htons, leBytes_htonl]

theorem memory_eq (u : Utterance) : u.request.memory = u.message.bytes := by
  cases u with
  | hello xid =>
    rw [request, helloRequest, OpenflowRequest.memory, header_bytes]
    rfl
  | featuresRequest xid =>
    rw [request, OrssNic.featuresRequest, OpenflowRequest.memory, header_bytes]
    rfl
  | echoReply => decide
  | flowRequest xid =>
    have hsize : UInt16.ofNat (flowRequest xid).message.size = STATS_REQUEST_SIZE := by
      rw [flowRequest_size, UInt16.ofNat_toNat]
    rw [request, OpenflowRequest.memory, flowRequest_memory, WireMessage.bytes,
      WireMessage.headerBytes, hsize, OrssNic.flowRequest, header_bytes]
    rfl
  | flowMod xid key newVlan =>
    have hsize : UInt16.ofNat (flowMod xid key newVlan).message.size = FLOW_MOD_SIZE := by
      rw [flowMod_size, UInt16.ofNat_toNat]
    have hheader : (flowModMessage xid key newVlan).memory.take OFP_HEADER_LEN =
        [OFP_VERSION, OFP_FLOW_MOD] ++ be16 FLOW_MOD_SIZE ++ be32 xid := by
      rw [flowModMessage_memory]
      simp [OFP_HEADER_LEN, List.take_append, List.take_of_length_le]
    rw [WireMessage.bytes, WireMessage.headerBytes, hsize]
    simp only [message]
    rw [← hheader, List.take_append_drop]
    rfl

theorem decoded_eq (u : Utterance) : u.message.decoded = some u.meaning := by
  cases u with
  | flowRequest xid => exact decodeFlowStatsRequest_body xid
  | flowMod xid key newVlan =>
    have hdecoded : (flowMod xid key newVlan).message.decoded =
      (decodeFlowMod (flowMod xid key newVlan).message.bytes).map .flowMod := rfl
    rw [hdecoded, ← memory_eq, request, OpenflowRequest.memory, decodeFlowMod_memory]
    rfl
  | _ => rfl

end Utterance

end OrssNic
