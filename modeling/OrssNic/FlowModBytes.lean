import OrssNic.PacketMatch
import OrssNic.BigEndian

/-!
# The bytes of a flow modification

What `write` hands to the socket is the structure as it lies in memory. A
switch decodes the bytes as a big-endian `ofp_flow_mod` of OpenFlow 1.0 with
its list of actions.
-/

namespace OrssNic
open CEndian

/-! ## The structure in memory -/

def OpenflowMatch.memory (m : OpenflowMatch) : List UInt8 :=
  leBytes 4 m.wildcards.toNat ++ leBytes 2 m.inPort.toNat ++ m.dlSrc.bytes ++ m.dlDst.bytes ++
    leBytes 2 m.dlVlan.toNat ++ [m.dlVlanPcp, m.pad1] ++ leBytes 2 m.dlType.toNat ++
    [m.nwTos, m.nwProto] ++ m.pad2.bytes ++ leBytes 4 m.nwSrc.toNat ++
    leBytes 4 m.nwDst.toNat ++ leBytes 2 m.tpSrc.toNat ++ leBytes 2 m.tpDst.toNat

def OpenflowFlowMod.memory (body : OpenflowFlowMod) : List UInt8 :=
  body.match.memory ++ leBytes 8 body.cookie.toNat ++ leBytes 2 body.command.toNat ++
    leBytes 2 body.idleTimeout.toNat ++ leBytes 2 body.hardTimeout.toNat ++
    leBytes 2 body.priority.toNat ++ leBytes 4 body.bufferId.toNat ++
    leBytes 2 body.outPort.toNat ++ leBytes 2 body.flags.toNat

def OpenflowActionVlanVid.memory (a : OpenflowActionVlanVid) : List UInt8 :=
  leBytes 2 a.type.toNat ++ leBytes 2 a.len.toNat ++ leBytes 2 a.vlanVid.toNat ++ a.pad.bytes

def OpenflowActionOutput.memory (a : OpenflowActionOutput) : List UInt8 :=
  leBytes 2 a.type.toNat ++ leBytes 2 a.len.toNat ++ leBytes 2 a.port.toNat ++
    leBytes 2 a.maxLen.toNat

def OpenflowFlowModMessage.memory (message : OpenflowFlowModMessage) : List UInt8 :=
  message.header.bytes ++ message.body.memory ++ message.vlanVid.memory ++ message.output.memory

theorem leBytes_htons (x : UInt16) : leBytes 2 (htons x).toNat = be16 x := by
  have hlt := bswap_lt 2 x.toNat
  have hvalue : (htons x).toNat = leValue (beBytes 2 x.toNat) := by
    rw [htons, ntohs, UInt16.toNat_ofNat']
    exact Nat.mod_eq_of_lt hlt
  have h := leBytes_leValue (beBytes 2 x.toNat)
  rw [beBytes_length] at h
  rw [hvalue, h, be16]

theorem leBytes_htonl (x : UInt32) : leBytes 4 (htonl x).toNat = be32 x := by
  have hlt := bswap_lt 4 x.toNat
  have hvalue : (htonl x).toNat = leValue (beBytes 4 x.toNat) := by
    rw [htonl, ntohl, UInt32.toNat_ofNat']
    exact Nat.mod_eq_of_lt hlt
  have h := leBytes_leValue (beBytes 4 x.toNat)
  rw [beBytes_length] at h
  rw [hvalue, h, be32]

theorem fiveTupleMatch_memory (key : FiveTuple) :
    (fiveTupleMatch key).memory = (exactMatch key).bytes := by
  simp only [OpenflowMatch.memory, OpenflowMatch.bytes, fiveTupleMatch, exactMatch, leBytes_htons,
    leBytes_htonl]
  rfl

/-! ## The big-endian reading -/

/-- The list of actions, when it consists of whole output and VLAN actions. -/
def decodeActions : List UInt8 → Option (List FlowAction)
  | [] => some []
  | b0 :: b1 :: b2 :: b3 :: b4 :: b5 :: b6 :: b7 :: rest => do
    let actions ← decodeActions rest
    if getBe16 [b2, b3] 0 ≠ 8 then none
    else if getBe16 [b0, b1] 0 = OFPAT_OUTPUT then
      some (.output (getBe16 [b4, b5] 0) (getBe16 [b6, b7] 0) :: actions)
    else if getBe16 [b0, b1] 0 = OFPAT_SET_VLAN_VID then
      some (.setVlanVid (getBe16 [b4, b5] 0) ⟨b6, b7⟩ :: actions)
    else none
  | _ => none

structure Ofp10FlowMod where
  version : UInt8
  type : UInt8
  length : UInt16
  xid : UInt32
  «match» : OpenflowMatch
  cookie : UInt64
  command : UInt16
  idleTimeout : UInt16
  hardTimeout : UInt16
  priority : UInt16
  bufferId : UInt32
  outPort : UInt16
  flags : UInt16
  actions : List FlowAction
  deriving DecidableEq, Repr

def OFP10_FLOW_MOD_SIZE : ℕ := 72

def decodeFlowMod (bytes : List UInt8) : Option Ofp10FlowMod :=
  if bytes.length < OFP10_FLOW_MOD_SIZE then none
  else
    (decodeActions (bytes.drop OFP10_FLOW_MOD_SIZE)).map fun actions => {
      version := loadU8 bytes 0
      type := loadU8 bytes 1
      length := getBe16 bytes 2
      xid := getBe32 bytes 4
      «match» := decodeMatch (bytes.drop 8)
      cookie := getBe64 bytes 48
      command := getBe16 bytes 56
      idleTimeout := getBe16 bytes 58
      hardTimeout := getBe16 bytes 60
      priority := getBe16 bytes 62
      bufferId := getBe32 bytes 64
      outPort := getBe16 bytes 68
      flags := getBe16 bytes 70
      actions := actions }

theorem be16_pair (x : UInt16) : ∃ b c, be16 x = [b, c] ∧ getBe16 [b, c] 0 = x := by
  match hx : be16 x, be16_length x with
  | [b, c], _ => exact ⟨b, c, rfl, getBe16_eq (by rw [hx]; rfl)⟩

theorem decodeActions_cons (a : FlowAction) (rest : List UInt8) :
    decodeActions (a.bytes ++ rest) = (decodeActions rest).map (a :: ·) := by
  obtain ⟨t₀, t₁, htype, htype'⟩ := be16_pair a.type
  obtain ⟨l₀, l₁, hlen, hlen'⟩ := be16_pair 8
  cases a with
  | output port maxLen =>
    obtain ⟨p₀, p₁, hport, hport'⟩ := be16_pair port
    obtain ⟨m₀, m₁, hmax, hmax'⟩ := be16_pair maxLen
    simp only [FlowAction.type] at htype htype'
    simp only [FlowAction.bytes, htype, hlen, hport, hmax, List.cons_append, List.nil_append,
      decodeActions, htype', hlen', hport', hmax', ne_eq, not_true_eq_false, if_false, if_true]
    cases decodeActions rest <;> rfl
  | setVlanVid vlanVid pad =>
    obtain ⟨v₀, v₁, hvlan, hvlan'⟩ := be16_pair vlanVid
    have hne : OFPAT_SET_VLAN_VID ≠ OFPAT_OUTPUT := by decide
    simp only [FlowAction.type] at htype htype'
    simp only [FlowAction.bytes, Octets2.bytes, htype, hlen, hvlan, List.cons_append,
      List.nil_append, decodeActions, htype', hlen', hvlan', ne_eq, not_true_eq_false, if_false,
      if_true, hne]
    cases decodeActions rest <;> rfl

/-! ## What the switch decodes -/

def retagActions (newVlan : UInt16) : List FlowAction :=
  [.setVlanVid newVlan default, .output OVS_HOST_IFINDEX OVS_OUTPUT_ACTION_MAX_LEN]

theorem flowModMessage_memory (transactionId : UInt32) (key : FiveTuple) (newVlan : UInt16) :
    (flowModMessage transactionId key newVlan).memory =
      [OFP_VERSION, OFP_FLOW_MOD] ++ be16 FLOW_MOD_SIZE ++ be32 transactionId ++
        (exactMatch key).bytes ++ be64 0 ++ be16 OFPFC_MODIFY ++ be16 0 ++ be16 0 ++ be16 0 ++
        be32 0xffffffff ++ be16 OFPP_NONE ++ be16 0 ++
        (retagActions newVlan).flatMap FlowAction.bytes := by
  simp only [OpenflowFlowModMessage.memory, flowModMessage, OpenflowHeader.bytes,
    OpenflowFlowMod.memory, OpenflowActionVlanVid.memory, OpenflowActionOutput.memory,
    leBytes_htons, fiveTupleMatch_memory, leBytes_htonl (0xffffffff), leBytes_htonl transactionId]
  have hcookie : leBytes 8 (UInt64.toNat 0) = be64 0 := by decide
  have hpriority : leBytes 2 (UInt16.toNat 0) = be16 0 := by decide
  have hsize : UInt16.ofNat ACTION_SIZE = 8 := rfl
  simp only [hcookie, hpriority, hsize, retagActions, List.flatMap_cons, List.flatMap_nil,
    FlowAction.bytes, List.append_assoc, List.append_nil]

theorem decodeActions_bytes (actions : List FlowAction) :
    decodeActions (actions.flatMap FlowAction.bytes) = some actions := by
  induction actions with
  | nil => rfl
  | cons a actions ih => rw [List.flatMap_cons, decodeActions_cons, ih, Option.map_some]

theorem retagActions_length (newVlan : UInt16) :
    ((retagActions newVlan).flatMap FlowAction.bytes).length = 16 := by
  simp [retagActions, FlowAction.bytes_length, ACTION_SIZE]

theorem flowModMessage_memory_length (transactionId : UInt32) (key : FiveTuple)
    (newVlan : UInt16) :
    (flowModMessage transactionId key newVlan).memory.length = FLOW_MOD_SIZE.toNat := by
  have h := retagActions_length newVlan
  rw [flowModMessage_memory]
  simp only [List.length_append, h, OpenflowMatch.bytes_length, be16_length, be32_length,
    be64_length, List.length_cons, List.length_nil]
  rfl

theorem decodeFlowMod_memory (transactionId : UInt32) (key : FiveTuple) (newVlan : UInt16) :
    decodeFlowMod (flowModMessage transactionId key newVlan).memory = some {
      version := OFP_VERSION
      type := OFP_FLOW_MOD
      length := FLOW_MOD_SIZE
      xid := transactionId
      «match» := exactMatch key
      cookie := 0
      command := OFPFC_MODIFY
      idleTimeout := 0
      hardTimeout := 0
      priority := 0
      bufferId := 0xffffffff
      outPort := OFPP_NONE
      flags := 0
      actions := retagActions newVlan } := by
  have hlen : ¬(flowModMessage transactionId key newVlan).memory.length < OFP10_FLOW_MOD_SIZE := by
    rw [flowModMessage_memory_length]
    decide
  have hactions := decodeActions_bytes (retagActions newVlan)
  rw [decodeFlowMod, if_neg hlen, flowModMessage_memory]
  generalize (retagActions newVlan).flatMap FlowAction.bytes = tail at hactions
  simp only [List.append_assoc, List.cons_append, List.nil_append]
  rw [getBe16_eq (x := FLOW_MOD_SIZE) (by simp), getBe32_eq (x := transactionId) (by simp),
    getBe64_eq (x := 0) (by simp), getBe16_eq (x := OFPFC_MODIFY) (by simp),
    @getBe16_eq _ 58 0 (by simp), @getBe16_eq _ 60 0 (by simp),
    @getBe16_eq _ 62 0 (by simp), getBe32_eq (x := 0xffffffff) (by simp),
    getBe16_eq (x := OFPP_NONE) (by simp), @getBe16_eq _ 70 0 (by simp)]
  simp [OFP10_FLOW_MOD_SIZE, hactions, decodeMatch_bytes, loadU8_eq]

end OrssNic
