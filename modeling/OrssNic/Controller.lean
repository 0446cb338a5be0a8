import OrssNic.Switch

/-!
# The SDN controller (`controller.py`)

The messages that the handlers of the controller send to the switch, in order.
Its library fills the wildcards of a match: a field that is not given is not
looked at.
-/

namespace OrssNic.Controller

def HOST_PORT : UInt16 := 2
def OUT_PORT : UInt16 := 1
def IP_TCP : UInt8 := 6
def IP_UDP : UInt8 := 17
def IP_ICMP : UInt8 := 1
def DEFAULT_VLAN : UInt16 := 0x0000
def ETH_TYPE_IP : UInt16 := 0x0800
def ETH_TYPE_ARP : UInt16 := 0x0806
def ETH_TYPE_LLDP : UInt16 := 0x88cc
def OFPP_FLOOD : UInt16 := 0xfffb
def OFP_DEFAULT_PRIORITY : UInt16 := 0x8000

structure MatchArguments where
  inPort : Option UInt16
  dlType : Option UInt16
  nwProto : Option UInt8
  nwSrc : Option UInt32
  nwDst : Option UInt32
  tpSrc : Option UInt16
  tpDst : Option UInt16

def MatchArguments.none : MatchArguments :=
  ⟨.none, .none, .none, .none, .none, .none, .none⟩

/-- The bits of the wildcards that an argument clears. -/
def looksAt {α : Type} (argument : Option α) (bits : UInt32) : UInt32 :=
  if argument.isSome then bits else 0

def ofpMatch (a : MatchArguments) : OpenflowMatch where
  wildcards := OFPFW10_ALL &&& ~~~(looksAt a.inPort OFPFW10_IN_PORT |||
    looksAt a.dlType OFPFW10_DL_TYPE ||| looksAt a.nwProto OFPFW10_NW_PROTO |||
    looksAt a.nwSrc 0x3f00 ||| looksAt a.nwDst 0xfc000 |||
    looksAt a.tpSrc OFPFW10_TP_SRC ||| looksAt a.tpDst OFPFW10_TP_DST)
  inPort := a.inPort.getD 0
  dlSrc := default
  dlDst := default
  dlVlan := 0
  dlVlanPcp := 0
  pad1 := 0
  dlType := a.dlType.getD 0
  nwTos := 0
  nwProto := a.nwProto.getD 0
  pad2 := default
  nwSrc := a.nwSrc.getD 0
  nwDst := a.nwDst.getD 0
  tpSrc := a.tpSrc.getD 0
  tpDst := a.tpDst.getD 0

structure FlowSpec where
  dlType : UInt16
  nwProto : UInt8
  nwSrc : UInt32
  nwDst : UInt32
  tpSrc : UInt16
  tpDst : UInt16

def deleteAllFlows : FlowMod :=
  ⟨.delete, ofpMatch .none, OFP_DEFAULT_PRIORITY, []⟩

def arpFlood : FlowMod :=
  ⟨.add, ofpMatch { MatchArguments.none with dlType := some ETH_TYPE_ARP }, 0,
    [.output OFPP_FLOOD]⟩

def hostEgress : FlowMod :=
  ⟨.add, ofpMatch { MatchArguments.none with inPort := some HOST_PORT }, 0, [.output OUT_PORT]⟩

/-- The match of `add_flow`, or `none` where it raises an exception. -/
def addFlowMatch (inPort : UInt16) (flowSpec : FlowSpec) : Option OpenflowMatch :=
  if flowSpec.nwProto = IP_ICMP then
    some <| ofpMatch { MatchArguments.none with
      inPort := some inPort
      dlType := some ETH_TYPE_IP
      nwProto := some flowSpec.nwProto
      nwSrc := some flowSpec.nwSrc }
  else if flowSpec.nwProto = IP_TCP ∨ flowSpec.nwProto = IP_UDP then
    some <| ofpMatch {
      inPort := some inPort
      dlType := some flowSpec.dlType
      nwProto := some flowSpec.nwProto
      nwSrc := some flowSpec.nwSrc
      nwDst := some flowSpec.nwDst
      tpSrc := some flowSpec.tpSrc
      tpDst := some flowSpec.tpDst }
  else none

def addFlow (inPort : UInt16) (flowSpec : FlowSpec) (actions : List SwitchAction) :
    Option FlowMod :=
  (addFlowMatch inPort flowSpec).map fun m => ⟨.add, m, OFP_DEFAULT_PRIORITY, actions⟩

def defaultActions : List SwitchAction := [.setVlanVid DEFAULT_VLAN, .output HOST_PORT]

def generatedFlow (i : ℕ) : FlowSpec where
  dlType := ETH_TYPE_IP
  nwProto := IP_TCP
  nwSrc := 0x0a000002
  nwDst := 0x0a000001
  tpSrc := UInt16.ofNat i
  tpDst := 80

def generateFlows : List FlowMod :=
  (List.range' 1 9).filterMap fun i => addFlow OUT_PORT (generatedFlow i) defaultActions

def onSwitchConnection : List FlowMod :=
  [deleteAllFlows, arpFlood, hostEgress] ++ generateFlows

structure ReceivedPacket where
  inPort : UInt16
  ethertype : UInt16
  proto : UInt8
  src : UInt32
  dst : UInt32
  srcPort : UInt16
  dstPort : UInt16

def packetInHandler (packet : ReceivedPacket) : List FlowMod :=
  if packet.ethertype = ETH_TYPE_LLDP then []
  else if packet.ethertype = ETH_TYPE_IP then
    let flowSpec := ⟨packet.ethertype, packet.proto, packet.src, packet.dst, packet.srcPort,
      packet.dstPort⟩
    (addFlow packet.inPort flowSpec defaultActions).toList
  else []

/-! ## What the controller installs -/

def FlowSpec.fiveTuple (flowSpec : FlowSpec) : FiveTuple :=
  ⟨flowSpec.nwSrc, flowSpec.nwDst, flowSpec.tpSrc, flowSpec.tpDst, flowSpec.nwProto⟩

/-- A message of the controller only deletes, or installs an entry that is exact
or out of the reach of all exact matches; on the network port, with the default
tag. -/
def Installs (m : FlowMod) : Prop :=
  m.command = .delete ∨ m.command = .add ∧
    ((∀ key, (exactMatch key).covers m.match = false) ∨ ∃ key, m.match = exactMatch key) ∧
    (m.match.wild OFPFW10_IN_PORT = false → m.match.inPort = OVS_NETWORK_IFINDEX →
      vlanOf m.actions = some DEFAULT_VLAN)

theorem ofpMatch_exact (inPort : UInt16) (flowSpec : FlowSpec) :
    ofpMatch {
      inPort := some inPort
      dlType := some flowSpec.dlType
      nwProto := some flowSpec.nwProto
      nwSrc := some flowSpec.nwSrc
      nwDst := some flowSpec.nwDst
      tpSrc := some flowSpec.tpSrc
      tpDst := some flowSpec.tpDst } =
    { exactMatch flowSpec.fiveTuple with
      inPort := inPort
      dlType := flowSpec.dlType } := by
  have hwildcards : OFPFW10_ALL &&& ~~~(OFPFW10_IN_PORT ||| OFPFW10_DL_TYPE |||
      OFPFW10_NW_PROTO ||| 0x3f00 ||| 0xfc000 ||| OFPFW10_TP_SRC ||| OFPFW10_TP_DST) =
      OFPW_MATCH_FIVE_TUPLE := by
    decide
  simp only [ofpMatch, looksAt, Option.isSome_some, if_true, Option.getD_some, hwildcards,
    exactMatch, FlowSpec.fiveTuple]

theorem addFlow_installs {inPort : UInt16} {flowSpec : FlowSpec} {m : FlowMod}
    (hdlType : flowSpec.dlType = ETH_TYPE_IP)
    (h : addFlow inPort flowSpec defaultActions = some m) : Installs m := by
  simp only [addFlow, Option.map_eq_some_iff] at h
  obtain ⟨match', hmatch, rfl⟩ := h
  refine .inr ⟨rfl, ?_, fun _ _ => rfl⟩
  simp only [addFlowMatch] at hmatch
  split_ifs at hmatch with hicmp hports
  · left
    cases hmatch
    intro key
    rw [Bool.eq_false_iff]
    intro hcovers
    -- An ICMP entry does not look at the destination address.
    obtain ⟨-, -, -, -, ⟨hdst, -⟩, -⟩ := exactMatch_covers.mp hcovers
    simp only [ofpMatch, looksAt, MatchArguments.none, Option.isSome_some, Option.isSome_none,
      Bool.false_eq_true, if_true, if_false] at hdst
    revert hdst
    decide
  · cases hmatch
    rw [ofpMatch_exact]
    by_cases hport : inPort = OVS_NETWORK_IFINDEX
    · right
      refine ⟨flowSpec.fiveTuple, ?_⟩
      rw [hport, hdlType]
      rfl
    · left
      intro key
      rw [Bool.eq_false_iff]
      intro hcovers
      obtain ⟨⟨-, hinPort⟩, -⟩ := exactMatch_covers.mp hcovers
      exact hport hinPort.symm

theorem deleteAllFlows_installs : Installs deleteAllFlows := .inl rfl

theorem arpFlood_installs : Installs arpFlood := by
  have hwild : arpFlood.match.wild OFPFW10_IN_PORT = true := by decide
  refine .inr ⟨rfl, .inl fun key => ?_, fun hport => ?_⟩
  · rw [Bool.eq_false_iff]
    intro hcovers
    obtain ⟨⟨hport, -⟩, -⟩ := exactMatch_covers.mp hcovers
    exact Bool.false_ne_true (hport.symm.trans hwild)
  · exact absurd (hport.symm.trans hwild) Bool.false_ne_true

theorem hostEgress_installs : Installs hostEgress := by
  have hne : OVS_NETWORK_IFINDEX ≠ hostEgress.match.inPort := by decide
  refine .inr ⟨rfl, .inl fun key => ?_, fun _ hport => absurd hport.symm hne⟩
  rw [Bool.eq_false_iff]
  intro hcovers
  obtain ⟨⟨-, hport⟩, -⟩ := exactMatch_covers.mp hcovers
  exact hne hport

theorem onSwitchConnection_installs : ∀ m ∈ onSwitchConnection, Installs m := by
  intro m hm
  simp only [onSwitchConnection, List.cons_append, List.nil_append, List.mem_cons] at hm
  rcases hm with rfl | rfl | rfl | hm
  · exact deleteAllFlows_installs
  · exact arpFlood_installs
  · exact hostEgress_installs
  · obtain ⟨i, -, hi⟩ := List.mem_filterMap.mp hm
    exact addFlow_installs (by rfl) hi

theorem packetInHandler_installs (packet : ReceivedPacket) :
    ∀ m ∈ packetInHandler packet, Installs m := by
  intro m hm
  simp only [packetInHandler] at hm
  split_ifs at hm with hlldp hip
  · cases hm
  · exact addFlow_installs hip (Option.mem_toList.mp hm)
  · cases hm

end OrssNic.Controller
