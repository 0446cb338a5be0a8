import OrssNic.Openflow
import OrssNic.Library.BoundedMap

/-!
# The XDP programs (`bpf/xdp.bpf.c`)

A packet is the list of the bytes between `data` and `data_end`. The header
structures are those of the kernel; the bit fields of `tcphdr` are bits of its
byte 13. The table `connections` is the copy of one CPU.
-/

namespace OrssNic

def XDP_FORWARDING : Bool := false
def CONNECTIONS_MAX_ENTRIES : ℕ := 4096 * 64
def ETH_P_IP : UInt16 := 0x0800
def IPPROTO_TCP : UInt8 := 6
def IPPROTO_UDP : UInt8 := 17

/-- Sizes of `struct ethhdr`, `iphdr`, `tcphdr` and `udphdr`. -/
def ETHHDR_SIZE : ℕ := 14
def IPHDR_SIZE : ℕ := 20
def TCPHDR_SIZE : ℕ := 20
def UDPHDR_SIZE : ℕ := 8

structure ConnectionState where
  syn : UInt8
  synack : UInt8
  ack : UInt8
  fin : UInt8
  handled : UInt8
  deriving DecidableEq, Repr, Inhabited

inductive TcpFlags
  | error
  | notTcp
  | syn
  | synack
  | ack
  | fin
  | noFlags
  | udp
  deriving DecidableEq, Repr

inductive XdpAction
  | aborted
  | drop
  | pass
  | tx
  | redirect
  deriving DecidableEq, Repr

structure XdpMd where
  data : List UInt8
  ingressIfindex : UInt32

structure Iphdr where
  protocol : UInt8
  saddr : UInt32
  daddr : UInt32

def loadIphdr (data : List UInt8) (offset : ℕ) : Iphdr :=
  ⟨loadU8 data (offset + 9), loadU32 data (offset + 12), loadU32 data (offset + 16)⟩

/-- A bit field of width 1. -/
def bitField (byte : UInt8) (i : ℕ) : Bool := byte.toNat.testBit i

structure Tcphdr where
  source : UInt16
  dest : UInt16
  fin : Bool
  syn : Bool
  ack : Bool

def loadTcphdr (data : List UInt8) (offset : ℕ) : Tcphdr where
  source := loadU16 data offset
  dest := loadU16 data (offset + 2)
  fin := bitField (loadU8 data (offset + 13)) 0
  syn := bitField (loadU8 data (offset + 13)) 1
  ack := bitField (loadU8 data (offset + 13)) 4

structure Udphdr where
  source : UInt16
  dest : UInt16

def loadUdphdr (data : List UInt8) (offset : ℕ) : Udphdr :=
  ⟨loadU16 data offset, loadU16 data (offset + 2)⟩

def parseHeaders (ctx : XdpMd) (tuple : FiveTuple) : TcpFlags × FiveTuple :=
  let data := ctx.data
  if data.length < ETHHDR_SIZE then (.error, tuple)
  else if loadU16 data 12 = htons ETH_P_IP then
    let ip := loadIphdr data ETHHDR_SIZE
    if data.length < IPHDR_SIZE + ETHHDR_SIZE then (.error, tuple)
    else
      let tuple := { tuple with srcIp := ip.saddr, dstIp := ip.daddr, proto := ip.protocol }
      if ip.protocol = IPPROTO_TCP then
        let tcp := loadTcphdr data (ETHHDR_SIZE + IPHDR_SIZE)
        if data.length < IPHDR_SIZE + ETHHDR_SIZE + TCPHDR_SIZE then (.error, tuple)
        else
          let tuple := { tuple with srcPort := ntohs tcp.source, dstPort := ntohs tcp.dest }
          if tcp.fin then (.fin, tuple)
          else if tcp.syn && !tcp.ack then (.syn, tuple)
          else if tcp.ack && tcp.syn then (.synack, tuple)
          else if tcp.ack && !tcp.syn then (.ack, tuple)
          else (.noFlags, tuple)
      else if ip.protocol = IPPROTO_UDP then
        let udp := loadUdphdr data (ETHHDR_SIZE + IPHDR_SIZE)
        if data.length < IPHDR_SIZE + ETHHDR_SIZE + UDPHDR_SIZE then (.error, tuple)
        else
          (.udp, { tuple with srcPort := ntohs udp.source, dstPort := ntohs udp.dest })
      else (.notTcp, tuple)
  else (.notTcp, tuple)

abbrev Connections := BoundedMap FiveTuple ConnectionState

/-- The four assignments of `update_connection_state` to the state in the map. -/
def orState (oldState state : ConnectionState) : ConnectionState :=
  let oldState := if state.syn ≠ 0 then { oldState with syn := 1 } else oldState
  let oldState := if state.synack ≠ 0 then { oldState with synack := 1 } else oldState
  let oldState := if state.ack ≠ 0 then { oldState with ack := 1 } else oldState
  if state.fin ≠ 0 then { oldState with fin := 1 } else oldState

def updateConnectionState (connections : Connections) (tuple : FiveTuple)
    (state : ConnectionState) : Connections :=
  match connections.lookup tuple with
  | some oldState => connections.update CONNECTIONS_MAX_ENTRIES tuple (orState oldState state)
  | none => connections.update CONNECTIONS_MAX_ENTRIES tuple state

def swapTuple (tuple : FiveTuple) : FiveTuple :=
  { tuple with
    srcIp := tuple.dstIp
    srcPort := tuple.dstPort
    dstIp := tuple.srcIp
    dstPort := tuple.srcPort }

/-- The state that both programs build from the class of a packet. -/
def packetState (flags : TcpFlags) : ConnectionState :=
  let state : ConnectionState := default
  if flags = .udp then { state with syn := 1, synack := 1, ack := 1 }
  else
    let state := if flags = .syn then { state with syn := 1 } else state
    let state := if flags = .synack then { state with synack := 1 } else state
    if flags = .ack then { state with ack := 1 } else state

section Programs

-- `bpf_redirect_map` on the device map
variable (bpfRedirectMap : UInt32 → XdpAction)

def forward (key : UInt32) : XdpAction :=
  if XDP_FORWARDING then bpfRedirectMap key else .pass

def xdpRx (connections : Connections) (ctx : XdpMd) : Connections × XdpAction :=
  let (flags, tuple) := parseHeaders ctx default
  if flags = .error ∨ flags = .noFlags ∨ (flags = .notTcp ∧ tuple.proto ≠ IPPROTO_UDP) then
    (connections, forward bpfRedirectMap ctx.ingressIfindex)
  else
    (updateConnectionState connections tuple (packetState flags),
      forward bpfRedirectMap ctx.ingressIfindex)

def xdpTx (connections : Connections) (ctx : XdpMd) : Connections × XdpAction :=
  let (flags, tuple) := parseHeaders ctx default
  if flags = .error ∨ flags = .noFlags ∨ (flags = .notTcp ∧ tuple.proto ≠ IPPROTO_UDP) then
    (connections, forward bpfRedirectMap ctx.ingressIfindex)
  else
    let tuple := swapTuple tuple
    -- Unlike in `xdp_rx` the update stands inside the branch that is not UDP.
    if flags = .udp then (connections, forward bpfRedirectMap ctx.ingressIfindex)
    else
      (updateConnectionState connections tuple (packetState flags),
        forward bpfRedirectMap ctx.ingressIfindex)

end Programs

end OrssNic
