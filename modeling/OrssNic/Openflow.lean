import OrssNic.HashMap
import OrssNic.Library.Endian

/-!
# OpenFlow structures (`openflow.h`)

The structures as they lie in the memory of a little-endian host. A field that
came from the wire holds the bytes of the big-endian value in host order, until
an `ntoh` function swaps them. `match`, `flow_stats` and `flow_mod` have the
layout of OpenFlow 1.0.
-/

namespace OrssNic
open CEndian

def OFP_VERSION : UInt8 := 0x01
def OFP_HEADER_LEN : ℕ := 8
def OFP_MAX_PORT_NAME_LEN : ℕ := 16
def OFP_HELLO : UInt8 := 0x00
def OFP_ECHO_REQUEST : UInt8 := 0x02
def OFP_ECHO_REPLY : UInt8 := 0x03
def OFPW_MATCH_FIVE_TUPLE : UInt32 := 0x0030000e
def OFP_FEATURES_REQUEST : UInt8 := 0x05
def OFP_FEATURES_REPLY : UInt8 := 0x06
def OFP_STATS_REQUEST : UInt8 := 0x10
def OFP_STATS_REPLY : UInt8 := 0x11
def OFP_FLOW_MOD : UInt8 := 0x0e
def OFPST_FLOW : UInt16 := 0x01
def OFPSF_REPLY_MORE : UInt16 := 1
def IPV4_ETH_TYPE : UInt16 := 0x0800
def OFPAT_OUTPUT : UInt16 := 0
def OFPAT_SET_VLAN_VID : UInt16 := 1
def OFPFC_MODIFY : UInt16 := 1
def OFPP_NONE : UInt16 := 0xffff
def OFPFW10_ALL : UInt32 := 0x003fffff
def OFPFW10_IN_PORT : UInt32 := 1

def MSG_BUFFER_SIZE : ℕ := 16

def ntohs (x : UInt16) : UInt16 := UInt16.ofNat (bswap 2 x.toNat)

def ntohl (x : UInt32) : UInt32 := UInt32.ofNat (bswap 4 x.toNat)

def ntohll (x : UInt64) : UInt64 :=
  ((ntohl x.toUInt32).toUInt64 <<< 32) ||| (ntohl (x >>> 32).toUInt32).toUInt64

/-- The two directions are the same swap. -/
abbrev htons := ntohs

abbrev htonl := ntohl

/-! ## Loads -/

def loadU8 (bytes : List UInt8) (offset : ℕ) : UInt8 := bytes.getD offset 0

def loadU16 (bytes : List UInt8) (offset : ℕ) : UInt16 :=
  UInt16.ofNat (leValue ((bytes.drop offset).take 2))

def loadU32 (bytes : List UInt8) (offset : ℕ) : UInt32 :=
  UInt32.ofNat (leValue ((bytes.drop offset).take 4))

def loadU64 (bytes : List UInt8) (offset : ℕ) : UInt64 :=
  UInt64.ofNat (leValue ((bytes.drop offset).take 8))

structure Octets2 where
  b0 : UInt8
  b1 : UInt8
  deriving DecidableEq, Repr, Inhabited

structure Octets6 where
  b0 : UInt8
  b1 : UInt8
  b2 : UInt8
  b3 : UInt8
  b4 : UInt8
  b5 : UInt8
  deriving DecidableEq, Repr, Inhabited

def loadOctets2 (bytes : List UInt8) (offset : ℕ) : Octets2 :=
  ⟨loadU8 bytes offset, loadU8 bytes (offset + 1)⟩

def loadOctets6 (bytes : List UInt8) (offset : ℕ) : Octets6 :=
  ⟨loadU8 bytes offset, loadU8 bytes (offset + 1), loadU8 bytes (offset + 2),
    loadU8 bytes (offset + 3), loadU8 bytes (offset + 4), loadU8 bytes (offset + 5)⟩

/-! ## Messages -/

structure OpenflowHeader where
  version : UInt8
  type : UInt8
  length : UInt16
  xid : UInt32
  deriving DecidableEq, Repr, Inhabited

def OpenflowHeader.bytes (header : OpenflowHeader) : List UInt8 :=
  [header.version, header.type] ++ leBytes 2 header.length.toNat ++ leBytes 4 header.xid.toNat

def loadHeader (bytes : List UInt8) : OpenflowHeader where
  version := loadU8 bytes 0
  type := loadU8 bytes 1
  length := loadU16 bytes 2
  xid := loadU32 bytes 4

/-- `data` is `none` for a pointer that was never set. -/
structure OpenflowMessage where
  header : OpenflowHeader
  data : Option (List UInt8)
  deriving DecidableEq, Repr, Inhabited

structure OpenflowMatch where
  wildcards : UInt32
  inPort : UInt16
  dlSrc : Octets6
  dlDst : Octets6
  dlVlan : UInt16
  dlVlanPcp : UInt8
  pad1 : UInt8
  dlType : UInt16
  nwTos : UInt8
  nwProto : UInt8
  pad2 : Octets2
  nwSrc : UInt32
  nwDst : UInt32
  tpSrc : UInt16
  tpDst : UInt16
  deriving DecidableEq, Repr, Inhabited

def loadMatch (bytes : List UInt8) : OpenflowMatch where
  wildcards := loadU32 bytes 0
  inPort := loadU16 bytes 4
  dlSrc := loadOctets6 bytes 6
  dlDst := loadOctets6 bytes 12
  dlVlan := loadU16 bytes 18
  dlVlanPcp := loadU8 bytes 20
  pad1 := loadU8 bytes 21
  dlType := loadU16 bytes 22
  nwTos := loadU8 bytes 24
  nwProto := loadU8 bytes 25
  pad2 := loadOctets2 bytes 26
  nwSrc := loadU32 bytes 28
  nwDst := loadU32 bytes 32
  tpSrc := loadU16 bytes 36
  tpDst := loadU16 bytes 38

/-- `ovs_32aligned_be64` -/
structure Be64 where
  hi : UInt32
  lo : UInt32
  deriving DecidableEq, Repr, Inhabited

def loadBe64 (bytes : List UInt8) (offset : ℕ) : Be64 :=
  ⟨loadU32 bytes offset, loadU32 bytes (offset + 4)⟩

def openflowOvsbe64ToUint64 (value : Be64) : UInt64 :=
  (value.hi.toUInt64 <<< 32) ||| value.lo.toUInt64

structure OpenflowFlowStats where
  length : UInt16
  tableId : UInt8
  pad : UInt8
  «match» : OpenflowMatch
  durationSec : UInt32
  durationNsec : UInt32
  priority : UInt16
  idleTimeout : UInt16
  hardTimeout : UInt16
  pad2 : Octets6
  cookie : Be64
  packetCount : Be64
  byteCount : Be64
  deriving DecidableEq, Repr, Inhabited

/-- `sizeof(openflow_flow_stats)` -/
def FLOW_STATS_SIZE : ℕ := 88

def loadFlowStats (bytes : List UInt8) : OpenflowFlowStats where
  length := loadU16 bytes 0
  tableId := loadU8 bytes 2
  pad := loadU8 bytes 3
  «match» := loadMatch (bytes.drop 4)
  durationSec := loadU32 bytes 44
  durationNsec := loadU32 bytes 48
  priority := loadU16 bytes 52
  idleTimeout := loadU16 bytes 54
  hardTimeout := loadU16 bytes 56
  pad2 := loadOctets6 bytes 58
  cookie := loadBe64 bytes 64
  packetCount := loadBe64 bytes 72
  byteCount := loadBe64 bytes 80

def ntohOpenflowMatch (m : OpenflowMatch) : OpenflowMatch :=
  { m with
    wildcards := ntohl m.wildcards
    inPort := ntohs m.inPort
    dlVlan := ntohs m.dlVlan
    dlType := ntohs m.dlType
    nwSrc := ntohl m.nwSrc
    nwDst := ntohl m.nwDst
    tpSrc := ntohs m.tpSrc
    tpDst := ntohs m.tpDst }

def htonOpenflowMatch (m : OpenflowMatch) : OpenflowMatch :=
  { m with
    wildcards := htonl m.wildcards
    inPort := htons m.inPort
    dlVlan := htons m.dlVlan
    dlType := htons m.dlType
    nwSrc := htonl m.nwSrc
    nwDst := htonl m.nwDst
    tpSrc := htons m.tpSrc
    tpDst := htons m.tpDst }

/-- The two durations go through `ntohs`, which takes and returns 16 bits. -/
def ntohOpenflowFlowStats (flowStats : OpenflowFlowStats) : OpenflowFlowStats :=
  { flowStats with
    length := ntohs flowStats.length
    durationSec := (ntohs flowStats.durationSec.toUInt16).toUInt32
    durationNsec := (ntohs flowStats.durationNsec.toUInt16).toUInt32
    priority := ntohs flowStats.priority
    idleTimeout := ntohs flowStats.idleTimeout
    hardTimeout := ntohs flowStats.hardTimeout
    cookie := ⟨ntohl flowStats.cookie.hi, ntohl flowStats.cookie.lo⟩
    packetCount := ⟨ntohl flowStats.packetCount.hi, ntohl flowStats.packetCount.lo⟩
    byteCount := ⟨ntohl flowStats.byteCount.hi, ntohl flowStats.byteCount.lo⟩
    «match» := ntohOpenflowMatch flowStats.match }

/-! ## Actions -/

structure OpenflowActionOutput where
  type : UInt16
  len : UInt16
  port : UInt16
  maxLen : UInt16
  deriving DecidableEq, Repr, Inhabited

structure OpenflowActionVlanVid where
  type : UInt16
  len : UInt16
  vlanVid : UInt16
  pad : Octets2
  deriving DecidableEq, Repr, Inhabited

def ACTION_SIZE : ℕ := 8

def loadActionOutput (bytes : List UInt8) : OpenflowActionOutput :=
  ⟨loadU16 bytes 0, loadU16 bytes 2, loadU16 bytes 4, loadU16 bytes 6⟩

def loadActionVlanVid (bytes : List UInt8) : OpenflowActionVlanVid :=
  ⟨loadU16 bytes 0, loadU16 bytes 2, loadU16 bytes 4, loadOctets2 bytes 6⟩

def ntohOpenflowActionOutput (a : OpenflowActionOutput) : OpenflowActionOutput :=
  ⟨ntohs a.type, ntohs a.len, ntohs a.port, ntohs a.maxLen⟩

def ntohOpenflowActionVlanVid (a : OpenflowActionVlanVid) : OpenflowActionVlanVid :=
  { a with vlanVid := ntohs a.vlanVid, type := ntohs a.type, len := ntohs a.len }

/-- What an action descriptor's `data` points to. -/
inductive ActionPayload
  | output (action : OpenflowActionOutput)
  | vlanVid (action : OpenflowActionVlanVid)
  deriving DecidableEq, Repr, Inhabited

structure ActionDescriptor where
  type : UInt16
  data : Option Ref
  deriving DecidableEq, Repr, Inhabited

structure OpenflowFlows where
  nbFlows : UInt16
  flowStats : List OpenflowFlowStats
  nbActions : List UInt8
  actions : List (List ActionDescriptor)

/-- The initialiser `{0}` of `main`. -/
def OpenflowFlows.zeroed : OpenflowFlows where
  nbFlows := 0
  flowStats := List.replicate MAX_HANDLED_FLOWS default
  nbActions := List.replicate MAX_HANDLED_FLOWS 0
  actions := List.replicate MAX_HANDLED_FLOWS (List.replicate MAX_ACTIONS ⟨0, none⟩)

/-! ## Requests -/

structure OpenflowFlowStatsRequestBody where
  «match» : OpenflowMatch
  tableId : UInt8
  pad : UInt8
  outPort : UInt16
  deriving DecidableEq, Repr, Inhabited

structure OpenflowStatsRequestMessage where
  header : OpenflowHeader
  type : UInt16
  flags : UInt16
  body : OpenflowFlowStatsRequestBody
  deriving DecidableEq, Repr, Inhabited

/-- `sizeof(openflow_stats_request_message)` -/
def STATS_REQUEST_SIZE : UInt16 := 56

structure OpenflowFlowMod where
  «match» : OpenflowMatch
  cookie : UInt64
  command : UInt16
  idleTimeout : UInt16
  hardTimeout : UInt16
  priority : UInt16
  bufferId : UInt32
  outPort : UInt16
  flags : UInt16
  deriving DecidableEq, Repr, Inhabited

structure OpenflowFlowModMessage where
  header : OpenflowHeader
  body : OpenflowFlowMod
  vlanVid : OpenflowActionVlanVid
  output : OpenflowActionOutput
  deriving DecidableEq, Repr, Inhabited

/-- `sizeof(openflow_flow_mod_message)` -/
def FLOW_MOD_SIZE : UInt16 := 88

inductive OpenflowRequest
  | hello (header : OpenflowHeader)
  | featuresRequest (header : OpenflowHeader)
  | echoReply (header : OpenflowHeader)
  | statsRequest (message : OpenflowStatsRequestMessage)
  | flowMod (message : OpenflowFlowModMessage)
  deriving DecidableEq, Repr

end OrssNic
