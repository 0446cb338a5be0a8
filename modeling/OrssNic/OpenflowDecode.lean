import OrssNic.OpenflowFlows

/-!
# The wire format of flow statistics

A flow entry as OpenFlow 1.0 defines it, its bytes, and what the loads and the
byte swaps of the parser make of them.
-/

namespace OrssNic
open CEndian

def be16 (x : UInt16) : List UInt8 := beBytes 2 x.toNat

def be32 (x : UInt32) : List UInt8 := beBytes 4 x.toNat

def be64 (x : UInt64) : List UInt8 := beBytes 8 x.toNat

def Octets2.bytes (o : Octets2) : List UInt8 := [o.b0, o.b1]

def Octets6.bytes (o : Octets6) : List UInt8 := [o.b0, o.b1, o.b2, o.b3, o.b4, o.b5]

@[simp] theorem be16_length (x : UInt16) : (be16 x).length = 2 := beBytes_length 2 _

@[simp] theorem be32_length (x : UInt32) : (be32 x).length = 4 := beBytes_length 4 _

@[simp] theorem be64_length (x : UInt64) : (be64 x).length = 8 := beBytes_length 8 _

@[simp] theorem Octets2.bytes_length (o : Octets2) : o.bytes.length = 2 := rfl

@[simp] theorem Octets6.bytes_length (o : Octets6) : o.bytes.length = 6 := rfl

inductive FlowAction
  | output (port maxLen : UInt16)
  | setVlanVid (vlanVid : UInt16) (pad : Octets2)
  deriving DecidableEq, Repr

/-- The fields carry the values meant, whatever the host. -/
structure FlowEntry where
  tableId : UInt8
  pad : UInt8
  «match» : OpenflowMatch
  durationSec : UInt32
  durationNsec : UInt32
  priority : UInt16
  idleTimeout : UInt16
  hardTimeout : UInt16
  pad2 : Octets6
  cookie : UInt64
  packetCount : UInt64
  byteCount : UInt64
  actions : List FlowAction

namespace FlowAction

def bytes : FlowAction → List UInt8
  | output port maxLen => be16 OFPAT_OUTPUT ++ be16 8 ++ be16 port ++ be16 maxLen
  | setVlanVid vlanVid pad => be16 OFPAT_SET_VLAN_VID ++ be16 8 ++ be16 vlanVid ++ pad.bytes

def type : FlowAction → UInt16
  | output _ _ => OFPAT_OUTPUT
  | setVlanVid _ _ => OFPAT_SET_VLAN_VID

def decoded : FlowAction → ActionPayload
  | output port maxLen => .output ⟨OFPAT_OUTPUT, 8, port, maxLen⟩
  | setVlanVid vlanVid pad => .vlanVid ⟨OFPAT_SET_VLAN_VID, 8, vlanVid, pad⟩

theorem bytes_length (a : FlowAction) : a.bytes.length = ACTION_SIZE := by
  cases a <;> simp [bytes, ACTION_SIZE]

end FlowAction

def OpenflowMatch.bytes (m : OpenflowMatch) : List UInt8 :=
  be32 m.wildcards ++ be16 m.inPort ++ m.dlSrc.bytes ++ m.dlDst.bytes ++ be16 m.dlVlan ++
    [m.dlVlanPcp, m.pad1] ++ be16 m.dlType ++ [m.nwTos, m.nwProto] ++ m.pad2.bytes ++
    be32 m.nwSrc ++ be32 m.nwDst ++ be16 m.tpSrc ++ be16 m.tpDst

namespace FlowEntry

def size (e : FlowEntry) : ℕ := FLOW_STATS_SIZE + ACTION_SIZE * e.actions.length

def fixedBytes (e : FlowEntry) : List UInt8 :=
  be16 (UInt16.ofNat e.size) ++ [e.tableId, e.pad] ++ e.match.bytes ++ be32 e.durationSec ++
    be32 e.durationNsec ++ be16 e.priority ++ be16 e.idleTimeout ++ be16 e.hardTimeout ++
    e.pad2.bytes ++ be64 e.cookie ++ be64 e.packetCount ++ be64 e.byteCount

def bytes (e : FlowEntry) : List UInt8 := e.fixedBytes ++ e.actions.flatMap FlowAction.bytes

def halves (x : UInt64) : Be64 :=
  ⟨UInt32.ofNat (x.toNat / 2 ^ 32), UInt32.ofNat x.toNat⟩

/-- The statistics as the parser stores them. Of the two durations only the
upper 16 bits remain. -/
def decoded (e : FlowEntry) : OpenflowFlowStats where
  length := UInt16.ofNat e.size
  tableId := e.tableId
  pad := e.pad
  «match» := e.match
  durationSec := UInt32.ofNat (e.durationSec.toNat / 2 ^ 16)
  durationNsec := UInt32.ofNat (e.durationNsec.toNat / 2 ^ 16)
  priority := e.priority
  idleTimeout := e.idleTimeout
  hardTimeout := e.hardTimeout
  pad2 := e.pad2
  cookie := halves e.cookie
  packetCount := halves e.packetCount
  byteCount := halves e.byteCount

end FlowEntry

/-! ## Loads of big-endian fields -/

section Loads
variable {bytes : List UInt8} {offset : ℕ}

theorem ntohs_loadU16 {x : UInt16} (h : (bytes.drop offset).take 2 = be16 x) :
    ntohs (loadU16 bytes offset) = x := by
  have hx : x.toNat < 256 ^ 2 := x.toNat_lt
  have hlt : leValue (be16 x) < 256 ^ 2 := by
    have := leValue_lt (be16 x)
    rwa [be16, beBytes_length] at this
  have hload : (loadU16 bytes offset).toNat = leValue (be16 x) := by
    rw [loadU16, h, UInt16.toNat_ofNat']
    exact Nat.mod_eq_of_lt hlt
  rw [ntohs, hload, be16, bswap_leValue_beBytes hx, UInt16.ofNat_toNat]

theorem ntohl_loadU32 {n : ℕ} (h : (bytes.drop offset).take 4 = beBytes 4 n) :
    ntohl (loadU32 bytes offset) = UInt32.ofNat n := by
  have hmod : n % 256 ^ 4 < 256 ^ 4 := Nat.mod_lt _ (by decide)
  have hlt : leValue (beBytes 4 n) < 256 ^ 4 := by
    have := leValue_lt (beBytes 4 n)
    rwa [beBytes_length] at this
  have hload : (loadU32 bytes offset).toNat = leValue (beBytes 4 n) := by
    rw [loadU32, h, UInt32.toNat_ofNat']
    exact Nat.mod_eq_of_lt hlt
  rw [ntohl, hload, ← beBytes_mod, bswap_leValue_beBytes hmod]
  apply UInt32.toNat_inj.mp
  simp

theorem ntohl_loadU32_be32 {x : UInt32} (h : (bytes.drop offset).take 4 = be32 x) :
    ntohl (loadU32 bytes offset) = x := by
  rw [ntohl_loadU32 h, UInt32.ofNat_toNat]

/-- A 32-bit field cut to 16 bits before the swap keeps its upper half. -/
theorem ntohs_loadU32 {x : UInt32} (h : (bytes.drop offset).take 4 = be32 x) :
    (ntohs (loadU32 bytes offset).toUInt16).toUInt32 = UInt32.ofNat (x.toNat / 2 ^ 16) := by
  have hx : x.toNat / 256 ^ 2 < 256 ^ 2 := by
    have := x.toNat_lt
    omega
  have hbytes : be32 x = beBytes 2 (x.toNat / 256 ^ 2) ++ beBytes 2 x.toNat :=
    beBytes_add 2 2 x.toNat
  have hlow : (loadU32 bytes offset).toUInt16.toNat = leValue (beBytes 2 (x.toNat / 256 ^ 2)) := by
    have hlt := leValue_lt (beBytes 2 (x.toNat / 256 ^ 2))
    rw [beBytes_length] at hlt
    rw [UInt32.toNat_toUInt16, loadU32, h, hbytes, leValue_append, beBytes_length,
      UInt32.toNat_ofNat']
    omega
  have hvalue : ntohs (loadU32 bytes offset).toUInt16 = UInt16.ofNat (x.toNat / 256 ^ 2) := by
    rw [ntohs, hlow, bswap_leValue_beBytes hx]
  rw [hvalue]
  apply UInt32.toNat_inj.mp
  rw [UInt16.toNat_toUInt32, UInt16.toNat_ofNat', UInt32.toNat_ofNat']
  omega

theorem ntohl_loadBe64 {x : UInt64} (h : (bytes.drop offset).take 8 = be64 x) :
    (⟨ntohl (loadBe64 bytes offset).hi, ntohl (loadBe64 bytes offset).lo⟩ : Be64) =
      FlowEntry.halves x := by
  have hbytes : be64 x = beBytes 4 (x.toNat / 256 ^ 4) ++ beBytes 4 x.toNat :=
    beBytes_add 4 4 x.toNat
  have hhi : (bytes.drop offset).take 4 = beBytes 4 (x.toNat / 256 ^ 4) := by
    rw [show (4 : ℕ) = min 4 8 from rfl, ← List.take_take, h, hbytes]
    exact List.take_left' (beBytes_length 4 _)
  have hlo : (bytes.drop (offset + 4)).take 4 = beBytes 4 x.toNat := by
    have hdrop : ((bytes.drop offset).take 8).drop 4 = (bytes.drop (offset + 4)).take 4 := by
      rw [List.drop_take, List.drop_drop]
    rw [← hdrop, h, hbytes]
    exact List.drop_left' (beBytes_length 4 _)
  simp only [loadBe64, ntohl_loadU32 hhi, ntohl_loadU32 hlo, FlowEntry.halves]
  rfl

theorem loadU8_add {k : ℕ} (i : ℕ) (hi : i < k) :
    loadU8 bytes (offset + i) = ((bytes.drop offset).take k).getD i 0 := by
  rw [loadU8, List.getD_eq_getElem?_getD, List.getD_eq_getElem?_getD, List.getElem?_take,
    if_pos hi, List.getElem?_drop]

theorem loadU8_eq : loadU8 bytes offset = (bytes.drop offset).headD 0 := by
  rw [loadU8, List.getD_eq_getElem?_getD, List.headD_eq_head?_getD, List.head?_drop]

theorem loadOctets2_eq {o : Octets2} (h : (bytes.drop offset).take 2 = o.bytes) :
    loadOctets2 bytes offset = o := by
  rw [loadOctets2, ← Nat.add_zero offset, loadU8_add (k := 2) 0 (by decide), Nat.add_zero,
    loadU8_add (k := 2) 1 (by decide), h]
  rfl

theorem loadOctets6_eq {o : Octets6} (h : (bytes.drop offset).take 6 = o.bytes) :
    loadOctets6 bytes offset = o := by
  rw [loadOctets6, ← Nat.add_zero offset, loadU8_add (k := 6) 0 (by decide), Nat.add_zero,
    loadU8_add (k := 6) 1 (by decide), loadU8_add (k := 6) 2 (by decide),
    loadU8_add (k := 6) 3 (by decide), loadU8_add (k := 6) 4 (by decide),
    loadU8_add (k := 6) 5 (by decide), h]
  rfl

end Loads

theorem openflowOvsbe64ToUint64_halves (x : UInt64) :
    openflowOvsbe64ToUint64 (FlowEntry.halves x) = x := by
  have hx := x.toNat_lt
  have hhi : (UInt32.ofNat (x.toNat / 2 ^ 32)).toUInt64 = x >>> 32 := by
    apply UInt64.toNat_inj.mp
    rw [UInt32.toNat_toUInt64, UInt32.toNat_ofNat', UInt64.toNat_shiftRight,
      Nat.shiftRight_eq_div_pow]
    simp
    omega
  have hlo : (UInt32.ofNat x.toNat).toUInt64 = x % 4294967296 := by
    apply UInt64.toNat_inj.mp
    rw [UInt32.toNat_toUInt64, UInt32.toNat_ofNat', UInt64.toNat_mod]
    rfl
  have hlt : x.toNat % 4294967296 < 2 ^ 32 := Nat.mod_lt _ (by decide)
  rw [openflowOvsbe64ToUint64, FlowEntry.halves, hhi, hlo]
  apply UInt64.toNat_inj.mp
  have hshift : (x >>> 32 <<< 32).toNat = x.toNat / 2 ^ 32 * 2 ^ 32 := by
    rw [UInt64.toNat_shiftLeft, UInt64.toNat_shiftRight]
    simp only [UInt64.reduceToNat, Nat.reduceMod, Nat.shiftRight_eq_div_pow,
      Nat.shiftLeft_eq]
    omega
  have hmod : (x % 4294967296).toNat = x.toNat % 4294967296 := rfl
  rw [UInt64.toNat_or, hshift, hmod, mul_comm, ← Nat.two_pow_add_eq_or_of_lt hlt]
  omega

/-! ## Slices of concatenated fields -/

section Slices
variable {rest : List UInt8} {n : ℕ}

theorem drop_append_of_length {front : List UInt8} {k : ℕ} (h : front.length = k) :
    (front ++ rest).drop (n + k) = rest.drop n := by
  rw [← h, add_comm, List.drop_length_add_append]

@[simp] theorem drop_be16 (x : UInt16) : (be16 x ++ rest).drop (n + 2) = rest.drop n :=
  drop_append_of_length (beBytes_length 2 _)

@[simp] theorem drop_be32 (x : UInt32) : (be32 x ++ rest).drop (n + 4) = rest.drop n :=
  drop_append_of_length (beBytes_length 4 _)

@[simp] theorem drop_be64 (x : UInt64) : (be64 x ++ rest).drop (n + 8) = rest.drop n :=
  drop_append_of_length (beBytes_length 8 _)

@[simp] theorem drop_octets2 (o : Octets2) : (o.bytes ++ rest).drop (n + 2) = rest.drop n := rfl

@[simp] theorem drop_octets6 (o : Octets6) : (o.bytes ++ rest).drop (n + 6) = rest.drop n := rfl

@[simp] theorem take_octets2 (o : Octets2) : (o.bytes ++ rest).take 2 = o.bytes := rfl

@[simp] theorem take_octets6 (o : Octets6) : (o.bytes ++ rest).take 6 = o.bytes := rfl

@[simp] theorem take_be16 (x : UInt16) : (be16 x ++ rest).take 2 = be16 x :=
  List.take_left' (beBytes_length 2 _)

@[simp] theorem take_be32 (x : UInt32) : (be32 x ++ rest).take 4 = be32 x :=
  List.take_left' (beBytes_length 4 _)

@[simp] theorem take_be64 (x : UInt64) : (be64 x ++ rest).take 8 = be64 x :=
  List.take_left' (beBytes_length 8 _)

end Slices

theorem ntohOpenflowMatch_loadMatch (m : OpenflowMatch) (rest : List UInt8) :
    ntohOpenflowMatch (loadMatch (m.bytes ++ rest)) = m := by
  simp only [ntohOpenflowMatch, loadMatch, OpenflowMatch.bytes, List.append_assoc]
  rw [ntohl_loadU32_be32 (x := m.wildcards) (by simp), ntohs_loadU16 (x := m.inPort) (by simp),
    loadOctets6_eq (o := m.dlSrc) (by simp), loadOctets6_eq (o := m.dlDst) (by simp),
    ntohs_loadU16 (x := m.dlVlan) (by simp), ntohs_loadU16 (x := m.dlType) (by simp),
    loadOctets2_eq (o := m.pad2) (by simp), ntohl_loadU32_be32 (x := m.nwSrc) (by simp),
    ntohl_loadU32_be32 (x := m.nwDst) (by simp), ntohs_loadU16 (x := m.tpSrc) (by simp),
    ntohs_loadU16 (x := m.tpDst) (by simp)]
  simp [loadU8_eq]

theorem OpenflowMatch.bytes_length (m : OpenflowMatch) : m.bytes.length = 40 := by
  simp [bytes]

@[simp] theorem drop_match {rest : List UInt8} {n : ℕ} (m : OpenflowMatch) :
    (m.bytes ++ rest).drop (n + 40) = rest.drop n :=
  drop_append_of_length m.bytes_length

theorem FlowEntry.fixedBytes_length (e : FlowEntry) : e.fixedBytes.length = FLOW_STATS_SIZE := by
  simp [fixedBytes, FLOW_STATS_SIZE, OpenflowMatch.bytes_length]

theorem ntohOpenflowFlowStats_loadFlowStats (e : FlowEntry) :
    ntohOpenflowFlowStats (loadFlowStats e.fixedBytes) = e.decoded := by
  simp only [ntohOpenflowFlowStats, loadFlowStats, FlowEntry.fixedBytes, List.append_assoc,
    FlowEntry.decoded]
  rw [ntohs_loadU16 (x := UInt16.ofNat e.size) (by simp),
    ntohs_loadU32 (x := e.durationSec) (by simp), ntohs_loadU32 (x := e.durationNsec) (by simp),
    ntohs_loadU16 (x := e.priority) (by simp), ntohs_loadU16 (x := e.idleTimeout) (by simp),
    ntohs_loadU16 (x := e.hardTimeout) (by simp), loadOctets6_eq (o := e.pad2) (by simp),
    ntohl_loadBe64 (x := e.cookie) (by simp), ntohl_loadBe64 (x := e.packetCount) (by simp),
    ntohl_loadBe64 (x := e.byteCount) (by simp)]
  simp [loadU8_eq, ntohOpenflowMatch_loadMatch]

theorem FlowAction.loadType (a : FlowAction) (rest : List UInt8) :
    ntohs (loadU16 ((a.bytes ++ rest).take 2) 0) = a.type := by
  cases a <;> exact ntohs_loadU16 (by simp [bytes, type])

theorem ntohOpenflowActionOutput_load (port maxLen : UInt16) :
    ntohOpenflowActionOutput (loadActionOutput (FlowAction.output port maxLen).bytes) =
      ⟨OFPAT_OUTPUT, 8, port, maxLen⟩ := by
  simp only [ntohOpenflowActionOutput, loadActionOutput, FlowAction.bytes, List.append_assoc]
  rw [ntohs_loadU16 (x := OFPAT_OUTPUT) (by simp), ntohs_loadU16 (x := 8) (by simp),
    ntohs_loadU16 (x := port) (by simp), ntohs_loadU16 (x := maxLen) (by simp)]

theorem ntohOpenflowActionVlanVid_load (vlanVid : UInt16) (pad : Octets2) :
    ntohOpenflowActionVlanVid (loadActionVlanVid (FlowAction.setVlanVid vlanVid pad).bytes) =
      ⟨OFPAT_SET_VLAN_VID, 8, vlanVid, pad⟩ := by
  simp only [ntohOpenflowActionVlanVid, loadActionVlanVid, FlowAction.bytes, List.append_assoc]
  rw [ntohs_loadU16 (x := OFPAT_SET_VLAN_VID) (by simp), ntohs_loadU16 (x := 8) (by simp),
    ntohs_loadU16 (x := vlanVid) (by simp), loadOctets2_eq (o := pad) (by simp)]

end OrssNic
