import OrssNic.XdpConnections
import OrssNic.BigEndian

/-!
# The length of the IP header

`parse_headers` looks for the transport header behind an IP header of 20 bytes.
The header length field of IPv4 counts words of four bytes and may be up to 15,
so that options move the transport header to later bytes.
-/

namespace OrssNic

namespace Packet

def ihl (data : List UInt8) : ℕ := (loadU8 data 14).toNat % 16

def transport (data : List UInt8) : ℕ := ETHHDR_SIZE + 4 * ihl data

structure Complete (data : List UInt8) : Prop where
  ipv4 : IsIpv4 data
  ihl : 5 ≤ ihl data
  unfragmented : (getBe16 data 20).toNat % 2 ^ 14 = 0
  header : (loadU8 data 23 = IPPROTO_TCP ∧ transport data + TCPHDR_SIZE ≤ data.length) ∨
    (loadU8 data 23 = IPPROTO_UDP ∧ transport data + UDPHDR_SIZE ≤ data.length)

def tcpClass (flags : UInt8) : TcpFlags :=
  match bitField flags 0, bitField flags 1, bitField flags 4 with
  | true, _, _ => .fin
  | false, true, false => .syn
  | false, true, true => .synack
  | false, false, true => .ack
  | false, false, false => .noFlags

def headers (data : List UInt8) : TcpFlags × FiveTuple :=
  (if loadU8 data 23 = IPPROTO_TCP then tcpClass (loadU8 data (transport data + 13)) else .udp,
    { srcIp := loadU32 data 26
      dstIp := loadU32 data 30
      srcPort := getBe16 data (transport data)
      dstPort := getBe16 data (transport data + 2)
      proto := loadU8 data 23 })

@[mk_iff]
structure SameFlags (flags flags' : UInt8) : Prop where
  fin : bitField flags 0 = bitField flags' 0
  syn : bitField flags 0 = false → bitField flags 1 = bitField flags' 1
  ack : bitField flags 0 = false → bitField flags 4 = bitField flags' 4

/-- What stands behind 20 bytes of the IP header looks like the transport header. -/
structure FixedOffsetsAgree (data : List UInt8) : Prop where
  source : getBe16 data 34 = getBe16 data (transport data)
  dest : getBe16 data 36 = getBe16 data (transport data + 2)
  flags : loadU8 data 23 = IPPROTO_TCP →
    SameFlags (loadU8 data 47) (loadU8 data (transport data + 13))

theorem tcpClass_eq_iff (flags flags' : UInt8) :
    tcpClass flags = tcpClass flags' ↔ SameFlags flags flags' := by
  rw [tcpClass, tcpClass, sameFlags_iff]
  generalize bitField flags 0 = fin
  generalize bitField flags 1 = syn
  generalize bitField flags 4 = ack
  generalize bitField flags' 0 = fin'
  generalize bitField flags' 1 = syn'
  generalize bitField flags' 4 = ack'
  revert fin syn ack fin' syn' ack'
  decide

theorem fixedOffsetsAgree_of_ihl {data : List UInt8} (h : ihl data = 5) :
    FixedOffsetsAgree data := by
  have htransport : transport data = 34 := by rw [transport, h, ETHHDR_SIZE]
  constructor
  · rw [htransport]
  · rw [htransport]
  · intro _
    rw [htransport]
    exact ⟨rfl, fun _ => rfl, fun _ => rfl⟩

theorem Complete.transport_ge {data : List UInt8} (h : Complete data) : 34 ≤ transport data := by
  have hihl := h.ihl
  rw [transport, ETHHDR_SIZE]
  omega

end Packet

/-! ## Where the parser reads -/

section Fixed
variable {ctx : XdpMd}

theorem tcpClass_eq (flags : UInt8) (tuple : FiveTuple) :
    (if bitField flags 0 then (TcpFlags.fin, tuple)
      else if bitField flags 1 && !bitField flags 4 then (.syn, tuple)
      else if bitField flags 4 && bitField flags 1 then (.synack, tuple)
      else if bitField flags 4 && !bitField flags 1 then (.ack, tuple)
      else (.noFlags, tuple)) = (Packet.tcpClass flags, tuple) := by
  rw [Packet.tcpClass]
  generalize bitField flags 0 = fin
  generalize bitField flags 1 = syn
  generalize bitField flags 4 = ack
  cases fin <;> cases syn <;> cases ack <;> rfl

theorem parseHeaders_tcp_eq (tuple : FiveTuple) (hip : Packet.IsIpv4 ctx.data)
    (hproto : loadU8 ctx.data 23 = IPPROTO_TCP) (hlen : 54 ≤ ctx.data.length) :
    parseHeaders ctx tuple =
      (Packet.tcpClass (loadU8 ctx.data 47),
        { srcIp := loadU32 ctx.data 26
          dstIp := loadU32 ctx.data 30
          srcPort := getBe16 ctx.data 34
          dstPort := getBe16 ctx.data 36
          proto := loadU8 ctx.data 23 }) := by
  have heth : ¬ctx.data.length < 14 := by omega
  have hiphdr : ¬ctx.data.length < 34 := by omega
  have htcphdr : ¬ctx.data.length < 54 := by omega
  have htype := (Packet.loadU16_etherType heth).mpr hip
  rw [← tcpClass_eq, ← ntohs_loadU16_getBe16 (by omega), ← ntohs_loadU16_getBe16 (by omega)]
  simp only [parseHeaders, ETHHDR_SIZE, IPHDR_SIZE, TCPHDR_SIZE, loadIphdr, heth, htype, hiphdr,
    hproto, htcphdr, if_true, if_false]
  rfl

theorem parseHeaders_udp_eq (tuple : FiveTuple) (hip : Packet.IsIpv4 ctx.data)
    (hproto : loadU8 ctx.data 23 = IPPROTO_UDP) (hlen : 42 ≤ ctx.data.length) :
    parseHeaders ctx tuple =
      (.udp,
        { srcIp := loadU32 ctx.data 26
          dstIp := loadU32 ctx.data 30
          srcPort := getBe16 ctx.data 34
          dstPort := getBe16 ctx.data 36
          proto := loadU8 ctx.data 23 }) := by
  have heth : ¬ctx.data.length < 14 := by omega
  have hiphdr : ¬ctx.data.length < 34 := by omega
  have hudphdr : ¬ctx.data.length < 42 := by omega
  have htype := (Packet.loadU16_etherType heth).mpr hip
  rw [← ntohs_loadU16_getBe16 (by omega), ← ntohs_loadU16_getBe16 (by omega)]
  simp only [parseHeaders, ETHHDR_SIZE, IPHDR_SIZE, UDPHDR_SIZE, loadIphdr, heth, htype, hiphdr,
    hproto, IPPROTO_TCP_ne_UDP.symm, hudphdr, if_true, if_false]
  rfl

theorem parseHeaders_headers_iff (tuple : FiveTuple) (h : Packet.Complete ctx.data) :
    parseHeaders ctx tuple = Packet.headers ctx.data ↔ Packet.FixedOffsetsAgree ctx.data := by
  have htransport := h.transport_ge
  rcases h.header with ⟨hproto, hlen⟩ | ⟨hproto, hlen⟩
  · rw [TCPHDR_SIZE] at hlen
    rw [parseHeaders_tcp_eq tuple h.ipv4 hproto (by omega), Packet.headers, if_pos hproto,
      Prod.mk.injEq, FiveTuple.mk.injEq, Packet.tcpClass_eq_iff]
    constructor
    · rintro ⟨hflags, -, -, hsource, hdest, -⟩
      exact ⟨hsource, hdest, fun _ => hflags⟩
    · intro hagree
      exact ⟨hagree.flags hproto, rfl, rfl, hagree.source, hagree.dest, rfl⟩
  · rw [UDPHDR_SIZE] at hlen
    have hne : loadU8 ctx.data 23 ≠ IPPROTO_TCP := by
      rw [hproto]
      exact IPPROTO_TCP_ne_UDP.symm
    rw [parseHeaders_udp_eq tuple h.ipv4 hproto (by omega), Packet.headers, if_neg hne,
      Prod.mk.injEq, FiveTuple.mk.injEq]
    constructor
    · rintro ⟨-, -, -, hsource, hdest, -⟩
      exact ⟨hsource, hdest, fun htcp => absurd htcp hne⟩
    · intro hagree
      exact ⟨rfl, rfl, rfl, hagree.source, hagree.dest, rfl⟩

end Fixed

/-! ## Reads in front of `data_end` -/

/-- A load of `width` bytes that all lie in front of `data_end`. -/
def checked {α : Type} (load : List UInt8 → ℕ → α) (width : ℕ) (data : List UInt8)
    (offset : ℕ) : Except Halt α :=
  if offset + width ≤ data.length then .ok (load data offset) else .error .outOfBounds

/-- `parse_headers` with a check of every load. The flags of a TCP header share
a unit of two bytes. -/
def parseHeadersChecked (ctx : XdpMd) (tuple : FiveTuple) : Except Halt (TcpFlags × FiveTuple) :=
  let data := ctx.data
  if data.length < ETHHDR_SIZE then .ok (.error, tuple)
  else do
    let type ← checked loadU16 2 data 12
    if type = htons ETH_P_IP then
      if data.length < IPHDR_SIZE + ETHHDR_SIZE then .ok (.error, tuple)
      else
        let saddr ← checked loadU32 4 data (ETHHDR_SIZE + 12)
        let daddr ← checked loadU32 4 data (ETHHDR_SIZE + 16)
        let protocol ← checked loadU8 1 data (ETHHDR_SIZE + 9)
        let tuple := { tuple with srcIp := saddr, dstIp := daddr, proto := protocol }
        if protocol = IPPROTO_TCP then
          if data.length < IPHDR_SIZE + ETHHDR_SIZE + TCPHDR_SIZE then .ok (.error, tuple)
          else
            let source ← checked loadU16 2 data (ETHHDR_SIZE + IPHDR_SIZE)
            let dest ← checked loadU16 2 data (ETHHDR_SIZE + IPHDR_SIZE + 2)
            let flags ← checked (fun data offset => loadU8 data (offset + 1)) 2 data
              (ETHHDR_SIZE + IPHDR_SIZE + 12)
            let tuple := { tuple with srcPort := ntohs source, dstPort := ntohs dest }
            if bitField flags 0 then .ok (.fin, tuple)
            else if bitField flags 1 && !bitField flags 4 then .ok (.syn, tuple)
            else if bitField flags 4 && bitField flags 1 then .ok (.synack, tuple)
            else if bitField flags 4 && !bitField flags 1 then .ok (.ack, tuple)
            else .ok (.noFlags, tuple)
        else if protocol = IPPROTO_UDP then
          if data.length < IPHDR_SIZE + ETHHDR_SIZE + UDPHDR_SIZE then .ok (.error, tuple)
          else
            let source ← checked loadU16 2 data (ETHHDR_SIZE + IPHDR_SIZE)
            let dest ← checked loadU16 2 data (ETHHDR_SIZE + IPHDR_SIZE + 2)
            .ok (.udp, { tuple with srcPort := ntohs source, dstPort := ntohs dest })
        else .ok (.notTcp, tuple)
    else .ok (.notTcp, tuple)

theorem checked_bind {α β : Type} {load : List UInt8 → ℕ → α} {width offset : ℕ}
    {data : List UInt8} (h : offset + width ≤ data.length) (f : α → Except Halt β) :
    (checked load width data offset >>= f) = f (load data offset) := by
  rw [checked, if_pos h]
  rfl

theorem ite_eq_ok {α : Type} {c : Prop} [Decidable c] {x y : Except Halt α} {a b : α}
    (hpos : c → x = .ok a) (hneg : ¬c → y = .ok b) :
    (if c then x else y) = .ok (if c then a else b) := by
  split_ifs with hc
  · exact hpos hc
  · exact hneg hc

theorem parseHeadersChecked_eq (ctx : XdpMd) (tuple : FiveTuple) :
    parseHeadersChecked ctx tuple = .ok (parseHeaders ctx tuple) := by
  rw [parseHeadersChecked, parseHeaders]
  refine ite_eq_ok (fun _ => rfl) fun heth => ?_
  rw [ETHHDR_SIZE] at heth
  rw [checked_bind (by omega)]
  refine ite_eq_ok (fun _ => ?_) fun _ => rfl
  refine ite_eq_ok (fun _ => rfl) fun hiphdr => ?_
  rw [IPHDR_SIZE, ETHHDR_SIZE] at hiphdr
  rw [checked_bind (by rw [ETHHDR_SIZE]; omega), checked_bind (by rw [ETHHDR_SIZE]; omega),
    checked_bind (by rw [ETHHDR_SIZE]; omega)]
  refine ite_eq_ok (fun _ => ?_) fun _ => ?_
  · refine ite_eq_ok (fun _ => rfl) fun htcphdr => ?_
    rw [IPHDR_SIZE, ETHHDR_SIZE, TCPHDR_SIZE] at htcphdr
    rw [checked_bind (by rw [ETHHDR_SIZE, IPHDR_SIZE]; omega),
      checked_bind (by rw [ETHHDR_SIZE, IPHDR_SIZE]; omega),
      checked_bind (by rw [ETHHDR_SIZE, IPHDR_SIZE]; omega)]
    refine ite_eq_ok (fun _ => rfl) fun _ => ite_eq_ok (fun _ => rfl) fun _ => ?_
    exact ite_eq_ok (fun _ => rfl) fun _ => ite_eq_ok (fun _ => rfl) fun _ => rfl
  · refine ite_eq_ok (fun _ => ?_) fun _ => rfl
    refine ite_eq_ok (fun _ => rfl) fun hudphdr => ?_
    rw [IPHDR_SIZE, ETHHDR_SIZE, UDPHDR_SIZE] at hudphdr
    rw [checked_bind (by rw [ETHHDR_SIZE, IPHDR_SIZE]; omega),
      checked_bind (by rw [ETHHDR_SIZE, IPHDR_SIZE]; omega)]
    rfl

/-- Every packet is read within its bytes, and a complete one is parsed as its
headers have it exactly when it has no options, or its bytes behind the first
20 of the IP header pass for the transport header. -/
theorem parseHeaders_follows_ihl_iff (ctx : XdpMd) (tuple : FiveTuple) :
    (parseHeadersChecked ctx tuple = .ok (parseHeaders ctx tuple) ∧
        (Packet.Complete ctx.data → parseHeaders ctx tuple = Packet.headers ctx.data)) ↔
      (Packet.Complete ctx.data →
        Packet.ihl ctx.data = 5 ∨ Packet.FixedOffsetsAgree ctx.data) := by
  constructor
  · rintro ⟨-, hheaders⟩ hcomplete
    exact .inr ((parseHeaders_headers_iff tuple hcomplete).mp (hheaders hcomplete))
  · intro hcond
    refine ⟨parseHeadersChecked_eq ctx tuple, fun hcomplete => ?_⟩
    rw [parseHeaders_headers_iff tuple hcomplete]
    rcases hcond hcomplete with hihl | hagree
    · exact Packet.fixedOffsetsAgree_of_ihl hihl
    · exact hagree

def optionsPacket : XdpMd where
  data := List.replicate 12 2 ++ [0x08, 0x00] ++
    [0x46, 0, 0, 32, 0, 1, 0x40, 0, 64, IPPROTO_UDP, 0, 0, 10, 0, 0, 1, 10, 0, 0, 2] ++
    [1, 1, 1, 0] ++ [0x12, 0x34, 0, 80, 0, 8, 0, 0]
  ingressIfindex := 1

/-- The ports are read from the options. -/
theorem parseHeaders_options :
    Packet.Complete optionsPacket.data ∧ Packet.ihl optionsPacket.data = 6 ∧
      (Packet.headers optionsPacket.data).2.srcPort = 0x1234 ∧
      (Packet.headers optionsPacket.data).2.dstPort = 80 ∧
      (parseHeaders optionsPacket default).2.srcPort = 0x0101 ∧
      (parseHeaders optionsPacket default).2.dstPort = 0x0100 := by
  have hcomplete : Packet.Complete optionsPacket.data :=
    ⟨⟨rfl, rfl⟩, by decide, by decide, .inr (by decide)⟩
  refine ⟨hcomplete, ?_⟩
  decide

end OrssNic
