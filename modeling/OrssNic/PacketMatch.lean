import OrssNic.Switch

/-!
# The packets that a match selects

The header fields that an OpenFlow 1.0 switch extracts from a packet, and the
packets that fit a match. `covers` on matches is inclusion on packets, and the
exact match of a flow selects the packets of the flow and no others.
-/

namespace OrssNic

structure PacketHeader where
  inPort : UInt16
  dlSrc : Octets6
  dlDst : Octets6
  dlVlan : UInt16
  dlVlanPcp : UInt8
  dlType : UInt16
  nwTos : UInt8
  nwProto : UInt8
  nwSrc : UInt32
  nwDst : UInt32
  tpSrc : UInt16
  tpDst : UInt16
  deriving DecidableEq, Repr, Inhabited

namespace OpenflowMatch

def fieldAdmits (m : OpenflowMatch) (field : UInt32) (same : Bool) : Bool := m.wild field || same

/-- The bits of the address in front of the wildcarded ones agree. -/
def addressAdmits (m : OpenflowMatch) (shift : ℕ) (mAddress address : UInt32) : Bool :=
  let bits := addressWildcards m.wildcards shift
  mAddress.toNat / 2 ^ bits == address.toNat / 2 ^ bits

def admits (m : OpenflowMatch) (p : PacketHeader) : Bool :=
  m.fieldAdmits OFPFW10_IN_PORT (m.inPort == p.inPort) &&
    m.fieldAdmits OFPFW10_DL_SRC (m.dlSrc == p.dlSrc) &&
    m.fieldAdmits OFPFW10_DL_DST (m.dlDst == p.dlDst) &&
    m.fieldAdmits OFPFW10_DL_VLAN (m.dlVlan == p.dlVlan) &&
    m.fieldAdmits OFPFW10_DL_VLAN_PCP (m.dlVlanPcp == p.dlVlanPcp) &&
    m.fieldAdmits OFPFW10_DL_TYPE (m.dlType == p.dlType) &&
    m.fieldAdmits OFPFW10_NW_TOS (m.nwTos == p.nwTos) &&
    m.fieldAdmits OFPFW10_NW_PROTO (m.nwProto == p.nwProto) &&
    m.addressAdmits OFPFW10_NW_SRC_SHIFT m.nwSrc p.nwSrc &&
    m.addressAdmits OFPFW10_NW_DST_SHIFT m.nwDst p.nwDst &&
    m.fieldAdmits OFPFW10_TP_SRC (m.tpSrc == p.tpSrc) &&
    m.fieldAdmits OFPFW10_TP_DST (m.tpDst == p.tpDst)

theorem fieldAdmits_of_wild {m : OpenflowMatch} {field : UInt32} {same : Bool}
    (h : m.wild field = true) : m.fieldAdmits field same = true := by
  rw [fieldAdmits, h, Bool.true_or]

theorem fieldAdmits_of_not_wild {m : OpenflowMatch} {field : UInt32} {same : Bool}
    (h : m.wild field = false) : m.fieldAdmits field same = same := by
  rw [fieldAdmits, h, Bool.false_or]

theorem addressAdmits_of_wild {m : OpenflowMatch} {shift : ℕ} {a b : UInt32}
    (h : addressWildcards m.wildcards shift = 32) : m.addressAdmits shift a b = true := by
  have hzero : ∀ address : UInt32, address.toNat / 2 ^ 32 = 0 :=
    fun address => Nat.div_eq_of_lt address.toNat_lt
  simp only [addressAdmits, h, hzero, beq_self_eq_true]

theorem addressAdmits_of_not_wild {m : OpenflowMatch} {shift : ℕ} {a b : UInt32}
    (h : addressWildcards m.wildcards shift = 0) : m.addressAdmits shift a b = (a == b) := by
  simp only [addressAdmits, h, pow_zero, Nat.div_one]
  rw [Bool.eq_iff_iff, beq_iff_eq, beq_iff_eq, UInt32.toNat_inj]

section Inclusion
variable {m e : OpenflowMatch} {field : UInt32} {shift : ℕ} {a b c : UInt32}

theorem fieldCovers_sound {α : Type} [BEq α] [LawfulBEq α] {x y z : α}
    (hcovers : m.fieldCovers e field (x == y) = true)
    (hadmits : e.fieldAdmits field (y == z) = true) : m.fieldAdmits field (x == z) = true := by
  simp only [fieldCovers, fieldAdmits, Bool.or_eq_true, Bool.and_eq_true, Bool.not_eq_true',
    beq_iff_eq] at *
  obtain hwild | ⟨hlooks, rfl⟩ := hcovers
  · exact .inl hwild
  · rw [hlooks] at hadmits
    exact .inr (hadmits.resolve_left Bool.false_ne_true)

theorem addressCovers_sound (hcovers : m.addressCovers e shift a b = true)
    (hadmits : e.addressAdmits shift b c = true) : m.addressAdmits shift a c = true := by
  simp only [addressCovers, addressAdmits, Bool.and_eq_true, decide_eq_true_eq, beq_iff_eq] at *
  obtain ⟨hle, hpre⟩ := hcovers
  obtain ⟨k, hk⟩ := Nat.exists_eq_add_of_le hle
  rw [hpre, hk, pow_add, ← Nat.div_div_eq_div_mul, ← Nat.div_div_eq_div_mul, hadmits]

/-- A covered entry selects no packet that the covering match does not select. -/
theorem covers_sound {p : PacketHeader} (hcovers : m.covers e = true)
    (hadmits : e.admits p = true) : m.admits p = true := by
  simp only [covers, admits, Bool.and_eq_true] at *
  obtain ⟨⟨⟨⟨⟨⟨⟨⟨⟨⟨⟨c₁, c₂⟩, c₃⟩, c₄⟩, c₅⟩, c₆⟩, c₇⟩, c₈⟩, c₉⟩, c₁₀⟩, c₁₁⟩, c₁₂⟩ := hcovers
  obtain ⟨⟨⟨⟨⟨⟨⟨⟨⟨⟨⟨a₁, a₂⟩, a₃⟩, a₄⟩, a₅⟩, a₆⟩, a₇⟩, a₈⟩, a₉⟩, a₁₀⟩, a₁₁⟩, a₁₂⟩ := hadmits
  exact ⟨⟨⟨⟨⟨⟨⟨⟨⟨⟨⟨fieldCovers_sound c₁ a₁, fieldCovers_sound c₂ a₂⟩, fieldCovers_sound c₃ a₃⟩,
    fieldCovers_sound c₄ a₄⟩, fieldCovers_sound c₅ a₅⟩, fieldCovers_sound c₆ a₆⟩,
    fieldCovers_sound c₇ a₇⟩, fieldCovers_sound c₈ a₈⟩, addressCovers_sound c₉ a₉⟩,
    addressCovers_sound c₁₀ a₁₀⟩, fieldCovers_sound c₁₁ a₁₁⟩, fieldCovers_sound c₁₂ a₁₂⟩

end Inclusion

end OpenflowMatch

/-- A packet of the flow, as it comes from the network. -/
structure PacketHeader.BelongsTo (p : PacketHeader) (key : FiveTuple) : Prop where
  ipv4 : p.dlType = IPV4_ETH_TYPE
  inPort : p.inPort = OVS_NETWORK_IFINDEX
  proto : p.nwProto = key.proto
  srcIp : p.nwSrc = key.srcIp
  dstIp : p.nwDst = key.dstIp
  srcPort : p.tpSrc = key.srcPort
  dstPort : p.tpDst = key.dstPort

theorem PacketHeader.BelongsTo.unique {p : PacketHeader} {key key' : FiveTuple}
    (h : p.BelongsTo key) (h' : p.BelongsTo key') : key = key' := by
  have hsrcIp := h.srcIp.symm.trans h'.srcIp
  have hdstIp := h.dstIp.symm.trans h'.dstIp
  have hsrcPort := h.srcPort.symm.trans h'.srcPort
  have hdstPort := h.dstPort.symm.trans h'.dstPort
  have hproto := h.proto.symm.trans h'.proto
  cases key
  cases key'
  simp only at hsrcIp hdstIp hsrcPort hdstPort hproto
  rw [hsrcIp, hdstIp, hsrcPort, hdstPort, hproto]

theorem exactMatch_admits {key : FiveTuple} {p : PacketHeader} :
    (exactMatch key).admits p = true ↔ p.BelongsTo key := by
  rw [OpenflowMatch.admits,
    OpenflowMatch.fieldAdmits_of_not_wild (exactMatch_looks key OFPFW10_IN_PORT (by decide)),
    OpenflowMatch.fieldAdmits_of_wild (exactMatch_ignores key OFPFW10_DL_SRC (by decide)),
    OpenflowMatch.fieldAdmits_of_wild (exactMatch_ignores key OFPFW10_DL_DST (by decide)),
    OpenflowMatch.fieldAdmits_of_wild (exactMatch_ignores key OFPFW10_DL_VLAN (by decide)),
    OpenflowMatch.fieldAdmits_of_wild (exactMatch_ignores key OFPFW10_DL_VLAN_PCP (by decide)),
    OpenflowMatch.fieldAdmits_of_not_wild (exactMatch_looks key OFPFW10_DL_TYPE (by decide)),
    OpenflowMatch.fieldAdmits_of_wild (exactMatch_ignores key OFPFW10_NW_TOS (by decide)),
    OpenflowMatch.fieldAdmits_of_not_wild (exactMatch_looks key OFPFW10_NW_PROTO (by decide)),
    OpenflowMatch.addressAdmits_of_not_wild (exactMatch_nwSrc key),
    OpenflowMatch.addressAdmits_of_not_wild (exactMatch_nwDst key),
    OpenflowMatch.fieldAdmits_of_not_wild (exactMatch_looks key OFPFW10_TP_SRC (by decide)),
    OpenflowMatch.fieldAdmits_of_not_wild (exactMatch_looks key OFPFW10_TP_DST (by decide))]
  simp only [exactMatch, Bool.and_true, Bool.and_eq_true, beq_iff_eq]
  constructor
  · intro h
    obtain ⟨⟨⟨⟨⟨⟨hin, htype⟩, hproto⟩, hsrc⟩, hdst⟩, hsport⟩, hdport⟩ := h
    exact ⟨htype.symm, hin.symm, hproto.symm, hsrc.symm, hdst.symm, hsport.symm, hdport.symm⟩
  · intro h
    exact ⟨⟨⟨⟨⟨⟨h.inPort.symm, h.ipv4.symm⟩, h.proto.symm⟩, h.srcIp.symm⟩, h.dstIp.symm⟩,
      h.srcPort.symm⟩, h.dstPort.symm⟩

end OrssNic
