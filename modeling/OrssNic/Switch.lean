import OrssNic.OpenflowWrites

/-!
# The flow table of an OpenFlow 1.0 switch

Entries are matches with a priority and a list of actions. A match says less
or more about a packet header, down to prefixes of the two addresses; `covers`
compares two matches, as the non-strict commands do. The values are in host
order.
-/

namespace OrssNic
open OpenflowMatch

def OFPFW10_DL_VLAN : UInt32 := 0x2
def OFPFW10_DL_SRC : UInt32 := 0x4
def OFPFW10_DL_DST : UInt32 := 0x8
def OFPFW10_DL_TYPE : UInt32 := 0x10
def OFPFW10_NW_PROTO : UInt32 := 0x20
def OFPFW10_TP_SRC : UInt32 := 0x40
def OFPFW10_TP_DST : UInt32 := 0x80
def OFPFW10_NW_SRC_SHIFT : ℕ := 8
def OFPFW10_NW_DST_SHIFT : ℕ := 14
def OFPFW10_DL_VLAN_PCP : UInt32 := 0x100000
def OFPFW10_NW_TOS : UInt32 := 0x200000

/-- How many low bits of an address are not looked at; from 32 on, it is all of them. -/
def addressWildcards (wildcards : UInt32) (shift : ℕ) : ℕ :=
  min 32 (wildcards.toNat / 2 ^ shift % 64)

namespace OpenflowMatch

def wild (m : OpenflowMatch) (field : UInt32) : Bool := m.wildcards &&& field != 0

/-- Where `m` looks at the field, so does `e`, for the same value. -/
def fieldCovers (m e : OpenflowMatch) (field : UInt32) (same : Bool) : Bool :=
  m.wild field || (!e.wild field && same)

def addressCovers (m e : OpenflowMatch) (shift : ℕ) (mAddress eAddress : UInt32) : Bool :=
  let bits := addressWildcards m.wildcards shift
  decide (addressWildcards e.wildcards shift ≤ bits) &&
    mAddress.toNat / 2 ^ bits == eAddress.toNat / 2 ^ bits

/-- Every packet that fits `e` fits `m`, field by field. -/
def covers (m e : OpenflowMatch) : Bool :=
  m.fieldCovers e OFPFW10_IN_PORT (m.inPort == e.inPort) &&
    m.fieldCovers e OFPFW10_DL_SRC (m.dlSrc == e.dlSrc) &&
    m.fieldCovers e OFPFW10_DL_DST (m.dlDst == e.dlDst) &&
    m.fieldCovers e OFPFW10_DL_VLAN (m.dlVlan == e.dlVlan) &&
    m.fieldCovers e OFPFW10_DL_VLAN_PCP (m.dlVlanPcp == e.dlVlanPcp) &&
    m.fieldCovers e OFPFW10_DL_TYPE (m.dlType == e.dlType) &&
    m.fieldCovers e OFPFW10_NW_TOS (m.nwTos == e.nwTos) &&
    m.fieldCovers e OFPFW10_NW_PROTO (m.nwProto == e.nwProto) &&
    m.addressCovers e OFPFW10_NW_SRC_SHIFT m.nwSrc e.nwSrc &&
    m.addressCovers e OFPFW10_NW_DST_SHIFT m.nwDst e.nwDst &&
    m.fieldCovers e OFPFW10_TP_SRC (m.tpSrc == e.tpSrc) &&
    m.fieldCovers e OFPFW10_TP_DST (m.tpDst == e.tpDst)

end OpenflowMatch

namespace OpenflowMatch
variable {m e : OpenflowMatch} {field : UInt32} {same : Bool} {shift : ℕ}
variable {mAddress eAddress : UInt32}

theorem fieldCovers_of_wild (h : m.wild field = true) : m.fieldCovers e field same = true := by
  rw [fieldCovers, h, Bool.true_or]

theorem fieldCovers_of_not_wild (h : m.wild field = false) :
    m.fieldCovers e field same = (!e.wild field && same) := by
  rw [fieldCovers, h, Bool.false_or]

theorem addressCovers_of_wild (h : addressWildcards m.wildcards shift = 32) :
    m.addressCovers e shift mAddress eAddress = true := by
  have hle : addressWildcards e.wildcards shift ≤ 32 := min_le_left _ _
  have hzero : ∀ address : UInt32, address.toNat / 2 ^ 32 = 0 :=
    fun address => Nat.div_eq_of_lt address.toNat_lt
  simp only [addressCovers, h, hle, hzero, decide_true, beq_self_eq_true, Bool.and_self]

theorem addressCovers_of_not_wild (h : addressWildcards m.wildcards shift = 0) :
    m.addressCovers e shift mAddress eAddress =
      (decide (addressWildcards e.wildcards shift = 0) && mAddress == eAddress) := by
  simp only [addressCovers, h, Nat.le_zero, pow_zero, Nat.div_one]
  congr 1
  rw [Bool.eq_iff_iff, beq_iff_eq, beq_iff_eq, UInt32.toNat_inj]

end OpenflowMatch

inductive SwitchAction
  | setVlanVid (vlanVid : UInt16)
  | output (port : UInt16)
  deriving DecidableEq, Repr

structure SwitchEntry where
  «match» : OpenflowMatch
  priority : UInt16
  actions : List SwitchAction
  deriving DecidableEq, Repr

inductive FlowModCommand
  | add
  | modify
  | delete
  deriving DecidableEq, Repr

structure FlowMod where
  command : FlowModCommand
  «match» : OpenflowMatch
  priority : UInt16
  actions : List SwitchAction
  deriving DecidableEq, Repr

def vlanOf (actions : List SwitchAction) : Option UInt16 :=
  actions.findSome? fun
    | .setVlanVid vlanVid => some vlanVid
    | .output _ => none

def addEntry (table : List SwitchEntry) (m : FlowMod) : List SwitchEntry :=
  table.filter (fun e => !(e.match == m.match && e.priority == m.priority)) ++
    [⟨m.match, m.priority, m.actions⟩]

def applyFlowMod (table : List SwitchEntry) (m : FlowMod) : List SwitchEntry :=
  match m.command with
  | .add => addEntry table m
  | .modify =>
    -- Without an entry to modify, the command is an `add`.
    if table.any fun e => m.match.covers e.match then
      table.map fun e => if m.match.covers e.match then { e with actions := m.actions } else e
    else addEntry table m
  | .delete => table.filter fun e => !m.match.covers e.match

theorem mem_addEntry {table : List SwitchEntry} {m : FlowMod} {e : SwitchEntry}
    (h : e ∈ addEntry table m) : e ∈ table ∨ e = ⟨m.match, m.priority, m.actions⟩ := by
  rcases List.mem_append.mp h with h | h
  · exact .inl (List.mem_filter.mp h).1
  · exact .inr (List.mem_singleton.mp h)

theorem addEntry_of_fresh {table : List SwitchEntry} {m : FlowMod}
    (h : ∀ e ∈ table, e.match ≠ m.match) :
    addEntry table m = table ++ [⟨m.match, m.priority, m.actions⟩] := by
  rw [addEntry, List.filter_eq_self.mpr]
  intro e he
  rw [beq_eq_false_iff_ne.mpr (h e he), Bool.false_and]
  rfl

theorem mem_modify {table : List SwitchEntry} {m : FlowMod} {e' : SwitchEntry}
    (hm : m.command = .modify) (h : e' ∈ applyFlowMod table m) :
    (e'.actions = m.actions ∧ (e'.match = m.match ∨
      ∃ e ∈ table, e.match = e'.match ∧ m.match.covers e.match = true)) ∨
    e' ∈ table ∧ m.match.covers e'.match = false := by
  simp only [applyFlowMod, hm] at h
  split_ifs at h with hany
  · obtain ⟨e, he, rfl⟩ := List.mem_map.mp h
    split_ifs with hcovers
    · exact .inl ⟨rfl, .inr ⟨e, he, rfl, hcovers⟩⟩
    · exact .inr ⟨he, Bool.eq_false_iff.mpr hcovers⟩
  · rcases mem_addEntry h with he | rfl
    · refine .inr ⟨he, ?_⟩
      rw [Bool.eq_false_iff]
      exact fun hcovers => hany (List.any_eq_true.mpr ⟨e', he, hcovers⟩)
    · exact .inl ⟨rfl, .inl rfl⟩

/-! ## The program's messages -/

def OFPFC_ADD : UInt16 := 0
def OFPFC_DELETE : UInt16 := 3

/-- The strict variants are not modelled. -/
def flowModCommand (command : UInt16) : Option FlowModCommand :=
  if command = OFPFC_ADD then some .add
  else if command = OFPFC_MODIFY then some .modify
  else if command = OFPFC_DELETE then some .delete
  else none

def OpenflowFlowModMessage.flowMod (message : OpenflowFlowModMessage) : Option FlowMod :=
  (flowModCommand (ntohs message.body.command)).map fun command => {
    command := command
    «match» := ntohOpenflowMatch message.body.match
    priority := ntohs message.body.priority
    actions := [.setVlanVid (ntohs message.vlanVid.vlanVid), .output (ntohs message.output.port)] }

def exactMatch (key : FiveTuple) : OpenflowMatch where
  wildcards := OFPW_MATCH_FIVE_TUPLE
  inPort := OVS_NETWORK_IFINDEX
  dlSrc := default
  dlDst := default
  dlVlan := 0
  dlVlanPcp := 0
  pad1 := 0
  dlType := IPV4_ETH_TYPE
  nwTos := 0
  nwProto := key.proto
  pad2 := default
  nwSrc := key.srcIp
  nwDst := key.dstIp
  tpSrc := key.srcPort
  tpDst := key.dstPort

theorem ntoh_fiveTupleMatch (key : FiveTuple) :
    ntohOpenflowMatch (fiveTupleMatch key) = exactMatch key := by
  simp only [ntohOpenflowMatch, fiveTupleMatch, ntohs_htons, ntohl_htonl, exactMatch]
  rfl

theorem flowModMessage_flowMod (transactionId : UInt32) (key : FiveTuple) (vlan : UInt16) :
    (flowModMessage transactionId key vlan).flowMod =
      some ⟨.modify, exactMatch key, 0, [.setVlanVid vlan, .output OVS_HOST_IFINDEX]⟩ := by
  simp only [OpenflowFlowModMessage.flowMod, flowModMessage, ntoh_fiveTupleMatch, ntohs_htons]
  rfl

theorem exactMatch_wildcards (key : FiveTuple) :
    (exactMatch key).wildcards = OFPW_MATCH_FIVE_TUPLE := rfl

theorem exactMatch_wild (key : FiveTuple) (field : UInt32) :
    (exactMatch key).wild field = (OFPW_MATCH_FIVE_TUPLE &&& field != 0) := rfl

theorem exactMatch_nwSrc (key : FiveTuple) :
    addressWildcards (exactMatch key).wildcards OFPFW10_NW_SRC_SHIFT = 0 := by
  rw [exactMatch_wildcards]
  decide

theorem exactMatch_nwDst (key : FiveTuple) :
    addressWildcards (exactMatch key).wildcards OFPFW10_NW_DST_SHIFT = 0 := by
  rw [exactMatch_wildcards]
  decide

theorem exactMatch_ignores (key : FiveTuple) (field : UInt32)
    (h : OFPW_MATCH_FIVE_TUPLE &&& field ≠ 0) : (exactMatch key).wild field = true := by
  rw [exactMatch_wild, bne_iff_ne]
  exact h

theorem exactMatch_looks (key : FiveTuple) (field : UInt32)
    (h : OFPW_MATCH_FIVE_TUPLE &&& field = 0) : (exactMatch key).wild field = false := by
  rw [exactMatch_wild, bne_eq_false_iff_eq]
  exact h

theorem exactMatch_covers {key : FiveTuple} {e : OpenflowMatch} :
    (exactMatch key).covers e = true ↔
      (e.wild OFPFW10_IN_PORT = false ∧ OVS_NETWORK_IFINDEX = e.inPort) ∧
      (e.wild OFPFW10_DL_TYPE = false ∧ IPV4_ETH_TYPE = e.dlType) ∧
      (e.wild OFPFW10_NW_PROTO = false ∧ key.proto = e.nwProto) ∧
      (addressWildcards e.wildcards OFPFW10_NW_SRC_SHIFT = 0 ∧ key.srcIp = e.nwSrc) ∧
      (addressWildcards e.wildcards OFPFW10_NW_DST_SHIFT = 0 ∧ key.dstIp = e.nwDst) ∧
      (e.wild OFPFW10_TP_SRC = false ∧ key.srcPort = e.tpSrc) ∧
      (e.wild OFPFW10_TP_DST = false ∧ key.dstPort = e.tpDst) := by
  rw [covers, fieldCovers_of_not_wild (exactMatch_looks key OFPFW10_IN_PORT (by decide)),
    fieldCovers_of_wild (exactMatch_ignores key OFPFW10_DL_SRC (by decide)),
    fieldCovers_of_wild (exactMatch_ignores key OFPFW10_DL_DST (by decide)),
    fieldCovers_of_wild (exactMatch_ignores key OFPFW10_DL_VLAN (by decide)),
    fieldCovers_of_wild (exactMatch_ignores key OFPFW10_DL_VLAN_PCP (by decide)),
    fieldCovers_of_not_wild (exactMatch_looks key OFPFW10_DL_TYPE (by decide)),
    fieldCovers_of_wild (exactMatch_ignores key OFPFW10_NW_TOS (by decide)),
    fieldCovers_of_not_wild (exactMatch_looks key OFPFW10_NW_PROTO (by decide)),
    addressCovers_of_not_wild (exactMatch_nwSrc key),
    addressCovers_of_not_wild (exactMatch_nwDst key),
    fieldCovers_of_not_wild (exactMatch_looks key OFPFW10_TP_SRC (by decide)),
    fieldCovers_of_not_wild (exactMatch_looks key OFPFW10_TP_DST (by decide))]
  simp [exactMatch, and_assoc]

theorem exactMatch_covers_exactMatch {key key' : FiveTuple} :
    (exactMatch key).covers (exactMatch key') = true ↔ key = key' := by
  rw [exactMatch_covers]
  constructor
  · rintro ⟨-, -, ⟨-, h₁⟩, ⟨-, h₂⟩, ⟨-, h₃⟩, ⟨-, h₄⟩, -, h₅⟩
    cases key
    cases key'
    simp_all [exactMatch]
  · rintro rfl
    simp only [exactMatch_wild]
    exact ⟨⟨by decide, rfl⟩, ⟨by decide, rfl⟩, ⟨by decide, rfl⟩, ⟨exactMatch_nwSrc key, rfl⟩,
      ⟨exactMatch_nwDst key, rfl⟩, ⟨by decide, rfl⟩, by decide, rfl⟩

theorem exactMatch_inj {key key' : FiveTuple} :
    exactMatch key = exactMatch key' ↔ key = key' := by
  refine ⟨fun h => ?_, fun h => h ▸ rfl⟩
  rw [← exactMatch_covers_exactMatch, h, exactMatch_covers_exactMatch]

end OrssNic
