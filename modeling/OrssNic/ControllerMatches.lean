import OrssNic.PacketMatch
import OrssNic.Controller

/-!
# The packets that the controller's matches select

A match of the controller looks at the arguments it was given, and a packet
fits it when it has the same values there.
-/

namespace OrssNic.Controller
open OpenflowMatch

def givenWildcards (inPort dlType nwProto nwSrc nwDst tpSrc tpDst : Bool) : UInt32 :=
  OFPFW10_ALL &&& ~~~((if inPort then OFPFW10_IN_PORT else 0) |||
    (if dlType then OFPFW10_DL_TYPE else 0) ||| (if nwProto then OFPFW10_NW_PROTO else 0) |||
    (if nwSrc then 0x3f00 else 0) ||| (if nwDst then 0xfc000 else 0) |||
    (if tpSrc then OFPFW10_TP_SRC else 0) ||| (if tpDst then OFPFW10_TP_DST else 0))

structure LooksAt (m : OpenflowMatch) (inPort dlType nwProto nwSrc nwDst tpSrc tpDst : Bool) :
    Prop where
  inPort : m.wild OFPFW10_IN_PORT = !inPort
  dlSrc : m.wild OFPFW10_DL_SRC = true
  dlDst : m.wild OFPFW10_DL_DST = true
  dlVlan : m.wild OFPFW10_DL_VLAN = true
  dlVlanPcp : m.wild OFPFW10_DL_VLAN_PCP = true
  dlType : m.wild OFPFW10_DL_TYPE = !dlType
  nwTos : m.wild OFPFW10_NW_TOS = true
  nwProto : m.wild OFPFW10_NW_PROTO = !nwProto
  nwSrc : addressWildcards m.wildcards OFPFW10_NW_SRC_SHIFT = if nwSrc then 0 else 32
  nwDst : addressWildcards m.wildcards OFPFW10_NW_DST_SHIFT = if nwDst then 0 else 32
  tpSrc : m.wild OFPFW10_TP_SRC = !tpSrc
  tpDst : m.wild OFPFW10_TP_DST = !tpDst

theorem looksAt_of_wildcards {m : OpenflowMatch}
    {inPort dlType nwProto nwSrc nwDst tpSrc tpDst : Bool}
    (h : m.wildcards = givenWildcards inPort dlType nwProto nwSrc nwDst tpSrc tpDst) :
    LooksAt m inPort dlType nwProto nwSrc nwDst tpSrc tpDst := by
  cases inPort <;> cases dlType <;> cases nwProto <;> cases nwSrc <;> cases nwDst <;>
    cases tpSrc <;> cases tpDst <;>
    (constructor <;> (first | rw [wild, h] | rw [h]) <;> rfl)

theorem ofpMatch_looksAt (a : MatchArguments) :
    LooksAt (ofpMatch a) a.inPort.isSome a.dlType.isSome a.nwProto.isSome a.nwSrc.isSome
      a.nwDst.isSome a.tpSrc.isSome a.tpDst.isSome :=
  looksAt_of_wildcards rfl

section Admits
variable {a : MatchArguments} {p : PacketHeader}

theorem fieldAdmits_given {α : Type} [BEq α] [LawfulBEq α] {m : OpenflowMatch} {field : UInt32}
    {argument : Option α} (h : m.wild field = !argument.isSome) (d x : α) :
    m.fieldAdmits field (argument.getD d == x) = true ↔ ∀ y ∈ argument, y = x := by
  cases argument with
  | none => simp [fieldAdmits, h]
  | some y => simp [fieldAdmits, h]

theorem addressAdmits_given {m : OpenflowMatch} {shift : ℕ} {argument : Option UInt32}
    (h : addressWildcards m.wildcards shift = if argument.isSome then 0 else 32) (d x : UInt32) :
    m.addressAdmits shift (argument.getD d) x = true ↔ ∀ y ∈ argument, y = x := by
  cases argument with
  | none =>
    have hall : addressWildcards m.wildcards shift = 32 := h
    simp [addressAdmits_of_wild hall]
  | some y =>
    have hnone : addressWildcards m.wildcards shift = 0 := h
    rw [addressAdmits_of_not_wild hnone]
    simp

theorem ofpMatch_admits : (ofpMatch a).admits p = true ↔
    (∀ x ∈ a.inPort, x = p.inPort) ∧ (∀ x ∈ a.dlType, x = p.dlType) ∧
    (∀ x ∈ a.nwProto, x = p.nwProto) ∧ (∀ x ∈ a.nwSrc, x = p.nwSrc) ∧
    (∀ x ∈ a.nwDst, x = p.nwDst) ∧ (∀ x ∈ a.tpSrc, x = p.tpSrc) ∧
    (∀ x ∈ a.tpDst, x = p.tpDst) := by
  have h := ofpMatch_looksAt a
  rw [admits, fieldAdmits_of_wild h.dlSrc, fieldAdmits_of_wild h.dlDst,
    fieldAdmits_of_wild h.dlVlan, fieldAdmits_of_wild h.dlVlanPcp, fieldAdmits_of_wild h.nwTos]
  simp only [Bool.and_true, Bool.and_eq_true]
  rw [← fieldAdmits_given h.inPort 0, ← fieldAdmits_given h.dlType 0,
    ← fieldAdmits_given h.nwProto 0, ← addressAdmits_given h.nwSrc 0,
    ← addressAdmits_given h.nwDst 0, ← fieldAdmits_given h.tpSrc 0, ← fieldAdmits_given h.tpDst 0]
  simp only [and_assoc]
  rfl

end Admits

end OrssNic.Controller
