import OrssNic.OpenflowDecode

/-!
# Big-endian fields

What the bytes of a message mean, read in network order, and that a load on a
little-endian host followed by the byte swap of the field's width reads it.
-/

namespace OrssNic
open CEndian

def getBe16 (bytes : List UInt8) (offset : ℕ) : UInt16 :=
  UInt16.ofNat (beValue ((bytes.drop offset).take 2))

def getBe32 (bytes : List UInt8) (offset : ℕ) : UInt32 :=
  UInt32.ofNat (beValue ((bytes.drop offset).take 4))

def getBe64 (bytes : List UInt8) (offset : ℕ) : UInt64 :=
  UInt64.ofNat (beValue ((bytes.drop offset).take 8))

def decodeMatch (bytes : List UInt8) : OpenflowMatch where
  wildcards := getBe32 bytes 0
  inPort := getBe16 bytes 4
  dlSrc := loadOctets6 bytes 6
  dlDst := loadOctets6 bytes 12
  dlVlan := getBe16 bytes 18
  dlVlanPcp := loadU8 bytes 20
  pad1 := loadU8 bytes 21
  dlType := getBe16 bytes 22
  nwTos := loadU8 bytes 24
  nwProto := loadU8 bytes 25
  pad2 := loadOctets2 bytes 26
  nwSrc := getBe32 bytes 28
  nwDst := getBe32 bytes 32
  tpSrc := getBe16 bytes 36
  tpDst := getBe16 bytes 38

section Fields
variable {bytes : List UInt8} {offset : ℕ}

theorem getBe16_eq {x : UInt16} (h : (bytes.drop offset).take 2 = be16 x) :
    getBe16 bytes offset = x := by
  rw [getBe16, h, be16, beValue_beBytes x.toNat_lt, UInt16.ofNat_toNat]

theorem getBe32_eq {x : UInt32} (h : (bytes.drop offset).take 4 = be32 x) :
    getBe32 bytes offset = x := by
  rw [getBe32, h, be32, beValue_beBytes x.toNat_lt, UInt32.ofNat_toNat]

theorem getBe64_eq {x : UInt64} (h : (bytes.drop offset).take 8 = be64 x) :
    getBe64 bytes offset = x := by
  rw [getBe64, h, be64, beValue_beBytes x.toNat_lt, UInt64.ofNat_toNat]

/-! ## Loads and swaps -/

theorem exists_be16 {slice : List UInt8} (h : slice.length = 2) : ∃ x, slice = be16 x := by
  have hlt := beValue_lt slice
  rw [h] at hlt
  refine ⟨UInt16.ofNat (beValue slice), ?_⟩
  rw [be16, UInt16.toNat_ofNat_of_lt' hlt, ← h, beBytes_beValue]

theorem exists_be32 {slice : List UInt8} (h : slice.length = 4) : ∃ x, slice = be32 x := by
  have hlt := beValue_lt slice
  rw [h] at hlt
  refine ⟨UInt32.ofNat (beValue slice), ?_⟩
  rw [be32, UInt32.toNat_ofNat_of_lt' hlt, ← h, beBytes_beValue]

theorem slice_length {k : ℕ} (h : offset + k ≤ bytes.length) :
    ((bytes.drop offset).take k).length = k := by
  rw [List.length_take, List.length_drop]
  omega

theorem be16_ntohs_loadU16 (h : offset + 2 ≤ bytes.length) :
    be16 (ntohs (loadU16 bytes offset)) = (bytes.drop offset).take 2 := by
  obtain ⟨x, hx⟩ := exists_be16 (slice_length h)
  rw [ntohs_loadU16 hx, hx]

theorem be32_ntohl_loadU32 (h : offset + 4 ≤ bytes.length) :
    be32 (ntohl (loadU32 bytes offset)) = (bytes.drop offset).take 4 := by
  obtain ⟨x, hx⟩ := exists_be32 (slice_length h)
  rw [ntohl_loadU32_be32 hx, hx]

theorem exists_be64 {slice : List UInt8} (h : slice.length = 8) : ∃ x, slice = be64 x := by
  have hlt := beValue_lt slice
  rw [h] at hlt
  refine ⟨UInt64.ofNat (beValue slice), ?_⟩
  rw [be64, UInt64.toNat_ofNat_of_lt' hlt, ← h, beBytes_beValue]

theorem ntohs_loadU16_getBe16 (h : offset + 2 ≤ bytes.length) :
    ntohs (loadU16 bytes offset) = getBe16 bytes offset := by
  obtain ⟨x, hx⟩ := exists_be16 (slice_length h)
  rw [ntohs_loadU16 hx, getBe16_eq hx]

theorem ntohl_loadU32_getBe32 (h : offset + 4 ≤ bytes.length) :
    ntohl (loadU32 bytes offset) = getBe32 bytes offset := by
  obtain ⟨x, hx⟩ := exists_be32 (slice_length h)
  rw [ntohl_loadU32_be32 hx, getBe32_eq hx]

theorem ovsbe64_ntohl_loadBe64 (h : offset + 8 ≤ bytes.length) :
    openflowOvsbe64ToUint64
      ⟨ntohl (loadBe64 bytes offset).hi, ntohl (loadBe64 bytes offset).lo⟩ =
      getBe64 bytes offset := by
  obtain ⟨x, hx⟩ := exists_be64 (slice_length h)
  rw [ntohl_loadBe64 hx, openflowOvsbe64ToUint64_halves, getBe64_eq hx]

/-- The 64-bit swap is made of two 32-bit ones, on the upper and the lower half. -/
theorem ntohll_loadU64_getBe64 (h : offset + 8 ≤ bytes.length) :
    ntohll (loadU64 bytes offset) = getBe64 bytes offset := by
  have hsplit : leValue ((bytes.drop offset).take 8) =
      leValue ((bytes.drop offset).take 4) +
        256 ^ 4 * leValue ((bytes.drop (offset + 4)).take 4) := by
    rw [← List.drop_drop, show (8 : ℕ) = 4 + 4 from rfl, List.take_add, leValue_append,
      slice_length (by omega)]
  have hlow := leValue_lt ((bytes.drop offset).take 4)
  have hhigh := leValue_lt ((bytes.drop (offset + 4)).take 4)
  rw [slice_length (by omega)] at hlow hhigh
  have hload : (loadU64 bytes offset).toNat = leValue ((bytes.drop offset).take 8) := by
    rw [loadU64, UInt64.toNat_ofNat', hsplit]
    omega
  have hlo : (loadU64 bytes offset).toUInt32 = loadU32 bytes offset := by
    apply UInt32.toNat_inj.mp
    rw [UInt64.toNat_toUInt32, hload, hsplit, loadU32, UInt32.toNat_ofNat']
    omega
  have hhi : (loadU64 bytes offset >>> 32).toUInt32 = loadU32 bytes (offset + 4) := by
    apply UInt32.toNat_inj.mp
    rw [UInt64.toNat_toUInt32, UInt64.toNat_shiftRight, hload, hsplit, loadU32,
      UInt32.toNat_ofNat', Nat.shiftRight_eq_div_pow]
    simp only [UInt64.reduceToNat, Nat.reduceMod]
    omega
  rw [ntohll, hlo, hhi, ← ovsbe64_ntohl_loadBe64 h]
  rfl

end Fields

theorem decodeMatch_bytes (m : OpenflowMatch) (rest : List UInt8) :
    decodeMatch (m.bytes ++ rest) = m := by
  simp only [decodeMatch, OpenflowMatch.bytes, List.append_assoc]
  rw [getBe32_eq (x := m.wildcards) (by simp), getBe16_eq (x := m.inPort) (by simp),
    loadOctets6_eq (o := m.dlSrc) (by simp), loadOctets6_eq (o := m.dlDst) (by simp),
    getBe16_eq (x := m.dlVlan) (by simp), getBe16_eq (x := m.dlType) (by simp),
    loadOctets2_eq (o := m.pad2) (by simp), getBe32_eq (x := m.nwSrc) (by simp),
    getBe32_eq (x := m.nwDst) (by simp), getBe16_eq (x := m.tpSrc) (by simp),
    getBe16_eq (x := m.tpDst) (by simp)]
  simp [loadU8_eq]

end OrssNic
