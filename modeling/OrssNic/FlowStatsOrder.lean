import OrssNic.BigEndian

/-!
# The byte order of flow statistics

`ntoh_openflow_flow_stats` swaps every field of a record by hand, each at its
own width but for the two 32-bit durations, which are swapped as 16-bit values
and keep their upper halves only.
-/

namespace OrssNic
open CEndian

def decodeFlowStats (record : List UInt8) : OpenflowFlowStats where
  length := getBe16 record 0
  tableId := loadU8 record 2
  pad := loadU8 record 3
  «match» := decodeMatch (record.drop 4)
  durationSec := getBe32 record 44
  durationNsec := getBe32 record 48
  priority := getBe16 record 52
  idleTimeout := getBe16 record 54
  hardTimeout := getBe16 record 56
  pad2 := loadOctets6 record 58
  cookie := ⟨getBe32 record 64, getBe32 record 68⟩
  packetCount := ⟨getBe32 record 72, getBe32 record 76⟩
  byteCount := ⟨getBe32 record 80, getBe32 record 84⟩

/-! ## The two directions -/

theorem ntohs_ntohs (x : UInt16) : ntohs (ntohs x) = x := by
  have hvalue : (ntohs x).toNat = bswap 2 x.toNat := by
    rw [ntohs, UInt16.toNat_ofNat']
    exact Nat.mod_eq_of_lt (bswap_lt 2 x.toNat)
  rw [ntohs, hvalue, bswap_bswap x.toNat_lt, UInt16.ofNat_toNat]

theorem ntohl_ntohl (x : UInt32) : ntohl (ntohl x) = x := by
  have hvalue : (ntohl x).toNat = bswap 4 x.toNat := by
    rw [ntohl, UInt32.toNat_ofNat']
    exact Nat.mod_eq_of_lt (bswap_lt 4 x.toNat)
  rw [ntohl, hvalue, bswap_bswap x.toNat_lt, UInt32.ofNat_toNat]

theorem ntohOpenflowMatch_hton (m : OpenflowMatch) :
    ntohOpenflowMatch (htonOpenflowMatch m) = m := by
  simp only [ntohOpenflowMatch, htonOpenflowMatch, ntohs_ntohs, ntohl_ntohl]

theorem htonOpenflowMatch_ntoh (m : OpenflowMatch) :
    htonOpenflowMatch (ntohOpenflowMatch m) = m := by
  simp only [ntohOpenflowMatch, htonOpenflowMatch, ntohs_ntohs, ntohl_ntohl]

/-! ## The fields of a record -/

theorem ntohOpenflowMatch_loadMatch_decode {bytes : List UInt8} (h : 40 ≤ bytes.length) :
    ntohOpenflowMatch (loadMatch bytes) = decodeMatch bytes := by
  simp only [ntohOpenflowMatch, loadMatch, decodeMatch]
  rw [ntohl_loadU32_getBe32 (by omega), ntohs_loadU16_getBe16 (by omega),
    ntohs_loadU16_getBe16 (by omega), ntohs_loadU16_getBe16 (by omega),
    ntohl_loadU32_getBe32 (by omega), ntohl_loadU32_getBe32 (by omega),
    ntohs_loadU16_getBe16 (by omega), ntohs_loadU16_getBe16 (by omega)]

section Record
variable {record : List UInt8}

theorem ntohs_loadU32_getBe32 {offset : ℕ} (h : offset + 4 ≤ record.length) :
    (ntohs (loadU32 record offset).toUInt16).toUInt32 = getBe32 record offset >>> 16 := by
  obtain ⟨x, hx⟩ := exists_be32 (slice_length h)
  rw [ntohs_loadU32 hx, getBe32_eq hx]
  apply UInt32.toNat_inj.mp
  have hlt := x.toNat_lt
  rw [UInt32.toNat_ofNat', UInt32.toNat_shiftRight, Nat.shiftRight_eq_div_pow]
  simp only [UInt32.reduceToNat, Nat.reduceMod]
  omega

theorem shiftRight_eq_self_iff (x : UInt32) : x >>> 16 = x ↔ x = 0 := by
  constructor
  · intro h
    have hnat := congrArg UInt32.toNat h
    rw [UInt32.toNat_shiftRight, Nat.shiftRight_eq_div_pow] at hnat
    simp only [UInt32.reduceToNat, Nat.reduceMod] at hnat
    apply UInt32.toNat_inj.mp
    rw [UInt32.toNat_zero]
    omega
  · intro h
    rw [h]
    rfl

theorem ntohOpenflowFlowStats_decode (h : record.length = FLOW_STATS_SIZE) :
    ntohOpenflowFlowStats (loadFlowStats record) = { decodeFlowStats record with
      durationSec := getBe32 record 44 >>> 16
      durationNsec := getBe32 record 48 >>> 16 } := by
  rw [FLOW_STATS_SIZE] at h
  have hmatch : 40 ≤ (record.drop 4).length := by
    rw [List.length_drop]
    omega
  simp only [ntohOpenflowFlowStats, loadFlowStats, decodeFlowStats, loadBe64,
    ntohOpenflowMatch_loadMatch_decode hmatch]
  rw [ntohs_loadU16_getBe16 (by omega), ntohs_loadU32_getBe32 (by omega),
    ntohs_loadU32_getBe32 (by omega), ntohs_loadU16_getBe16 (by omega),
    ntohs_loadU16_getBe16 (by omega), ntohs_loadU16_getBe16 (by omega),
    ntohl_loadU32_getBe32 (by omega), ntohl_loadU32_getBe32 (by omega),
    ntohl_loadU32_getBe32 (by omega), ntohl_loadU32_getBe32 (by omega),
    ntohl_loadU32_getBe32 (by omega), ntohl_loadU32_getBe32 (by omega)]

theorem ntohOpenflowFlowStats_decode_iff (h : record.length = FLOW_STATS_SIZE) :
    ntohOpenflowFlowStats (loadFlowStats record) = decodeFlowStats record ↔
      getBe32 record 44 = 0 ∧ getBe32 record 48 = 0 := by
  rw [ntohOpenflowFlowStats_decode h, ← shiftRight_eq_self_iff, ← shiftRight_eq_self_iff]
  constructor
  · intro heq
    exact ⟨congrArg OpenflowFlowStats.durationSec heq, congrArg OpenflowFlowStats.durationNsec heq⟩
  · rintro ⟨hsec, hnsec⟩
    rw [hsec, hnsec]
    rfl

theorem converted_counters (h : record.length = FLOW_STATS_SIZE) :
    let stats := ntohOpenflowFlowStats (loadFlowStats record)
    openflowOvsbe64ToUint64 stats.cookie = getBe64 record 64 ∧
      openflowOvsbe64ToUint64 stats.packetCount = getBe64 record 72 ∧
      openflowOvsbe64ToUint64 stats.byteCount = getBe64 record 80 := by
  rw [FLOW_STATS_SIZE] at h
  refine ⟨?_, ?_, ?_⟩
  · exact ovsbe64_ntohl_loadBe64 (by omega)
  · exact ovsbe64_ntohl_loadBe64 (by omega)
  · exact ovsbe64_ntohl_loadBe64 (by omega)

end Record

/-- Every field has its value of the wire, and the counters and the two
conversions of a match are right, exactly for the records without durations. -/
theorem flowStats_byteOrder_iff (record : List UInt8) (h : record.length = FLOW_STATS_SIZE) :
    let stats := ntohOpenflowFlowStats (loadFlowStats record)
    (stats = decodeFlowStats record ∧
        openflowOvsbe64ToUint64 stats.cookie = getBe64 record 64 ∧
        openflowOvsbe64ToUint64 stats.packetCount = getBe64 record 72 ∧
        openflowOvsbe64ToUint64 stats.byteCount = getBe64 record 80 ∧
        (∀ m, ntohOpenflowMatch (htonOpenflowMatch m) = m) ∧
        ∀ m, htonOpenflowMatch (ntohOpenflowMatch m) = m) ↔
      getBe32 record 44 = 0 ∧ getBe32 record 48 = 0 := by
  intro stats
  obtain ⟨hcookie, hpackets, hbytes⟩ := converted_counters h
  rw [← ntohOpenflowFlowStats_decode_iff h]
  constructor
  · intro hall
    exact hall.1
  · intro hstats
    exact ⟨hstats, hcookie, hpackets, hbytes, ntohOpenflowMatch_hton, htonOpenflowMatch_ntoh⟩

def offsetRecord (durationSec durationNsec : UInt32) : List UInt8 :=
  (List.range 44).map UInt8.ofNat ++ be32 durationSec ++ be32 durationNsec ++
    (List.range' 52 36).map UInt8.ofNat

theorem flowStats_byteOrder_iff_offsets :
    let stats := ntohOpenflowFlowStats (loadFlowStats (offsetRecord 0 0))
    stats = decodeFlowStats (offsetRecord 0 0) ∧
      openflowOvsbe64ToUint64 stats.packetCount = 0x48494a4b4c4d4e4f := by
  intro stats
  have hiff := flowStats_byteOrder_iff (offsetRecord 0 0) (by decide)
  obtain ⟨hstats, -, hpackets, -⟩ := hiff.mpr (by decide)
  refine ⟨hstats, ?_⟩
  rw [hpackets]
  decide

theorem flowStats_one_second :
    let record := offsetRecord 1 0
    record.length = FLOW_STATS_SIZE ∧ getBe32 record 44 = 1 ∧
      (ntohOpenflowFlowStats (loadFlowStats record)).durationSec = 0 := by
  decide

end OrssNic
