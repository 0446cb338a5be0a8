import OrssNic.FlowModBytes
import OrssNic.SwitchAgreement

/-!
# What a flow modification selects

The `FLOW_MOD` of a key selects the packets of the key's flow, with the
five-tuple bytes of the entry that the key was read from. It covers that entry
on the switch only if the entry looks at the whole five-tuple.
-/

namespace OrssNic
open CEndian CLoops CRuns

def fiveTupleBytes (bytes : List UInt8) : List UInt8 :=
  (bytes.drop 25).take 1 ++ (bytes.drop 28).take 12

section Wire
variable {bytes : List UInt8} {offset : ℕ}

theorem loadU8_take (h : offset < bytes.length) :
    [loadU8 bytes offset] = (bytes.drop offset).take 1 := by
  rw [loadU8_eq, List.drop_eq_getElem_cons h]
  rfl

end Wire

theorem fiveTupleBytes_exactMatch (key : FiveTuple) (rest : List UInt8) :
    fiveTupleBytes ((exactMatch key).bytes ++ rest) =
      [key.proto] ++ (be32 key.srcIp ++ (be32 key.dstIp ++ (be16 key.srcPort ++
        be16 key.dstPort))) := by
  have hproto : (((exactMatch key).bytes ++ rest).drop 25).take 1 = [key.proto] := by
    simp [OpenflowMatch.bytes, exactMatch]
  have htail : (((exactMatch key).bytes ++ rest).drop 28).take 12 =
      be32 key.srcIp ++ (be32 key.dstIp ++ (be16 key.srcPort ++ be16 key.dstPort)) := by
    have hdrop : ((exactMatch key).bytes ++ rest).drop 28 =
        (be32 key.srcIp ++ (be32 key.dstIp ++ (be16 key.srcPort ++ be16 key.dstPort))) ++ rest := by
      simp [OpenflowMatch.bytes, exactMatch]
    rw [hdrop]
    exact List.take_left' (by simp)
  rw [fiveTupleBytes, hproto, htail]

theorem fiveTupleBytes_record {record : List UInt8} (h : FLOW_STATS_SIZE ≤ record.length)
    (rest : List UInt8) :
    fiveTupleBytes
      ((exactMatch (fiveTupleOf (ntohOpenflowFlowStats (loadFlowStats record)))).bytes ++ rest) =
      fiveTupleBytes (record.drop 4) := by
  rw [fiveTupleBytes_exactMatch]
  rw [FLOW_STATS_SIZE] at h
  simp only [fiveTupleOf, ntohOpenflowFlowStats, ntohOpenflowMatch, loadFlowStats, loadMatch]
  have hlen : 40 ≤ (record.drop 4).length := by
    rw [List.length_drop]
    omega
  rw [be32_ntohl_loadU32 (by omega), be32_ntohl_loadU32 (by omega), be16_ntohs_loadU16 (by omega),
    be16_ntohs_loadU16 (by omega), loadU8_take (by omega), fiveTupleBytes]
  generalize record.drop 4 = bytes
  have hsplit : ∀ n k m : ℕ, (bytes.drop n).take (k + m) =
      (bytes.drop n).take k ++ (bytes.drop (n + k)).take m := by
    intro n k m
    rw [List.take_add, List.drop_drop]
  rw [hsplit 28 8 4, hsplit 28 4 4, hsplit 36 2 2, List.append_assoc]

/-- The `FLOW_MOD` of a key asks for the retagging of exactly the packets of
its flow, and carries the five-tuple bytes of the entries with that key. -/
theorem openflowModVlan_selects (fd : Socket) (transactionId : UInt32) (key : FiveTuple)
    (newVlan : UInt16) :
    ∃ (message : OpenflowFlowModMessage) (decoded : Ofp10FlowMod),
      openflowModVlan fd transactionId key newVlan =
        ((write fd (.flowMod message)).2, transactionId + 1) ∧
      decodeFlowMod message.memory = some decoded ∧
      decoded.length.toNat = message.memory.length ∧
      decoded.command = OFPFC_MODIFY ∧
      decoded.actions = [.setVlanVid newVlan default,
        .output OVS_HOST_IFINDEX OVS_OUTPUT_ACTION_MAX_LEN] ∧
      (∀ p, decoded.match.admits p = true ↔ p.BelongsTo key) ∧
      (∀ record : List UInt8, FLOW_STATS_SIZE ≤ record.length →
        fiveTupleOf (ntohOpenflowFlowStats (loadFlowStats record)) = key →
        fiveTupleBytes (message.memory.drop 8) = fiveTupleBytes (record.drop 4)) ∧
      ∀ (transactionId' : UInt32) (key' : FiveTuple) (newVlan' : UInt16)
        (decoded' : Ofp10FlowMod), key' ≠ key →
        decodeFlowMod (flowModMessage transactionId' key' newVlan').memory = some decoded' →
        ∀ p, ¬(decoded.match.admits p = true ∧ decoded'.match.admits p = true) := by
  refine ⟨flowModMessage transactionId key newVlan, _, rfl,
    decodeFlowMod_memory transactionId key newVlan, ?_, rfl, rfl, ?_, ?_, ?_⟩
  · exact (flowModMessage_memory_length transactionId key newVlan).symm
  · intro p
    exact exactMatch_admits
  · intro record hlen hkey
    have hdrop : (flowModMessage transactionId key newVlan).memory.drop 8 =
        (exactMatch key).bytes ++ ((flowModMessage transactionId key newVlan).memory.drop 48) := by
      rw [flowModMessage_memory]
      simp
    rw [hdrop, ← hkey]
    exact fiveTupleBytes_record hlen _
  · intro transactionId' key' newVlan' decoded' hne hdecoded p hp
    rw [decodeFlowMod_memory, Option.some.injEq] at hdecoded
    subst hdecoded
    exact hne ((exactMatch_admits.mp hp.2).unique (exactMatch_admits.mp hp.1))

def reportedRecord : List UInt8 := (exactEntry 80 100).fixedBytes

theorem openflowModVlan_selects_flow80 :
    ∃ (message : OpenflowFlowModMessage) (decoded : Ofp10FlowMod),
      openflowModVlan idleConnection.fd 7 (flowKey 80) 3 =
        ((write idleConnection.fd (.flowMod message)).2, 8) ∧
      decodeFlowMod message.memory = some decoded ∧
      fiveTupleBytes (message.memory.drop 8) = fiveTupleBytes (reportedRecord.drop 4) ∧
      ∀ decoded', decodeFlowMod (flowModMessage 8 (flowKey 443) 3).memory = some decoded' →
        ∀ p, ¬(decoded.match.admits p = true ∧ decoded'.match.admits p = true) := by
  obtain ⟨message, decoded, hwrite, hdecode, -, -, -, -, hrecord, hdisjoint⟩ :=
    openflowModVlan_selects idleConnection.fd 7 (flowKey 80) 3
  refine ⟨message, decoded, hwrite, hdecode, hrecord reportedRecord ?_ ?_, ?_⟩
  · exact (FlowEntry.fixedBytes_length _).ge
  · rw [reportedRecord, ntohOpenflowFlowStats_loadFlowStats]
    decide
  · intro decoded' hdecoded'
    exact hdisjoint 8 (flowKey 443) 3 decoded' (by decide) hdecoded'

/-! ## The entry that a migration was computed from -/

/-- The entry is for IPv4 and wildcards no part of the five-tuple. -/
structure LooksAtFiveTuple (m : OpenflowMatch) : Prop where
  dlType : m.wild OFPFW10_DL_TYPE = false ∧ m.dlType = IPV4_ETH_TYPE
  nwProto : m.wild OFPFW10_NW_PROTO = false
  nwSrc : addressWildcards m.wildcards OFPFW10_NW_SRC_SHIFT = 0
  nwDst : addressWildcards m.wildcards OFPFW10_NW_DST_SHIFT = 0
  tpSrc : m.wild OFPFW10_TP_SRC = false
  tpDst : m.wild OFPFW10_TP_DST = false

/-- The filter of the statistics request. -/
structure FromNetwork (m : OpenflowMatch) : Prop where
  looks : m.wild OFPFW10_IN_PORT = false
  inPort : m.inPort = OVS_NETWORK_IFINDEX

instance (m : OpenflowMatch) : Decidable (FromNetwork m) :=
  decidable_of_iff (m.wild OFPFW10_IN_PORT = false ∧ m.inPort = OVS_NETWORK_IFINDEX)
    ⟨fun h => ⟨h.1, h.2⟩, fun h => ⟨h.looks, h.inPort⟩⟩

theorem exactMatch_covers_entry_iff {stats : OpenflowFlowStats} (h : FromNetwork stats.match) :
    (exactMatch (fiveTupleOf stats)).covers stats.match = true ↔ LooksAtFiveTuple stats.match := by
  rw [exactMatch_covers]
  constructor
  · intro hcovers
    obtain ⟨-, htype, hproto, hsrc, hdst, hsport, hdport⟩ := hcovers
    exact ⟨⟨htype.1, htype.2.symm⟩, hproto.1, hsrc.1, hdst.1, hsport.1, hdport.1⟩
  · intro hlooks
    exact ⟨⟨h.looks, h.inPort.symm⟩, ⟨hlooks.dlType.1, hlooks.dlType.2.symm⟩,
      ⟨hlooks.nwProto, rfl⟩, ⟨hlooks.nwSrc, rfl⟩, ⟨hlooks.nwDst, rfl⟩, ⟨hlooks.tpSrc, rfl⟩,
      ⟨hlooks.tpDst, rfl⟩⟩

/-- In every iteration of every run: the `FLOW_MOD` of a migration covers the
entry that its key was read from exactly when the entry looks at the whole
five-tuple of an IPv4 flow. -/
theorem migration_covers_entry_iff {connection : OpenflowConnection} {transactionId : UInt32}
    {inputs : List Surroundings} {rs : List Iteration}
    (h : mainLoop connection transactionId inputs = .ok rs) :
    ∀ r ∈ rs, ∀ stats ∈ reportedStats r.flows, FromNetwork stats.match →
      ∀ migration ∈ r.migrations, migration.key = fiveTupleOf stats →
      ∀ message ∈ r.flowMods, message.move = (migration.key, migration.destinationCore) →
      ∀ m, message.flowMod = some m →
        (m.match.covers stats.match = true ↔ LooksAtFiveTuple stats.match) := by
  refine trace_forall (P := fun s => s.map.Live) ?_ .start h
  intro s i r hlive hok
  obtain ⟨rfl, sampled, flows, coreLoad, t, hr⟩ := iteration_spec hlive hok
  refine ⟨?_, hr.afterLive⟩
  intro stats _ hnetwork migration _ hkey message hmessage hmove m hm
  obtain ⟨xid, key, vlan, rfl⟩ := hr.writes.modVlan message hmessage
  have hfive : key = fiveTupleOf stats := by
    have := congrArg Prod.fst hmove
    rw [OpenflowFlowModMessage.move, flowModMessage_fiveTuple] at this
    exact this.trans hkey
  rw [flowModMessage_flowMod, Option.some.injEq] at hm
  rw [← hm, hfive]
  exact exactMatch_covers_entry_iff hnetwork

def icmpEntry (packetCount : UInt64) : FlowEntry :=
  { taggedEntry 0 packetCount with
    «match» := ((Controller.addFlowMatch Controller.OUT_PORT
      ⟨Controller.ETH_TYPE_IP, Controller.IP_ICMP, 0x0a000002, 0, 0, 0⟩).getD default) }

theorem migration_covers_entry_iff_two :
    ∃ rs, mainLoop idleConnection 5 [answering 5 [exactEntry 80 100, exactEntry 443 100]] =
        .ok rs ∧
      ∃ r ∈ rs, ∃ stats ∈ reportedStats r.flows, ∃ message ∈ r.flowMods, ∃ m,
        message.flowMod = some m ∧
        (m.match.covers stats.match = true ↔ LooksAtFiveTuple stats.match) := by
  have hrun : returns (mainLoop idleConnection 5
      [answering 5 [exactEntry 80 100, exactEntry 443 100]]) (fun rs => decide (
        ∃ r ∈ rs, ∃ stats ∈ reportedStats r.flows, FromNetwork stats.match ∧
          ∃ migration ∈ r.migrations, migration.key = fiveTupleOf stats ∧
          ∃ message ∈ r.flowMods, message.move = (migration.key, migration.destinationCore) ∧
            message.flowMod.isSome = true)) = true := by
    decide +kernel
  obtain ⟨rs, hrs, htest⟩ := exists_of_returns hrun
  obtain ⟨r, hr, stats, hstats, hnetwork, migration, hmigration, hkey, message, hmessage, hmove,
    hsome⟩ := of_decide_eq_true htest
  obtain ⟨m, hm⟩ := Option.isSome_iff_exists.mp hsome
  exact ⟨rs, hrs, r, hr, stats, hstats, message, hmessage, m, hm,
    migration_covers_entry_iff hrs r hr stats hstats hnetwork migration hmigration hkey message
      hmessage hmove m hm⟩

/-- The `FLOW_MOD` for an ICMP flow asks for a destination address and for
ports that its entry does not look at. -/
theorem migration_misses_icmp :
    ¬ ∀ (connection : OpenflowConnection) (transactionId : UInt32) (inputs : List Surroundings)
      (rs : List Iteration), mainLoop connection transactionId inputs = .ok rs →
      ∀ r ∈ rs, ∀ stats ∈ reportedStats r.flows, FromNetwork stats.match →
      ∀ migration ∈ r.migrations, migration.key = fiveTupleOf stats →
      ∀ message ∈ r.flowMods, message.move = (migration.key, migration.destinationCore) →
      ∀ m, message.flowMod = some m → m.match.covers stats.match = true := by
  intro hall
  have hrun : returns (mainLoop idleConnection 5 [answering 5 [icmpEntry 100]])
      (fun rs => decide (
        ∃ r ∈ rs, ∃ stats ∈ reportedStats r.flows, FromNetwork stats.match ∧
          ∃ migration ∈ r.migrations, migration.key = fiveTupleOf stats ∧
          ∃ message ∈ r.flowMods, message.move = (migration.key, migration.destinationCore) ∧
            message.flowMod.any (fun m => !m.match.covers stats.match) = true)) = true := by
    decide +kernel
  obtain ⟨rs, hrs, htest⟩ := exists_of_returns hrun
  obtain ⟨r, hr, stats, hstats, hnetwork, migration, hmigration, hkey, message, hmessage, hmove,
    hany⟩ := of_decide_eq_true htest
  obtain ⟨m, hm, hcovers⟩ := (Option.any_eq_true ..).mp hany
  rw [hall _ _ _ rs hrs r hr stats hstats hnetwork migration hmigration hkey message hmessage
    hmove m hm] at hcovers
  cases hcovers

end OrssNic
