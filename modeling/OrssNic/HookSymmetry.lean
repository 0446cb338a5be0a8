import OrssNic.HeaderLength

/-!
# The two hooks on one packet and its exchange

A packet with source and destination exchanged, byte by byte, and what the
programs for the two directions make of the two: they record the same unless
the packet is UDP, which only `xdp_rx` records, or the ports are not where both
programs look for them.
-/

namespace OrssNic
open CEndian

/-! ## The exchange -/

namespace Packet

instance (data : List UInt8) : Decidable (IsIpv4 data) := inferInstanceAs (Decidable (_ ∧ _))

def portsOffset (data : List UInt8) : Option ℕ :=
  if (loadU8 data 23 = IPPROTO_TCP ∨ loadU8 data 23 = IPPROTO_UDP) ∧ 5 ≤ ihl data ∧
      (getBe16 data 20).toNat % 2 ^ 13 = 0 ∧ transport data + 4 ≤ data.length then
    some (transport data)
  else none

/-- The index that a swap of `width` bytes at `start` with the ones behind takes to `i`. -/
def swapIndex (start width i : ℕ) : ℕ :=
  if start ≤ i ∧ i < start + width then i + width
  else if start + width ≤ i ∧ i < start + 2 * width then i - width
  else i

def portsIndex (data : List UInt8) (i : ℕ) : ℕ :=
  match portsOffset data with
  | some start => swapIndex start 2 i
  | none => i

def exchangeIndex (data : List UInt8) (i : ℕ) : ℕ :=
  if IsIpv4 data ∧ 34 ≤ data.length then portsIndex data (swapIndex 26 4 i) else i

def exchange (data : List UInt8) : List UInt8 :=
  (List.range data.length).map fun i => loadU8 data (exchangeIndex data i)

theorem swapIndex_outside {start width i : ℕ} (h : i < start ∨ start + 2 * width ≤ i) :
    swapIndex start width i = i := by
  rw [swapIndex, if_neg (by omega), if_neg (by omega)]

variable {data : List UInt8}

@[simp] theorem exchange_length (data : List UInt8) : (exchange data).length = data.length := by
  rw [exchange, List.length_map, List.length_range]

theorem loadU8_exchange {i : ℕ} (hi : i < data.length) :
    loadU8 (exchange data) i = loadU8 data (exchangeIndex data i) := by
  rw [loadU8, exchange, List.getD_eq_getElem?_getD, List.getElem?_map, List.getElem?_range hi,
    Option.map_some, Option.getD_some]

theorem portsOffset_ge {start : ℕ} (h : portsOffset data = some start) : 34 ≤ start := by
  rw [portsOffset] at h
  split_ifs at h with hports
  cases h
  have hihl := hports.2.1
  rw [transport, ETHHDR_SIZE]
  omega

theorem portsIndex_of_lt {i : ℕ} (hi : i < 34) : portsIndex data i = i := by
  rw [portsIndex]
  split
  · next start hstart =>
    exact swapIndex_outside (.inl (hi.trans_le (portsOffset_ge hstart)))
  · rfl

theorem exchangeIndex_of_lt {i : ℕ} (hi : i < 26) : exchangeIndex data i = i := by
  rw [exchangeIndex, swapIndex_outside (.inl hi), portsIndex_of_lt (by omega), ite_self]

theorem slice_eq_map {offset k : ℕ} (h : offset + k ≤ data.length) :
    (data.drop offset).take k = (List.range k).map fun i => loadU8 data (offset + i) := by
  apply List.ext_getElem?
  intro i
  rcases Nat.lt_or_ge i k with hi | hi
  · rw [List.getElem?_take, if_pos hi, List.getElem?_drop, loadU8_eq (by omega),
      List.getElem?_map, List.getElem?_range hi, Option.map_some]
  · rw [List.getElem?_eq_none (by simp; omega), List.getElem?_eq_none (by simpa using hi)]

theorem slice_exchange {offset offset' k : ℕ} (h : offset + k ≤ data.length)
    (h' : offset' + k ≤ data.length)
    (hindex : ∀ i < k, exchangeIndex data (offset + i) = offset' + i) :
    ((exchange data).drop offset).take k = (data.drop offset').take k := by
  rw [slice_eq_map (by rwa [exchange_length]), slice_eq_map h']
  apply List.map_congr_left
  intro i hi
  have hi' := List.mem_range.mp hi
  rw [loadU8_exchange (by omega), hindex i hi']

theorem getElem?_exchange {i : ℕ} (hi : i < 26) : (exchange data)[i]? = data[i]? := by
  rcases Nat.lt_or_ge i data.length with hlt | hge
  · rw [loadU8_eq (by rwa [exchange_length]), loadU8_exchange hlt, exchangeIndex_of_lt hi,
      loadU8_eq hlt]
  · rw [List.getElem?_eq_none (by rwa [exchange_length]), List.getElem?_eq_none hge]

theorem loadU8_exchange_of_lt {i : ℕ} (hi : i < 26) :
    loadU8 (exchange data) i = loadU8 data i := by
  rw [loadU8, loadU8, List.getD_eq_getElem?_getD, List.getD_eq_getElem?_getD,
    getElem?_exchange hi]

theorem isIpv4_exchange : IsIpv4 (exchange data) ↔ IsIpv4 data := by
  rw [IsIpv4, IsIpv4, getElem?_exchange (by decide), getElem?_exchange (by decide)]

section Addresses
variable (hip : IsIpv4 data) (hlen : 34 ≤ data.length)
include hip hlen

theorem exchangeIndex_eq (i : ℕ) :
    exchangeIndex data i = portsIndex data (swapIndex 26 4 i) := by
  rw [exchangeIndex, if_pos ⟨hip, hlen⟩]

theorem loadU32_exchange_saddr : loadU32 (exchange data) 26 = loadU32 data 30 := by
  have hslice : ((exchange data).drop 26).take 4 = (data.drop 30).take 4 := by
    apply slice_exchange (by omega) (by omega)
    intro i hi
    rw [exchangeIndex_eq hip hlen, swapIndex, if_pos (by omega), portsIndex_of_lt (by omega)]
    omega
  rw [loadU32, loadU32, hslice]

theorem loadU32_exchange_daddr : loadU32 (exchange data) 30 = loadU32 data 26 := by
  have hslice : ((exchange data).drop 30).take 4 = (data.drop 26).take 4 := by
    apply slice_exchange (by omega) (by omega)
    intro i hi
    rw [exchangeIndex_eq hip hlen, swapIndex, if_neg (by omega), if_pos (by omega),
      portsIndex_of_lt (by omega)]
    omega
  rw [loadU32, loadU32, hslice]

end Addresses

/-- The fields at the fixed offsets of the exchanged packet are those of the
packet, exchanged. -/
structure FixedOffsetsExchanged (data : List UInt8) : Prop where
  source : getBe16 (exchange data) 34 = getBe16 data 36
  dest : getBe16 (exchange data) 36 = getBe16 data 34
  flags : SameFlags (loadU8 data 47) (loadU8 (exchange data) 47)

/-- Without options the ports are where both programs look for them. -/
theorem fixedOffsetsExchanged_of_ports (hip : IsIpv4 data) (hlen : 54 ≤ data.length)
    (hports : portsOffset data = some 34) : FixedOffsetsExchanged data := by
  have hindex : ∀ i, 34 ≤ i → exchangeIndex data i = swapIndex 34 2 i := by
    intro i hi
    rw [exchangeIndex_eq hip (by omega), swapIndex_outside (.inr hi), portsIndex, hports]
  have hsource : ((exchange data).drop 34).take 2 = (data.drop 36).take 2 := by
    apply slice_exchange (by omega) (by omega)
    intro i hi
    rw [hindex _ (by omega), swapIndex, if_pos (by omega)]
    omega
  have hdest : ((exchange data).drop 36).take 2 = (data.drop 34).take 2 := by
    apply slice_exchange (by omega) (by omega)
    intro i hi
    rw [hindex _ (by omega), swapIndex, if_neg (by omega), if_pos (by omega)]
    omega
  constructor
  · rw [getBe16, getBe16, hsource]
  · rw [getBe16, getBe16, hdest]
  · rw [loadU8_exchange (by omega), hindex 47 (by decide), swapIndex_outside (by decide)]
    exact ⟨rfl, fun _ => rfl, fun _ => rfl⟩

/-- Both hooks ignore the two packets, or see the same in them. -/
def Mirrored (data : List UInt8) : Prop :=
  (Ignored data ∧ Ignored (exchange data)) ∨ (¬IsUdp data ∧ FixedOffsetsExchanged data)

end Packet

def XdpMd.exchange (ctx : XdpMd) : XdpMd := { ctx with data := Packet.exchange ctx.data }

/-! ## Records that change nothing -/

def recordObserved (connections : Connections) :
    Option (FiveTuple × Finset TcpFlags) → Connections
  | some (key, seen) => updateConnectionState connections key (.ofSeen seen)
  | none => connections

/-- The entry has the classes already, or the table has no room for one. -/
def Absorbed (connections : Connections) : Option (FiveTuple × Finset TcpFlags) → Prop
  | none => True
  | some (key, seen) =>
    match connections.lookup key with
    | some old => (.syn ∈ seen → old.syn = 1) ∧ (.synack ∈ seen → old.synack = 1) ∧
        (.ack ∈ seen → old.ack = 1)
    | none => CONNECTIONS_MAX_ENTRIES ≤ connections.count

theorem orState_eq_self_iff (old : ConnectionState) (seen : Finset TcpFlags) :
    orState old (.ofSeen seen) = old ↔
      (.syn ∈ seen → old.syn = 1) ∧ (.synack ∈ seen → old.synack = 1) ∧
        (.ack ∈ seen → old.ack = 1) := by
  obtain ⟨syn, synack, ack, fin, handled⟩ := old
  simp only [orState, ConnectionState.ofSeen]
  by_cases h1 : TcpFlags.syn ∈ seen <;> by_cases h2 : TcpFlags.synack ∈ seen <;>
    by_cases h3 : TcpFlags.ack ∈ seen <;> simp [h1, h2, h3, eq_comm]

theorem recordObserved_eq_self_iff (connections : Connections)
    (observed : Option (FiveTuple × Finset TcpFlags)) :
    recordObserved connections observed = connections ↔ Absorbed connections observed := by
  cases observed with
  | none => exact iff_of_true rfl trivial
  | some o =>
    obtain ⟨key, seen⟩ := o
    rw [recordObserved, updateConnectionState, Absorbed]
    cases hlookup : connections.lookup key with
    | some old =>
      simp only [BoundedMap.update_eq_self_iff, hlookup, ← orState_eq_self_iff,
        Option.some.injEq, reduceCtorEq, false_and, or_false]
      exact eq_comm
    | none =>
      simp only [BoundedMap.update_eq_self_iff, hlookup, reduceCtorEq, true_and, false_or]

theorem recordObserved_update (connections : Connections) (key : FiveTuple)
    (seen : Finset TcpFlags) :
    ∃ state, recordObserved connections (some (key, seen)) =
      connections.update CONNECTIONS_MAX_ENTRIES key state := by
  rw [recordObserved, updateConnectionState]
  cases connections.lookup key with
  | some old => exact ⟨_, rfl⟩
  | none => exact ⟨_, rfl⟩

def OneClass (seen : Finset TcpFlags) : Prop :=
  seen = ∅ ∨ seen = {.syn} ∨ seen = {.synack} ∨ seen = {.ack}

theorem orState_ofSeen_absorbed {old : ConnectionState} {seen seen' : Finset TcpFlags}
    (h : OneClass seen) (h' : OneClass seen') (hne : seen ≠ seen')
    (heq : orState old (.ofSeen seen) = orState old (.ofSeen seen')) :
    orState old (.ofSeen seen) = old := by
  obtain ⟨syn, synack, ack, fin, handled⟩ := old
  rcases h with rfl | rfl | rfl | rfl <;> rcases h' with rfl | rfl | rfl | rfl <;>
    simp [orState, ConnectionState.ofSeen] at heq hne ⊢ <;> tauto

theorem ofSeen_injective {seen seen' : Finset TcpFlags} (h : OneClass seen)
    (h' : OneClass seen')
    (heq : ConnectionState.ofSeen seen = ConnectionState.ofSeen seen') : seen = seen' := by
  rcases h with rfl | rfl | rfl | rfl <;> rcases h' with rfl | rfl | rfl | rfl <;>
    simp [ConnectionState.ofSeen] at heq ⊢

/-- For one key, different classes come to the same only when they add nothing. -/
theorem absorbed_of_same_key {connections : Connections} {key : FiveTuple}
    {seen seen' : Finset TcpFlags} (h : OneClass seen) (h' : OneClass seen') (hne : seen ≠ seen')
    (heq : recordObserved connections (some (key, seen)) =
      recordObserved connections (some (key, seen'))) :
    Absorbed connections (some (key, seen)) := by
  rw [recordObserved, recordObserved, updateConnectionState, updateConnectionState] at heq
  rw [Absorbed]
  cases hlookup : connections.lookup key with
  | some old =>
    rw [hlookup] at heq
    have hstate := congrArg (fun m : Connections => m.lookup key) heq
    dsimp only at hstate
    rw [BoundedMap.lookup_update_of_lookup hlookup,
      BoundedMap.lookup_update_of_lookup hlookup, Option.some.injEq] at hstate
    exact (orState_eq_self_iff old seen).mp (orState_ofSeen_absorbed h h' hne hstate)
  | none =>
    rw [hlookup] at heq
    by_contra hroom
    have hbinding := congrArg (fun m : Connections => m.binding key) heq
    dsimp only at hbinding
    rw [BoundedMap.update_binding (Nat.lt_of_not_le hroom),
      BoundedMap.update_binding (Nat.lt_of_not_le hroom), FiniteMap.insert_self,
      FiniteMap.insert_self, Option.some.injEq] at hbinding
    exact hne (ofSeen_injective h h' hbinding)

theorem recordObserved_eq_iff {connections : Connections} {key key' : FiveTuple}
    {seen seen' : Finset TcpFlags} (h : OneClass seen) (h' : OneClass seen') :
    recordObserved connections (some (key, seen)) =
        recordObserved connections (some (key', seen')) ↔
      (key, seen) = (key', seen') ∨
        (Absorbed connections (some (key, seen)) ∧ Absorbed connections (some (key', seen'))) := by
  constructor
  · intro heq
    rcases eq_or_ne (key, seen) (key', seen') with hsame | hdiffer
    · exact .inl hsame
    right
    have habsorbed : Absorbed connections (some (key, seen)) := by
      by_cases hkey : key = key'
      · subst hkey
        have hseen : seen ≠ seen' := fun hseen => hdiffer (by rw [hseen])
        exact absorbed_of_same_key h h' hseen heq
      · obtain ⟨state, hstate⟩ := recordObserved_update connections key seen
        obtain ⟨state', hstate'⟩ := recordObserved_update connections key' seen'
        rw [← recordObserved_eq_self_iff, hstate]
        rw [hstate, hstate'] at heq
        exact BoundedMap.update_eq_self_of_ne hkey heq
    refine ⟨habsorbed, ?_⟩
    rw [← recordObserved_eq_self_iff] at habsorbed ⊢
    rw [← heq, habsorbed]
  · rintro (hsame | ⟨habsorbed, habsorbed'⟩)
    · rw [hsame]
    · rw [(recordObserved_eq_self_iff _ _).mpr habsorbed,
        (recordObserved_eq_self_iff _ _).mpr habsorbed']

/-! ## The two hooks -/

namespace Packet

structure IsTcp (data : List UInt8) : Prop where
  ipv4 : IsIpv4 data
  proto : loadU8 data 23 = IPPROTO_TCP
  whole : 54 ≤ data.length

variable {data : List UInt8}

theorem IsTcp.not_isUdp (h : IsTcp data) : ¬IsUdp data := by
  have hwhole := h.whole
  have hbyte : data[23]? = some (loadU8 data 23) := loadU8_eq (by omega)
  rw [h.proto] at hbyte
  exact Packet.not_isUdp hbyte

theorem IsTcp.exchange (h : IsTcp data) : IsTcp (exchange data) := by
  constructor
  · exact isIpv4_exchange.mpr h.ipv4
  · rw [loadU8_exchange_of_lt (by decide), h.proto]
  · rw [exchange_length]
    exact h.whole

theorem isUdp_exchange : IsUdp (exchange data) ↔ IsUdp data := by
  rw [IsUdp, IsUdp, isIpv4_exchange, getElem?_exchange (by decide)]

theorem truncated_exchange : Truncated (exchange data) ↔ Truncated data := by
  rw [Truncated, Truncated, isIpv4_exchange, getElem?_exchange (by decide), exchange_length]

theorem foreign_exchange : Foreign (exchange data) ↔ Foreign data := by
  rw [Foreign, Foreign, isIpv4_exchange, getElem?_exchange (by decide)]

theorem truncated_or_foreign (htcp : ¬IsTcp data) (hudp : ¬IsUdp data) :
    Truncated data ∨ Foreign data := by
  by_cases heth : data.length < 14
  · exact .inl (.inl heth)
  by_cases hip : IsIpv4 data
  swap
  · exact .inr (.inl hip)
  by_cases hiphdr : data.length < 34
  · exact .inl (.inr ⟨hip, .inl hiphdr⟩)
  have hbyte : data[23]? = some (loadU8 data 23) := loadU8_eq (by omega)
  by_cases hproto : loadU8 data 23 = IPPROTO_TCP
  · left
    right
    refine ⟨hip, .inr (.inl ⟨by rw [hbyte, hproto], ?_⟩)⟩
    by_contra hwhole
    exact htcp ⟨hip, hproto, by omega⟩
  · right
    right
    refine ⟨?_, fun hsome => hudp ⟨hip, hsome⟩⟩
    rw [hbyte, ne_eq, Option.some.injEq]
    exact hproto

theorem ignored_exchange (htcp : ¬IsTcp data) (hudp : ¬IsUdp data) :
    Ignored data ∧ Ignored (exchange data) := by
  rcases truncated_or_foreign htcp hudp with htruncated | hforeign
  · exact ⟨.inl htruncated, .inl (truncated_exchange.mpr htruncated)⟩
  · exact ⟨.inr (.inl hforeign), .inr (.inl (foreign_exchange.mpr hforeign))⟩

theorem ignored_exchange_of_udp (hudp : IsUdp data) : Ignored (exchange data) ↔ Ignored data := by
  have hflagless : ∀ data : List UInt8, IsUdp data → ¬Flagless data := by
    intro data hdata hflagless
    exact Packet.not_isUdp hflagless.2.1 hdata
  rw [Ignored, Ignored, truncated_exchange, foreign_exchange]
  simp only [hflagless _ hudp, hflagless _ (isUdp_exchange.mpr hudp)]

theorem tcpClass_ne_udp (flags : UInt8) : tcpClass flags ≠ .udp := by
  rw [tcpClass]
  intro h
  split at h <;> cases h

theorem contributed_tcpClass {flags flags' : UInt8}
    (h : contributed .rx (tcpClass flags) = contributed .rx (tcpClass flags')) :
    tcpClass flags = tcpClass flags' := by
  rw [tcpClass, tcpClass] at h ⊢
  generalize bitField flags 0 = fin at h ⊢
  generalize bitField flags 1 = syn at h ⊢
  generalize bitField flags 4 = ack at h ⊢
  generalize bitField flags' 0 = fin' at h ⊢
  generalize bitField flags' 1 = syn' at h ⊢
  generalize bitField flags' 4 = ack' at h ⊢
  revert fin syn ack fin' syn' ack'
  decide

theorem oneClass_tcpClass {flags : UInt8} {seen : Finset TcpFlags}
    (h : contributed .rx (tcpClass flags) = some seen) : OneClass seen := by
  rw [tcpClass] at h
  split at h <;> cases h
  · exact .inl rfl
  · exact .inr (.inl rfl)
  · exact .inr (.inr (.inl rfl))
  · exact .inr (.inr (.inr rfl))

end Packet

section Hooks
variable {ctx : XdpMd}

theorem observation_tcp (h : Packet.IsTcp ctx.data) (hook : Hook) :
    observation (hook, ctx) = (contributed .rx (Packet.tcpClass (loadU8 ctx.data 47))).map
      fun seen => (hook.key
        { srcIp := loadU32 ctx.data 26
          dstIp := loadU32 ctx.data 30
          srcPort := getBe16 ctx.data 34
          dstPort := getBe16 ctx.data 36
          proto := loadU8 ctx.data 23 }, seen) := by
  have hsame : contributed hook (Packet.tcpClass (loadU8 ctx.data 47)) =
      contributed .rx (Packet.tcpClass (loadU8 ctx.data 47)) := by
    cases hook with
    | rx => rfl
    | tx => exact contributed_tx (Packet.tcpClass_ne_udp _)
  rw [observation, parseHeaders_tcp_eq default h.ipv4 h.proto h.whole, hsame]

theorem observation_oneClass (h : Packet.IsTcp ctx.data) {hook : Hook} {key : FiveTuple}
    {seen : Finset TcpFlags} (hsome : observation (hook, ctx) = some (key, seen)) :
    OneClass seen := by
  rw [observation_tcp h, Option.map_eq_some_iff] at hsome
  obtain ⟨seen', hseen, heq⟩ := hsome
  cases heq
  exact Packet.oneClass_tcpClass hseen

theorem key_exchange (h : Packet.IsTcp ctx.data) :
    Hook.key .tx
        { srcIp := loadU32 ctx.data 26
          dstIp := loadU32 ctx.data 30
          srcPort := getBe16 ctx.data 34
          dstPort := getBe16 ctx.data 36
          proto := loadU8 ctx.data 23 } =
      Hook.key .rx
        { srcIp := loadU32 ctx.exchange.data 26
          dstIp := loadU32 ctx.exchange.data 30
          srcPort := getBe16 ctx.exchange.data 34
          dstPort := getBe16 ctx.exchange.data 36
          proto := loadU8 ctx.exchange.data 23 } ↔
      getBe16 (Packet.exchange ctx.data) 34 = getBe16 ctx.data 36 ∧
        getBe16 (Packet.exchange ctx.data) 36 = getBe16 ctx.data 34 := by
  have hwhole := h.whole
  have hsaddr := Packet.loadU32_exchange_saddr h.ipv4 (by omega)
  have hdaddr := Packet.loadU32_exchange_daddr h.ipv4 (by omega)
  have hproto : loadU8 (Packet.exchange ctx.data) 23 = loadU8 ctx.data 23 :=
    Packet.loadU8_exchange_of_lt (by decide)
  simp only [Hook.key, swapTuple, XdpMd.exchange, hsaddr, hdaddr, hproto, FiveTuple.mk.injEq,
    true_and, and_true]
  exact and_congr eq_comm eq_comm

theorem observation_tx_none (hudp : ¬Packet.IsUdp ctx.data) :
    observation (.tx, ctx) = none ↔ Packet.Ignored ctx.data := by
  rw [observation_eq_none_iff]
  simp [hudp]

theorem observation_exchange_none :
    observation (.rx, ctx.exchange) = none ↔ Packet.Ignored (Packet.exchange ctx.data) := by
  rw [observation_eq_none_iff]
  simp [XdpMd.exchange]

theorem observation_eq_iff_of_tcp (htcp : Packet.IsTcp ctx.data) :
    observation (.tx, ctx) = observation (.rx, ctx.exchange) ↔ Packet.Mirrored ctx.data := by
  have hsent := observation_tx_none htcp.not_isUdp
  have hreceived := @observation_exchange_none ctx
  have hexchange : Packet.IsTcp ctx.exchange.data := htcp.exchange
  have hkey := key_exchange htcp
  rw [observation_tcp htcp] at hsent ⊢
  rw [observation_tcp hexchange] at hreceived ⊢
  constructor
  · intro heq
    cases hclass : contributed .rx (Packet.tcpClass (loadU8 ctx.data 47)) with
    | none =>
      rw [hclass, Option.map_none] at heq hsent
      rw [← heq] at hreceived
      exact .inl ⟨hsent.mp rfl, hreceived.mp rfl⟩
    | some seen =>
      rw [hclass, Option.map_some] at heq
      obtain ⟨seen', hclass', hsame⟩ := Option.map_eq_some_iff.mp heq.symm
      rw [Prod.mk.injEq] at hsame
      obtain ⟨hsame, rfl⟩ := hsame
      obtain ⟨hsource, hdest⟩ := hkey.mp hsame.symm
      refine .inr ⟨htcp.not_isUdp, hsource, hdest, ?_⟩
      exact (Packet.tcpClass_eq_iff _ _).mp
        (Packet.contributed_tcpClass (hclass.trans hclass'.symm))
  · rintro (⟨hignored, hignored'⟩ | ⟨-, hfixed⟩)
    · rw [hsent.mpr hignored, hreceived.mpr hignored']
    · have hclass := (Packet.tcpClass_eq_iff _ _).mpr hfixed.flags
      rw [hclass, hkey.mpr ⟨hfixed.source, hfixed.dest⟩]
      rfl

theorem observation_eq_iff_of_udp (hudp : Packet.IsUdp ctx.data) :
    observation (.tx, ctx) = observation (.rx, ctx.exchange) ↔ Packet.Mirrored ctx.data := by
  have hsent : observation (.tx, ctx) = none :=
    (observation_eq_none_iff _).mpr (.inr ⟨rfl, hudp⟩)
  rw [hsent, eq_comm, observation_exchange_none, Packet.Mirrored]
  constructor
  · intro hignored
    exact .inl ⟨(Packet.ignored_exchange_of_udp hudp).mp hignored, hignored⟩
  · rintro (⟨-, hignored⟩ | ⟨hnot, -⟩)
    · exact hignored
    · exact absurd hudp hnot

theorem observation_eq_iff :
    observation (.tx, ctx) = observation (.rx, ctx.exchange) ↔ Packet.Mirrored ctx.data := by
  by_cases htcp : Packet.IsTcp ctx.data
  · exact observation_eq_iff_of_tcp htcp
  by_cases hudp : Packet.IsUdp ctx.data
  · exact observation_eq_iff_of_udp hudp
  obtain ⟨hignored, hignored'⟩ := Packet.ignored_exchange htcp hudp
  rw [(observation_tx_none hudp).mpr hignored, observation_exchange_none.mpr hignored']
  exact iff_of_true rfl (.inl ⟨hignored, hignored'⟩)

theorem isTcp_of_observed {o : FiveTuple × Finset TcpFlags}
    (hsome : observation (.tx, ctx) = some o) : Packet.IsTcp ctx.data := by
  by_contra htcp
  by_cases hudp : Packet.IsUdp ctx.data
  · rw [(observation_eq_none_iff _).mpr (.inr ⟨rfl, hudp⟩)] at hsome
    cases hsome
  · rw [(observation_tx_none hudp).mpr (Packet.ignored_exchange htcp hudp).1] at hsome
    cases hsome

variable (bpfRedirectMap : UInt32 → XdpAction) (connections : Connections)

theorem xdpStep_record (p : Hook × XdpMd) :
    xdpStep bpfRedirectMap connections p = recordObserved connections (observation p) := by
  rw [xdpStep_eq]
  cases observation p with
  | none => rfl
  | some o => rfl

theorem xdpTx_record (ctx : XdpMd) :
    (xdpTx bpfRedirectMap connections ctx).1 =
      recordObserved connections (observation (.tx, ctx)) :=
  xdpStep_record bpfRedirectMap connections (.tx, ctx)

theorem xdpRx_record (ctx : XdpMd) :
    (xdpRx bpfRedirectMap connections ctx).1 =
      recordObserved connections (observation (.rx, ctx)) :=
  xdpStep_record bpfRedirectMap connections (.rx, ctx)

theorem xdpTx_mirrors_tcp (h : Packet.IsTcp ctx.data)
    (hports : Packet.portsOffset ctx.data = some 34) :
    (xdpTx bpfRedirectMap connections ctx).1 =
      (xdpRx bpfRedirectMap connections ctx.exchange).1 := by
  have hfixed := Packet.fixedOffsetsExchanged_of_ports h.ipv4 h.whole hports
  rw [xdpTx_record, xdpRx_record, observation_eq_iff.mpr (.inr ⟨h.not_isUdp, hfixed⟩)]

end Hooks

/-- The table changes by a packet sent as by its exchange received exactly when
the two are mirrored, which no UDP packet is unless both are ignored, or when
neither hook changes anything. -/
theorem xdpTx_mirrors_xdpRx_iff (bpfRedirectMap : UInt32 → XdpAction) (connections : Connections)
    (ctx : XdpMd) :
    (xdpTx bpfRedirectMap connections ctx).1 =
        (xdpRx bpfRedirectMap connections ctx.exchange).1 ↔
      Packet.Mirrored ctx.data ∨
        (Absorbed connections (observation (.tx, ctx)) ∧
          Absorbed connections (observation (.rx, ctx.exchange))) := by
  rw [xdpTx_record, xdpRx_record, ← observation_eq_iff]
  cases hsent : observation (.tx, ctx) with
  | none =>
    rw [eq_comm, recordObserved, recordObserved_eq_self_iff]
    constructor
    · intro habsorbed
      exact .inr ⟨trivial, habsorbed⟩
    · rintro (hnone | ⟨-, habsorbed⟩)
      · rw [← hnone]
        trivial
      · exact habsorbed
  | some o =>
    have htcp := isTcp_of_observed hsent
    have hexchange : Packet.IsTcp ctx.exchange.data := htcp.exchange
    obtain ⟨key, seen⟩ := o
    have hone := observation_oneClass htcp hsent
    cases hreceived : observation (.rx, ctx.exchange) with
    | none =>
      change recordObserved connections (some (key, seen)) = connections ↔ _
      rw [recordObserved_eq_self_iff]
      constructor
      · intro habsorbed
        exact .inr ⟨habsorbed, trivial⟩
      · rintro (hsome | ⟨habsorbed, -⟩)
        · cases hsome
        · exact habsorbed
    | some o' =>
      obtain ⟨key', seen'⟩ := o'
      rw [recordObserved_eq_iff hone (observation_oneClass hexchange hreceived),
        Option.some.injEq]

def datagram : XdpMd where
  data := List.replicate 12 2 ++ [0x08, 0x00] ++
    [0x45, 0, 0, 28, 0, 1, 0x40, 0, 64, IPPROTO_UDP, 0, 0, 10, 0, 0, 1, 10, 0, 0, 2] ++
    [0x12, 0x34, 0, 80, 0, 8, 0, 0]
  ingressIfindex := 1

/-- Sent it leaves no trace, received it is recorded. -/
theorem xdpTx_datagram :
    Packet.portsOffset datagram.data = some 34 ∧
      (xdpTx (fun _ => .redirect) BoundedMap.empty datagram).1.count = 0 ∧
      (xdpRx (fun _ => .redirect) BoundedMap.empty datagram.exchange).1.count = 1 ∧
      (xdpTx (fun _ => .redirect) BoundedMap.empty datagram).1 ≠
        (xdpRx (fun _ => .redirect) BoundedMap.empty datagram.exchange).1 := by
  have hsent : (xdpTx (fun _ => .redirect) BoundedMap.empty datagram).1.count = 0 := by
    decide +kernel
  have hreceived :
      (xdpRx (fun _ => .redirect) BoundedMap.empty datagram.exchange).1.count = 1 := by
    decide +kernel
  refine ⟨by decide +kernel, hsent, hreceived, ?_⟩
  intro heq
  rw [heq, hreceived] at hsent
  cases hsent

end OrssNic
