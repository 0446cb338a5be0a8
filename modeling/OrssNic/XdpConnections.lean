import OrssNic.Xdp
import OrssNic.Library.JoinRecord

/-!
# The connection table of the XDP programs

What a packet contributes is a set of TCP classes under one key. The table is
the map of the unions of these sets, so that it does not depend on the order
in which the two programs saw the packets.
-/

namespace OrssNic
open CEndian FiniteMap

/-! ## Packets as bytes -/

namespace Packet
variable (data : List UInt8)

def IsIpv4 : Prop := data[12]? = some 0x08 ∧ data[13]? = some 0x00

def IsUdp : Prop := IsIpv4 data ∧ data[23]? = some IPPROTO_UDP

/-- The packet ends before the headers that it announces. -/
def Truncated : Prop :=
  data.length < 14 ∨ IsIpv4 data ∧ (data.length < 34 ∨
    (data[23]? = some IPPROTO_TCP ∧ data.length < 54) ∨
    (data[23]? = some IPPROTO_UDP ∧ data.length < 42))

/-- The packet is not IPv4, or it carries neither TCP nor UDP. -/
def Foreign : Prop :=
  ¬IsIpv4 data ∨ data[23]? ≠ some IPPROTO_TCP ∧ data[23]? ≠ some IPPROTO_UDP

/-- A TCP segment with neither FIN (bit 0) nor SYN (bit 1) nor ACK (bit 4). -/
def Flagless : Prop :=
  IsIpv4 data ∧ data[23]? = some IPPROTO_TCP ∧ ∃ flags, data[47]? = some flags ∧
    bitField flags 0 = false ∧ bitField flags 1 = false ∧
    bitField flags 4 = false

def Ignored : Prop := Truncated data ∨ Foreign data ∨ Flagless data

variable {data}

theorem loadU8_eq {i : ℕ} (h : i < data.length) : data[i]? = some (loadU8 data i) := by
  rw [loadU8, List.getD_eq_getElem?_getD, List.getElem?_eq_getElem h]
  rfl

theorem loadU16_etherType (h : ¬data.length < 14) :
    loadU16 data 12 = htons ETH_P_IP ↔ IsIpv4 data := by
  obtain ⟨b, c, rest, hdrop⟩ : ∃ b c rest, data.drop 12 = b :: c :: rest := by
    match hd : data.drop 12 with
    | [] => simp at hd; omega
    | [_] => have := congrArg List.length hd; simp at this; omega
    | b :: c :: rest => exact ⟨b, c, rest, rfl⟩
  have hb : data[12]? = some b := by
    have : (data.drop 12)[0]? = data[12 + 0]? := List.getElem?_drop
    rw [hdrop] at this
    exact this.symm
  have hc : data[13]? = some c := by
    have : (data.drop 12)[1]? = data[12 + 1]? := List.getElem?_drop
    rw [hdrop] at this
    exact this.symm
  rw [IsIpv4, hb, hc, loadU16, hdrop]
  have hhost : htons ETH_P_IP = 8 := by decide
  rw [hhost, ← UInt16.toNat_inj]
  have hb' := b.toNat_lt
  have hc' := c.toNat_lt
  have hle : leValue [b, c] = b.toNat + 256 * c.toNat := by simp [leValue]
  simp only [List.take_succ_cons, List.take_zero, hle, UInt16.toNat_ofNat', Option.some.injEq,
    ← UInt8.toNat_inj]
  constructor
  · intro h8
    have h8' : (b.toNat + 256 * c.toNat) % 2 ^ 16 = 8 := h8
    constructor
    · change b.toNat = 8
      omega
    · change c.toNat = 0
      omega
  · intro h8
    have h8b : b.toNat = 8 := h8.1
    have h8c : c.toNat = 0 := h8.2
    rw [h8b, h8c]
    rfl

end Packet

theorem IPPROTO_TCP_ne_UDP : IPPROTO_TCP ≠ IPPROTO_UDP := by decide

theorem Packet.not_isUdp {data : List UInt8} (h : data[23]? = some IPPROTO_TCP) :
    ¬Packet.IsUdp data := by
  rw [Packet.IsUdp, h, Option.some.injEq]
  exact fun hudp => IPPROTO_TCP_ne_UDP hudp.2

/-- A complete TCP header is classified by its flags, FIN first. -/
theorem parseHeaders_tcp (ctx : XdpMd) (tuple : FiveTuple) (hlen : 54 ≤ ctx.data.length)
    (hip : Packet.IsIpv4 ctx.data) (hproto : loadU8 ctx.data 23 = IPPROTO_TCP) :
    let r := parseHeaders ctx tuple
    (r.1 = .noFlags ∧ Packet.Flagless ctx.data) ∨
    (r.1 ∈ ({.fin, .syn, .synack, .ack} : Finset TcpFlags) ∧ ¬Packet.Ignored ctx.data) := by
  intro r
  have heth : ¬ctx.data.length < 14 := by omega
  have hiphdr : ¬ctx.data.length < 34 := by omega
  have htcphdr : ¬ctx.data.length < 54 := by omega
  have htype := (Packet.loadU16_etherType heth).mpr hip
  have hflags : ctx.data[47]? = some (loadU8 ctx.data 47) := Packet.loadU8_eq (by omega)
  have hbyte : ctx.data[23]? = some IPPROTO_TCP := hproto ▸ Packet.loadU8_eq (by omega)
  have hclass : r.1 =
      if bitField (loadU8 ctx.data 47) 0 then .fin
      else if bitField (loadU8 ctx.data 47) 1 && !bitField (loadU8 ctx.data 47) 4 then .syn
      else if bitField (loadU8 ctx.data 47) 4 && bitField (loadU8 ctx.data 47) 1 then .synack
      else if bitField (loadU8 ctx.data 47) 4 && !bitField (loadU8 ctx.data 47) 1 then .ack
      else .noFlags := by
    simp only [r, parseHeaders, ETHHDR_SIZE, IPHDR_SIZE, TCPHDR_SIZE, loadIphdr, loadTcphdr,
      heth, htype, hiphdr, hproto, htcphdr, if_true, if_false]
    split_ifs <;> rfl
  have hread : ¬Packet.Truncated ctx.data := by
    rw [Packet.Truncated, hbyte]
    intro h
    obtain h | ⟨-, h | h | h⟩ := h
    · exact heth h
    · exact hiphdr h
    · exact htcphdr h.2
    · exact IPPROTO_TCP_ne_UDP (Option.some.inj h.1)
  have hknown : ¬Packet.Foreign ctx.data := by
    intro h
    obtain h | h := h
    · exact h hip
    · exact h.1 hbyte
  have hflagless : Packet.Flagless ctx.data ↔
      bitField (loadU8 ctx.data 47) 0 = false ∧
        bitField (loadU8 ctx.data 47) 1 = false ∧
        bitField (loadU8 ctx.data 47) 4 = false := by
    simp [Packet.Flagless, hip, hbyte, hflags]
  generalize bitField (loadU8 ctx.data 47) 0 = fin at hclass hflagless
  generalize bitField (loadU8 ctx.data 47) 1 = syn at hclass hflagless
  generalize bitField (loadU8 ctx.data 47) 4 = ack at hclass hflagless
  rw [Packet.Ignored, hclass]
  cases fin <;> cases syn <;> cases ack <;> simp [hflagless, hread, hknown]

theorem parseHeaders_cases (ctx : XdpMd) (tuple : FiveTuple) :
    let r := parseHeaders ctx tuple
    (r.1 = .error ∧ Packet.Truncated ctx.data) ∨
    (r.1 = .notTcp ∧ Packet.Foreign ctx.data ∧
      (tuple.proto ≠ IPPROTO_UDP → r.2.proto ≠ IPPROTO_UDP)) ∨
    (r.1 = .noFlags ∧ Packet.Flagless ctx.data) ∨
    (r.1 = .udp ∧ Packet.IsUdp ctx.data ∧ ¬Packet.Ignored ctx.data) ∨
    (r.1 ∈ ({.fin, .syn, .synack, .ack} : Finset TcpFlags) ∧ ¬Packet.IsUdp ctx.data ∧
      ¬Packet.Ignored ctx.data) := by
  intro r
  by_cases heth : ctx.data.length < 14
  · left
    exact ⟨by simp [r, parseHeaders, ETHHDR_SIZE, heth], .inl heth⟩
  by_cases hip : Packet.IsIpv4 ctx.data
  swap
  · right; left
    have htype := (not_congr (Packet.loadU16_etherType heth)).mpr hip
    refine ⟨?_, .inl hip, fun h => ?_⟩
    · simp [r, parseHeaders, ETHHDR_SIZE, heth, htype]
    · simpa [r, parseHeaders, ETHHDR_SIZE, heth, htype] using h
  have htype := (Packet.loadU16_etherType heth).mpr hip
  by_cases hiphdr : ctx.data.length < 34
  · left
    exact ⟨by simp [r, parseHeaders, ETHHDR_SIZE, IPHDR_SIZE, heth, htype, hiphdr],
      .inr ⟨hip, .inl hiphdr⟩⟩
  have hproto : ctx.data[23]? = some (loadU8 ctx.data 23) := Packet.loadU8_eq (by omega)
  by_cases htcp : loadU8 ctx.data 23 = IPPROTO_TCP
  · rw [htcp] at hproto
    by_cases htcphdr : ctx.data.length < 54
    · left
      refine ⟨?_, .inr ⟨hip, .inr (.inl ⟨hproto, htcphdr⟩)⟩⟩
      simp [r, parseHeaders, ETHHDR_SIZE, IPHDR_SIZE, TCPHDR_SIZE, loadIphdr, heth, htype, hiphdr,
        htcp, htcphdr]
    right; right
    obtain h | ⟨hc, hi⟩ := parseHeaders_tcp ctx tuple (by omega) hip htcp
    · left
      exact h
    · right; right
      exact ⟨hc, Packet.not_isUdp hproto, hi⟩
  have hne := IPPROTO_TCP_ne_UDP
  by_cases hudp : loadU8 ctx.data 23 = IPPROTO_UDP
  · rw [hudp] at hproto
    by_cases hudphdr : ctx.data.length < 42
    · left
      refine ⟨?_, .inr ⟨hip, .inr (.inr ⟨hproto, hudphdr⟩)⟩⟩
      simp [r, parseHeaders, ETHHDR_SIZE, IPHDR_SIZE, UDPHDR_SIZE, loadIphdr, heth, htype, hiphdr,
        hudp, hne.symm, hudphdr]
    right; right; right; left
    refine ⟨?_, ⟨hip, hproto⟩, ?_⟩
    · simp [r, parseHeaders, ETHHDR_SIZE, IPHDR_SIZE, UDPHDR_SIZE, loadIphdr, heth, htype, hiphdr,
        hudp, hne.symm, hudphdr]
    · rw [Packet.Ignored, Packet.Truncated, Packet.Foreign, Packet.Flagless, hproto]
      simp [heth, hip, hiphdr, hudphdr, hne.symm]
  right; left
  refine ⟨?_, .inr ?_, fun _ => ?_⟩
  · simp [r, parseHeaders, ETHHDR_SIZE, IPHDR_SIZE, loadIphdr, heth, htype, hiphdr, htcp, hudp]
  · simpa [hproto] using ⟨htcp, hudp⟩
  · simp [r, parseHeaders, ETHHDR_SIZE, IPHDR_SIZE, loadIphdr, heth, htype, hiphdr, htcp, hudp]

/-! ## What a packet contributes -/

inductive Hook
  | rx
  | tx
  deriving DecidableEq, Repr

/-- The key of a connection is the tuple as the packets received have it. -/
def Hook.key : Hook → FiveTuple → FiveTuple
  | .rx, tuple => tuple
  | .tx, tuple => swapTuple tuple

/-- A FIN contributes nothing, but its key is recorded. -/
def contributed : Hook → TcpFlags → Option (Finset TcpFlags)
  | _, .syn => some {.syn}
  | _, .synack => some {.synack}
  | _, .ack => some {.ack}
  | _, .fin => some ∅
  | .rx, .udp => some {.syn, .synack, .ack}
  | _, _ => none

def observation (p : Hook × XdpMd) : Option (FiveTuple × Finset TcpFlags) :=
  let r := parseHeaders p.2 default
  (contributed p.1 r.1).map fun seen => (p.1.key r.2, seen)

def recordedUnder (key : FiveTuple) (p : Hook × XdpMd) : Bool :=
  (observation p).any fun o => o.1 == key

def contributes (key : FiveTuple) (c : TcpFlags) (p : Hook × XdpMd) : Bool :=
  (observation p).any fun o => o.1 == key && decide (c ∈ o.2)

theorem observation_eq_none_iff (p : Hook × XdpMd) :
    observation p = none ↔
      Packet.Ignored p.2.data ∨ (p.1 = .tx ∧ Packet.IsUdp p.2.data) := by
  obtain ⟨hook, ctx⟩ := p
  simp only [observation, Option.map_eq_none_iff]
  obtain ⟨hc, ht⟩ | ⟨hc, hf, -⟩ | ⟨hc, hf⟩ | ⟨hc, hu, hi⟩ | ⟨hc, hu, hi⟩ :=
    parseHeaders_cases ctx default
  · simp [hc, contributed, Packet.Ignored, ht]
  · simp [hc, contributed, Packet.Ignored, hf]
  · simp [hc, contributed, Packet.Ignored, hf]
  · rw [hc]
    cases hook <;> simp [contributed, hu, hi]
  · simp only [Finset.mem_insert, Finset.mem_singleton] at hc
    obtain hc | hc | hc | hc := hc <;> rw [hc] <;> cases hook <;> simp [contributed, hu, hi]

def ConnectionState.ofSeen (seen : Finset TcpFlags) : ConnectionState where
  syn := if .syn ∈ seen then 1 else 0
  synack := if .synack ∈ seen then 1 else 0
  ack := if .ack ∈ seen then 1 else 0
  fin := 0
  handled := 0

theorem packetState_eq {hook : Hook} {flags : TcpFlags} {seen : Finset TcpFlags}
    (h : contributed hook flags = some seen) :
    packetState flags = ConnectionState.ofSeen seen := by
  cases flags <;> cases hook <;> simp only [contributed, reduceCtorEq, Option.some.injEq] at h <;>
    subst h <;> decide

def Skipped (r : TcpFlags × FiveTuple) : Prop :=
  r.1 = .error ∨ r.1 = .noFlags ∨ (r.1 = .notTcp ∧ r.2.proto ≠ IPPROTO_UDP)

theorem skipped_iff (ctx : XdpMd) :
    Skipped (parseHeaders ctx default) ↔
      contributed .rx (parseHeaders ctx default).1 = none := by
  rw [Skipped]
  obtain ⟨hc, -⟩ | ⟨hc, -, hp⟩ | ⟨hc, -⟩ | ⟨hc, -⟩ | ⟨hc, -⟩ := parseHeaders_cases ctx default
  · simp [hc, contributed]
  · simp [hc, contributed, hp (by decide)]
  · simp [hc, contributed]
  · simp [hc, contributed]
  · simp only [Finset.mem_insert, Finset.mem_singleton] at hc
    obtain hc | hc | hc | hc := hc <;> simp [hc, contributed]

theorem contributed_tx {flags : TcpFlags} (h : flags ≠ .udp) :
    contributed .tx flags = contributed .rx flags := by
  cases flags <;> simp [contributed] at h ⊢

theorem orState_ofSeen (old seen : Finset TcpFlags) :
    orState (.ofSeen old) (.ofSeen seen) = ConnectionState.ofSeen (old ⊔ seen) := by
  simp only [orState, ConnectionState.ofSeen, Finset.sup_eq_union, Finset.mem_union]
  by_cases h1 : TcpFlags.syn ∈ seen <;> by_cases h2 : TcpFlags.synack ∈ seen <;>
    by_cases h3 : TcpFlags.ack ∈ seen <;> simp [h1, h2, h3]

section Runs
variable (bpfRedirectMap : UInt32 → XdpAction)

def xdpStep (connections : Connections) (p : Hook × XdpMd) : Connections :=
  match p.1 with
  | .rx => (xdpRx bpfRedirectMap connections p.2).1
  | .tx => (xdpTx bpfRedirectMap connections p.2).1

def xdpRun (packets : List (Hook × XdpMd)) : Connections :=
  packets.foldl (xdpStep bpfRedirectMap) BoundedMap.empty

theorem xdpStep_eq (connections : Connections) (p : Hook × XdpMd) :
    xdpStep bpfRedirectMap connections p =
      match observation p with
      | some (key, seen) =>
        updateConnectionState connections key (ConnectionState.ofSeen seen)
      | none => connections := by
  obtain ⟨hook, ctx⟩ := p
  have hskip := skipped_iff ctx
  rw [Skipped] at hskip
  cases hook with
  | rx =>
    simp only [xdpStep, xdpRx, observation]
    cases hc : contributed .rx (parseHeaders ctx default).1 with
    | none =>
      rw [if_pos (hskip.mpr hc)]
      rfl
    | some seen =>
      rw [if_neg fun h => by simp [hskip.mp h] at hc, packetState_eq hc]
      rfl
  | tx =>
    simp only [xdpStep, xdpTx, observation]
    by_cases hudp : (parseHeaders ctx default).1 = .udp
    · rw [if_neg fun h => by simpa [hudp, contributed] using hskip.mp h, if_pos hudp, hudp]
      rfl
    rw [contributed_tx hudp]
    cases hc : contributed .rx (parseHeaders ctx default).1 with
    | none =>
      rw [if_pos (hskip.mpr hc)]
      rfl
    | some seen =>
      rw [if_neg fun h => by simp [hskip.mp h] at hc, if_neg hudp, packetState_eq hc]
      rfl

structure Holds (connections : Connections) (seen : FiniteMap FiveTuple (Finset TcpFlags)) :
    Prop where
  binding : connections.binding = fun key => (seen key).map ConnectionState.ofSeen
  counted : connections.Counted

theorem Holds.dom {connections : Connections} {seen : FiniteMap FiveTuple (Finset TcpFlags)}
    (h : Holds connections seen) : connections.binding.dom = seen.dom := by
  ext key
  simp [FiniteMap.dom, h.binding]

theorem Holds.update {connections : Connections} {seen : FiniteMap FiveTuple (Finset TcpFlags)}
    (h : Holds connections seen) (hroom : connections.count < CONNECTIONS_MAX_ENTRIES)
    (event : FiveTuple × Finset TcpFlags) :
    Holds (updateConnectionState connections event.1 (.ofSeen event.2)) (seen.record event) := by
  have hlookup : connections.lookup event.1 = (seen event.1).map ConnectionState.ofSeen :=
    congrFun h.binding event.1
  have hupdate : ∃ state, updateConnectionState connections event.1 (.ofSeen event.2) =
      connections.update CONNECTIONS_MAX_ENTRIES event.1 state ∧
      some state = (seen.record event event.1).map ConnectionState.ofSeen := by
    simp only [updateConnectionState, hlookup, record, insert_self]
    cases seen event.1 with
    | none => exact ⟨_, rfl, rfl⟩
    | some old => exact ⟨_, rfl, congrArg some (orState_ofSeen old event.2)⟩
  obtain ⟨state, hstate, hvalue⟩ := hupdate
  rw [hstate]
  refine ⟨?_, h.counted.update _ _ _⟩
  rw [BoundedMap.update_binding hroom]
  funext key
  by_cases hkey : key = event.1
  · rw [hkey, insert_self, hvalue]
  · rw [insert_of_ne _ _ hkey, h.binding, record, insert_of_ne _ _ hkey]

theorem Holds.step {connections : Connections} {seen : FiniteMap FiveTuple (Finset TcpFlags)}
    (h : Holds connections seen) (hroom : connections.count < CONNECTIONS_MAX_ENTRIES)
    (p : Hook × XdpMd) :
    Holds (xdpStep bpfRedirectMap connections p)
      ((observation p).elim seen seen.record) := by
  rw [xdpStep_eq]
  cases observation p with
  | none => exact h
  | some event => exact h.update hroom event

theorem count_le_step (connections : Connections) (p : Hook × XdpMd) :
    connections.count ≤ (xdpStep bpfRedirectMap connections p).count := by
  rw [xdpStep_eq]
  cases observation p with
  | none => exact le_rfl
  | some event =>
    simp only [updateConnectionState]
    split <;> exact BoundedMap.count_le_update _

def seenIn (packets : List (Hook × XdpMd)) : FiniteMap FiveTuple (Finset TcpFlags) :=
  recordAll (packets.filterMap observation)

theorem seenIn_concat (packets : List (Hook × XdpMd)) (p : Hook × XdpMd) :
    seenIn (packets ++ [p]) = (observation p).elim (seenIn packets) (seenIn packets).record := by
  rw [seenIn, List.filterMap_append, List.filterMap_cons, List.filterMap_nil]
  cases observation p with
  | none => rw [List.append_nil]; rfl
  | some event => exact recordAll_concat _ _

theorem xdpRun_concat (packets : List (Hook × XdpMd)) (p : Hook × XdpMd) :
    xdpRun bpfRedirectMap (packets ++ [p]) =
      xdpStep bpfRedirectMap (xdpRun bpfRedirectMap packets) p := by
  simp [xdpRun]

theorem xdpRun_nil_holds : Holds (xdpRun bpfRedirectMap []) (seenIn []) where
  binding := rfl
  counted := BoundedMap.empty_counted

variable {bpfRedirectMap}

theorem xdpRun_holds {packets : List (Hook × XdpMd)}
    (hroom : (xdpRun bpfRedirectMap packets).count < CONNECTIONS_MAX_ENTRIES) :
    Holds (xdpRun bpfRedirectMap packets) (seenIn packets) := by
  induction packets using List.reverseRecOn with
  | nil => exact xdpRun_nil_holds bpfRedirectMap
  | append_singleton packets p ih =>
    rw [xdpRun_concat] at hroom ⊢
    have hfront := (count_le_step bpfRedirectMap _ p).trans_lt hroom
    rw [seenIn_concat]
    exact (ih hfront).step bpfRedirectMap hfront p

theorem seenIn_dom_subset (packets : List (Hook × XdpMd)) (p : Hook × XdpMd) :
    (seenIn packets).dom ⊆ (seenIn (packets ++ [p])).dom := by
  intro key hkey
  obtain ⟨seen, hseen⟩ := mem_dom_recordAll.mp hkey
  refine mem_dom_recordAll.mpr ⟨seen, ?_⟩
  rw [List.filterMap_append]
  exact List.mem_append_left _ hseen

theorem seenIn_dom_finite (packets : List (Hook × XdpMd)) : (seenIn packets).dom.Finite := by
  refine ((packets.filterMap observation).map Prod.fst).toFinset.finite_toSet.subset ?_
  intro key hkey
  obtain ⟨seen, hseen⟩ := mem_dom_recordAll.mp hkey
  simpa using ⟨seen, by simpa using hseen⟩

theorem xdpRun_holds_of_ncard {packets : List (Hook × XdpMd)}
    (hroom : (seenIn packets).dom.ncard < CONNECTIONS_MAX_ENTRIES) :
    Holds (xdpRun bpfRedirectMap packets) (seenIn packets) := by
  induction packets using List.reverseRecOn with
  | nil => exact xdpRun_nil_holds bpfRedirectMap
  | append_singleton packets p ih =>
    have hle := Set.ncard_le_ncard (seenIn_dom_subset packets p) (seenIn_dom_finite _)
    have hfront := ih (hle.trans_lt hroom)
    rw [xdpRun_concat, seenIn_concat]
    refine hfront.step bpfRedirectMap ?_ p
    rw [hfront.counted.count_eq, hfront.dom]
    exact hle.trans_lt hroom

theorem recordedUnder_iff {key : FiveTuple} {p : Hook × XdpMd} :
    recordedUnder key p = true ↔ ∃ seen, observation p = some (key, seen) := by
  simp only [recordedUnder, Option.any_eq_true, beq_iff_eq, Prod.exists]
  constructor
  · intro h
    obtain ⟨key', seen, hobs, rfl⟩ := h
    exact ⟨seen, hobs⟩
  · intro h
    obtain ⟨seen, hobs⟩ := h
    exact ⟨key, seen, hobs, rfl⟩

theorem contributes_iff {key : FiveTuple} {c : TcpFlags} {p : Hook × XdpMd} :
    contributes key c p = true ↔ ∃ seen, observation p = some (key, seen) ∧ c ∈ seen := by
  simp only [contributes, Option.any_eq_true, Bool.and_eq_true, beq_iff_eq, decide_eq_true_eq,
    Prod.exists]
  constructor
  · intro h
    obtain ⟨key', seen, hobs, rfl, hc⟩ := h
    exact ⟨seen, hobs, hc⟩
  · intro h
    obtain ⟨seen, hobs, hc⟩ := h
    exact ⟨key, seen, hobs, rfl, hc⟩

theorem mem_dom_seenIn {packets : List (Hook × XdpMd)} {key : FiveTuple} :
    key ∈ (seenIn packets).dom ↔ packets.any (recordedUnder key) = true := by
  simp only [seenIn, mem_dom_recordAll, List.mem_filterMap, List.any_eq_true, recordedUnder_iff]
  tauto

theorem mem_of_seenIn {packets : List (Hook × XdpMd)} {key : FiveTuple}
    {seen : Finset TcpFlags} (h : seenIn packets key = some seen) (c : TcpFlags) :
    c ∈ seen ↔ packets.any (contributes key c) = true := by
  have hlub := isLUB_of_recordAll h
  have hany : packets.any (contributes key c) = true ↔
      ∃ s ∈ { s | (key, s) ∈ packets.filterMap observation }, c ∈ s := by
    simp only [List.any_eq_true, contributes_iff, Set.mem_ofPred_eq, List.mem_filterMap]
    tauto
  rw [hany]
  constructor
  · intro hc
    by_contra hno
    push Not at hno
    have hle : seen ≤ seen.erase c := by
      apply hlub.2
      intro s hs
      exact Finset.subset_erase.mpr ⟨hlub.1 hs, hno s hs⟩
    exact Finset.notMem_erase c seen (hle hc)
  · intro hc
    obtain ⟨s, hs, hcs⟩ := hc
    exact hlub.1 hs hcs

theorem lookup_isSome {packets : List (Hook × XdpMd)}
    (hroom : (xdpRun bpfRedirectMap packets).count < CONNECTIONS_MAX_ENTRIES) (key : FiveTuple) :
    ((xdpRun bpfRedirectMap packets).lookup key).isSome = packets.any (recordedUnder key) := by
  have h := xdpRun_holds hroom
  rw [Bool.eq_iff_iff, ← mem_dom_seenIn, ← h.dom, BoundedMap.lookup, FiniteMap.dom,
    Set.mem_ofPred_eq, Option.isSome_iff_ne_none]

def bit (b : Bool) : UInt8 := if b then 1 else 0

theorem lookup_eq {packets : List (Hook × XdpMd)}
    (hroom : (xdpRun bpfRedirectMap packets).count < CONNECTIONS_MAX_ENTRIES) {key : FiveTuple}
    {state : ConnectionState}
    (h : (xdpRun bpfRedirectMap packets).lookup key = some state) :
    state =
      { syn := bit (packets.any (contributes key .syn))
        synack := bit (packets.any (contributes key .synack))
        ack := bit (packets.any (contributes key .ack))
        fin := 0
        handled := 0 } := by
  rw [BoundedMap.lookup, (xdpRun_holds hroom).binding, Option.map_eq_some_iff] at h
  obtain ⟨seen, hseen, rfl⟩ := h
  simp only [ConnectionState.ofSeen, bit, mem_of_seenIn hseen]

theorem xdpStep_frame (connections : Connections) {p : Hook × XdpMd} {key : FiveTuple}
    (h : recordedUnder key p = false) :
    (xdpStep bpfRedirectMap connections p).lookup key = connections.lookup key := by
  rw [xdpStep_eq]
  cases hobs : observation p with
  | none => rfl
  | some event =>
    have hne : key ≠ event.1 := by
      intro heq
      have hrec : recordedUnder key p = true :=
        recordedUnder_iff.mpr ⟨event.2, by rw [hobs, heq]⟩
      rw [h] at hrec
      cases hrec
    simp only [updateConnectionState]
    split <;> exact BoundedMap.lookup_update_of_ne _ hne

theorem count_le_run {front packets : List (Hook × XdpMd)} (h : front <+: packets) :
    (xdpRun bpfRedirectMap front).count ≤ (xdpRun bpfRedirectMap packets).count := by
  obtain ⟨back, rfl⟩ := h
  induction back using List.reverseRecOn with
  | nil => rw [List.append_nil]
  | append_singleton back p ih =>
    rw [← List.append_assoc, xdpRun_concat]
    exact ih.trans (count_le_step bpfRedirectMap _ p)

theorem bit_any_mono {front packets : List (Hook × XdpMd)} (h : front <+: packets)
    (test : Hook × XdpMd → Bool) : bit (front.any test) ≤ bit (packets.any test) := by
  obtain ⟨back, rfl⟩ := h
  rw [List.any_append]
  cases front.any test <;> cases back.any test <;> decide

theorem lookup_mono {front packets : List (Hook × XdpMd)} (h : front <+: packets)
    (hroom : (xdpRun bpfRedirectMap packets).count < CONNECTIONS_MAX_ENTRIES) {key : FiveTuple}
    {state : ConnectionState} (hstate : (xdpRun bpfRedirectMap front).lookup key = some state) :
    ∃ state', (xdpRun bpfRedirectMap packets).lookup key = some state' ∧
      state.syn ≤ state'.syn ∧ state.synack ≤ state'.synack ∧ state.ack ≤ state'.ack := by
  have hfront := (count_le_run h).trans_lt hroom
  have hany : packets.any (recordedUnder key) = true := by
    have := lookup_isSome hfront key
    rw [hstate, Option.isSome_some] at this
    obtain ⟨back, rfl⟩ := h
    rw [List.any_append, ← this, Bool.true_or]
  rw [← lookup_isSome hroom key] at hany
  obtain ⟨state', hstate'⟩ := Option.isSome_iff_exists.mp hany
  refine ⟨state', hstate', ?_⟩
  rw [lookup_eq hfront hstate, lookup_eq hroom hstate']
  exact ⟨bit_any_mono h _, bit_any_mono h _, bit_any_mono h _⟩

theorem Holds.unique {connections connections' : Connections}
    {seen : FiniteMap FiveTuple (Finset TcpFlags)} (h : Holds connections seen)
    (h' : Holds connections' seen) : connections = connections' := by
  have hbinding := h.binding.trans h'.binding.symm
  have hcount : connections.count = connections'.count := by
    rw [h.counted.count_eq, h'.counted.count_eq, hbinding]
  cases connections
  cases connections'
  simp only at hbinding hcount
  rw [hbinding, hcount]

theorem xdpRun_perm {packets packets' : List (Hook × XdpMd)} (hperm : packets'.Perm packets)
    (hroom : (xdpRun bpfRedirectMap packets).count < CONNECTIONS_MAX_ENTRIES) :
    xdpRun bpfRedirectMap packets' = xdpRun bpfRedirectMap packets := by
  have h := xdpRun_holds hroom
  have hseen : seenIn packets' = seenIn packets :=
    recordAll_perm (hperm.filterMap observation)
  rw [h.counted.count_eq, h.dom, ← hseen] at hroom
  have h' : Holds (xdpRun bpfRedirectMap packets') (seenIn packets') :=
    xdpRun_holds_of_ncard hroom
  rw [hseen] at h'
  exact h'.unique h

variable (bpfRedirectMap) in
/-- The table is the union of what the packets contribute, whatever their order. -/
theorem connections_eq_union (packets : List (Hook × XdpMd))
    (hroom : (xdpRun bpfRedirectMap packets).count < CONNECTIONS_MAX_ENTRIES) :
    (∀ key, ((xdpRun bpfRedirectMap packets).lookup key).isSome =
      packets.any (recordedUnder key)) ∧
    (∀ key state, (xdpRun bpfRedirectMap packets).lookup key = some state →
      state =
        { syn := bit (packets.any (contributes key .syn))
          synack := bit (packets.any (contributes key .synack))
          ack := bit (packets.any (contributes key .ack))
          fin := 0
          handled := 0 }) ∧
    (∀ front, front <+: packets → ∀ key state,
      (xdpRun bpfRedirectMap front).lookup key = some state →
      ∃ state', (xdpRun bpfRedirectMap packets).lookup key = some state' ∧
        state.syn ≤ state'.syn ∧ state.synack ≤ state'.synack ∧ state.ack ≤ state'.ack) ∧
    (∀ connections p key, recordedUnder key p = false →
      (xdpStep bpfRedirectMap connections p).lookup key = connections.lookup key) ∧
    (∀ connections p, Packet.Ignored p.2.data →
      xdpStep bpfRedirectMap connections p = connections) ∧
    (∀ packets', packets'.Perm packets →
      xdpRun bpfRedirectMap packets' = xdpRun bpfRedirectMap packets) := by
  refine ⟨lookup_isSome hroom, fun key state => lookup_eq hroom, ?_, ?_, ?_, ?_⟩
  · intro front hfront key state hstate
    exact lookup_mono hfront hroom hstate
  · intro connections p key h
    exact xdpStep_frame connections h
  · intro connections p h
    rw [xdpStep_eq, (observation_eq_none_iff p).mpr (.inl h)]
  · intro packets' hperm
    exact xdpRun_perm hperm hroom

end Runs

def tcpPacket (saddr daddr : List UInt8) (source dest flags : UInt8) : XdpMd where
  data := List.replicate 12 0 ++ [0x08, 0x00] ++ (List.replicate 9 0 ++ [6, 0, 0] ++ saddr ++
    daddr) ++ ([0, source, 0, dest] ++ List.replicate 9 0 ++ [flags] ++ List.replicate 6 0)
  ingressIfindex := 1

/-- A handshake seen by both programs, with the answer processed first. -/
theorem connections_eq_union_handshake :
    let packets := [(Hook.tx, tcpPacket [10, 0, 0, 2] [10, 0, 0, 1] 80 40 0x12),
      (Hook.rx, tcpPacket [10, 0, 0, 1] [10, 0, 0, 2] 40 80 0x02),
      (Hook.rx, tcpPacket [10, 0, 0, 1] [10, 0, 0, 2] 40 80 0x11)]
    (xdpRun (fun _ => .redirect) packets).count = 1 ∧
      ∀ state, (xdpRun (fun _ => .redirect) packets).lookup
        ⟨0x0100000a, 0x0200000a, 40, 80, 6⟩ = some state → state = ⟨1, 1, 0, 0, 0⟩ := by
  intro packets
  have hcount : (xdpRun (fun _ => .redirect) packets).count = 1 := by decide +kernel
  have h := connections_eq_union (fun _ => .redirect) packets (hcount ▸ by decide)
  refine ⟨hcount, fun state hstate => ?_⟩
  rw [h.2.1 _ state hstate]
  decide +kernel

end OrssNic
