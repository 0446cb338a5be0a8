import OrssNic.ControllerMatches
import OrssNic.FullMapExit
import OrssNic.SwitchAgreement

/-!
# Where packets go

A packet that no entry admits goes to the controller, and every other packet
where the actions of its entry say. Behind the entry of the switch, the table
knows all packets of the host and all of ARP, and sends each flow of the network
to the host with one tag, which only the `FLOW_MOD`s of the main loop change.
-/

namespace OrssNic
open CLoops CRuns Placement OpenflowMatch Controller

def PacketHeader.received (p : PacketHeader) : ReceivedPacket :=
  ⟨p.inPort, p.dlType, p.nwProto, p.nwSrc, p.nwDst, p.tpSrc, p.tpDst⟩

def Admitted (table : List SwitchEntry) (p : PacketHeader) : Prop :=
  ∃ e ∈ table, e.match.admits p = true

instance (table : List SwitchEntry) (p : PacketHeader) : Decidable (Admitted table p) :=
  inferInstanceAs (Decidable (∃ e ∈ table, e.match.admits p = true))

/-- Steps between two entries of the switch: only a packet that no entry admits
goes to the controller. -/
inductive ServingStep : Network → Network → Prop
  | packetIn (n : Network) (p : PacketHeader) (hmiss : ¬Admitted n.table p) :
    ServingStep n (n.receive ((packetInHandler p.received).map .controller))
  | iterate {n : Network} {i : Surroundings} {r : Iteration} (hok : iteration n.main i = .ok r) :
    ServingStep n (n.after r)

/-- The networks behind an entry of the switch. Before it the main loop has done
some iterations, and the table may be anything. -/
inductive Entered (connection : OpenflowConnection) (transactionId : UInt32) : Network → Prop
  | enter {n : Network} {inputs : List Surroundings} {rs : List Iteration}
    (hrun : mainLoop connection transactionId inputs = .ok rs)
    (hmain : n.main = final Iteration.after (.start connection transactionId) rs) :
    Entered connection transactionId (n.receive (onSwitchConnection.map .controller))
  | serve {n n' : Network} (h : Entered connection transactionId n) (hstep : ServingStep n n') :
    Entered connection transactionId n'

theorem ServingStep.live {n n' : Network} (h : ServingStep n n') (hlive : n.main.map.Live) :
    n'.main.map.Live := by
  cases h with
  | packetIn p hmiss => exact hlive
  | iterate hok =>
    obtain ⟨-, sampled, flows, coreLoad, s, hr⟩ := iteration_spec hlive hok
    exact hr.afterLive

theorem Entered.live {connection : OpenflowConnection} {transactionId : UInt32} {n : Network}
    (h : Entered connection transactionId n) : n.main.map.Live := by
  induction h with
  | enter hrun hmain =>
    rw [Network.receive, hmain]
    exact (mainLoop_final hrun).1
  | serve _ hstep ih => exact hstep.live ih

/-! ## The shape of the table -/

def floodEntry : SwitchEntry := ⟨arpFlood.match, arpFlood.priority, arpFlood.actions⟩

def egressEntry : SwitchEntry := ⟨hostEgress.match, hostEgress.priority, hostEgress.actions⟩

def icmpArguments (inPort : UInt16) (src : UInt32) : MatchArguments :=
  { MatchArguments.none with
    inPort := some inPort
    dlType := some ETH_TYPE_IP
    nwProto := some IP_ICMP
    nwSrc := some src }

def flowArguments (inPort : UInt16) (key : FiveTuple) : MatchArguments where
  inPort := some inPort
  dlType := some ETH_TYPE_IP
  nwProto := some key.proto
  nwSrc := some key.srcIp
  nwDst := some key.dstIp
  tpSrc := some key.srcPort
  tpDst := some key.dstPort

def PacketHeader.key (p : PacketHeader) : FiveTuple :=
  ⟨p.nwSrc, p.nwDst, p.tpSrc, p.tpDst, p.nwProto⟩

theorem exactMatch_eq (key : FiveTuple) :
    exactMatch key = ofpMatch (flowArguments OVS_NETWORK_IFINDEX key) :=
  (ofpMatch_exact OVS_NETWORK_IFINDEX ⟨ETH_TYPE_IP, key.proto, key.srcIp, key.dstIp, key.srcPort,
    key.dstPort⟩).symm

/-- The packets that this serves go to the host, with the tag of a core. -/
def Delivery (actions : List SwitchAction) : Prop :=
  ∃ vlan : UInt16, vlan.toNat < NB_CORES ∧ actions = [.setVlanVid vlan, .output HOST_PORT]

/-- An entry for one flow, or for one sender of ICMP, of a port other than the host's. -/
structure Serves (e : SwitchEntry) : Prop where
  shape : ∃ inPort, inPort ≠ HOST_PORT ∧ ((∃ src, e.match = ofpMatch (icmpArguments inPort src)) ∨
    ∃ key, e.match = ofpMatch (flowArguments inPort key))
  delivery : Delivery e.actions

structure Programmed (table : List SwitchEntry) : Prop where
  flood : floodEntry ∈ table
  egress : egressEntry ∈ table
  serves : ∀ e ∈ table, e = floodEntry ∨ e = egressEntry ∨ Serves e
  distinct : (table.map SwitchEntry.match).Nodup

section Admits
variable {p : PacketHeader} {inPort : UInt16}

theorem floodEntry_admits : floodEntry.match.admits p = true ↔ p.dlType = ETH_TYPE_ARP := by
  have h := ofpMatch_admits (a := { MatchArguments.none with dlType := some ETH_TYPE_ARP }) (p := p)
  simp only [MatchArguments.none, Option.mem_def, Option.some.injEq, forall_eq', reduceCtorEq,
    false_imp_iff, implies_true, true_and, and_true] at h
  exact h.trans eq_comm

theorem egressEntry_admits : egressEntry.match.admits p = true ↔ p.inPort = HOST_PORT := by
  have h := ofpMatch_admits (a := { MatchArguments.none with inPort := some HOST_PORT }) (p := p)
  simp only [MatchArguments.none, Option.mem_def, Option.some.injEq, forall_eq', reduceCtorEq,
    false_imp_iff, implies_true, and_true] at h
  exact h.trans eq_comm

theorem icmpArguments_admits {src : UInt32} :
    (ofpMatch (icmpArguments inPort src)).admits p = true ↔
      inPort = p.inPort ∧ ETH_TYPE_IP = p.dlType ∧ IP_ICMP = p.nwProto ∧ src = p.nwSrc := by
  rw [ofpMatch_admits]
  simp [icmpArguments, MatchArguments.none]

theorem flowArguments_admits {key : FiveTuple} :
    (ofpMatch (flowArguments inPort key)).admits p = true ↔
      inPort = p.inPort ∧ ETH_TYPE_IP = p.dlType ∧ key = p.key := by
  rw [ofpMatch_admits]
  simp only [flowArguments, Option.mem_def, Option.some.injEq, forall_eq']
  constructor
  · rintro ⟨hin, htype, hproto, hsrc, hdst, hsport, hdport⟩
    refine ⟨hin, htype, ?_⟩
    rw [PacketHeader.key, ← hproto, ← hsrc, ← hdst, ← hsport, ← hdport]
  · rintro ⟨hin, htype, rfl⟩
    exact ⟨hin, htype, rfl, rfl, rfl, rfl, rfl⟩

end Admits

/-! ## The entry of the switch -/

theorem deleteAllFlows_covers (e : OpenflowMatch) : deleteAllFlows.match.covers e = true := by
  have h := ofpMatch_looksAt .none
  change (ofpMatch .none).covers e = true
  rw [covers, fieldCovers_of_wild h.inPort, fieldCovers_of_wild h.dlSrc,
    fieldCovers_of_wild h.dlDst, fieldCovers_of_wild h.dlVlan, fieldCovers_of_wild h.dlVlanPcp,
    fieldCovers_of_wild h.dlType, fieldCovers_of_wild h.nwTos, fieldCovers_of_wild h.nwProto,
    addressCovers_of_wild h.nwSrc, addressCovers_of_wild h.nwDst, fieldCovers_of_wild h.tpSrc,
    fieldCovers_of_wild h.tpDst]
  rfl

def enteredTable : List SwitchEntry :=
  [floodEntry, egressEntry] ++ generateFlows.map fun m => ⟨m.match, m.priority, m.actions⟩

theorem onSwitchConnection_table (table : List SwitchEntry) :
    (onSwitchConnection.map SwitchMessage.controller).foldl handle table = enteredTable := by
  have hdelete : handle table (.controller deleteAllFlows) = [] := by
    apply List.filter_eq_nil_iff.mpr
    intro e _
    rw [deleteAllFlows_covers, Bool.not_true]
    exact Bool.false_ne_true
  have hsplit : onSwitchConnection = deleteAllFlows :: onSwitchConnection.tail := rfl
  rw [hsplit, List.map_cons, List.foldl_cons, hdelete]
  decide +kernel

theorem defaultActions_delivery : Delivery defaultActions := ⟨DEFAULT_VLAN, by decide, rfl⟩

theorem enteredTable_programmed : Programmed enteredTable where
  flood := List.mem_cons_self
  egress := List.mem_cons_of_mem _ List.mem_cons_self
  serves := by
    intro e he
    rcases List.mem_append.mp he with he | he
    · rw [List.mem_pair] at he
      exact he.imp_right .inl
    · obtain ⟨m, hm, rfl⟩ := List.mem_map.mp he
      obtain ⟨i, -, hi⟩ := List.mem_filterMap.mp hm
      cases hi
      right
      right
      refine ⟨⟨OUT_PORT, by decide, .inr ⟨(generatedFlow i).fiveTuple, rfl⟩⟩, ?_⟩
      exact defaultActions_delivery
  distinct := by decide +kernel

/-! ## Packets that no entry admits -/

theorem Programmed.append {table : List SwitchEntry} {e : SwitchEntry} (h : Programmed table)
    (he : Serves e) (hfresh : ∀ e' ∈ table, e'.match ≠ e.match) : Programmed (table ++ [e]) where
  flood := List.mem_append_left _ h.flood
  egress := List.mem_append_left _ h.egress
  serves := by
    rw [List.forall_mem_append, List.forall_mem_singleton]
    exact ⟨h.serves, .inr (.inr he)⟩
  distinct := by
    rw [List.map_append, List.map_singleton]
    refine List.nodup_append'.mpr ⟨h.distinct, List.nodup_singleton _, ?_⟩
    rw [List.disjoint_singleton, List.mem_map]
    rintro ⟨e', he', heq⟩
    exact hfresh e' he' heq

/-- The packets that an entry of the controller for `p` serves. -/
def PacketHeader.SameFlow (p q : PacketHeader) : Prop :=
  q.inPort = p.inPort ∧ q.dlType = p.dlType ∧
    if p.nwProto = IP_ICMP then q.nwProto = IP_ICMP ∧ q.nwSrc = p.nwSrc else q.key = p.key

/-- The handler asks for nothing, or for an entry for the flow of the packet. -/
structure Answers (p : PacketHeader) (m : FlowMod) : Prop where
  ipv4 : p.dlType = ETH_TYPE_IP
  command : m.command = .add
  actions : m.actions = defaultActions
  shape : (∃ src, m.match = ofpMatch (icmpArguments p.inPort src)) ∨
    ∃ key, m.match = ofpMatch (flowArguments p.inPort key)
  admits : ∀ q, p.SameFlow q → m.match.admits q = true

def PacketHeader.flowSpec (p : PacketHeader) : FlowSpec :=
  ⟨p.dlType, p.nwProto, p.nwSrc, p.nwDst, p.tpSrc, p.tpDst⟩

theorem packetInHandler_ipv4 {p : PacketHeader} (hip : p.dlType = ETH_TYPE_IP) :
    packetInHandler p.received =
      (Controller.addFlow p.inPort p.flowSpec defaultActions).toList := by
  have hip' : p.received.ethertype = ETH_TYPE_IP := hip
  have hlldp : ¬p.received.ethertype = ETH_TYPE_LLDP := by
    rw [hip']
    decide
  rw [packetInHandler, if_neg hlldp, if_pos hip']
  rfl

theorem addFlow_answers {p : PacketHeader} {m : FlowMod} (hip : p.dlType = ETH_TYPE_IP)
    (h : Controller.addFlow p.inPort p.flowSpec defaultActions = some m) : Answers p m := by
  obtain ⟨match', hmatch, rfl⟩ := Option.map_eq_some_iff.mp h
  rw [addFlowMatch, PacketHeader.flowSpec, hip] at hmatch
  dsimp only at hmatch
  split_ifs at hmatch with hicmp hports
  · cases hmatch
    rw [hicmp]
    refine ⟨hip, rfl, rfl, .inl ⟨p.nwSrc, rfl⟩, ?_⟩
    rintro q ⟨hin, htype, hflow⟩
    rw [if_pos hicmp] at hflow
    change (ofpMatch (icmpArguments p.inPort p.nwSrc)).admits q = true
    rw [icmpArguments_admits]
    exact ⟨hin.symm, (htype.trans hip).symm, hflow.1.symm, hflow.2.symm⟩
  · cases hmatch
    refine ⟨hip, rfl, rfl, .inr ⟨p.key, rfl⟩, ?_⟩
    rintro q ⟨hin, htype, hflow⟩
    rw [if_neg hicmp] at hflow
    change (ofpMatch (flowArguments p.inPort p.key)).admits q = true
    rw [flowArguments_admits]
    exact ⟨hin.symm, (htype.trans hip).symm, hflow.symm⟩

theorem packetInHandler_cases (p : PacketHeader) :
    packetInHandler p.received = [] ∨ ∃ m, packetInHandler p.received = [m] ∧ Answers p m := by
  by_cases hip : p.dlType = ETH_TYPE_IP
  · rw [packetInHandler_ipv4 hip]
    cases hadd : Controller.addFlow p.inPort p.flowSpec defaultActions with
    | none => exact .inl rfl
    | some m => exact .inr ⟨m, rfl, addFlow_answers hip hadd⟩
  · have hip' : ¬p.received.ethertype = ETH_TYPE_IP := hip
    rw [packetInHandler, if_neg hip', ite_self]
    exact .inl rfl

def PacketHeader.Supported (p : PacketHeader) : Prop :=
  p.nwProto = IP_ICMP ∨ p.nwProto = IP_TCP ∨ p.nwProto = IP_UDP

theorem packetInHandler_answers {p : PacketHeader} (hip : p.dlType = ETH_TYPE_IP)
    (hproto : p.Supported) : ∃ m, packetInHandler p.received = [m] ∧ Answers p m := by
  obtain ⟨m, hm⟩ : ∃ m, Controller.addFlow p.inPort p.flowSpec defaultActions = some m := by
    by_cases hicmp : p.flowSpec.nwProto = IP_ICMP
    · rw [Controller.addFlow, addFlowMatch, if_pos hicmp]
      exact ⟨_, rfl⟩
    · have hports : p.flowSpec.nwProto = IP_TCP ∨ p.flowSpec.nwProto = IP_UDP :=
        hproto.resolve_left hicmp
      rw [Controller.addFlow, addFlowMatch, if_neg hicmp, if_pos hports]
      exact ⟨_, rfl⟩
  refine ⟨m, ?_, addFlow_answers hip hm⟩
  rw [packetInHandler_ipv4 hip, hm]
  rfl

/-! ## What a step does to the table -/

/-- The entry has the tag of the last of the moves for its flow, if there is one. -/
structure Retagged (moves : List (FiveTuple × ℕ)) (e e' : SwitchEntry) : Prop where
  «match» : e'.match = e.match
  tag : ∀ (key : FiveTuple) (vlan : UInt16), e.match = exactMatch key →
    e.actions = [.setVlanVid vlan, .output HOST_PORT] →
      ∃ vlan' : UInt16, e'.actions = [.setVlanVid vlan', .output HOST_PORT] ∧
        vlan'.toNat = (lastMove moves key).getD vlan.toNat

theorem Retagged.refl (e : SwitchEntry) : Retagged [] e e :=
  ⟨rfl, fun _ vlan _ hactions => ⟨vlan, hactions, rfl⟩⟩

theorem Retagged.trans {moves moves' : List (FiveTuple × ℕ)} {e e' e'' : SwitchEntry}
    (h : Retagged moves e e') (h' : Retagged moves' e' e'') : Retagged (moves ++ moves') e e'' := by
  refine ⟨h'.match.trans h.match, fun key vlan hkey hactions => ?_⟩
  obtain ⟨vlan₁, hactions₁, hvlan₁⟩ := h.tag key vlan hkey hactions
  obtain ⟨vlan₂, hactions₂, hvlan₂⟩ := h'.tag key vlan₁ (h.match.trans hkey) hactions₁
  refine ⟨vlan₂, hactions₂, ?_⟩
  rw [hvlan₂, hvlan₁, lastMove_append]
  cases lastMove moves' key <;> rfl

/-- All entries are still there, with the tags that the moves have left. -/
def Keeps (moves : List (FiveTuple × ℕ)) (table table' : List SwitchEntry) : Prop :=
  ∀ e ∈ table, ∃ e' ∈ table', Retagged moves e e'

theorem Keeps.trans {moves moves' : List (FiveTuple × ℕ)} {table table' table'' : List SwitchEntry}
    (h : Keeps moves table table') (h' : Keeps moves' table' table'') :
    Keeps (moves ++ moves') table table'' := by
  intro e he
  obtain ⟨e', he', hretag⟩ := h e he
  obtain ⟨e'', he'', hretag'⟩ := h' e' he'
  exact ⟨e'', he'', hretag.trans hretag'⟩

theorem Keeps.admitted {moves : List (FiveTuple × ℕ)} {table table' : List SwitchEntry}
    (h : Keeps moves table table') {p : PacketHeader} (hp : Admitted table p) :
    Admitted table' p := by
  obtain ⟨e, he, hadmits⟩ := hp
  obtain ⟨e', he', hretag⟩ := h e he
  exact ⟨e', he', hretag.match ▸ hadmits⟩

section Step
variable {table : List SwitchEntry}

theorem Programmed.packetIn (h : Programmed table) {p : PacketHeader}
    (hmiss : ¬Admitted table p) :
    Programmed (((packetInHandler p.received).map SwitchMessage.controller).foldl handle table) ∧
      Keeps [] table
        (((packetInHandler p.received).map SwitchMessage.controller).foldl handle table) := by
  rcases packetInHandler_cases p with hnil | ⟨m, hm, hanswers⟩
  · rw [hnil]
    exact ⟨h, fun e he => ⟨e, he, .refl e⟩⟩
  · have hfresh : ∀ e ∈ table, e.match ≠ m.match := by
      intro e he heq
      apply hmiss
      refine ⟨e, he, ?_⟩
      rw [heq]
      apply hanswers.admits
      refine ⟨rfl, rfl, ?_⟩
      split_ifs with hicmp
      · exact ⟨hicmp, rfl⟩
      · rfl
    have hport : p.inPort ≠ HOST_PORT :=
      fun hport => hmiss ⟨egressEntry, h.egress, egressEntry_admits.mpr hport⟩
    have hstep : ((packetInHandler p.received).map SwitchMessage.controller).foldl handle table =
        table ++ [⟨m.match, m.priority, m.actions⟩] := by
      rw [hm, List.map_singleton, List.foldl_cons, List.foldl_nil, handle]
      dsimp only [SwitchMessage.flowMod]
      rw [applyFlowMod, hanswers.command]
      exact addEntry_of_fresh hfresh
    rw [hstep]
    refine ⟨h.append ⟨⟨p.inPort, hport, hanswers.shape⟩, ?_⟩ hfresh, fun e he => ?_⟩
    · rw [hanswers.actions]
      exact defaultActions_delivery
    · exact ⟨e, List.mem_append_left _ he, .refl e⟩

def FiveTuple.header (key : FiveTuple) (inPort : UInt16) : PacketHeader :=
  { (default : PacketHeader) with
    inPort := inPort
    dlType := ETH_TYPE_IP
    nwProto := key.proto
    nwSrc := key.srcIp
    nwDst := key.dstIp
    tpSrc := key.srcPort
    tpDst := key.dstPort }

theorem FiveTuple.header_belongsTo (key : FiveTuple) :
    (key.header OVS_NETWORK_IFINDEX).BelongsTo key :=
  ⟨rfl, rfl, rfl, rfl, rfl, rfl, rfl⟩

/-- Of the table of the controller an exact match only covers its own entry: every
other entry admits a packet that is not of the flow. -/
theorem Programmed.covers_iff (h : Programmed table) {e : SwitchEntry} (he : e ∈ table)
    (key : FiveTuple) : (exactMatch key).covers e.match = true ↔ e.match = exactMatch key := by
  constructor
  · intro hcovers
    have hsound : ∀ p, e.match.admits p = true → p.BelongsTo key :=
      fun p hp => exactMatch_admits.mp (covers_sound hcovers hp)
    rcases h.serves e he with rfl | rfl | hserves
    · have harp := (hsound { (default : PacketHeader) with dlType := ETH_TYPE_ARP }
        (floodEntry_admits.mpr rfl)).ipv4
      exact absurd harp (by decide)
    · have hport := (hsound { (default : PacketHeader) with inPort := HOST_PORT }
        (egressEntry_admits.mpr rfl)).inPort
      exact absurd hport (by decide)
    · obtain ⟨inPort, -, ⟨src, hmatch⟩ | ⟨key', hmatch⟩⟩ := hserves.shape
      · -- An entry for ICMP admits every destination.
        rw [hmatch] at hsound
        have hdst : ∀ dst, dst = key.dstIp := fun dst =>
          (hsound ((⟨src, dst, 0, 0, IP_ICMP⟩ : FiveTuple).header inPort)
            (icmpArguments_admits.mpr ⟨rfl, rfl, rfl, rfl⟩)).dstIp
        exact absurd ((hdst 0).trans (hdst 1).symm) (by decide)
      · rw [hmatch] at hsound ⊢
        have hp := hsound (key'.header inPort) (flowArguments_admits.mpr ⟨rfl, rfl, rfl⟩)
        obtain rfl : inPort = OVS_NETWORK_IFINDEX := hp.inPort
        rw [exactMatch_eq, hp.unique key'.header_belongsTo]
  · intro hmatch
    rw [hmatch]
    exact exactMatch_covers_exactMatch.mpr rfl

end Step

def SwitchEntry.retag (key : FiveTuple) (vlan : UInt16) (e : SwitchEntry) : SwitchEntry :=
  if (exactMatch key).covers e.match then
    { e with actions := [.setVlanVid vlan, .output OVS_HOST_IFINDEX] }
  else e

section Retag
variable {table : List SwitchEntry} {e : SwitchEntry} {key : FiveTuple} {vlan : UInt16}

theorem retag_match (e : SwitchEntry) : (e.retag key vlan).match = e.match := by
  unfold SwitchEntry.retag
  split_ifs <;> rfl

theorem Programmed.retag_of_ne (h : Programmed table) (he : e ∈ table)
    (hne : e.match ≠ exactMatch key) : e.retag key vlan = e :=
  if_neg fun hcovers => hne ((h.covers_iff he key).mp hcovers)

theorem retag_of_eq (heq : e.match = exactMatch key) :
    (e.retag key vlan).actions = [.setVlanVid vlan, .output OVS_HOST_IFINDEX] := by
  have hcovers : (exactMatch key).covers e.match = true :=
    heq.symm ▸ exactMatch_covers_exactMatch.mpr rfl
  rw [SwitchEntry.retag, if_pos hcovers]

theorem ne_exactMatch_of_inPort (h : e.match.inPort ≠ OVS_NETWORK_IFINDEX) :
    e.match ≠ exactMatch key := by
  intro heq
  exact h (congrArg OpenflowMatch.inPort heq)

theorem Programmed.map_retag (h : Programmed table) (hcore : vlan.toNat < NB_CORES) :
    Programmed (table.map (SwitchEntry.retag key vlan)) where
  flood := by
    have hne : floodEntry.match ≠ exactMatch key := ne_exactMatch_of_inPort (by decide)
    exact List.mem_map.mpr ⟨floodEntry, h.flood, h.retag_of_ne h.flood hne⟩
  egress := by
    have hne : egressEntry.match ≠ exactMatch key := ne_exactMatch_of_inPort (by decide)
    exact List.mem_map.mpr ⟨egressEntry, h.egress, h.retag_of_ne h.egress hne⟩
  serves := by
    rw [List.forall_mem_map]
    intro e he
    by_cases heq : e.match = exactMatch key
    · right
      right
      refine ⟨⟨OVS_NETWORK_IFINDEX, by decide, .inr ⟨key, ?_⟩⟩, ⟨vlan, hcore, retag_of_eq heq⟩⟩
      rw [retag_match, heq, exactMatch_eq]
    · rw [h.retag_of_ne he heq]
      exact h.serves e he
  distinct := by
    have hmatches : SwitchEntry.match ∘ SwitchEntry.retag key vlan = SwitchEntry.match :=
      funext retag_match
    rw [List.map_map, hmatches]
    exact h.distinct

theorem Programmed.retagged (h : Programmed table) (key : FiveTuple) (vlan : UInt16)
    (he : e ∈ table) :
    Retagged [(key, vlan.toNat)] e (e.retag key vlan) := by
  refine ⟨retag_match e, fun key' vlan' hkey' hactions => ?_⟩
  rw [lastMove_singleton]
  by_cases hkey : key = key'
  · rw [if_pos hkey]
    exact ⟨vlan, retag_of_eq (hkey ▸ hkey'), rfl⟩
  · have hne : e.match ≠ exactMatch key := by
      rw [hkey', ne_eq, exactMatch_inj]
      exact Ne.symm hkey
    rw [if_neg hkey, h.retag_of_ne he hne]
    exact ⟨vlan', hactions, rfl⟩

theorem Programmed.orss (h : Programmed table) {message : OpenflowFlowModMessage}
    (hmessage : message.IsModVlan) (hcore : message.move.2 < NB_CORES) :
    Programmed (handle table (.orss message)) ∧
      Keeps [message.move] table (handle table (.orss message)) := by
  obtain ⟨transactionId, key, vlan, rfl⟩ := hmessage
  have hmove : (flowModMessage transactionId key vlan).move = (key, vlan.toNat) := by
    rw [OpenflowFlowModMessage.move, flowModMessage_fiveTuple, flowModMessage_vlan]
  rw [hmove] at hcore ⊢
  rw [handle, SwitchMessage.flowMod, flowModMessage_flowMod]
  dsimp only [applyFlowMod]
  split_ifs with hany
  · refine ⟨h.map_retag hcore, fun e he => ?_⟩
    exact ⟨e.retag key vlan, List.mem_map_of_mem he, h.retagged key vlan he⟩
  · -- Nothing is covered, and the message adds an entry of its own.
    have hfresh : ∀ e ∈ table, e.match ≠ exactMatch key := by
      intro e he hmatch
      exact hany (List.any_eq_true.mpr ⟨e, he, (h.covers_iff he key).mpr hmatch⟩)
    rw [addEntry_of_fresh hfresh]
    refine ⟨h.append ⟨⟨OVS_NETWORK_IFINDEX, by decide, .inr ⟨key, exactMatch_eq key⟩⟩,
      ⟨vlan, hcore, rfl⟩⟩ hfresh, fun e he => ?_⟩
    have hretag := h.retagged key vlan he
    rw [h.retag_of_ne he (hfresh e he)] at hretag
    exact ⟨e, List.mem_append_left _ he, hretag⟩

theorem Programmed.foldl (h : Programmed table) {messages : List OpenflowFlowModMessage}
    (hmessages : ∀ message ∈ messages, message.IsModVlan ∧ message.move.2 < NB_CORES) :
    Programmed ((messages.map SwitchMessage.orss).foldl handle table) ∧
      Keeps (messages.map OpenflowFlowModMessage.move) table
        ((messages.map SwitchMessage.orss).foldl handle table) := by
  induction messages generalizing table with
  | nil => exact ⟨h, fun e he => ⟨e, he, .refl e⟩⟩
  | cons message messages ih =>
    rw [List.forall_mem_cons] at hmessages
    obtain ⟨hstep, hkeeps⟩ := h.orss hmessages.1.1 hmessages.1.2
    obtain ⟨hrest, hkeeps'⟩ := ih hstep hmessages.2
    exact ⟨hrest, hkeeps.trans hkeeps'⟩

end Retag

/-! ## Runs -/

def flowHeader (port : UInt16) : PacketHeader :=
  { (default : PacketHeader) with
    inPort := OVS_NETWORK_IFINDEX
    dlType := ETH_TYPE_IP
    nwProto := IP_TCP
    tpSrc := port }

def enteredNetwork : Network :=
  (Network.start idleConnection 5).receive (onSwitchConnection.map .controller)

theorem enteredNetwork_entered : Entered idleConnection 5 enteredNetwork :=
  .enter (show mainLoop idleConnection 5 [] = .ok [] from rfl) rfl

def answeredNetwork : Network :=
  enteredNetwork.receive ((packetInHandler (flowHeader 80).received).map .controller)

def reportOf (table : List SwitchEntry) : List FlowEntry :=
  (table.filter Asked).map fun e => { taggedEntry 80 100 with
    «match» := e.match
    priority := e.priority }

def reporting (xid : UInt32) (table : List SwitchEntry) : Surroundings :=
  { answering xid (reportOf table) with reads := none :: List.replicate 8 (some 2048) }

theorem enteredNetwork_misses : ¬Admitted enteredNetwork.table (flowHeader 80) := by
  decide +kernel

theorem answeredNetwork_misses : ¬Admitted answeredNetwork.table (flowHeader 443) := by
  decide +kernel

theorem answeredNetwork_entered : Entered idleConnection 5 answeredNetwork :=
  enteredNetwork_entered.serve (.packetIn _ (flowHeader 80) enteredNetwork_misses)

def busyNetwork : Network :=
  answeredNetwork.receive ((packetInHandler (flowHeader 443).received).map .controller)

theorem busyNetwork_entered : Entered idleConnection 5 busyNetwork :=
  answeredNetwork_entered.serve (.packetIn _ (flowHeader 443) answeredNetwork_misses)

theorem busyNetwork_iterates :
    ∃ r, iteration busyNetwork.main (reporting 5 busyNetwork.table) = .ok r ∧
      r.flowMods ≠ [] ∧ Admitted (busyNetwork.after r).table (flowHeader 80) := by
  have hrun : returns (iteration busyNetwork.main (reporting 5 busyNetwork.table)) (fun r =>
      decide (r.flowMods.isEmpty = false ∧
        Admitted (busyNetwork.after r).table (flowHeader 80))) = true := by
    decide +kernel
  obtain ⟨r, hr, htest⟩ := exists_of_returns hrun
  obtain ⟨hretags, hadmitted⟩ := of_decide_eq_true htest
  exact ⟨r, hr, List.isEmpty_eq_false_iff.mp hretags, hadmitted⟩

theorem flowMods_lt {s : MainState} {i : Surroundings} {r : Iteration} (hlive : s.map.Live)
    (hok : iteration s i = .ok r) :
    ∀ message ∈ r.flowMods, message.IsModVlan ∧ message.move.2 < NB_CORES := by
  obtain ⟨-, sampled, flows, coreLoad, t, hr⟩ := iteration_spec hlive hok
  intro message hmessage
  refine ⟨hr.writes.modVlan message hmessage, ?_⟩
  have hmove := hr.writes.sublist.subset (List.mem_map_of_mem hmessage)
  obtain ⟨m, hm, heq⟩ := List.mem_map.mp hmove
  rw [← hr.migrations] at hm
  rw [← heq]
  exact (hr.balancing.moved m hm).1

structure Served (n n' : Network) : Prop where
  programmed : Programmed n'.table
  keeps : ∃ new, n'.history = n.history ++ new ∧ Keeps (retagging new) n.table n'.table

theorem ServingStep.served {n n' : Network} (hstep : ServingStep n n') (hlive : n.main.map.Live)
    (hp : Programmed n.table) : Served n n' := by
  cases hstep with
  | packetIn p hmiss =>
    obtain ⟨hp', hkeeps⟩ := hp.packetIn hmiss
    refine ⟨hp', _, rfl, ?_⟩
    rw [retagging_controller]
    exact hkeeps
  | iterate hok =>
    obtain ⟨hp', hkeeps⟩ := hp.foldl (flowMods_lt hlive hok)
    refine ⟨hp', _, rfl, ?_⟩
    rw [retagging_orss]
    exact hkeeps

section Runs
variable {connection : OpenflowConnection} {transactionId : UInt32} {n n' : Network}

theorem Entered.programmed (h : Entered connection transactionId n) : Programmed n.table := by
  induction h with
  | enter hrun hmain =>
    rw [Network.receive, onSwitchConnection_table]
    exact enteredTable_programmed
  | serve h hstep ih => exact (hstep.served h.live ih).programmed

theorem Entered.run (h : Entered connection transactionId n)
    (hrun : Relation.ReflTransGen ServingStep n n') :
    Entered connection transactionId n' ∧
      ∃ new, n'.history = n.history ++ new ∧ Keeps (retagging new) n.table n'.table := by
  induction hrun with
  | refl => exact ⟨h, [], (List.append_nil _).symm, fun e he => ⟨e, he, .refl e⟩⟩
  | tail _ hstep ih =>
    obtain ⟨hentered, new, hhistory, hkeeps⟩ := ih
    obtain ⟨-, new', hhistory', hkeeps'⟩ :=
      hstep.served hentered.live hentered.programmed
    refine ⟨hentered.serve hstep, new ++ new', ?_, ?_⟩
    · rw [hhistory', hhistory, List.append_assoc]
    · rw [retagging_append]
      exact hkeeps.trans hkeeps'

theorem Programmed.verdict {table : List SwitchEntry} (h : Programmed table) {p : PacketHeader}
    {e : SwitchEntry} (he : e ∈ table) (hadmits : e.match.admits p = true) :
    (e.actions = [.output OUT_PORT] ∧ p.inPort = HOST_PORT) ∨
    (e.actions = [.output OFPP_FLOOD] ∧ p.dlType = ETH_TYPE_ARP) ∨
    (Delivery e.actions ∧ p.inPort ≠ HOST_PORT ∧ p.dlType = ETH_TYPE_IP) := by
  rcases h.serves e he with rfl | rfl | hserves
  · exact .inr (.inl ⟨rfl, floodEntry_admits.mp hadmits⟩)
  · exact .inl ⟨rfl, egressEntry_admits.mp hadmits⟩
  · right
    right
    refine ⟨hserves.delivery, ?_⟩
    obtain ⟨inPort, hport, ⟨src, hmatch⟩ | ⟨key, hmatch⟩⟩ := hserves.shape
    · rw [hmatch, icmpArguments_admits] at hadmits
      exact ⟨hadmits.1 ▸ hport, hadmits.2.1.symm⟩
    · rw [hmatch, flowArguments_admits] at hadmits
      exact ⟨hadmits.1 ▸ hport, hadmits.2.1.symm⟩

/-- Behind the entry of the switch no packet of the host and no ARP goes to the
controller; the host's packets leave by the network's port, ARP is flooded, and
an IPv4 packet that an entry admits is tagged for a core and goes to the host. -/
theorem forwarding_verdicts (h : Entered connection transactionId n) (p : PacketHeader) :
    (p.inPort = HOST_PORT ∨ p.dlType = ETH_TYPE_ARP → Admitted n.table p) ∧
      ∀ e ∈ n.table, e.match.admits p = true →
        (e.actions = [.output OUT_PORT] ∧ p.inPort = HOST_PORT) ∨
        (e.actions = [.output OFPP_FLOOD] ∧ p.dlType = ETH_TYPE_ARP) ∨
        (Delivery e.actions ∧ p.inPort ≠ HOST_PORT ∧ p.dlType = ETH_TYPE_IP) := by
  have hp := h.programmed
  constructor
  · rintro (hport | harp)
    · exact ⟨egressEntry, hp.egress, egressEntry_admits.mpr hport⟩
    · exact ⟨floodEntry, hp.flood, floodEntry_admits.mpr harp⟩
  · intro e he hadmits
    exact hp.verdict he hadmits

/-- Both flows have an entry when the iteration runs. -/
theorem forwarding_verdicts_served :
    ∃ r, iteration busyNetwork.main (reporting 5 busyNetwork.table) = .ok r ∧
      r.flowMods ≠ [] ∧ Admitted (busyNetwork.after r).table (flowHeader 80) ∧
      ((flowHeader 80).inPort = HOST_PORT ∨ (flowHeader 80).dlType = ETH_TYPE_ARP →
        Admitted (busyNetwork.after r).table (flowHeader 80)) ∧
      ∀ e ∈ (busyNetwork.after r).table, e.match.admits (flowHeader 80) = true →
        (e.actions = [.output OUT_PORT] ∧ (flowHeader 80).inPort = HOST_PORT) ∨
        (e.actions = [.output OFPP_FLOOD] ∧ (flowHeader 80).dlType = ETH_TYPE_ARP) ∨
        (Delivery e.actions ∧ (flowHeader 80).inPort ≠ HOST_PORT ∧
          (flowHeader 80).dlType = ETH_TYPE_IP) := by
  obtain ⟨r, hr, hretags, hadmitted⟩ := busyNetwork_iterates
  have hentered := busyNetwork_entered.serve (.iterate hr)
  exact ⟨r, hr, hretags, hadmitted, forwarding_verdicts hentered (flowHeader 80)⟩

/-- Until the switch is entered again, a flow that the controller has answered
never comes back to it. -/
theorem packet_in_once (h : Entered connection transactionId n) {p q : PacketHeader}
    (hmiss : ¬Admitted n.table p) (hip : p.dlType = ETH_TYPE_IP) (hproto : p.Supported)
    (hrun : Relation.ReflTransGen ServingStep
      (n.receive ((packetInHandler p.received).map .controller)) n') (hflow : p.SameFlow q) :
    Admitted n'.table q := by
  have hanswered := h.serve (.packetIn n p hmiss)
  obtain ⟨-, new, -, hkeeps⟩ := hanswered.run hrun
  apply hkeeps.admitted
  obtain ⟨m, hm, hanswers⟩ := packetInHandler_answers hip hproto
  refine ⟨⟨m.match, m.priority, m.actions⟩, ?_, hanswers.admits q hflow⟩
  rw [Network.receive, hm, List.map_singleton, List.foldl_cons, List.foldl_nil, handle]
  dsimp only [SwitchMessage.flowMod]
  rw [applyFlowMod, hanswers.command]
  exact List.mem_append_right _ (List.mem_singleton.mpr rfl)

/-- The second packet-in and the iteration leave the entry of the first flow. -/
theorem packet_in_once_served :
    ∃ r, iteration busyNetwork.main (reporting 5 busyNetwork.table) = .ok r ∧
      r.flowMods ≠ [] ∧
      Admitted (busyNetwork.after r).table { flowHeader 80 with nwTos := 4 } := by
  obtain ⟨r, hr, hretags, -⟩ := busyNetwork_iterates
  have hrun : Relation.ReflTransGen ServingStep answeredNetwork (busyNetwork.after r) :=
    (Relation.ReflTransGen.single (.packetIn _ (flowHeader 443) answeredNetwork_misses)).tail
      (.iterate hr)
  exact ⟨r, hr, hretags, packet_in_once enteredNetwork_entered enteredNetwork_misses rfl
    (.inr (.inl rfl)) hrun ⟨rfl, rfl, rfl⟩⟩

theorem Programmed.match_eq {table : List SwitchEntry} (h : Programmed table) {p : PacketHeader}
    (hport : p.inPort ≠ HOST_PORT) (hip : p.dlType = ETH_TYPE_IP) (hicmp : p.nwProto ≠ IP_ICMP)
    {e : SwitchEntry} (he : e ∈ table) (hadmits : e.match.admits p = true) :
    e.match = ofpMatch (flowArguments p.inPort p.key) := by
  rcases h.serves e he with rfl | rfl | hserves
  · rw [floodEntry_admits, hip] at hadmits
    exact absurd hadmits (by decide)
  · exact absurd (egressEntry_admits.mp hadmits) hport
  · obtain ⟨inPort, -, ⟨src, hmatch⟩ | ⟨key, hmatch⟩⟩ := hserves.shape
    · rw [hmatch, icmpArguments_admits] at hadmits
      exact absurd hadmits.2.2.1.symm hicmp
    · rw [hmatch, flowArguments_admits] at hadmits
      rw [hmatch, hadmits.1, hadmits.2.2]

theorem Programmed.exact {table : List SwitchEntry} (h : Programmed table) {key : FiveTuple}
    (hicmp : key.proto ≠ IP_ICMP) {p : PacketHeader} (hp : p.BelongsTo key) {e : SwitchEntry}
    (he : e ∈ table) (hadmits : e.match.admits p = true) : e.match = exactMatch key := by
  have hport : p.inPort ≠ HOST_PORT := by
    rw [hp.inPort]
    decide
  have hkey : p.key = key := by
    rw [PacketHeader.key, hp.srcIp, hp.dstIp, hp.srcPort, hp.dstPort, hp.proto]
  rw [h.match_eq hport hp.ipv4 (hp.proto.trans_ne hicmp) he hadmits, hp.inPort, hkey, exactMatch_eq]

/-- A flow from the network has one entry, and keeps it until the switch is
entered again; its tag is that of the last `FLOW_MOD` for the flow, or still the
one that it had. -/
theorem flow_tag_follows_flow_mods (h : Entered connection transactionId n)
    (hrun : Relation.ReflTransGen ServingStep n n') {key : FiveTuple}
    (hicmp : key.proto ≠ IP_ICMP) {p : PacketHeader} (hp : p.BelongsTo key) {e : SwitchEntry}
    (he : e ∈ n.table) (hadmits : e.match.admits p = true) :
    ∃ vlan new e' vlan', e.actions = [.setVlanVid vlan, .output HOST_PORT] ∧
      n'.history = n.history ++ new ∧
      (∀ q : PacketHeader, q.BelongsTo key → ∀ e'' ∈ n'.table,
        e''.match.admits q = true ↔ e'' = e') ∧
      e' ∈ n'.table ∧ e'.actions = [.setVlanVid vlan', .output HOST_PORT] ∧
      vlan'.toNat = (lastMove (retagging new) key).getD vlan.toNat := by
  have hmatch := h.programmed.exact hicmp hp he hadmits
  have hdelivery : Delivery e.actions := by
    rcases h.programmed.verdict he hadmits with hhost | harp | hserved
    · have hport := hhost.2
      rw [hp.inPort] at hport
      exact absurd hport (by decide)
    · have htype := harp.2
      rw [hp.ipv4] at htype
      exact absurd htype (by decide)
    · exact hserved.1
  obtain ⟨vlan, -, hactions⟩ := hdelivery
  obtain ⟨hentered, new, hhistory, hkeeps⟩ := h.run hrun
  obtain ⟨e', he', hretag⟩ := hkeeps e he
  obtain ⟨vlan', hactions', hvlan⟩ := hretag.tag key vlan hmatch hactions
  refine ⟨vlan, new, e', vlan', hactions, hhistory, ?_, he', hactions', hvlan⟩
  intro q hq e'' he''
  have hmatch' : e'.match = exactMatch key := hretag.match.trans hmatch
  constructor
  · intro hadmits'
    have hsame := hentered.programmed.exact hicmp hq he'' hadmits'
    exact List.inj_on_of_nodup_map hentered.programmed.distinct he'' he' (hsame.trans hmatch'.symm)
  · rintro rfl
    rw [hmatch']
    exact exactMatch_admits.mpr hq

/-- The first iteration moves the flow. -/
theorem flow_tag_follows_flow_mods_moved :
    ∃ r, iteration answeredNetwork.main (reporting 5 answeredNetwork.table) = .ok r ∧
      (lastMove (retagging (r.flowMods.map .orss)) (flowKey 80)).isSome = true ∧
      ∃ vlan new e' vlan', defaultActions = [.setVlanVid vlan, .output HOST_PORT] ∧
        (answeredNetwork.after r).history = answeredNetwork.history ++ new ∧
        (∀ q : PacketHeader, q.BelongsTo (flowKey 80) → ∀ e'' ∈ (answeredNetwork.after r).table,
          e''.match.admits q = true ↔ e'' = e') ∧
        e' ∈ (answeredNetwork.after r).table ∧
        e'.actions = [.setVlanVid vlan', .output HOST_PORT] ∧
        vlan'.toNat = (lastMove (retagging new) (flowKey 80)).getD vlan.toNat := by
  have hrun : returns (iteration answeredNetwork.main (reporting 5 answeredNetwork.table))
      (fun r => (lastMove (retagging (r.flowMods.map .orss)) (flowKey 80)).isSome) = true := by
    decide +kernel
  obtain ⟨r, hr, hmoved⟩ := exists_of_returns hrun
  refine ⟨r, hr, hmoved, ?_⟩
  exact flow_tag_follows_flow_mods (p := flowHeader 80) (e := ⟨exactMatch (flowKey 80),
    OFP_DEFAULT_PRIORITY, defaultActions⟩) answeredNetwork_entered
    (.single (.iterate hr)) (by decide) ⟨rfl, rfl, rfl, rfl, rfl, rfl, rfl⟩
    (by decide +kernel) (by decide +kernel)

end Runs

end OrssNic
