import OrssNic.MainLoop
import OrssNic.BalancerLoop

/-!
# The record of the writes

Receiving, answering echo requests and asking for statistics write no
`FLOW_MOD`; the loop of `main` over the migrations writes one for each, in
order. A `FLOW_MOD` is read back as the flow it is for and the tag it sets.
-/

namespace OrssNic
open CLoops CEndian Placement

def flowMods (requests : List OpenflowRequest) : List OpenflowFlowModMessage :=
  requests.filterMap fun
    | .flowMod message => some message
    | _ => none

@[simp] theorem flowMods_append (requests requests' : List OpenflowRequest) :
    flowMods (requests ++ requests') = flowMods requests ++ flowMods requests' :=
  List.filterMap_append

def Socket.FlowModsSucceed (fd : Socket) : Prop := flowMods fd.failed = []

instance (fd : Socket) : Decidable fd.FlowModsSucceed :=
  inferInstanceAs (Decidable (flowMods fd.failed = []))

structure Quiet (fd fd' : Socket) : Prop where
  sent : flowMods fd'.sent = flowMods fd.sent
  failed : flowMods fd'.failed = flowMods fd.failed

namespace Quiet
variable {fd fd' fd'' : Socket}

theorem refl (fd : Socket) : Quiet fd fd := ⟨rfl, rfl⟩

theorem trans (h : Quiet fd fd') (h' : Quiet fd' fd'') : Quiet fd fd'' :=
  ⟨h'.sent.trans h.sent, h'.failed.trans h.failed⟩

theorem read {count : ℕ} {bytes : Option (List UInt8)}
    (h : OrssNic.read fd count = .ok (bytes, fd')) : Quiet fd fd' := by
  obtain ⟨reads, ⟨-, -, rfl⟩ | ⟨k, -, -, rfl⟩⟩ := read_ok h
  · exact ⟨rfl, rfl⟩
  · exact ⟨rfl, rfl⟩

theorem write (fd : Socket) {request : OpenflowRequest} (h : flowMods [request] = []) :
    Quiet fd (write fd request).2 := by
  unfold OrssNic.write
  split
  · exact ⟨rfl, by simp [h]⟩
  · exact ⟨by simp [h], rfl⟩
  · exact ⟨by simp [h], rfl⟩

theorem safeRead {buf : List UInt8} {count : UInt16} {s : SafeRead}
    (h : safeRead fd buf count = .ok s) : Quiet fd s.fd := by
  obtain ⟨hreach, -⟩ := whileLoop_correct h
  refine hreach.invariant (P := fun s => Quiet fd s.fd) (.refl fd) fun t t' ht hstep => ?_
  obtain ⟨-, valread, hread, -⟩ := safeReadStep_ok hstep
  exact ht.trans (.read hread)

theorem readOpenflowMessage {message message' : OpenflowMessage} {received : ℤ}
    (h : readOpenflowMessage fd message = .ok (received, fd', message')) : Quiet fd fd' := by
  unfold OrssNic.readOpenflowMessage at h
  obtain ⟨⟨valread, fd₁⟩, hread, h⟩ := bind_eq_ok.mp h
  obtain ⟨bytes, -, h⟩ := bind_eq_ok.mp h
  dsimp only at h
  split_ifs at h
  · obtain ⟨s, hsafe, h⟩ := bind_eq_ok.mp h
    cases h
    exact (read hread).trans (safeRead hsafe)
  · cases h
    exact read hread
  · cases h
    exact read hread

theorem controlLogic (fd : Socket) (message : OpenflowMessage) :
    Quiet fd (controlLogic fd message) := by
  unfold OrssNic.controlLogic
  split_ifs
  · exact write fd rfl
  · exact .refl fd

end Quiet

theorem openflowControl_quiet {connection connection' : OpenflowConnection}
    (h : openflowControl connection = .ok connection') : Quiet connection.fd connection'.fd := by
  unfold openflowControl at h
  obtain ⟨fd, hbuffer, h⟩ := bind_eq_ok.mp h
  obtain ⟨s, hsocket, h⟩ := bind_eq_ok.mp h
  cases h
  have hfirst : Quiet connection.fd fd := by
    refine forLoop_correct (P := fun _ fd => Quiet connection.fd fd) (.refl _) ?_ hbuffer
    intro i fd fd' _ hfd hstep
    obtain ⟨message, -, hstep⟩ := bind_eq_ok.mp hstep
    cases hstep
    exact hfd.trans (.controlLogic fd message)
  refine hfirst.trans ?_
  obtain ⟨hreach, -⟩ := whileLoop_correct hsocket
  refine hreach.invariant (P := fun s => Quiet fd s.fd) (.refl fd) fun t t' ht hstep => ?_
  unfold controlSocketStep at hstep
  split_ifs at hstep
  · cases hstep
  · obtain ⟨⟨received, fd', message⟩, hread, hstep⟩ := bind_eq_ok.mp hstep
    have hfd' := ht.trans (.readOpenflowMessage hread)
    dsimp only at hstep
    split_ifs at hstep
    · cases hstep
      exact hfd'.trans (.controlLogic fd' message)
    · cases hstep
      exact hfd'

theorem openflowWaitForMessage_quiet {connection connection' : OpenflowConnection} {type : UInt8}
    {msg msg' : OpenflowMessage} {xid : UInt32}
    (h : openflowWaitForMessage connection type msg xid = .ok (connection', msg')) :
    Quiet connection.fd connection'.fd := by
  unfold openflowWaitForMessage at h
  obtain ⟨s, hloop, h⟩ := bind_eq_ok.mp h
  cases h
  obtain ⟨hreach, -⟩ := whileLoop_correct hloop
  refine hreach.invariant (P := fun s => Quiet connection.fd s.connection.fd) (.refl _) ?_
  intro t t' ht hstep
  obtain ⟨-, received, fd, msg, hread, hcases⟩ := waitStep_ok hstep
  have hfd := ht.trans (.readOpenflowMessage hread)
  obtain ⟨-, rfl⟩ | ⟨-, -, rfl⟩ | ⟨-, -, connection₁, hbuffer, rfl⟩ := hcases
  · exact hfd
  · exact hfd
  · rw [(bufferMessage_ok hbuffer).2.1]
    exact hfd

theorem openflowGetFlows_quiet {connection : OpenflowConnection} {transactionId : UInt32}
    {stack : ℕ → OpenflowMessage} {flows : OpenflowFlows} {payloads : Heap ActionPayload}
    {r : GetFlows} (h : openflowGetFlows connection transactionId stack flows payloads = .ok r) :
    Quiet connection.fd r.connection.fd := by
  obtain ⟨asked, rfl, rfl | ⟨s, parsed, hreach, -, rfl⟩⟩ := openflowGetFlows_ok h
  · exact .write _ rfl
  · refine hreach.invariant (P := fun s => Quiet connection.fd s.connection.fd) (.write _ rfl) ?_
    intro t t' ht hstep
    obtain ⟨-, msg, msg', -, -, -, hwait, -⟩ := collectStep_ok hstep
    exact ht.trans (openflowWaitForMessage_quiet hwait)

/-! ## Flow modifications -/

namespace OpenflowFlowModMessage

def fiveTuple (message : OpenflowFlowModMessage) : FiveTuple where
  srcIp := ntohl message.body.match.nwSrc
  dstIp := ntohl message.body.match.nwDst
  srcPort := ntohs message.body.match.tpSrc
  dstPort := ntohs message.body.match.tpDst
  proto := message.body.match.nwProto

def vlan (message : OpenflowFlowModMessage) : UInt16 := ntohs message.vlanVid.vlanVid

/-- The flow and its new VLAN id, as a move of the flow. -/
def move (message : OpenflowFlowModMessage) : FiveTuple × ℕ :=
  (message.fiveTuple, message.vlan.toNat)

end OpenflowFlowModMessage

theorem ntohs_htons (x : UInt16) : ntohs (htons x) = x := by
  have hswap : bswap 2 x.toNat < 2 ^ 16 := bswap_lt 2 _
  have hx : bswap 2 (bswap 2 x.toNat) = x.toNat := bswap_bswap x.toNat_lt
  rw [ntohs, htons, ntohs, UInt16.toNat_ofNat', Nat.mod_eq_of_lt hswap, hx, UInt16.ofNat_toNat]

theorem ntohl_htonl (x : UInt32) : ntohl (htonl x) = x := by
  have hswap : bswap 4 x.toNat < 2 ^ 32 := bswap_lt 4 _
  have hx : bswap 4 (bswap 4 x.toNat) = x.toNat := bswap_bswap x.toNat_lt
  rw [ntohl, htonl, ntohl, UInt32.toNat_ofNat', Nat.mod_eq_of_lt hswap, hx, UInt32.ofNat_toNat]

@[simp] theorem flowModMessage_fiveTuple (transactionId : UInt32) (fiveTuple : FiveTuple)
    (newVlan : UInt16) :
    (flowModMessage transactionId fiveTuple newVlan).fiveTuple = fiveTuple := by
  simp only [OpenflowFlowModMessage.fiveTuple, flowModMessage, fiveTupleMatch, ntohs_htons,
    ntohl_htonl]

@[simp] theorem flowModMessage_vlan (transactionId : UInt32) (fiveTuple : FiveTuple)
    (newVlan : UInt16) : (flowModMessage transactionId fiveTuple newVlan).vlan = newVlan :=
  ntohs_htons newVlan

/-- The moves of flows that the switch has been told of, in order. -/
def ledger (fd : Socket) : List (FiveTuple × ℕ) :=
  (flowMods fd.sent).map OpenflowFlowModMessage.move

def OpenflowFlowModMessage.IsModVlan (message : OpenflowFlowModMessage) : Prop :=
  ∃ transactionId fiveTuple newVlan, message = flowModMessage transactionId fiveTuple newVlan

/-- The messages `new` are those sent for the migrations between two states of
the socket. -/
structure Written (fd fd' : Socket) (migrations : List Migration)
    (new : List OpenflowFlowModMessage) : Prop where
  sent : flowMods fd'.sent = flowMods fd.sent ++ new
  modVlan : ∀ message ∈ new, message.IsModVlan
  sublist : (new.map OpenflowFlowModMessage.move).Sublist (moves migrations)
  failed : fd'.FlowModsSucceed → fd.FlowModsSucceed
  all : fd'.FlowModsSucceed → new.map OpenflowFlowModMessage.move = moves migrations

namespace Written
variable {fd fd' fd'' : Socket} {migrations migrations' : List Migration}
variable {new new' : List OpenflowFlowModMessage}

theorem nil (fd : Socket) : Written fd fd [] [] :=
  ⟨by simp, by simp, by simp, id, fun _ => rfl⟩

theorem append (h : Written fd fd' migrations new) (h' : Written fd' fd'' migrations' new') :
    Written fd fd'' (migrations ++ migrations') (new ++ new') where
  sent := by rw [h'.sent, h.sent, List.append_assoc]
  modVlan := by
    rw [List.forall_mem_append]
    exact ⟨h.modVlan, h'.modVlan⟩
  sublist := by
    rw [moves, List.map_append, List.map_append]
    exact h.sublist.append h'.sublist
  failed := fun hfailed => h.failed (h'.failed hfailed)
  all := by
    intro hfailed
    rw [List.map_append, h.all (h'.failed hfailed), h'.all hfailed, moves, moves, moves,
      List.map_append]

theorem quiet (h : Quiet fd fd') (h' : Written fd' fd'' migrations new) :
    Written fd fd'' migrations new where
  sent := by rw [h'.sent, h.sent]
  modVlan := h'.modVlan
  sublist := h'.sublist
  failed := fun hfailed => h.failed.symm.trans (h'.failed hfailed)
  all := h'.all

theorem drop (h : Written fd fd' migrations new) :
    Written fd fd' migrations ((flowMods fd'.sent).drop (flowMods fd.sent).length) := by
  rwa [h.sent, List.drop_left]

theorem ledger (h : Written fd fd' migrations new) (hfailed : fd'.FlowModsSucceed) :
    OrssNic.ledger fd' = OrssNic.ledger fd ++ moves migrations := by
  rw [OrssNic.ledger, h.sent, List.map_append, h.all hfailed]
  rfl

end Written

theorem applyMigration_written (fd : Socket) (transactionId : UInt32) {m : Migration}
    (hm : m.destinationCore < NB_CORES) :
    ∃ new, Written fd (applyMigration fd transactionId m).1 [m] new := by
  have hcore : (UInt16.ofNat m.destinationCore).toNat = m.destinationCore := by
    rw [NB_CORES] at hm
    rw [UInt16.toNat_ofNat', Nat.mod_eq_of_lt (by omega)]
  obtain ⟨message, hmessage⟩ : ∃ message, message =
    flowModMessage transactionId m.key (UInt16.ofNat m.destinationCore) := ⟨_, rfl⟩
  have hmove : message.move = (m.key, m.destinationCore) := by
    rw [hmessage, OpenflowFlowModMessage.move, flowModMessage_fiveTuple, flowModMessage_vlan,
      hcore]
  have hsent : ∀ writes, Written fd
      { fd with writes := writes, sent := fd.sent ++ [.flowMod message] } [m] [message] := by
    intro writes
    refine ⟨flowMods_append _ _, ?_, ?_, id, fun _ => ?_⟩
    · rw [List.forall_mem_singleton]
      exact ⟨_, _, _, hmessage⟩
    · simp [moves, hmove]
    · simp [moves, hmove]
  simp only [applyMigration, openflowModVlan, write, ← hmessage]
  split
  · exact ⟨[], by simp, by simp, by simp, by simp [Socket.FlowModsSucceed, flowMods],
      by simp [Socket.FlowModsSucceed, flowMods]⟩
  · exact ⟨_, hsent _⟩
  · exact ⟨_, hsent fd.writes⟩

theorem applyMigrations_concat (fd : Socket) (transactionId : UInt32)
    (migrations : List Migration) (m : Migration) :
    applyMigrations fd transactionId (migrations ++ [m]) =
      applyMigration (applyMigrations fd transactionId migrations).1
        (applyMigrations fd transactionId migrations).2 m := by
  simp [applyMigrations]

theorem applyMigrations_written (fd : Socket) (transactionId : UInt32)
    {migrations : List Migration} (h : ∀ m ∈ migrations, m.destinationCore < NB_CORES) :
    ∃ new, Written fd (applyMigrations fd transactionId migrations).1 migrations new := by
  induction migrations using List.reverseRecOn with
  | nil => exact ⟨[], .nil fd⟩
  | append_singleton migrations m ih =>
    rw [List.forall_mem_append, List.forall_mem_singleton] at h
    obtain ⟨new, hnew⟩ := ih h.1
    obtain ⟨last, hlast⟩ := applyMigration_written
      (applyMigrations fd transactionId migrations).1
      (applyMigrations fd transactionId migrations).2 h.2
    rw [applyMigrations_concat]
    exact ⟨new ++ last, hnew.append hlast⟩

end OrssNic
