import OrssNic.Network
import OrssNic.ReportedFlows

/-!
# Agreement of the switch and the balancer

`Tagged` relates the flow table to its history, whatever the order of the
messages; with the placement ledger, the undisturbed exact entries carry the
assigned cores.
-/

namespace OrssNic
open CLoops CRuns Placement

/-- Every entry is exact for a flow or out of the reach of the retagging. An
undisturbed exact entry has the tag of the last `FLOW_MOD` for its flow; the
other entries on the network port have the default tag. -/
structure Tagged (table : List SwitchEntry) (history : List SwitchMessage) : Prop where
  shape : ∀ e ∈ table, (∀ key, (exactMatch key).covers e.match = false) ∨
    ∃ key, e.match = exactMatch key
  tag : ∀ e ∈ table, ∀ key, e.match = exactMatch key → Undisturbed key history →
    ∃ vlan, vlanOf e.actions = some vlan ∧
      vlan.toNat = (lastMove (retagging history) key).getD 0
  untouched : ∀ e ∈ table, Asked e = true → (∀ key, (exactMatch key).covers e.match = false) →
    vlanOf e.actions = some Controller.DEFAULT_VLAN

def SwitchMessage.Admissible : SwitchMessage → Prop
  | controller m => Controller.Installs m
  | orss message => message.IsModVlan

section Handle
variable {table : List SwitchEntry} {history : List SwitchMessage} {e : SwitchEntry}

theorem Tagged.shape_covers (h : Tagged table history) (he : e ∈ table) {key : FiveTuple}
    (hcovers : (exactMatch key).covers e.match = true) : e.match = exactMatch key := by
  rcases h.shape e he with hnone | ⟨key', hkey'⟩
  · rw [hnone key] at hcovers
    cases hcovers
  · rw [hkey', exactMatch_covers_exactMatch] at hcovers
    rw [hkey', hcovers]

theorem Tagged.tag_concat (h : Tagged table history) (he : e ∈ table) {key : FiveTuple}
    {message : SwitchMessage} (hkey : e.match = exactMatch key)
    (hretags : message.retags key = false) (hu : Undisturbed key (history ++ [message])) :
    ∃ vlan, vlanOf e.actions = some vlan ∧
      vlan.toNat = (lastMove (retagging (history ++ [message])) key).getD 0 := by
  obtain ⟨vlan, hvlan, htag⟩ := h.tag e he key hkey (hu.of_concat hretags)
  refine ⟨vlan, hvlan, ?_⟩
  rw [htag, retagging_append, lastMove_append]
  have hlast : lastMove (retagging [message]) key = none :=
    lastMove_retagging_eq_none (List.forall_mem_singleton.mpr hretags)
  rw [hlast, Option.none_or]

theorem Tagged.controller {m : FlowMod} (h : Tagged table history)
    (hm : Controller.Installs m) :
    Tagged (handle table (.controller m)) (history ++ [.controller m]) := by
  rcases hm with hdelete | ⟨hadd, hshape, hvlan⟩
  · have hsub : ∀ e ∈ handle table (.controller m), e ∈ table := by
      intro e he
      simp only [handle, SwitchMessage.flowMod, applyFlowMod, hdelete] at he
      exact (List.mem_filter.mp he).1
    exact ⟨fun e he => h.shape e (hsub e he),
      fun e he key hkey hu => h.tag_concat (hsub e he) hkey rfl hu,
      fun e he => h.untouched e (hsub e he)⟩
  · have hmem : ∀ e ∈ handle table (.controller m), e ∈ table ∨
        e = ⟨m.match, m.priority, m.actions⟩ := by
      intro e he
      simp only [handle, SwitchMessage.flowMod, applyFlowMod, hadd] at he
      exact mem_addEntry he
    refine ⟨fun e he => ?_, fun e he key hkey hu => ?_, fun e he hasked hnone => ?_⟩
    · rcases hmem e he with he | rfl
      · exact h.shape e he
      · exact hshape
    · rcases hmem e he with he | rfl
      · exact h.tag_concat he hkey rfl hu
      · have hmatch : m.match = exactMatch key := hkey
        have hinstalls : (SwitchMessage.controller m).installs key = true := by
          simp only [SwitchMessage.installs, hadd, hmatch, beq_self_eq_true, Bool.and_self]
        obtain ⟨⟨hwild, hport⟩, -⟩ := exactMatch_covers.mp
          (exactMatch_covers_exactMatch.mpr (Eq.refl key))
        refine ⟨_, hvlan (hmatch ▸ hwild) (hmatch ▸ hport.symm), ?_⟩
        rw [retagging_append, lastMove_append,
          lastMove_retagging_eq_none (hu.never_retagged rfl hinstalls)]
        rfl
    · rcases hmem e he with he | rfl
      · exact h.untouched e he hasked hnone
      · obtain ⟨hwild, hport⟩ := asked_iff.mp hasked
        exact hvlan hwild hport

theorem Tagged.orss {message : OpenflowFlowModMessage} (h : Tagged table history)
    (hm : message.IsModVlan) :
    Tagged (handle table (.orss message)) (history ++ [.orss message]) := by
  obtain ⟨transactionId, key', vlan, rfl⟩ := hm
  obtain ⟨message, hmessage⟩ : ∃ message, message = flowModMessage transactionId key' vlan :=
    ⟨_, rfl⟩
  have hflowMod : (SwitchMessage.orss message).flowMod =
      some ⟨.modify, exactMatch key', 0, [.setVlanVid vlan, .output OVS_HOST_IFINDEX]⟩ :=
    hmessage ▸ flowModMessage_flowMod transactionId key' vlan
  have hmove : message.move = (key', vlan.toNat) := by
    rw [hmessage, OpenflowFlowModMessage.move, flowModMessage_fiveTuple, flowModMessage_vlan]
  have hlast : lastMove (retagging (history ++ [.orss message])) key' = some vlan.toNat := by
    rw [retagging_append]
    change lastMove (_ ++ [message.move]) key' = _
    rw [lastMove_concat, hmove, if_pos rfl]
  have hretags : ∀ key, key ≠ key' → (SwitchMessage.orss message).retags key = false := by
    intro key hkey
    rw [SwitchMessage.retags, hmessage, flowModMessage_fiveTuple]
    exact beq_eq_false_iff_ne.mpr hkey.symm
  rw [← hmessage]
  have hmem : ∀ e' ∈ handle table (.orss message),
      (e'.match = exactMatch key' ∧ vlanOf e'.actions = some vlan) ∨
      e' ∈ table ∧ (exactMatch key').covers e'.match = false := by
    intro e' he'
    simp only [handle, hflowMod] at he'
    rcases mem_modify rfl he' with ⟨hactions, hmatch | ⟨e, he, hmatch, hcovers⟩⟩ | hold
    · exact .inl ⟨hmatch, by rw [hactions]; rfl⟩
    · exact .inl ⟨hmatch ▸ h.shape_covers he hcovers, by rw [hactions]; rfl⟩
    · exact .inr hold
  refine ⟨fun e' he' => ?_, fun e' he' key hkey hu => ?_, fun e' he' hasked hnone => ?_⟩
  · rcases hmem e' he' with ⟨hmatch, -⟩ | ⟨hold, -⟩
    · exact .inr ⟨key', hmatch⟩
    · exact h.shape e' hold
  · rcases hmem e' he' with ⟨hmatch, hvlan⟩ | ⟨hold, hcovers⟩
    · have hkeys : key' = key := exactMatch_inj.mp (hmatch.symm.trans hkey)
      rw [← hkeys, hlast]
      exact ⟨vlan, hvlan, rfl⟩
    · -- An entry that the message does not cover belongs to another flow.
      have hne : key ≠ key' := by
        rintro rfl
        rw [hkey, exactMatch_covers_exactMatch.mpr rfl] at hcovers
        cases hcovers
      exact h.tag_concat hold hkey (hretags key hne) hu
  · rcases hmem e' he' with ⟨hmatch, -⟩ | ⟨hold, -⟩
    · have hcovers := hnone key'
      rw [hmatch, exactMatch_covers_exactMatch.mpr rfl] at hcovers
      cases hcovers
    · exact h.untouched e' hold hasked hnone

theorem Tagged.foldl {messages : List SwitchMessage} (h : Tagged table history)
    (hm : ∀ message ∈ messages, message.Admissible) :
    Tagged (messages.foldl handle table) (history ++ messages) := by
  induction messages generalizing table history with
  | nil => simpa using h
  | cons message messages ih =>
    rw [List.forall_mem_cons] at hm
    have hstep : Tagged (handle table message) (history ++ [message]) := by
      cases message with
      | controller m => exact h.controller hm.1
      | orss message => exact h.orss hm.1
    have hrest := ih hstep hm.2
    rwa [List.append_assoc, List.singleton_append] at hrest

theorem foldl_orss_keeps {messages : List OpenflowFlowModMessage} (he : e ∈ table)
    (hm : ∀ message ∈ messages, message.IsModVlan) :
    ∃ e' ∈ (messages.map SwitchMessage.orss).foldl handle table,
      e'.match = e.match ∧ e'.priority = e.priority := by
  induction messages generalizing table e with
  | nil => exact ⟨e, he, rfl, rfl⟩
  | cons message messages ih =>
    rw [List.forall_mem_cons] at hm
    obtain ⟨e₁, he₁, hmatch, hpriority⟩ : ∃ e₁ ∈ handle table (.orss message),
        e₁.match = e.match ∧ e₁.priority = e.priority := by
      obtain ⟨transactionId, key, vlan, rfl⟩ := hm.1
      simp only [handle, SwitchMessage.flowMod, flowModMessage_flowMod, applyFlowMod]
      split_ifs with hany
      · refine ⟨_, List.mem_map_of_mem he, ?_⟩
        split_ifs <;> exact ⟨rfl, rfl⟩
      · by_cases hsame : e.match = exactMatch key ∧ e.priority = 0
        · exact ⟨_, List.mem_append_right _ (List.mem_singleton.mpr rfl), hsame.1.symm,
            hsame.2.symm⟩
        · refine ⟨e, List.mem_append_left _ (List.mem_filter.mpr ⟨he, ?_⟩), rfl, rfl⟩
          rw [not_and_or] at hsame
          simpa using hsame
    obtain ⟨e', he', hmatch', hpriority'⟩ := ih he₁ hm.2
    exact ⟨e', he', hmatch'.trans hmatch, hpriority'.trans hpriority⟩

end Handle

/-! ## The network -/

structure Network.Consistent (n : Network) : Prop where
  live : n.main.map.Live
  replayed : Replayed n.main
  succeed : n.main.connection.fd.FlowModsSucceed
  history : retagging n.history = ledger n.main.connection.fd
  tagged : Tagged n.table n.history

namespace Network.Consistent
variable {n n' : Network}

theorem start (connection : OpenflowConnection) (transactionId : UInt32) :
    (Network.start connection transactionId).Consistent where
  live := .start
  replayed := .start connection transactionId
  succeed := rfl
  history := rfl
  tagged := ⟨by simp [Network.start], by simp [Network.start], by simp [Network.start]⟩

theorem receive {ms : List FlowMod} (h : n.Consistent)
    (hms : ∀ m ∈ ms, Controller.Installs m) :
    (n.receive (ms.map .controller)).Consistent where
  live := h.live
  replayed := h.replayed
  succeed := h.succeed
  history := by
    rw [Network.receive, retagging_append, retagging_controller, List.append_nil, h.history]
  tagged := h.tagged.foldl (List.forall_mem_map.mpr hms)

theorem iterate {i : Surroundings} {r : Iteration} (h : n.Consistent)
    (hok : iteration n.main i = .ok r) (hwrites : r.after.connection.fd.FlowModsSucceed) :
    (n.after r).Consistent := by
  obtain ⟨hbefore, sampled, flows, coreLoad, s, hr⟩ := iteration_spec h.live hok
  refine ⟨hr.afterLive, hr.replayed hwrites (hbefore ▸ h.replayed), hwrites, ?_,
    h.tagged.foldl (List.forall_mem_map.mpr hr.writes.modVlan)⟩
  change retagging (n.history ++ r.flowMods.map .orss) = _
  rw [retagging_append, retagging_orss, h.history, hr.writes.all hwrites, ← hbefore]
  exact (hr.writes.ledger hwrites).symm

theorem reaches {connection : OpenflowConnection} {transactionId : UInt32}
    (h : NetworkReaches connection transactionId n) : n.Consistent := by
  induction h with
  | refl => exact .start connection transactionId
  | tail _ hstep ih =>
    cases hstep with
    | packetIn packet => exact ih.receive (Controller.packetInHandler_installs packet)
    | switchEnter => exact ih.receive Controller.onSwitchConnection_installs
    | iterate hok hreport hwrites => exact ih.iterate hok hwrites

end Network.Consistent

theorem Reports.mem_reported {table : List SwitchEntry} {flows : OpenflowFlows} {e : SwitchEntry}
    (h : Reports table flows) (he : e ∈ table) (hasked : Asked e = true) :
    matchKey e.match ∈ reported flows := by
  have hmem : (e.match, e.priority) ∈
      (reportedStats flows).map fun stats => (stats.match, stats.priority) :=
    h.mem_iff.mpr (List.mem_map_of_mem (List.mem_filter.mpr ⟨he, hasked⟩))
  obtain ⟨stats, hstats, heq⟩ := List.mem_map.mp hmem
  have hmatch : stats.match = e.match := congrArg Prod.fst heq
  rw [← hmatch]
  exact List.mem_map_of_mem hstats

theorem Tagged.of_kept {table : List SwitchEntry} {history : List SwitchMessage} {e : SwitchEntry}
    (h : Tagged table history) (he : e ∈ table) (hasked : Asked e = true)
    (hkept : Kept e.match history) :
    ∃ vlan, vlanOf e.actions = some vlan ∧
      vlan.toNat = (lastMove (retagging history) (matchKey e.match)).getD 0 := by
  rcases h.shape e he with hnone | ⟨key, hkey⟩
  · rcases hkept with hnever | ⟨hexact, -⟩
    · refine ⟨_, h.untouched e he hasked hnone, ?_⟩
      rw [lastMove_retagging_eq_none hnever]
      rfl
    · have hcovers := hnone (matchKey e.match)
      rw [← hexact, hexact, exactMatch_covers_exactMatch.mpr rfl] at hcovers
      cases hcovers
  · have hu := hkept.undisturbed
    rw [hkey, matchKey_exactMatch] at hu ⊢
    exact h.tag e he key hkey hu

/-- Right after an iteration, a reported entry carries the core of its flow, if the
main loop has never retagged the flow, or if the entry is exact and the controller
has not installed the flow since the last `FLOW_MOD` for it. -/
theorem placement_agrees {connection : OpenflowConnection} {transactionId : UInt32} {n : Network}
    {i : Surroundings} {r : Iteration} {e : SwitchEntry}
    (hreach : NetworkReaches connection transactionId n) (hok : iteration n.main i = .ok r)
    (hreport : Reports n.table r.flows) (hwrites : r.after.connection.fd.FlowModsSucceed)
    (he : e ∈ n.table) (hasked : Asked e = true) (hkept : Kept e.match (n.after r).history) :
    ∃ rb, r.after.map.ring (matchKey e.match) = some rb ∧
      (∃ e' ∈ (n.after r).table, e'.match = e.match ∧ e'.priority = e.priority) ∧
      ∀ e' ∈ (n.after r).table, e'.match = e.match →
        ∃ vlan, vlanOf e'.actions = some vlan ∧ vlan.toNat = rb.assignedCore.toNat := by
  have hn := Network.Consistent.reaches hreach
  have hafter := hn.iterate hok hwrites
  obtain ⟨-, sampled, flows, coreLoad, s, hr⟩ := iteration_spec hn.live hok
  obtain ⟨rb, hrb⟩ := MapState.mem_keys_iff_ring.mp
    ((hr.mem_keys (matchKey e.match)).mpr (.inr (hreport.mem_reported he hasked)))
  refine ⟨rb, hrb, foldl_orss_keeps he hr.writes.modVlan, fun e' he' hmatch => ?_⟩
  have hasked' : Asked e' = true := by rwa [Asked, hmatch]
  obtain ⟨vlan, hvlan, htag⟩ := hafter.tagged.of_kept he' hasked' (hmatch ▸ hkept)
  have hcore : assignment r.after.map.hashmap r.after.map.heap (matchKey e.match) =
      rb.assignedCore.toNat := by
    rw [MapState.assignment_eq_ring, hrb]
    rfl
  have hreplayed : assignment r.after.map.hashmap r.after.map.heap =
      replay (fun _ => 0) (ledger r.after.connection.fd) := hafter.replayed
  have hhistory : retagging (n.after r).history = ledger r.after.connection.fd := hafter.history
  refine ⟨vlan, hvlan, ?_⟩
  rw [htag, hhistory, ← hcore, hreplayed, replay_eq_lastMove, hmatch]

def flowPacket (port : UInt16) : Controller.ReceivedPacket where
  inPort := Controller.OUT_PORT
  ethertype := Controller.ETH_TYPE_IP
  proto := Controller.IP_TCP
  src := 0
  dst := 0
  srcPort := port
  dstPort := 0

def Network.packetIn (n : Network) (port : UInt16) : Network :=
  n.receive ((Controller.packetInHandler (flowPacket port)).map .controller)

def exactEntry (port : UInt16) (packetCount : UInt64) : FlowEntry :=
  { taggedEntry port packetCount with
    «match» := exactMatch (flowKey port)
    priority := Controller.OFP_DEFAULT_PRIORITY }

def twoInstalled : Network := ((Network.start idleConnection 5).packetIn 80).packetIn 443

theorem twoInstalled_reaches : NetworkReaches idleConnection 5 twoInstalled :=
  (Relation.ReflTransGen.single (.packetIn _ (flowPacket 80))).tail (.packetIn _ (flowPacket 443))

theorem placement_agrees_twoInstalled :
    ∃ r, iteration twoInstalled.main (answering 5 [exactEntry 80 100, exactEntry 443 100]) =
        .ok r ∧
      ∃ rb, r.after.map.ring (flowKey 80) = some rb ∧
        (∃ e' ∈ (twoInstalled.after r).table, e'.match = exactMatch (flowKey 80) ∧
          e'.priority = Controller.OFP_DEFAULT_PRIORITY) ∧
        ∀ e' ∈ (twoInstalled.after r).table, e'.match = exactMatch (flowKey 80) →
          ∃ vlan, vlanOf e'.actions = some vlan ∧ vlan.toNat = rb.assignedCore.toNat := by
  have hrun : returns (iteration twoInstalled.main
      (answering 5 [exactEntry 80 100, exactEntry 443 100])) (fun r => decide (
        Reports twoInstalled.table r.flows ∧ r.after.connection.fd.FlowModsSucceed ∧
        Kept (exactMatch (flowKey 80)) (twoInstalled.after r).history)) = true := by
    decide +kernel
  obtain ⟨r, hr, htest⟩ := exists_of_returns hrun
  obtain ⟨hreport, hwrites, hkept⟩ := of_decide_eq_true htest
  exact ⟨r, hr, placement_agrees (e := ⟨exactMatch (flowKey 80), Controller.OFP_DEFAULT_PRIORITY,
    Controller.defaultActions⟩) twoInstalled_reaches hr hreport hwrites (by decide) (by decide)
    hkept⟩

/-- A repeated packet-in after the migration resets the tag, and no later
iteration notices. -/
theorem placement_disagrees :
    ¬ ∀ (connection : OpenflowConnection) (transactionId : UInt32) (n : Network)
      (i : Surroundings) (r : Iteration), NetworkReaches connection transactionId n →
      iteration n.main i = .ok r → Reports n.table r.flows →
      r.after.connection.fd.FlowModsSucceed →
      ∀ e ∈ n.table, Asked e = true → ∀ e' ∈ (n.after r).table, e'.match = e.match →
        (vlanOf e'.actions).map UInt16.toNat =
          some (assignment r.after.map.hashmap r.after.map.heap (matchKey e.match)) := by
  intro hagree
  have hrun : returns (do
      let r₁ ← iteration twoInstalled.main (answering 5 [exactEntry 80 100, exactEntry 443 100])
      let r₂ ← iteration r₁.after (answering 17 [exactEntry 443 100, exactEntry 80 100])
      return (r₁, r₂)) (fun r => decide (
        (Reports twoInstalled.table r.1.flows ∧ r.1.after.connection.fd.FlowModsSucceed) ∧
        Reports ((twoInstalled.after r.1).packetIn 80).table r.2.flows ∧
        r.2.after.connection.fd.FlowModsSucceed ∧
        ∃ e ∈ ((twoInstalled.after r.1).packetIn 80).table, Asked e = true ∧
          ∃ e' ∈ (((twoInstalled.after r.1).packetIn 80).after r.2).table, e'.match = e.match ∧
            (vlanOf e'.actions).map UInt16.toNat ≠
              some (assignment r.2.after.map.hashmap r.2.after.map.heap (matchKey e.match)))) =
      true := by
    decide +kernel
  obtain ⟨⟨r₁, r₂⟩, hr, htest⟩ := exists_of_returns hrun
  obtain ⟨r₁', hr₁, hr⟩ := bind_eq_ok.mp hr
  obtain ⟨r₂', hr₂, hr⟩ := bind_eq_ok.mp hr
  cases hr
  obtain ⟨⟨hreport₁, hwrites₁⟩, hreport₂, hwrites₂, e, he, hasked, e', he', hmatch, hne⟩ :=
    of_decide_eq_true htest
  have hreach : NetworkReaches idleConnection 5 ((twoInstalled.after r₁).packetIn 80) :=
    (twoInstalled_reaches.tail (.iterate hr₁ hreport₁ hwrites₁)).tail
      (.packetIn _ (flowPacket 80))
  exact hne (hagree _ _ _ _ r₂ hreach hr₂ hreport₂ hwrites₂ e he hasked e' he' hmatch)

end OrssNic
