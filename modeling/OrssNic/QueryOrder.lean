import OrssNic.Conversation

/-!
# Queries come behind earlier tags

The requests for the flows and the `FLOW_MOD`s go through one stream. A switch
that decodes a request has therefore decoded exactly the `FLOW_MOD`s of the
iterations before the one that asks, whatever has been delayed on the way, so
that a report never mixes the tags of two iterations.
-/

namespace OrssNic
open CLoops CRuns CFraming

/-- What one iteration gets through: no `FLOW_MOD` in front of a request. -/
structure Iteration.Sends (r : Iteration) (xid : UInt32) (sent : List Utterance) : Prop where
  flowMods : r.flowMods = OrssNic.flowMods (sent.map Utterance.request)
  asks : ∀ heard x, heard ++ [.flowRequest x] <+: sent →
    (x = xid ∨ x = xid + 1) ∧ OrssNic.flowMods (heard.map Utterance.request) = []

inductive Rounds : UInt32 → List Iteration → List Utterance → Prop
  | nil (xid : UInt32) : Rounds xid [] []
  | cons {xid : UInt32} {r : Iteration} {rs : List Iteration} {sent later : List Utterance}
      (h : r.Sends xid sent) (hlater : Rounds (xid + UInt32.ofNat r.numbered) rs later) :
      Rounds xid (r :: rs) (sent ++ later)

theorem flowMods_map_append (said said' : List Utterance) :
    flowMods ((said ++ said').map Utterance.request) =
      flowMods (said.map Utterance.request) ++ flowMods (said'.map Utterance.request) := by
  rw [List.map_append, flowMods_append]

section Sends
variable {xid x : UInt32} {sent heard : List Utterance}

theorem flowMods_front (messages : List OpenflowMessage) (xid : UInt32) {said : List Utterance}
    (h : said.Sublist (messages.flatMap answer ++ [.flowRequest xid, .flowRequest (xid + 1)])) :
    flowMods (said.map Utterance.request) = [] := by
  have hall : ∀ u ∈ messages.flatMap answer ++ [.flowRequest xid, .flowRequest (xid + 1)],
      flowMods [u.request] = [] := by
    intro u hu
    rw [List.mem_append] at hu
    obtain hu | hu := hu
    · obtain ⟨message, -, hanswer⟩ := List.mem_flatMap.mp hu
      unfold answer at hanswer
      split_ifs at hanswer
      · rw [List.mem_singleton.mp hanswer]
        rfl
      · cases hanswer
    · simp only [List.mem_cons, List.not_mem_nil, or_false] at hu
      obtain rfl | rfl := hu
      · rfl
      · rfl
  induction said with
  | nil => rfl
  | cons u said ih =>
    rw [List.map_cons, ← List.singleton_append, flowMods_append,
      hall u (h.subset List.mem_cons_self), ih ((List.sublist_cons_self u said).trans h)]
    rfl

theorem flowRequest_notMem_tags (x xid : UInt32) (migrations : List Migration) :
    .flowRequest x ∉ tags xid migrations := by
  induction migrations generalizing xid with
  | nil => exact List.not_mem_nil
  | cons m migrations ih =>
    rw [tags, List.mem_cons]
    rintro (h | h)
    · cases h
    · exact ih (xid + 1) h

theorem flowRequest_front {messages : List OpenflowMessage}
    (h : .flowRequest x ∈ messages.flatMap answer ++ [.flowRequest xid, .flowRequest (xid + 1)]) :
    x = xid ∨ x = xid + 1 := by
  rw [List.mem_append] at h
  obtain h | h := h
  · obtain ⟨message, -, hanswer⟩ := List.mem_flatMap.mp h
    unfold answer at hanswer
    split_ifs at hanswer
    · cases List.mem_singleton.mp hanswer
    · cases hanswer
  · simpa using h

/-- A request stands in front of the tags, also when some of it is missing. -/
theorem sends_of_sublist {r : Iteration} {i : Surroundings} (h : sent.Sublist (r.script i xid))
    (hflowMods : r.flowMods = flowMods (sent.map Utterance.request)) : r.Sends xid sent := by
  refine ⟨hflowMods, fun heard x hheard => ?_⟩
  have hsplit : r.script i xid = ((r.handled i).flatMap answer ++
      [.flowRequest xid, .flowRequest (xid + 1)]) ++ tags (xid + 2) r.migrations := by
    rw [Iteration.script, List.append_assoc]
    rfl
  rw [hsplit, List.sublist_append_iff] at h
  obtain ⟨front, back, rfl, hfront, hback⟩ := h
  have hin : heard ++ [.flowRequest x] <+: front := by
    obtain hin | ⟨behind, -, hin⟩ := prefix_concat_append hheard
    · exact hin
    · have hmem : .flowRequest x ∈ back := hin.subset (by simp)
      exact absurd (hback.subset hmem) (flowRequest_notMem_tags x _ _)
  have hmem : .flowRequest x ∈ front := hin.subset (by simp)
  refine ⟨flowRequest_front (hfront.subset hmem), flowMods_front (r.handled i) xid ?_⟩
  exact ((List.prefix_append heard _).trans hin).sublist.trans hfront

end Sends

theorem iteration_sends {s : MainState} {i : Surroundings} {r : Iteration}
    (h : iteration s i = .ok r) : ∃ sent, r.Sends s.transactionId sent ∧
      r.after.connection.fd.sent = s.connection.fd.sent ++ sent.map Utterance.request := by
  obtain ⟨sent, failed, hsplits, hsent, -⟩ := (iteration_said h).1
  refine ⟨sent, sends_of_sublist hsplits.sublist ?_, hsent⟩
  rw [Iteration.flowMods, iteration_before h, hsent, flowMods_append, List.drop_left]

theorem trace_rounds {inputs : List Surroundings} {s : MainState} {rs : List Iteration}
    (h : trace iteration Iteration.after inputs s = .ok rs) :
    ∃ sent, Rounds s.transactionId rs sent ∧
      (final Iteration.after s rs).connection.fd.sent =
        s.connection.fd.sent ++ sent.map Utterance.request := by
  induction inputs generalizing s rs with
  | nil =>
    cases h
    exact ⟨[], .nil _, (List.append_nil _).symm⟩
  | cons i inputs ih =>
    obtain ⟨r, rs', hr, hrs', rfl⟩ := trace_cons_ok.mp h
    obtain ⟨sent, hsends, hsent⟩ := iteration_sends hr
    obtain ⟨later, hrounds, hlater⟩ := ih hrs'
    rw [(iteration_said hr).2] at hrounds
    refine ⟨sent ++ later, .cons hsends hrounds, ?_⟩
    rw [List.map_append, ← List.append_assoc, ← hsent]
    exact hlater

theorem Rounds.query {xid : UInt32} {rs : List Iteration} {sent : List Utterance}
    (h : Rounds xid rs sent) {heard : List Utterance} {x : UInt32}
    (hheard : heard ++ [.flowRequest x] <+: sent) :
    ∃ k < rs.length, (x = xid + UInt32.ofNat ((rs.take k).map Iteration.numbered).sum ∨
        x = xid + UInt32.ofNat ((rs.take k).map Iteration.numbered).sum + 1) ∧
      flowMods (heard.map Utterance.request) = (rs.take k).flatMap Iteration.flowMods := by
  induction h generalizing heard with
  | nil xid =>
    have hnil := List.prefix_nil.mp hheard
    simp at hnil
  | @cons xid r rs sent later hsends _ ih =>
    obtain hin | ⟨behind, rfl, hin⟩ := prefix_concat_append hheard
    · obtain ⟨hx, hnone⟩ := hsends.asks heard x hin
      have hzero : xid + UInt32.ofNat 0 = xid := UInt32.add_zero xid
      refine ⟨0, Nat.zero_lt_succ _, ?_, hnone⟩
      rwa [List.take_zero, List.map_nil, List.sum_nil, hzero]
    · obtain ⟨k, hk, hx, hmods⟩ := ih hin
      refine ⟨k + 1, Nat.succ_lt_succ hk, ?_, ?_⟩
      · rw [List.take_succ_cons, List.map_cons, List.sum_cons, UInt32.ofNat_add,
          ← UInt32.add_assoc]
        exact hx
      · rw [flowMods_map_append, hmods, List.take_succ_cons, List.flatMap_cons, hsends.flowMods]

/-- What the `FLOW_MOD`s among the decoded messages ask for. -/
def heardFlowMods (heard : List (Option ControllerMessage)) : List (Option FlowMod) :=
  heard.filterMap fun
    | some (.flowMod m) => some m.flowMod
    | _ => none

theorem heardFlowMods_meaning (heard : List Utterance) :
    heardFlowMods (heard.map fun u => some u.meaning) =
      (flowMods (heard.map Utterance.request)).map OpenflowFlowModMessage.flowMod := by
  induction heard with
  | nil => rfl
  | cons u heard ih =>
    rw [List.map_cons, heardFlowMods, List.filterMap_cons, ← heardFlowMods, ih]
    cases u with
    | flowMod xid key newVlan =>
      have hmeaning : (flowModMessage xid key newVlan).flowMod = _ :=
        flowModMessage_flowMod xid key newVlan
      change _ :: _ = (flowModMessage xid key newVlan).flowMod :: _
      rw [hmeaning]
      rfl
    | _ => rfl

section Runs
variable {connection : OpenflowConnection} {transactionId : UInt32}
variable {inputs : List Surroundings} {rs : List Iteration}

/-- However the bytes are delayed and cut, a switch that has just decoded a
request for the flows has decoded, in front of it, exactly the `FLOW_MOD`s of
the iterations before the one whose request it is. -/
theorem queries_follow_tags (h : mainLoop connection transactionId inputs = .ok rs)
    {bytes : List UInt8}
    (hbytes : bytes <+: (final Iteration.after (.start connection transactionId)
      rs).connection.fd.sent.flatMap OpenflowRequest.memory)
    {before : List (Option ControllerMessage)} {x : UInt32} {m : OpenflowMatch} {tableId : UInt8}
    {outPort : UInt16}
    (hhearing : (hearing bytes).1 = before ++ [some (.flowStatsRequest x m tableId outPort)]) :
    ∃ k < rs.length,
      (x = transactionId + UInt32.ofNat ((rs.take k).map Iteration.numbered).sum ∨
        x = transactionId + UInt32.ofNat ((rs.take k).map Iteration.numbered).sum + 1) ∧
      heardFlowMods before =
        ((rs.take k).flatMap Iteration.flowMods).map OpenflowFlowModMessage.flowMod ∧
      ∀ table, before.foldl obey table =
        (((rs.take k).flatMap Iteration.flowMods).map .orss).foldl handle table := by
  obtain ⟨sent, hrounds, hsent⟩ := trace_rounds h
  have hwritten : (final Iteration.after (.start connection transactionId)
      rs).connection.fd.sent = sent.map Utterance.request := hsent
  rw [hwritten] at hbytes
  obtain ⟨heard, missing, left, hsplit, hheard, -⟩ := hearing_prefix sent hbytes
  rw [hheard, List.map_eq_append_iff] at hhearing
  obtain ⟨earlier, last, rfl, rfl, hlast⟩ := hhearing
  obtain ⟨u, rfl, hu⟩ := List.map_eq_singleton_iff.mp hlast
  have hrequest : u = .flowRequest x := by
    cases u with
    | flowRequest xid =>
      rw [Option.some.injEq, Utterance.meaning, ControllerMessage.flowStatsRequest.injEq] at hu
      rw [hu.1]
    | _ => cases hu
  subst hrequest
  have hprefix : earlier ++ [.flowRequest x] <+: sent := ⟨missing, hsplit.symm⟩
  obtain ⟨k, hk, hx, hmods⟩ := hrounds.query hprefix
  refine ⟨k, hk, hx, ?_, fun table => ?_⟩
  · rw [heardFlowMods_meaning, hmods]
  · rw [foldl_obey, hmods]

def pausingBytes (rs : List Iteration) : List UInt8 :=
  ((final Iteration.after (.start idleConnection 5) rs).connection.fd.sent.flatMap
    OpenflowRequest.memory).take (2 * 56 + 10 * 88 + 56)

theorem queries_follow_tags_pausing : ∃ rs before,
    mainLoop idleConnection 5 pausingFlows = .ok rs ∧ (hearing (pausingBytes rs)).1 =
        before ++ [some (.flowStatsRequest 17 networkMatch 0xff OFPP_NONE)] ∧
      ∃ k < rs.length, (17 = 5 + UInt32.ofNat ((rs.take k).map Iteration.numbered).sum ∨
          17 = 5 + UInt32.ofNat ((rs.take k).map Iteration.numbered).sum + 1) ∧
        heardFlowMods before =
          ((rs.take k).flatMap Iteration.flowMods).map OpenflowFlowModMessage.flowMod ∧
        ∀ table, before.foldl obey table =
          (((rs.take k).flatMap Iteration.flowMods).map .orss).foldl handle table := by
  have hrun : returns (mainLoop idleConnection 5 pausingFlows) (fun rs =>
      decide ((hearing (pausingBytes rs)).1.getLast? =
        some (some (.flowStatsRequest 17 networkMatch 0xff OFPP_NONE)))) = true := by
    decide +kernel
  obtain ⟨rs, hok, htest⟩ := exists_of_returns hrun
  obtain ⟨before, hbefore⟩ := List.getLast?_eq_some_iff.mp (of_decide_eq_true htest)
  exact ⟨rs, before, hok, hbefore, queries_follow_tags hok (List.take_prefix _ _) hbefore⟩

end Runs

end OrssNic
