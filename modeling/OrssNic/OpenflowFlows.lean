import OrssNic.OpenflowSocket

/-!
# Flow statistics (`openflow_get_flows`)

The request, the collection of the parts of the answer, and the two nested
loops over a part. `response_head` and `actions_end` are offsets into the body
of the part; a load past the body or a store past a table is `outOfBounds`.
-/

namespace OrssNic
open CLoops

def flowRequest (currentXid : UInt32) : OpenflowStatsRequestMessage where
  header := ⟨OFP_VERSION, OFP_STATS_REQUEST, htons STATS_REQUEST_SIZE, htonl currentXid⟩
  type := htons OFPST_FLOW
  flags := 0
  body := {
    «match» := { (default : OpenflowMatch) with
      inPort := htons OVS_NETWORK_IFINDEX
      wildcards := htonl (OFPFW10_ALL &&& ~~~OFPFW10_IN_PORT) }
    tableId := 0xff
    pad := 0
    outPort := OFPP_NONE }

structure Collecting where
  connection : OpenflowConnection
  messages : List OpenflowMessage
  nbMessages : ℕ
  replyFullyReceived : Bool

def loadBytes (block : List UInt8) (offset count : ℕ) : Except Halt (List UInt8) :=
  if offset + count ≤ block.length then .ok ((block.drop offset).take count)
  else .error .outOfBounds

def messageData (message : OpenflowMessage) : Except Halt (List UInt8) :=
  match message.data with
  | some data => .ok data
  | none => .error .outOfBounds

def collectStep (currentXid : UInt32) (s : Collecting) : Except Halt (Option Collecting) := do
  if s.replyFullyReceived then
    return none
  let msg ← readAt .outOfBounds s.messages s.nbMessages
  let (connection, msg) ← openflowWaitForMessage s.connection OFP_STATS_REPLY msg currentXid
  let messages ← writeAt .outOfBounds s.messages s.nbMessages msg
  let data ← messageData msg
  let flags ← loadBytes data 2 2
  return some ⟨connection, messages, s.nbMessages + 1,
    ntohs (loadU16 flags 0) &&& OFPSF_REPLY_MORE == 0⟩

theorem collectStep_ok {currentXid : UInt32} {s s' : Collecting}
    (h : collectStep currentXid s = .ok (some s')) :
    s.replyFullyReceived = false ∧ ∃ msg msg' data flags, s.messages[s.nbMessages]? = some msg ∧
      openflowWaitForMessage s.connection OFP_STATS_REPLY msg currentXid =
        .ok (s'.connection, msg') ∧
      msg'.data = some data ∧ loadBytes data 2 2 = .ok flags ∧
      s' = ⟨s'.connection, s.messages.set s.nbMessages msg', s.nbMessages + 1,
        ntohs (loadU16 flags 0) &&& OFPSF_REPLY_MORE == 0⟩ := by
  rw [collectStep] at h
  split_ifs at h with hflag
  · cases h
  · obtain ⟨msg, hmsg, h⟩ := bind_eq_ok.mp h
    obtain ⟨⟨connection, msg'⟩, hwait, h⟩ := bind_eq_ok.mp h
    obtain ⟨messages, hwrite, h⟩ := bind_eq_ok.mp h
    obtain ⟨data, hdata, h⟩ := bind_eq_ok.mp h
    obtain ⟨flags, hflags, h⟩ := bind_eq_ok.mp h
    cases h
    rw [readAt_eq_ok] at hmsg
    rw [writeAt_of_lt (List.getElem?_eq_some_iff.mp hmsg).1, Except.ok.injEq] at hwrite
    refine ⟨Bool.eq_false_iff.mpr hflag, msg, msg', data, flags, hmsg, hwait, ?_, hflags, ?_⟩
    · rw [messageData] at hdata
      split at hdata
      · next hsome => rw [hsome, Except.ok.inj hdata]
      · cases hdata
    · rw [hwrite]

theorem collectStep_stop {currentXid : UInt32} {s : Collecting}
    (h : collectStep currentXid s = .ok none) : s.replyFullyReceived = true := by
  rw [collectStep] at h
  split_ifs at h with hflag
  · exact hflag
  · obtain ⟨msg, -, h⟩ := bind_eq_ok.mp h
    obtain ⟨r, -, h⟩ := bind_eq_ok.mp h
    obtain ⟨messages, -, h⟩ := bind_eq_ok.mp h
    obtain ⟨data, -, h⟩ := bind_eq_ok.mp h
    obtain ⟨flags, -, h⟩ := bind_eq_ok.mp h
    cases h

structure Parsing where
  flows : OpenflowFlows
  payloads : Heap ActionPayload
  responseHead : ℕ

def readAction (data : List UInt8) (actionsEnd : ℕ) (payloads : Heap ActionPayload)
    (descriptor : ActionDescriptor) (responseHead : ℕ) :
    Except Halt (ActionDescriptor × Heap ActionPayload × ℕ) := do
  let type ← loadBytes data responseHead 2
  let type := ntohs (loadU16 type 0)
  if type = OFPAT_OUTPUT then
    let bytes ← loadBytes data responseHead ACTION_SIZE
    let (ref, payloads) :=
      payloads.alloc (.output (ntohOpenflowActionOutput (loadActionOutput bytes)))
    return (⟨type, some ref⟩, payloads, responseHead + ACTION_SIZE)
  if type = OFPAT_SET_VLAN_VID then
    let bytes ← loadBytes data responseHead ACTION_SIZE
    let (ref, payloads) :=
      payloads.alloc (.vlanVid (ntohOpenflowActionVlanVid (loadActionVlanVid bytes)))
    return (⟨type, some ref⟩, payloads, responseHead + ACTION_SIZE)
  return ({ descriptor with type := type }, payloads, actionsEnd)

def actionStep (data : List UInt8) (actionsEnd : ℕ) (s : Parsing) :
    Except Halt (Option Parsing) := do
  if s.responseHead < actionsEnd then
    let i := s.flows.nbFlows.toNat
    let nbActions ← readAt .outOfBounds s.flows.nbActions i
    let row ← readAt .outOfBounds s.flows.actions i
    let descriptor ← readAt .outOfBounds row nbActions.toNat
    let (descriptor, payloads, responseHead) ←
      readAction data actionsEnd s.payloads descriptor s.responseHead
    return some ⟨{ s.flows with
      actions := s.flows.actions.set i (row.set nbActions.toNat descriptor)
      nbActions := s.flows.nbActions.set i (nbActions + 1) }, payloads, responseHead⟩
  return none

/-- One pass of the loop over the entries. Every pass over the actions fills a
cell of the row of the entry, whose size is the budget. -/
def flowStep (data : List UInt8) (responseEnd : ℤ) (s : Parsing) :
    Except Halt (Option Parsing) := do
  if (s.responseHead : ℤ) < responseEnd then
    let bytes ← loadBytes data s.responseHead FLOW_STATS_SIZE
    let stats := ntohOpenflowFlowStats (loadFlowStats bytes)
    let flowStats ← writeAt .outOfBounds s.flows.flowStats s.flows.nbFlows.toNat stats
    let actionsEnd := s.responseHead + stats.length.toNat
    let s ← whileLoop .diverges (actionStep data actionsEnd) (MAX_ACTIONS + 1)
      ⟨{ s.flows with flowStats := flowStats }, s.payloads, s.responseHead + FLOW_STATS_SIZE⟩
    return some ⟨{ s.flows with nbFlows := s.flows.nbFlows + 1 }, s.payloads, actionsEnd⟩
  return none

/-- The entries of one part. Every pass fills a cell of `flow_stats`, whose size
is the budget. -/
def parseReply (message : OpenflowMessage) (flows : OpenflowFlows)
    (payloads : Heap ActionPayload) : Except Halt (OpenflowFlows × Heap ActionPayload) := do
  let data ← messageData message
  let responseEnd : ℤ := message.header.length.toNat - OFP_HEADER_LEN
  let s ← whileLoop .diverges (flowStep data responseEnd) (MAX_HANDLED_FLOWS + 1)
    ⟨flows, payloads, 4⟩
  return (s.flows, s.payloads)

def parseReplies : List OpenflowMessage → OpenflowFlows → Heap ActionPayload →
    Except Halt (OpenflowFlows × Heap ActionPayload)
  | [], flows, payloads => .ok (flows, payloads)
  | message :: messages, flows, payloads => do
    let (flows, payloads) ← parseReply message flows payloads
    parseReplies messages flows payloads

/-! ## What one pass of the parser can do -/

/-- The counts do not wrap within the tables. -/
theorem nbActions_next {k : UInt8} (h : k.toNat < MAX_ACTIONS) : (k + 1).toNat = k.toNat + 1 := by
  rw [MAX_ACTIONS] at h
  simp only [UInt8.toNat_add, UInt8.reduceToNat]
  omega

theorem nbFlows_next {n : UInt16} (h : n.toNat < MAX_HANDLED_FLOWS) :
    (n + 1).toNat = n.toNat + 1 := by
  rw [MAX_HANDLED_FLOWS] at h
  simp only [UInt16.toNat_add, UInt16.reduceToNat]
  omega

section Passes
variable {data : List UInt8} {actionsEnd : ℕ} {responseEnd : ℤ} {s s' : Parsing}

theorem actionStep_ok (h : actionStep data actionsEnd s = .ok (some s')) :
    s.responseHead < actionsEnd ∧ ∃ nbActions row descriptor descriptor',
      s.flows.nbActions[s.flows.nbFlows.toNat]? = some nbActions ∧
      s.flows.actions[s.flows.nbFlows.toNat]? = some row ∧
      row[nbActions.toNat]? = some descriptor ∧
      readAction data actionsEnd s.payloads descriptor s.responseHead =
        .ok (descriptor', s'.payloads, s'.responseHead) ∧
      s'.flows = { s.flows with
        actions := s.flows.actions.set s.flows.nbFlows.toNat
          (row.set nbActions.toNat descriptor')
        nbActions := s.flows.nbActions.set s.flows.nbFlows.toNat (nbActions + 1) } := by
  rw [actionStep] at h
  split_ifs at h with hlt
  · obtain ⟨nbActions, hnbActions, h⟩ := bind_eq_ok.mp h
    obtain ⟨row, hrow, h⟩ := bind_eq_ok.mp h
    obtain ⟨descriptor, hdescriptor, h⟩ := bind_eq_ok.mp h
    obtain ⟨⟨descriptor', payloads, responseHead⟩, haction, h⟩ := bind_eq_ok.mp h
    cases h
    rw [readAt_eq_ok] at hnbActions hrow hdescriptor
    exact ⟨hlt, nbActions, row, descriptor, descriptor', hnbActions, hrow, hdescriptor, haction,
      rfl⟩
  · cases h

theorem actionStep_stop (h : actionStep data actionsEnd s = .ok none) :
    ¬s.responseHead < actionsEnd := by
  rw [actionStep] at h
  split_ifs at h with hlt
  · obtain ⟨nbActions, -, h⟩ := bind_eq_ok.mp h
    obtain ⟨row, -, h⟩ := bind_eq_ok.mp h
    obtain ⟨descriptor, -, h⟩ := bind_eq_ok.mp h
    obtain ⟨action, -, h⟩ := bind_eq_ok.mp h
    cases h
  · exact hlt

theorem flowStep_ok (h : flowStep data responseEnd s = .ok (some s')) :
    (s.responseHead : ℤ) < responseEnd ∧ ∃ bytes stats t,
      loadBytes data s.responseHead FLOW_STATS_SIZE = .ok bytes ∧
      ntohOpenflowFlowStats (loadFlowStats bytes) = stats ∧
      s.flows.nbFlows.toNat < s.flows.flowStats.length ∧
      whileLoop .diverges (actionStep data (s.responseHead + stats.length.toNat)) (MAX_ACTIONS + 1)
        ⟨{ s.flows with flowStats := s.flows.flowStats.set s.flows.nbFlows.toNat stats },
          s.payloads, s.responseHead + FLOW_STATS_SIZE⟩ = .ok t ∧
      s' = ⟨{ t.flows with nbFlows := t.flows.nbFlows + 1 }, t.payloads,
        s.responseHead + stats.length.toNat⟩ := by
  rw [flowStep] at h
  split_ifs at h with hlt
  · obtain ⟨bytes, hbytes, h⟩ := bind_eq_ok.mp h
    obtain ⟨flowStats, hwrite, h⟩ := bind_eq_ok.mp h
    obtain ⟨t, hloop, h⟩ := bind_eq_ok.mp h
    cases h
    rw [writeAt] at hwrite
    split_ifs at hwrite with hroom
    cases hwrite
    exact ⟨hlt, bytes, _, t, hbytes, rfl, hroom, hloop, rfl⟩
  · cases h

theorem flowStep_stop (h : flowStep data responseEnd s = .ok none) :
    ¬(s.responseHead : ℤ) < responseEnd := by
  rw [flowStep] at h
  split_ifs at h with hlt
  · obtain ⟨bytes, -, h⟩ := bind_eq_ok.mp h
    obtain ⟨flowStats, -, h⟩ := bind_eq_ok.mp h
    obtain ⟨t, -, h⟩ := bind_eq_ok.mp h
    cases h
  · exact hlt

theorem parseReplies_invariant {P : OpenflowFlows → Prop}
    (hstep : ∀ (data : List UInt8) (responseEnd : ℤ) (s s' : Parsing), P s.flows →
      flowStep data responseEnd s = .ok (some s') → P s'.flows)
    {messages : List OpenflowMessage} {flows : OpenflowFlows} {payloads : Heap ActionPayload}
    {parsed : OpenflowFlows × Heap ActionPayload} (h : P flows)
    (hok : parseReplies messages flows payloads = .ok parsed) : P parsed.1 := by
  induction messages generalizing flows payloads with
  | nil =>
    cases hok
    exact h
  | cons message messages ih =>
    obtain ⟨parsed₁, hparse, hrest⟩ := bind_eq_ok.mp hok
    obtain ⟨data, -, hparse⟩ := bind_eq_ok.mp hparse
    obtain ⟨t, hloop, hparse⟩ := bind_eq_ok.mp hparse
    cases hparse
    refine ih ?_ hrest
    exact (whileLoop_correct hloop).1.invariant (P := fun t => P t.flows) h
      fun s s' => hstep data _ s s'

end Passes

structure GetFlows where
  connection : OpenflowConnection
  transactionId : UInt32
  flows : OpenflowFlows
  payloads : Heap ActionPayload

/-- `stack` is the content of the uninitialised array of messages, and
`current_xid` is an `int` that only carries the 32 bits of the counter. -/
def openflowGetFlows (connection : OpenflowConnection) (transactionId : UInt32)
    (stack : ℕ → OpenflowMessage) (flows : OpenflowFlows) (payloads : Heap ActionPayload) :
    Except Halt GetFlows := do
  let currentXid := transactionId
  let transactionId := transactionId + 1
  let (written, fd) := write connection.fd (.statsRequest (flowRequest currentXid))
  let connection := { connection with fd := fd }
  if !written then
    return ⟨connection, transactionId, flows, payloads⟩
  let messages := (List.range MAX_STATS_REPLY).map stack
  let s ← whileLoop .diverges (collectStep currentXid) (MAX_STATS_REPLY + 1)
    ⟨connection, messages, 0, false⟩
  let (flows, payloads) ←
    parseReplies (s.messages.take s.nbMessages) { flows with nbFlows := 0 } payloads
  return ⟨s.connection, transactionId, flows, payloads⟩

theorem openflowGetFlows_ok {connection : OpenflowConnection} {transactionId : UInt32}
    {stack : ℕ → OpenflowMessage} {flows : OpenflowFlows} {payloads : Heap ActionPayload}
    {r : GetFlows} (h : openflowGetFlows connection transactionId stack flows payloads = .ok r) :
    ∃ asked : OpenflowConnection, asked = { connection with
        fd := (write connection.fd (.statsRequest (flowRequest transactionId))).2 } ∧
      (r = ⟨asked, transactionId + 1, flows, payloads⟩ ∨
        ∃ s parsed, Reaches (collectStep transactionId)
            ⟨asked, (List.range MAX_STATS_REPLY).map stack, 0, false⟩ s ∧
          parseReplies (s.messages.take s.nbMessages) { flows with nbFlows := 0 } payloads =
            .ok parsed ∧
          r = ⟨s.connection, transactionId + 1, parsed.1, parsed.2⟩) := by
  unfold openflowGetFlows at h
  dsimp only at h
  refine ⟨_, rfl, ?_⟩
  split_ifs at h
  · cases h
    exact .inl rfl
  · obtain ⟨s, hloop, h⟩ := bind_eq_ok.mp h
    obtain ⟨parsed, hparse, h⟩ := bind_eq_ok.mp h
    cases h
    exact .inr ⟨s, parsed, (whileLoop_correct hloop).1, hparse, rfl⟩

/-- `free(flows->actions[i][j].data)`, and nothing for a null pointer. -/
def freeActionStep (flows : OpenflowFlows) (i j : ℕ) (payloads : Heap ActionPayload) :
    Except Halt (Heap ActionPayload) := do
  let row ← readAt .outOfBounds flows.actions i
  let descriptor ← readAt .outOfBounds row j
  match descriptor.data with
  | none => return payloads
  | some ref => return payloads.free ref

def freeFlowStep (i : ℕ) (s : OpenflowFlows × Heap ActionPayload) :
    Except Halt (OpenflowFlows × Heap ActionPayload) := do
  let (flows, payloads) := s
  let nbActions ← readAt .outOfBounds flows.nbActions i
  let payloads ← forLoop (freeActionStep flows i) nbActions.toNat payloads
  return ({ flows with nbActions := flows.nbActions.set i 0 }, payloads)

def openflowFreeFlows (flows : OpenflowFlows) (payloads : Heap ActionPayload) :
    Except Halt (OpenflowFlows × Heap ActionPayload) := do
  let (flows, payloads) ← forLoop freeFlowStep flows.nbFlows.toNat (flows, payloads)
  return ({ flows with nbFlows := 0 }, payloads)

end OrssNic
