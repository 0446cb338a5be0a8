import OrssNic.ConnectionRuns
import OrssNic.Network
import OrssNic.RequestBytes

/-!
# The conversation with the switch

What a run says, from its `HELLO` on: a greeting, and in every iteration the
answers to echo requests, two requests for the flows and the tags of the
migrations, all but the answers numbered by `transaction_id`. Some of it may
fail to be written; the rest is heard, in order, however little of the stream
has come.
-/

namespace OrssNic
open CLoops CRuns CFraming

/-- All of it was given to `write`, with or without success. -/
def Said (fd fd' : Socket) (said : List Utterance) : Prop :=
  ∃ sent failed : List Utterance, Splits said sent failed ∧
    fd'.sent = fd.sent ++ sent.map Utterance.request ∧
    fd'.failed = fd.failed ++ failed.map Utterance.request

namespace Said
variable {fd fd' fd'' : Socket} {said said' : List Utterance}

theorem nothing (hsent : fd'.sent = fd.sent) (hfailed : fd'.failed = fd.failed) :
    Said fd fd' [] :=
  ⟨[], [], .nil, by rw [hsent, List.map_nil, List.append_nil],
    by rw [hfailed, List.map_nil, List.append_nil]⟩

theorem refl (fd : Socket) : Said fd fd [] := nothing rfl rfl

theorem trans (h : Said fd fd' said) (h' : Said fd' fd'' said') :
    Said fd fd'' (said ++ said') := by
  obtain ⟨sent, failed, hsplits, hsent, hfailed⟩ := h
  obtain ⟨sent', failed', hsplits', hsent', hfailed'⟩ := h'
  refine ⟨sent ++ sent', failed ++ failed', hsplits.append hsplits', ?_, ?_⟩
  · rw [hsent', hsent, List.map_append, List.append_assoc]
  · rw [hfailed', hfailed, List.map_append, List.append_assoc]

theorem after (h : Said fd fd' []) (h' : Said fd' fd'' said) : Said fd fd'' said := h.trans h'

theorem before (h : Said fd fd' said) (h' : Said fd' fd'' []) : Said fd fd'' said := by
  have := h.trans h'
  rwa [List.append_nil] at this

theorem write (fd : Socket) (u : Utterance) : Said fd (write fd u.request).2 [u] := by
  have hsent := Splits.left u (.nil (α := Utterance))
  have hfailed := Splits.right u (.nil (α := Utterance))
  unfold OrssNic.write
  split
  · exact ⟨[], [u], hfailed, (List.append_nil _).symm, rfl⟩
  · exact ⟨[u], [], hsent, rfl, (List.append_nil _).symm⟩
  · exact ⟨[u], [], hsent, rfl, (List.append_nil _).symm⟩

theorem read {count : ℕ} {bytes : Option (List UInt8)}
    (h : OrssNic.read fd count = .ok (bytes, fd')) : Said fd fd' [] := by
  obtain ⟨reads, ⟨-, -, rfl⟩ | ⟨k, -, -, rfl⟩⟩ := read_ok h
  · exact nothing rfl rfl
  · exact nothing rfl rfl

theorem safeRead {buf : List UInt8} {count : UInt16} {s : SafeRead}
    (h : safeRead fd buf count = .ok s) : Said fd s.fd [] := by
  obtain ⟨hreach, -⟩ := whileLoop_correct h
  apply hreach.invariant (P := fun s => Said fd s.fd []) (refl fd)
  intro t t' ht hstep
  obtain ⟨-, valread, hread, -⟩ := safeReadStep_ok hstep
  exact ht.after (.read hread)

theorem readOpenflowMessage {message message' : OpenflowMessage} {received : ℤ}
    (h : readOpenflowMessage fd message = .ok (received, fd', message')) : Said fd fd' [] := by
  unfold OrssNic.readOpenflowMessage at h
  obtain ⟨⟨valread, fd₁⟩, hread, h⟩ := bind_eq_ok.mp h
  obtain ⟨bytes, -, h⟩ := bind_eq_ok.mp h
  dsimp only at h
  split_ifs at h
  · obtain ⟨s, hsafe, h⟩ := bind_eq_ok.mp h
    cases h
    exact (read hread).after (safeRead hsafe)
  · cases h
    exact read hread
  · cases h
    exact read hread

end Said

/-! ## The calls of an iteration -/

def answer (message : OpenflowMessage) : List Utterance :=
  if message.header.type = OFP_ECHO_REQUEST then [.echoReply] else []

theorem controlLogic_said (fd : Socket) (message : OpenflowMessage) :
    Said fd (controlLogic fd message) (answer message) := by
  unfold controlLogic answer
  split_ifs
  · exact .write fd .echoReply
  · exact .refl fd

theorem openflowControl_said {connection connection' : OpenflowConnection}
    {messages : List OpenflowMessage}
    (h : openflowControlLogged connection = .ok (connection', messages)) :
    Said connection.fd connection'.fd (messages.flatMap answer) := by
  unfold openflowControlLogged at h
  obtain ⟨⟨fd, handled⟩, hbuffer, h⟩ := bind_eq_ok.mp h
  obtain ⟨⟨s, messages⟩, hsocket, h⟩ := bind_eq_ok.mp h
  cases h
  have hfirst : Said connection.fd fd (handled.flatMap answer) := by
    apply forLoop_correct (P := fun _ (s : Socket × List OpenflowMessage) =>
      Said connection.fd s.1 (s.2.flatMap answer)) (.refl _) ?_ hbuffer
    intro i t t' _ ht hstep
    obtain ⟨message, -, hstep⟩ := bind_eq_ok.mp hstep
    cases hstep
    rw [List.flatMap_append, List.flatMap_singleton]
    exact ht.trans (controlLogic_said t.1 message)
  obtain ⟨hreach, -⟩ := whileLoop_correct hsocket
  apply hreach.invariant (P := fun t : Draining × List OpenflowMessage =>
    Said connection.fd t.1.fd (t.2.flatMap answer)) hfirst
  intro t t' ht hstep
  unfold controlSocketStepLogged at hstep
  split_ifs at hstep
  · cases hstep
  · obtain ⟨⟨received, fd', message⟩, hread, hstep⟩ := bind_eq_ok.mp hstep
    have hfd' := ht.before (.readOpenflowMessage hread)
    dsimp only at hstep
    split_ifs at hstep
    · cases hstep
      rw [List.flatMap_append, List.flatMap_singleton]
      exact hfd'.trans (controlLogic_said fd' message)
    · cases hstep
      exact hfd'

theorem openflowWaitForMessage_said {connection connection' : OpenflowConnection} {type : UInt8}
    {msg msg' : OpenflowMessage} {xid : UInt32}
    (h : openflowWaitForMessage connection type msg xid = .ok (connection', msg')) :
    Said connection.fd connection'.fd [] := by
  unfold openflowWaitForMessage at h
  obtain ⟨s, hloop, h⟩ := bind_eq_ok.mp h
  cases h
  obtain ⟨hreach, -⟩ := whileLoop_correct hloop
  apply hreach.invariant (P := fun s => Said connection.fd s.connection.fd []) (.refl _)
  intro t t' ht hstep
  obtain ⟨-, received, fd, msg, hread, hcases⟩ := waitStep_ok hstep
  have hfd := ht.after (.readOpenflowMessage hread)
  obtain ⟨-, rfl⟩ | ⟨-, -, rfl⟩ | ⟨-, -, connection₁, hbuffer, rfl⟩ := hcases
  · exact hfd
  · exact hfd
  · rw [(bufferMessage_ok hbuffer).2.1]
    exact hfd

theorem openflowGetFlows_said {connection : OpenflowConnection} {transactionId : UInt32}
    {stack : ℕ → OpenflowMessage} {flows : OpenflowFlows} {payloads : Heap ActionPayload}
    {r : GetFlows} (h : openflowGetFlows connection transactionId stack flows payloads = .ok r) :
    Said connection.fd r.connection.fd [.flowRequest transactionId] ∧
      r.transactionId = transactionId + 1 := by
  have hwrite := Said.write connection.fd (.flowRequest transactionId)
  obtain ⟨asked, rfl, rfl | ⟨s, parsed, hreach, -, rfl⟩⟩ := openflowGetFlows_ok h
  · exact ⟨hwrite, rfl⟩
  · refine ⟨?_, rfl⟩
    apply hreach.invariant
      (P := fun s => Said connection.fd s.connection.fd [.flowRequest transactionId]) hwrite
    intro t t' ht hstep
    obtain ⟨-, msg, msg', -, -, -, hwait, -⟩ := collectStep_ok hstep
    exact ht.before (openflowWaitForMessage_said hwait)

def tags : UInt32 → List Migration → List Utterance
  | _, [] => []
  | xid, m :: migrations =>
    .flowMod xid m.key (UInt16.ofNat m.destinationCore) :: tags (xid + 1) migrations

theorem applyMigrations_cons (fd : Socket) (transactionId : UInt32) (m : Migration)
    (migrations : List Migration) :
    applyMigrations fd transactionId (m :: migrations) =
      applyMigrations (applyMigration fd transactionId m).1 (transactionId + 1) migrations :=
  rfl

theorem applyMigrations_said (fd : Socket) (transactionId : UInt32)
    (migrations : List Migration) :
    Said fd (applyMigrations fd transactionId migrations).1 (tags transactionId migrations) ∧
      (applyMigrations fd transactionId migrations).2 =
        transactionId + UInt32.ofNat migrations.length := by
  induction migrations generalizing fd transactionId with
  | nil => exact ⟨.refl fd, (UInt32.add_zero transactionId).symm⟩
  | cons m migrations ih =>
    have hfirst := Said.write fd (.flowMod transactionId m.key (UInt16.ofNat m.destinationCore))
    obtain ⟨hrest, hxid⟩ := ih (applyMigration fd transactionId m).1 (transactionId + 1)
    rw [applyMigrations_cons]
    refine ⟨hfirst.trans hrest, ?_⟩
    rw [hxid, List.length_cons, UInt32.ofNat_add, UInt32.add_assoc, UInt32.add_comm 1]
    rfl

/-! ## The script of a run -/

def greeting (transactionId : UInt32) : List Utterance :=
  [.hello transactionId, .featuresRequest (transactionId + 1)]

def Iteration.handled (r : Iteration) (i : Surroundings) : List OpenflowMessage :=
  match openflowControlLogged (r.before.connection.meets i) with
  | .ok (_, messages) => messages
  | .error _ => []

def Iteration.script (r : Iteration) (i : Surroundings) (xid : UInt32) : List Utterance :=
  (r.handled i).flatMap answer ++
    (.flowRequest xid :: .flowRequest (xid + 1) :: tags (xid + 2) r.migrations)

/-- The transaction ids that an iteration uses up. -/
def Iteration.numbered (r : Iteration) : ℕ := r.migrations.length + 2

def loopScript : UInt32 → List Surroundings → List Iteration → List Utterance
  | xid, i :: inputs, r :: rs =>
    r.script i xid ++ loopScript (xid + UInt32.ofNat r.numbered) inputs rs
  | _, _, _ => []

theorem openflowCreateConnection_said {connection : OpenflowConnection} {transactionId : UInt32}
    {message : OpenflowMessage} {handshake : Handshake}
    (h : openflowCreateConnection connection transactionId message = .ok handshake) :
    Said connection.fd handshake.connection.fd (greeting transactionId) ∧
      handshake.transactionId = transactionId + 2 := by
  obtain ⟨⟨connection₁, message₁⟩, hhello, h⟩ := bind_eq_ok.mp h
  obtain ⟨⟨connection₂, message₂⟩, hfeatures, h⟩ := bind_eq_ok.mp h
  obtain ⟨features, -, h⟩ := bind_eq_ok.mp h
  cases h
  have hwaited := openflowWaitForMessage_said hhello
  have hanswered := hwaited.after (.write connection₁.fd (.hello transactionId))
  have hasked := hanswered.trans (.write _ (.featuresRequest (transactionId + 1)))
  exact ⟨hasked.before (openflowWaitForMessage_said hfeatures), UInt32.add_assoc _ _ _⟩

theorem iteration_before {s : MainState} {i : Surroundings} {r : Iteration}
    (h : iteration s i = .ok r) : r.before = s := by
  obtain ⟨connection, r₁, r₂, map, migrations, freed, -, -, -, -, -, rfl⟩ := iteration_ok h
  rfl

theorem iteration_said {s : MainState} {i : Surroundings} {r : Iteration}
    (h : iteration s i = .ok r) :
    Said s.connection.fd r.after.connection.fd (r.script i s.transactionId) ∧
      r.after.transactionId = s.transactionId + UInt32.ofNat r.numbered := by
  obtain ⟨connection, r₁, r₂, map, migrations, freed, hcontrol, hfirst, hsecond, -, -, rfl⟩ :=
    iteration_ok h
  obtain ⟨messages, hlogged⟩ := openflowControlLogged_of_ok hcontrol
  obtain ⟨hask, hxid⟩ := openflowGetFlows_said hfirst
  obtain ⟨hagain, hxid'⟩ := openflowGetFlows_said hsecond
  obtain ⟨htags, hxid''⟩ := applyMigrations_said r₂.connection.fd r₂.transactionId migrations
  have htwo : r₂.transactionId = s.transactionId + 2 := by
    rw [hxid', hxid, UInt32.add_assoc]
    rfl
  have harrived : Said s.connection.fd (s.connection.meets i).fd [] := .nothing rfl rfl
  have hcontrolled := harrived.after (openflowControl_said hlogged)
  have hqueried := hcontrolled.trans (hask.trans hagain)
  have hall := hqueried.trans htags
  rw [hxid, List.append_assoc] at hall
  refine ⟨?_, ?_⟩
  · simp only [Iteration.script, Iteration.handled, hlogged]
    rw [← htwo]
    exact hall
  · rw [hxid'', htwo, Iteration.numbered, Nat.add_comm, UInt32.ofNat_add, ← UInt32.add_assoc]
    rfl

theorem trace_said {inputs : List Surroundings} {s : MainState} {rs : List Iteration}
    (h : trace iteration Iteration.after inputs s = .ok rs) :
    Said s.connection.fd (final Iteration.after s rs).connection.fd
      (loopScript s.transactionId inputs rs) := by
  induction inputs generalizing s rs with
  | nil =>
    cases h
    exact .refl _
  | cons i inputs ih =>
    obtain ⟨r, rs', hr, hrs', rfl⟩ := trace_cons_ok.mp h
    obtain ⟨hfirst, hxid⟩ := iteration_said hr
    have hrest := ih hrs'
    rw [hxid] at hrest
    exact hfirst.trans hrest

/-! ## The transaction ids -/

def Utterance.xid : Utterance → Option UInt32
  | hello xid => some xid
  | featuresRequest xid => some xid
  | echoReply => none
  | flowRequest xid => some xid
  | flowMod xid _ _ => some xid

def consecutive (xid : UInt32) (n : ℕ) : List UInt32 :=
  (List.range n).map fun j => xid + UInt32.ofNat j

theorem consecutive_add (xid : UInt32) (m n : ℕ) :
    consecutive xid (m + n) = consecutive xid m ++ consecutive (xid + UInt32.ofNat m) n := by
  rw [consecutive, List.range_add, List.map_append, List.map_map]
  apply congrArg
  apply List.map_congr_left
  intro j _
  rw [Function.comp_apply, UInt32.ofNat_add, UInt32.add_assoc]

theorem consecutive_one (xid : UInt32) : consecutive xid 1 = [xid] :=
  congrArg (fun x => [x]) (UInt32.add_zero xid)

theorem consecutive_nodup (xid : UInt32) {n : ℕ} (h : n ≤ 2 ^ 32) : (consecutive xid n).Nodup := by
  apply List.Nodup.map_on ?_ List.nodup_range
  intro j hj k hk heq
  rw [List.mem_range] at hj hk
  have hnat := congrArg UInt32.toNat (UInt32.add_right_inj xid |>.mp heq)
  rwa [UInt32.toNat_ofNat', UInt32.toNat_ofNat', Nat.mod_eq_of_lt (by omega),
    Nat.mod_eq_of_lt (by omega)] at hnat

theorem answers_xid (messages : List OpenflowMessage) :
    (messages.flatMap answer).filterMap Utterance.xid = [] := by
  induction messages with
  | nil => rfl
  | cons message messages ih =>
    rw [List.flatMap_cons, List.filterMap_append, ih, List.append_nil]
    unfold answer
    split_ifs <;> rfl

theorem tags_xid (xid : UInt32) (migrations : List Migration) :
    (tags xid migrations).filterMap Utterance.xid = consecutive xid migrations.length := by
  induction migrations generalizing xid with
  | nil => rfl
  | cons m migrations ih =>
    rw [List.length_cons, Nat.add_comm, consecutive_add, consecutive_one, tags,
      List.filterMap_cons, ih]
    rfl

theorem script_xid (r : Iteration) (i : Surroundings) (xid : UInt32) :
    (r.script i xid).filterMap Utterance.xid = consecutive xid r.numbered := by
  rw [Iteration.script, List.filterMap_append, answers_xid, List.nil_append, List.filterMap_cons,
    List.filterMap_cons, tags_xid, Iteration.numbered, Nat.add_comm, consecutive_add,
    consecutive_add xid 1 1, consecutive_one, consecutive_one]
  rfl

theorem loopScript_xid {inputs : List Surroundings} {rs : List Iteration}
    (h : rs.length = inputs.length) (xid : UInt32) :
    (loopScript xid inputs rs).filterMap Utterance.xid =
      consecutive xid (rs.map Iteration.numbered).sum := by
  induction inputs generalizing rs xid with
  | nil =>
    rw [List.eq_nil_of_length_eq_zero h]
    rfl
  | cons i inputs ih =>
    cases rs with
    | nil => cases h
    | cons r rs =>
      rw [loopScript, List.filterMap_append, script_xid, ih (Nat.succ_injective h), List.map_cons,
        List.sum_cons, consecutive_add]

/-! ## What the switch hears -/

/-- The messages that a switch decodes, and the bytes that are left over. -/
def hearing (bytes : List UInt8) : List (Option ControllerMessage) × List UInt8 :=
  ((WireMessage.frames.hear bytes).1.map WireMessage.decoded, (WireMessage.frames.hear bytes).2)

theorem memory_stream (sent : List Utterance) :
    (sent.map Utterance.request).flatMap OpenflowRequest.memory =
      WireMessage.frames.stream (sent.map Utterance.message) := by
  induction sent with
  | nil => rfl
  | cons u sent ih =>
    rw [List.map_cons, List.flatMap_cons, ih, Utterance.memory_eq]
    rfl

theorem decoded_messages (heard : List Utterance) :
    (heard.map Utterance.message).map WireMessage.decoded =
      heard.map fun u => some u.meaning := by
  rw [List.map_map]
  apply List.map_congr_left
  intro u _
  exact u.decoded_eq

theorem messages_fit (sent : List Utterance) :
    ∀ m ∈ sent.map Utterance.message, WireMessage.frames.Fits m := by
  intro m hm
  obtain ⟨u, -, rfl⟩ := List.mem_map.mp hm
  exact u.fits

theorem hearing_prefix (sent : List Utterance) {bytes : List UInt8}
    (h : bytes <+: (sent.map Utterance.request).flatMap OpenflowRequest.memory) :
    ∃ heard missing left, sent = heard ++ missing ∧
      hearing bytes = (heard.map fun u => some u.meaning, left) ∧
      WireMessage.frames.Begins left (missing.map Utterance.message) := by
  rw [memory_stream] at h
  obtain ⟨front, back, left, hsplit, hhear, -, hbegins⟩ :=
    FrameCode.hear_prefix (messages_fit sent) h
  obtain ⟨heard, missing, rfl, rfl, rfl⟩ := List.map_eq_append_iff.mp hsplit
  refine ⟨heard, missing, left, rfl, ?_, hbegins⟩
  rw [hearing, hhear, decoded_messages]

theorem hearing_all (sent : List Utterance) :
    hearing ((sent.map Utterance.request).flatMap OpenflowRequest.memory) =
      (sent.map fun u => some u.meaning, []) := by
  rw [memory_stream, hearing, FrameCode.hear_stream (messages_fit sent), decoded_messages]

/-! ## What the switch does -/

def FlowAction.switchAction : FlowAction → SwitchAction
  | output port _ => .output port
  | setVlanVid vlanVid _ => .setVlanVid vlanVid

def Ofp10FlowMod.flowMod (m : Ofp10FlowMod) : Option FlowMod :=
  (flowModCommand m.command).map fun command =>
    ⟨command, m.match, m.priority, m.actions.map FlowAction.switchAction⟩

/-- A message that cannot be decoded, or changes no entry, leaves the table alone. -/
def obey (table : List SwitchEntry) : Option ControllerMessage → List SwitchEntry
  | some (.flowMod m) => (m.flowMod.map (applyFlowMod table)).getD table
  | _ => table

theorem obey_flowMod (table : List SwitchEntry) (xid : UInt32) (key : FiveTuple)
    (newVlan : UInt16) :
    obey table (some (Utterance.flowMod xid key newVlan).meaning) =
      handle table (.orss (flowModMessage xid key newVlan)) := by
  rw [handle, SwitchMessage.flowMod, flowModMessage_flowMod]
  rfl

theorem foldl_obey (heard : List Utterance) (table : List SwitchEntry) :
    (heard.map fun u => some u.meaning).foldl obey table =
      ((flowMods (heard.map Utterance.request)).map SwitchMessage.orss).foldl handle table := by
  induction heard generalizing table with
  | nil => rfl
  | cons u heard ih =>
    rw [List.map_cons, List.foldl_cons, ih]
    cases u with
    | flowMod xid key newVlan =>
      rw [obey_flowMod]
      rfl
    | _ => rfl

/-! ## Runs -/

theorem Said.flowMods {r : Iteration} {said : List Utterance}
    (h : Said r.before.connection.fd r.after.connection.fd said) :
    ∃ sent : List Utterance,
      r.after.connection.fd.sent.drop r.before.connection.fd.sent.length =
        sent.map Utterance.request ∧
      r.flowMods = OrssNic.flowMods (sent.map Utterance.request) := by
  obtain ⟨sent, failed, -, hsent, -⟩ := h
  refine ⟨sent, ?_, ?_⟩
  · rw [hsent, List.drop_left]
  · rw [Iteration.flowMods, hsent, flowMods_append, List.drop_left]

def writtenBy (handshake : Handshake) (rs : List Iteration) : List OpenflowRequest :=
  handshake.connection.fd.sent ++ (final Iteration.after
    (.start handshake.connection handshake.transactionId) rs).connection.fd.sent

def helloConnection : OpenflowConnection :=
  .ofSocket ⟨wireBytes [⟨OFP_VERSION, OFP_HELLO, 1, []⟩,
    ⟨OFP_VERSION, OFP_FEATURES_REPLY, 5, List.replicate 24 0⟩], List.replicate 3 (some 64), [], [],
    []⟩

/-- An echo request, and two answers with one flow. The first `FLOW_MOD` fails. -/
def echoedInput : Surroundings :=
  { answering 6 [taggedEntry 80 100] with
    arrived := (⟨OFP_VERSION, OFP_ECHO_REQUEST, 9, []⟩ : WireMessage).bytes ++
      (answering 6 [taggedEntry 80 100]).arrived
    reads := some 64 :: (answering 6 []).reads
    writes := [true, true, true, false] }

theorem echoedInput_runs : ∃ handshake rs,
    openflowCreateConnection helloConnection 4 default = .ok handshake ∧
      mainLoop handshake.connection handshake.transactionId [echoedInput] = .ok rs ∧
      rs.map Iteration.numbered = [12] ∧ (writtenBy handshake rs).length = 14 := by
  have hrun : returns (do
      let handshake ← openflowCreateConnection helloConnection 4 default
      let rs ← mainLoop handshake.connection handshake.transactionId [echoedInput]
      return (handshake, rs)) (fun run => decide (run.2.map Iteration.numbered = [12] ∧
        (writtenBy run.1 run.2).length = 14)) = true := by
    decide +kernel
  obtain ⟨⟨handshake, rs⟩, hok, htest⟩ := exists_of_returns hrun
  obtain ⟨handshake, hcreate, hok⟩ := bind_eq_ok.mp hok
  obtain ⟨rs, hloop, hok⟩ := bind_eq_ok.mp hok
  cases hok
  exact ⟨handshake, rs, hcreate, hloop, of_decide_eq_true htest⟩

section Runs
variable {connection : OpenflowConnection} {transactionId : UInt32} {message : OpenflowMessage}
variable {handshake : Handshake} {inputs : List Surroundings} {rs : List Iteration}

theorem run_said
    (hcreate : openflowCreateConnection connection transactionId message = .ok handshake)
    (hloop : mainLoop handshake.connection handshake.transactionId inputs = .ok rs) :
    Said connection.fd handshake.connection.fd (greeting transactionId) ∧
      Said (MainState.start handshake.connection handshake.transactionId).connection.fd
        (final Iteration.after (.start handshake.connection handshake.transactionId)
          rs).connection.fd (loopScript (transactionId + 2) inputs rs) := by
  obtain ⟨hgreeting, hxid⟩ := openflowCreateConnection_said hcreate
  have hloopScript := trace_said hloop
  rw [MainState.start, hxid] at hloopScript
  refine ⟨hgreeting, ?_⟩
  rw [MainState.start, hxid]
  exact hloopScript

/-- A run follows its script, and numbers what it says in a row. -/
theorem run_follows_script
    (hcreate : openflowCreateConnection connection transactionId message = .ok handshake)
    (hloop : mainLoop handshake.connection handshake.transactionId inputs = .ok rs) :
    Said connection.fd handshake.connection.fd (greeting transactionId) ∧
      Said (MainState.start handshake.connection handshake.transactionId).connection.fd
        (final Iteration.after (.start handshake.connection handshake.transactionId)
          rs).connection.fd (loopScript (transactionId + 2) inputs rs) ∧
      (greeting transactionId ++ loopScript (transactionId + 2) inputs rs).filterMap Utterance.xid =
        consecutive transactionId (2 + (rs.map Iteration.numbered).sum) ∧
      (2 + (rs.map Iteration.numbered).sum ≤ 2 ^ 32 →
        ((greeting transactionId ++ loopScript (transactionId + 2) inputs rs).filterMap
          Utterance.xid).Nodup) := by
  have hids : (greeting transactionId ++ loopScript (transactionId + 2) inputs rs).filterMap
      Utterance.xid = consecutive transactionId (2 + (rs.map Iteration.numbered).sum) := by
    have hgreeted : (greeting transactionId).filterMap Utterance.xid =
        consecutive transactionId 2 := by
      rw [consecutive_add transactionId 1 1, consecutive_one, consecutive_one]
      rfl
    rw [List.filterMap_append, hgreeted, loopScript_xid (trace_length hloop), consecutive_add]
    rfl
  obtain ⟨hgreeting, hsays⟩ := run_said hcreate hloop
  refine ⟨hgreeting, hsays, hids, fun hfew => ?_⟩
  rw [hids]
  exact consecutive_nodup transactionId hfew

theorem run_follows_script_echoed : ∃ handshake rs,
    openflowCreateConnection helloConnection 4 default = .ok handshake ∧
      mainLoop handshake.connection handshake.transactionId [echoedInput] = .ok rs ∧
      (greeting 4 ++ loopScript 6 [echoedInput] rs).filterMap Utterance.xid = consecutive 4 14 ∧
      ((greeting 4 ++ loopScript 6 [echoedInput] rs).filterMap Utterance.xid).Nodup := by
  obtain ⟨handshake, rs, hcreate, hloop, hnumbered, -⟩ := echoedInput_runs
  obtain ⟨-, -, hids, hnodup⟩ := run_follows_script hcreate hloop
  rw [hnumbered] at hids hnodup
  exact ⟨handshake, rs, hcreate, hloop, hids, hnodup (by decide)⟩

/-- However little of the bytes has come, the switch has heard the first of the
messages that could be written, and begun to hear the next one. -/
theorem run_is_heard
    (hcreate : openflowCreateConnection connection transactionId message = .ok handshake)
    (hloop : mainLoop handshake.connection handshake.transactionId inputs = .ok rs)
    (hrecord : connection.fd.sent = []) :
    ∃ sent failed, Splits (greeting transactionId ++ loopScript (transactionId + 2) inputs rs)
        sent failed ∧
      hearing ((writtenBy handshake rs).flatMap OpenflowRequest.memory) =
        (sent.map fun u => some u.meaning, []) ∧
      ∀ bytes, bytes <+: (writtenBy handshake rs).flatMap OpenflowRequest.memory →
        ∃ heard missing left, sent = heard ++ missing ∧
          hearing bytes = (heard.map fun u => some u.meaning, left) ∧
          WireMessage.frames.Begins left (missing.map Utterance.message) := by
  obtain ⟨hgreeting, hsays⟩ := run_said hcreate hloop
  obtain ⟨greeted, failed, hsplits, hgreeted, -⟩ := hgreeting
  obtain ⟨looped, failed', hsplits', hlooped, -⟩ := hsays
  have hwritten : writtenBy handshake rs = (greeted ++ looped).map Utterance.request := by
    rw [writtenBy, hgreeted, hlooped, hrecord, List.nil_append, List.map_append]
    rfl
  rw [hwritten]
  exact ⟨greeted ++ looped, failed ++ failed', hsplits.append hsplits', hearing_all _,
    fun bytes hbytes => hearing_prefix _ hbytes⟩

theorem run_is_heard_echoed : ∃ handshake rs sent failed,
    openflowCreateConnection helloConnection 4 default = .ok handshake ∧
      mainLoop handshake.connection handshake.transactionId [echoedInput] = .ok rs ∧
      Splits (greeting 4 ++ loopScript 6 [echoedInput] rs) sent failed ∧
      hearing ((writtenBy handshake rs).flatMap OpenflowRequest.memory) =
        (sent.map fun u => some u.meaning, []) := by
  obtain ⟨handshake, rs, hcreate, hloop, -⟩ := echoedInput_runs
  obtain ⟨sent, failed, hsplits, hheard, -⟩ := run_is_heard hcreate hloop rfl
  exact ⟨handshake, rs, sent, failed, hcreate, hloop, hsplits, hheard⟩

/-- A switch that obeys what it has decoded has applied the first of the
`FLOW_MOD`s of an iteration, none of them in part, and in the end has the table
that the iteration leaves. -/
theorem iteration_is_obeyed {n : Network} {i : Surroundings} {r : Iteration}
    (h : iteration n.main i = .ok r) {written : List UInt8}
    (hwritten : written = (r.after.connection.fd.sent.drop
      n.main.connection.fd.sent.length).flatMap OpenflowRequest.memory) :
    (hearing written).1.foldl obey n.table = (n.after r).table ∧
      ∀ bytes, bytes <+: written → ∃ done, done <+: r.flowMods ∧
        (hearing bytes).1.foldl obey n.table = (done.map .orss).foldl handle n.table := by
  have hsaid := (iteration_said h).1
  rw [← iteration_before h] at hsaid hwritten
  obtain ⟨sent, hsent, hflowMods⟩ := hsaid.flowMods
  rw [hsent] at hwritten
  subst hwritten
  refine ⟨?_, ?_⟩
  · rw [hearing_all, foldl_obey, ← hflowMods]
    rfl
  · intro bytes hbytes
    obtain ⟨heard, missing, left, rfl, hhearing, -⟩ := hearing_prefix sent hbytes
    refine ⟨flowMods (heard.map Utterance.request), ?_, ?_⟩
    · rw [hflowMods, List.map_append, flowMods_append]
      exact List.prefix_append _ _
    · rw [hhearing, foldl_obey]

theorem iteration_is_obeyed_echoed : ∃ r,
    iteration (.start idleConnection 6) echoedInput = .ok r ∧ r.flowMods.length = 9 ∧
      (hearing ((r.after.connection.fd.sent.drop 0).flatMap OpenflowRequest.memory)).1.foldl obey
        [] = ((⟨[], .start idleConnection 6, []⟩ : Network).after r).table := by
  have hrun : returns (iteration (.start idleConnection 6) echoedInput)
      (fun r => r.flowMods.length == 9) = true := by
    decide +kernel
  obtain ⟨r, hok, hlength⟩ := exists_of_returns hrun
  have hobeyed := iteration_is_obeyed (n := ⟨[], .start idleConnection 6, []⟩) hok rfl
  exact ⟨r, hok, eq_of_beq hlength, hobeyed.1⟩

end Runs

end OrssNic
