import OrssNic.BodyCalls
import OrssNic.PlacementLedger

/-!
# The program with bodies on the heap

From the handshake on, the program with pointers and the program with values
stop with the same error or reach the same states. The only bodies alive between
two iterations are that of the `HELLO`, which nobody gives back, and those of the
messages in the side buffer.
-/

namespace OrssNic.Bodies
open CLoops CRuns

/-! ## The handshake -/

structure HandshakeAgrees (hello : OpenflowMessage) (r : Handshake) (r' : OrssNic.Handshake) :
    Prop where
  connection : Mirrors r.bodies r.connection r'.connection
  transactionId : r.transactionId = r'.transactionId
  features : r.features = r'.features
  owned : r.bodies.OwnedBy (hello.owns ++ r.connection.owners)

theorem features_agree {hello : OpenflowMessage} {bodies : BodyHeap}
    {connection : OpenflowConnection} {connection' : OrssNic.OpenflowConnection}
    {message' : OrssNic.OpenflowMessage} (transactionId featuresXid : UInt32)
    (h : Mirrors bodies connection connection')
    (hmsg : Follows bodies (hello.owns ++ connection.owners) hello message')
    (ho : bodies.OwnedBy (hello.owns ++ connection.owners)) :
    Agree (HandshakeAgrees hello)
      (do
        let (connection, bodies, message) ←
          openflowWaitForMessage connection bodies OFP_FEATURES_REPLY hello featuresXid
        let data ← messageData bodies message
        let features ← parseFeaturesReply ⟨message.header, some data⟩
        let bodies ← freeOpenflowMessageBody bodies message
        return ⟨connection, bodies, transactionId, features⟩)
      (do
        let (connection, message) ←
          OrssNic.openflowWaitForMessage connection' OFP_FEATURES_REPLY message' featuresXid
        let features ← parseFeaturesReply message
        return ⟨connection, transactionId, features⟩) := by
  refine (openflowWaitForMessage_agree OFP_FEATURES_REPLY featuresXid h hmsg ho).bind ?_
  rintro ⟨connection, bodies, m⟩ ⟨connection', v⟩ hwait
  have hmirrors : Mirrors bodies connection connection' := hwait.connection
  have hshows : Shows bodies m v := hwait.shows
  have howned := hwait.owned
  dsimp only
  rw [messageData_agree hwait.msg howned (List.Subset.refl _)]
  cases hv : v.data with
  | none =>
    simp only [parseFeaturesReply, OrssNic.messageData, hv, bind, Except.bind]
    exact .error _
  | some data =>
    have hmessage : (⟨m.header, some data⟩ : OrssNic.OpenflowMessage) = v := by
      rw [hshows.header, ← hv]
    have hok : OrssNic.messageData v = .ok data := by
      rw [OrssNic.messageData, hv]
    obtain ⟨bodies', hfree, hafter, hextends⟩ :=
      freeOpenflowMessageBody_owned hshows (howned.perm List.perm_append_comm)
    rw [hok]
    simp only [bind, Except.bind, hmessage]
    refine (agree_self (R := Eq) fun _ _ => rfl).bind ?_
    rintro features _ rfl
    simp only [hfree]
    exact .ok ⟨hmirrors.extends hextends, rfl, rfl, hafter⟩

/-- The connection in front of the handshake: nothing is set aside. -/
structure Fresh (connection : OpenflowConnection) (connection' : OrssNic.OpenflowConnection) :
    Prop where
  fd : connection.fd = connection'.fd
  count : connection.nbMsgBuffered = 0
  count' : connection'.nbMsgBuffered = 0

theorem Fresh.buffered {connection : OpenflowConnection}
    {connection' : OrssNic.OpenflowConnection} (h : Fresh connection connection') :
    connection.buffered = [] ∧ connection'.buffered = [] := by
  constructor
  · rw [OpenflowConnection.buffered, h.count, UInt8.toNat_zero, List.take_zero]
  · rw [OrssNic.OpenflowConnection.buffered, h.count', UInt8.toNat_zero, List.take_zero]

theorem hello_agree {connection : OpenflowConnection}
    {connection' : OrssNic.OpenflowConnection} (h : Fresh connection connection')
    (header : OpenflowHeader) :
    Agree (WaitResult Heap.empty connection [] [])
      (openflowWaitForMessage connection Heap.empty OFP_HELLO ⟨header, none⟩ 0)
      (OrssNic.openflowWaitForMessage connection' OFP_HELLO ⟨header, none⟩ 0) := by
  obtain ⟨hnil, hnil'⟩ := h.buffered
  refine openflowWaitForMessage_agree OFP_HELLO 0 ⟨h.fd, h.count.trans h.count'.symm, ?_⟩
    ⟨rfl, rfl, fun r hr => ?_⟩ ?_
  · rw [hnil, hnil']
    exact .nil
  · cases hr
  · rw [OpenflowConnection.owners, hnil]
    exact .empty

theorem openflowCreateConnection_agree {connection : OpenflowConnection}
    {connection' : OrssNic.OpenflowConnection} (h : Fresh connection connection')
    (transactionId : UInt32) (header : OpenflowHeader) :
    Agree (fun r r' => ∃ waited bodies hello,
        openflowWaitForMessage connection Heap.empty OFP_HELLO ⟨header, none⟩ 0 =
          .ok (waited, bodies, hello) ∧ HandshakeAgrees hello r r')
      (openflowCreateConnection connection transactionId header)
      (OrssNic.openflowCreateConnection connection' transactionId ⟨header, none⟩) := by
  rw [openflowCreateConnection, OrssNic.openflowCreateConnection]
  refine (hello_agree h header).with_left.bind ?_
  rintro ⟨waited, bodies, hello⟩ ⟨waited', message'⟩ ⟨hhello, hresult⟩
  have hmirrors : Mirrors bodies waited waited' := hresult.connection
  have howned : bodies.OwnedBy (hello.owns ++ waited.owners) :=
    hresult.owned.perm List.perm_append_comm
  have hmsg : Follows bodies (hello.owns ++ waited.owners) hello message' :=
    hresult.msg.mono List.perm_append_comm.subset
  have hfd : ∀ fd, Mirrors bodies { waited with fd := fd } { waited' with fd := fd } :=
    fun fd => ⟨rfl, hmirrors.count, hmirrors.buffered⟩
  dsimp only [sendOpenflowHello, sendOpenflowFeaturesRequest]
  rw [hmirrors.fd]
  have hasked := hfd (write (write waited'.fd (helloRequest transactionId)).2
    (featuresRequest (transactionId + 1))).2
  refine (features_agree (transactionId + 1 + 1) (transactionId + 1 + 1 - 1) hasked hmsg
    howned).mono fun r r' hr => ?_
  exact ⟨waited, bodies, hello, hhello, hr⟩

/-! ## The main loop -/

def Surroundings.values (i : Surroundings) : OrssNic.Surroundings where
  arrived := i.arrived
  reads := i.reads
  writes := i.writes
  stack := fun k => ⟨i.stack k, none⟩
  stack' := fun k => ⟨i.stack' k, none⟩
  previousKey := i.previousKey

structure MainState.ShowsState (s : MainState) (s' : OrssNic.MainState) : Prop where
  connection : Mirrors s.bodies s.connection s'.connection
  transactionId : s.transactionId = s'.transactionId
  map : s.map = s'.map
  payloads : s.payloads = s'.payloads

structure Iteration.ShowsIteration (r : Iteration) (r' : OrssNic.Iteration) : Prop where
  before : r.before.ShowsState r'.before
  flows : r.flows = r'.flows
  migrations : r.migrations = r'.migrations
  after : r.after.ShowsState r'.after

/-- Alive are the body of the `HELLO` and those of the messages set aside. -/
def MainState.Holds (hello : OpenflowMessage) (s : MainState) : Prop :=
  s.bodies.OwnedBy (hello.owns ++ s.connection.owners)

theorem iteration_agree {hello : OpenflowMessage} {s : MainState} {s' : OrssNic.MainState}
    (i : Surroundings) (h : s.ShowsState s') (ho : s.Holds hello) :
    Agree (fun r r' => r.ShowsIteration r' ∧ r.after.Holds hello) (iteration s i)
      (OrssNic.iteration s' i.values) := by
  rw [iteration, OrssNic.iteration, ← h.transactionId, ← h.map, ← h.payloads]
  have hmeets : Mirrors s.bodies (s.connection.meets i) (s'.connection.meets i.values) := by
    refine ⟨?_, h.connection.count, h.connection.buffered⟩
    rw [OpenflowConnection.meets, OrssNic.OpenflowConnection.meets, h.connection.fd]
    rfl
  refine (openflowControl_agree hmeets ho).bind ?_
  rintro ⟨connection, bodies⟩ connection' hcontrol
  have hafter : bodies.OwnedBy (hello.owns ++ connection.owners) := by
    have hempty : connection.owners = [] := hcontrol.empty
    rw [hempty, List.append_nil]
    exact hcontrol.owned
  refine (openflowGetFlows_agree s.transactionId i.stack ⟨.zeroed, s.payloads, bodies⟩
    hcontrol.connection hafter).bind ?_
  rintro r₁ r₁' h₁
  rw [← h₁.transactionId, ← h₁.flows, ← h₁.payloads]
  refine (openflowGetFlows_agree r₁.transactionId i.stack' r₁.parsed h₁.connection
    h₁.owned).bind ?_
  rintro r₂ r₂' h₂
  rw [← h₂.flows, ← h₂.payloads, ← h₂.transactionId, ← h₂.connection.fd]
  refine (agree_self (R := Eq) fun _ _ => rfl).bind ?_
  rintro ⟨map, migrations⟩ _ rfl
  refine (agree_self (R := Eq) fun _ _ => rfl).bind ?_
  rintro ⟨flows, payloads⟩ _ rfl
  exact .ok ⟨⟨h, rfl, rfl, ⟨⟨rfl, h₂.connection.count, h₂.connection.buffered⟩, rfl, rfl, rfl⟩⟩,
    h₂.owned⟩

def valueProgram (connection : OrssNic.OpenflowConnection) (transactionId : UInt32)
    (header : OpenflowHeader) (inputs : List Surroundings) :
    Except Halt (List OrssNic.Iteration) := do
  let handshake ← OrssNic.openflowCreateConnection connection transactionId ⟨header, none⟩
  mainLoop handshake.connection handshake.transactionId (inputs.map Surroundings.values)

theorem program_agree {connection : OpenflowConnection}
    {connection' : OrssNic.OpenflowConnection} (h : Fresh connection connection')
    (transactionId : UInt32) (header : OpenflowHeader) (inputs : List Surroundings) :
    Agree (fun rs rs' => ∃ waited bodies hello,
        openflowWaitForMessage connection Heap.empty OFP_HELLO ⟨header, none⟩ 0 =
          .ok (waited, bodies, hello) ∧
        List.Forall₂ (fun r r' => r.ShowsIteration r' ∧ r.after.Holds hello) rs rs')
      (program connection transactionId header inputs)
      (valueProgram connection' transactionId header inputs) := by
  refine (openflowCreateConnection_agree h transactionId header).bind ?_
  rintro r r' ⟨waited, bodies, hello, hhello, hr⟩
  have hstart : (MainState.start r).ShowsState (.start r'.connection r'.transactionId) := by
    refine ⟨⟨?_, hr.connection.count, hr.connection.buffered⟩, hr.transactionId, rfl, rfl⟩
    rw [MainState.start, OrssNic.MainState.start, hr.connection.fd]
  have hloop : Agree (List.Forall₂ fun r r' => r.ShowsIteration r' ∧ r.after.Holds hello)
      (trace iteration Iteration.after inputs (.start r))
      (mainLoop r'.connection r'.transactionId (inputs.map Surroundings.values)) := by
    apply trace_agree (R := fun s s' => s.ShowsState s' ∧ s.Holds hello)
    · intro s s' i hs
      refine (iteration_agree i hs.1 hs.2).mono fun t t' ht => ?_
      exact ⟨ht, ht.1.after, ht.2⟩
    · exact ⟨hstart, hr.owned⟩
  exact hloop.mono fun rs rs' hrs => ⟨waited, bodies, hello, hhello, hrs⟩

/-- No body is used after it was given back, and none is given back twice: with
pointers the program stops where it stops with values, for the same reason, and
otherwise shows the same states. -/
theorem message_bodies_refined {connection : OpenflowConnection}
    {connection' : OrssNic.OpenflowConnection} (h : Fresh connection connection')
    (transactionId : UInt32) (header : OpenflowHeader) (inputs : List Surroundings) :
    Agree (List.Forall₂ Iteration.ShowsIteration) (program connection transactionId header inputs)
      (valueProgram connection' transactionId header inputs) := by
  refine (program_agree h transactionId header inputs).mono ?_
  rintro rs rs' ⟨waited, bodies, hello, -, hrs⟩
  exact hrs.imp fun _ _ hr => hr.1

theorem owns_length_le (m : OpenflowMessage) : m.owns.length ≤ 1 := by
  rw [OpenflowMessage.owns]
  split_ifs
  · cases m.data with
    | none => exact Nat.zero_le 1
    | some r => exact le_rfl
  · exact Nat.zero_le 1

theorem owners_length_le (connection : OpenflowConnection) :
    connection.owners.length ≤ connection.buffered.length := by
  rw [OpenflowConnection.owners, List.length_flatMap]
  refine (List.sum_le_card_nsmul _ 1 ?_).trans ?_
  · intro n hn
    obtain ⟨m, -, rfl⟩ := List.mem_map.mp hn
    exact owns_length_le m
  · rw [List.length_map, smul_eq_mul, mul_one]

theorem MainState.Holds.alive_le {hello : OpenflowMessage} {s : MainState} (h : s.Holds hello) :
    s.bodies.next ≤ s.bodies.freed.length + (1 + MSG_BUFFER_SIZE) := by
  have hcount := h.count_blocks
  have hhello := owns_length_le hello
  have howners := owners_length_le s.connection
  have hbuffered : s.connection.buffered.length ≤ MSG_BUFFER_SIZE :=
    (List.length_take_le' _ _).trans s.connection.allocated.le
  rw [List.length_append] at hcount
  omega

/-- After every iteration of every run, each body that has been received has
been freed once, or it belongs to one message of the side buffer, or to the
`HELLO`. -/
theorem message_bodies_owned {connection : OpenflowConnection}
    (hfresh : connection.nbMsgBuffered = 0) {transactionId : UInt32} {header : OpenflowHeader}
    {inputs : List Surroundings} {rs : List Iteration}
    (hok : program connection transactionId header inputs = .ok rs) :
    ∃ waited bodies hello,
      openflowWaitForMessage connection Heap.empty OFP_HELLO ⟨header, none⟩ 0 =
        .ok (waited, bodies, hello) ∧
      ∀ r ∈ rs, (hello.owns ++ r.after.connection.owners ++ r.after.bodies.freed).Perm
          (List.range r.after.bodies.next) ∧
        r.after.bodies.next ≤ r.after.bodies.freed.length + (1 + MSG_BUFFER_SIZE) := by
  have hvalues : Fresh connection (.ofSocket connection.fd) := ⟨rfl, hfresh, rfl⟩
  obtain ⟨rs', -, waited, bodies, hello, hhello, hrs⟩ :=
    (program_agree hvalues transactionId header inputs).ok_left hok
  refine ⟨waited, bodies, hello, hhello, fun r hr => ?_⟩
  obtain ⟨n, hn⟩ := List.mem_iff_getElem?.mp hr
  obtain ⟨r', -, -, hholds⟩ := CLists.exists_of_forall₂ hrs.flip hn
  exact ⟨hholds, hholds.alive_le⟩

def greetedConnection : OpenflowConnection where
  fd := ⟨wireBytes [⟨OFP_VERSION, OFP_HELLO, 1, List.replicate 8 0⟩,
    ⟨OFP_VERSION, OFP_FEATURES_REPLY, 5, List.replicate 24 0⟩], List.replicate 4 (some 64), [], [],
    []⟩
  msgBuffer := List.replicate MSG_BUFFER_SIZE default
  nbMsgBuffered := 0
  allocated := List.length_replicate

def greetedInputs : List Surroundings :=
  [{
    arrived := (⟨OFP_VERSION, OFP_ECHO_REQUEST, 9, [1, 2]⟩ : WireMessage).bytes ++
      (answering 6 [taggedEntry 80 100]).arrived
    reads := some 64 :: some 64 :: (answering 6 []).reads
    writes := []
    stack := fun _ => default
    stack' := fun _ => default
    previousKey := default }]

theorem message_bodies_refined_greeted :
    Agree (List.Forall₂ Iteration.ShowsIteration)
      (program greetedConnection 4 default greetedInputs)
      (valueProgram (.ofSocket greetedConnection.fd) 4 default greetedInputs) :=
  message_bodies_refined ⟨rfl, rfl, rfl⟩ 4 default greetedInputs

theorem message_bodies_owned_greeted :
    ∃ rs, program greetedConnection 4 default greetedInputs = .ok rs ∧ rs.length = 1 ∧
      ∃ waited bodies hello,
        openflowWaitForMessage greetedConnection Heap.empty OFP_HELLO ⟨default, none⟩ 0 =
          .ok (waited, bodies, hello) ∧
        ∀ r ∈ rs, (hello.owns ++ r.after.connection.owners ++ r.after.bodies.freed).Perm
            (List.range r.after.bodies.next) ∧
          r.after.bodies.next ≤ r.after.bodies.freed.length + (1 + MSG_BUFFER_SIZE) := by
  have hrun : returns (program greetedConnection 4 default greetedInputs)
      (fun rs => rs.length == 1) = true := by decide +kernel
  obtain ⟨rs, hok, hlength⟩ := exists_of_returns hrun
  exact ⟨rs, hok, eq_of_beq hlength, message_bodies_owned rfl hok⟩

end OrssNic.Bodies
