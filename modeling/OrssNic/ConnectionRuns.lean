import OrssNic.MainLoop
import OrssNic.OpenflowHandshake

/-!
# Runs of the connection

The operations that the program performs on its connection, and the order in
which `openflow_create_connection` and the loop of `main` perform them. The log
of a run also holds the messages that the waits have returned and those that
`control_logic` has been called for. Every run of the program is a run of
operations in that order; a run that ends early is a shorter one.
-/

namespace OrssNic
open CLoops CRuns

/-! ## The calls of `control_logic` -/

def controlBufferStepLogged (msgBuffer : List OpenflowMessage) (i : ℕ)
    (s : Socket × List OpenflowMessage) : Except Halt (Socket × List OpenflowMessage) := do
  let message ← readAt .outOfBounds msgBuffer i
  return (controlLogic s.1 message, s.2 ++ [message])

def controlSocketStepLogged (s : Draining × List OpenflowMessage) :
    Except Halt (Option (Draining × List OpenflowMessage)) := do
  if s.1.drained then
    return none
  let (received, fd, message) ← readOpenflowMessage s.1.fd s.1.message
  if 0 < received then
    return some (⟨controlLogic fd message, message, false⟩, s.2 ++ [message])
  return some (⟨fd, message, true⟩, s.2)

/-- `openflowControl` with the arguments of its calls of `control_logic`. -/
def openflowControlLogged (connection : OpenflowConnection) :
    Except Halt (OpenflowConnection × List OpenflowMessage) := do
  let s ← forLoop (controlBufferStepLogged connection.msgBuffer) connection.nbMsgBuffered.toNat
    (connection.fd, [])
  let s ← whileLoop .blocked controlSocketStepLogged (s.1.reads.length + 2)
    (⟨s.1, default, false⟩, s.2)
  return ({ connection with fd := s.1.fd, nbMsgBuffered := 0 }, s.2)

theorem controlSocketStepLogged_map (s : Draining × List OpenflowMessage) :
    (controlSocketStepLogged s).map (Option.map Prod.fst) = controlSocketStep s.1 := by
  simp only [controlSocketStepLogged, controlSocketStep]
  split_ifs
  · rfl
  · rw [map_bind]
    cases readOpenflowMessage s.1.fd s.1.message with
    | error e => rfl
    | ok r =>
      simp only [bind, Except.bind]
      split_ifs <;> rfl

/-- The record changes nothing. -/
theorem openflowControlLogged_map (connection : OpenflowConnection) :
    (openflowControlLogged connection).map Prod.fst = openflowControl connection := by
  have hbuffer : (forLoop (controlBufferStepLogged connection.msgBuffer)
      connection.nbMsgBuffered.toNat (connection.fd, [])).map Prod.fst =
      forLoop (controlBufferStep connection.msgBuffer) connection.nbMsgBuffered.toNat
        connection.fd := by
    refine forLoop_map (fun i s => ?_) _ _
    rw [controlBufferStepLogged, controlBufferStep, map_bind]
    rfl
  rw [openflowControlLogged, openflowControl, map_bind, ← hbuffer]
  cases forLoop (controlBufferStepLogged connection.msgBuffer) connection.nbMsgBuffered.toNat
    (connection.fd, []) with
  | error e => rfl
  | ok s =>
    have hsocket : (whileLoop .blocked controlSocketStepLogged (s.1.reads.length + 2)
        (⟨s.1, default, false⟩, s.2)).map Prod.fst =
        whileLoop .blocked controlSocketStep (s.1.reads.length + 2) ⟨s.1, default, false⟩ :=
      whileLoop_map controlSocketStepLogged_map _ _
    simp only [bind, Except.bind, Except.map] at hsocket ⊢
    rw [← hsocket]
    cases whileLoop Halt.blocked controlSocketStepLogged (s.1.reads.length + 2)
      (⟨s.1, default, false⟩, s.2) <;> rfl

theorem openflowControlLogged_of_ok {connection connection' : OpenflowConnection}
    (h : openflowControl connection = .ok connection') :
    ∃ messages, openflowControlLogged connection = .ok (connection', messages) := by
  rw [← openflowControlLogged_map] at h
  cases hlogged : openflowControlLogged connection with
  | error e =>
    rw [hlogged] at h
    cases h
  | ok r =>
    rw [hlogged] at h
    cases h
    exact ⟨r.2, rfl⟩

/-! ## Operations -/

inductive ConnectionOp
  | wait (type : UInt8) (xid : UInt32) (msg : OpenflowMessage)
  | write (request : OpenflowRequest)
  | enterLoop
  | arrive (i : Surroundings)
  | control

structure ConnectionLog where
  connection : OpenflowConnection
  returned : List OpenflowMessage
  handled : List OpenflowMessage

namespace ConnectionLog

def start (connection : OpenflowConnection) : ConnectionLog := ⟨connection, [], []⟩

def step (l : ConnectionLog) : ConnectionOp → Except Halt ConnectionLog
  | .wait type xid msg => do
    let (connection, msg) ← openflowWaitForMessage l.connection type msg xid
    return { l with connection := connection, returned := l.returned ++ [msg] }
  | .write request =>
    .ok { l with connection := { l.connection with fd := (write l.connection.fd request).2 } }
  | .enterLoop => .ok { l with connection := (MainState.start l.connection 0).connection }
  | .arrive i => .ok { l with connection := l.connection.meets i }
  | .control => do
    let (connection, messages) ← openflowControlLogged l.connection
    return { l with connection := connection, handled := l.handled ++ messages }

end ConnectionLog

/-! ## The order of the operations -/

/-- Where the program stands between two operations. -/
inductive Place
  | greeting
  | greeted
  | answered
  | asked (featuresXid : UInt32)
  | connected
  | looping
  | arrived
  | controlled
  | collecting (currentXid : UInt32)
  | collectingAgain (currentXid : UInt32)
  | applying

namespace Place

/-- After the second query every migration is applied, or none is left. -/
def Applies : Place → Prop
  | collectingAgain _ => True
  | applying => True
  | _ => False

def InFront : Place → Prop
  | looping => True
  | collectingAgain _ => True
  | applying => True
  | _ => False

theorem Applies.inFront {p : Place} (h : p.Applies) : p.InFront := by
  cases p with
  | collectingAgain currentXid => trivial
  | applying => trivial
  | _ => exact h.elim

end Place

inductive Next : Place → ConnectionOp → Place → Prop
  | hello (message : OpenflowMessage) : Next .greeting (.wait OFP_HELLO 0 message) .greeted
  | answer (transactionId : UInt32) : Next .greeted (.write (helloRequest transactionId)) .answered
  | ask (transactionId : UInt32) :
    Next .answered (.write (featuresRequest transactionId)) (.asked transactionId)
  | features (featuresXid : UInt32) (message : OpenflowMessage) :
    Next (.asked featuresXid) (.wait OFP_FEATURES_REPLY featuresXid message) .connected
  | enterLoop : Next .connected .enterLoop .looping
  | arrive {p : Place} (i : Surroundings) (h : p.InFront) : Next p (.arrive i) .arrived
  | control : Next .arrived .control .controlled
  | query (currentXid : UInt32) :
    Next .controlled (.write (.statsRequest (flowRequest currentXid))) (.collecting currentXid)
  | part (currentXid : UInt32) (msg : OpenflowMessage) :
    Next (.collecting currentXid) (.wait OFP_STATS_REPLY currentXid msg) (.collecting currentXid)
  | queryAgain (currentXid : UInt32) :
    Next (.collecting currentXid) (.write (.statsRequest (flowRequest (currentXid + 1))))
      (.collectingAgain (currentXid + 1))
  | partAgain (currentXid : UInt32) (msg : OpenflowMessage) :
    Next (.collectingAgain currentXid) (.wait OFP_STATS_REPLY currentXid msg)
      (.collectingAgain currentXid)
  | migrate {p : Place} (message : OpenflowFlowModMessage) (h : p.Applies) :
    Next p (.write (.flowMod message)) .applying

inductive InOrder : Place → List ConnectionOp → Place → Prop
  | nil (p : Place) : InOrder p [] p
  | cons {p q r : Place} {op : ConnectionOp} {ops : List ConnectionOp} (h : Next p op q)
    (hops : InOrder q ops r) : InOrder p (op :: ops) r

theorem InOrder.append {p q r : Place} {ops ops' : List ConnectionOp} (h : InOrder p ops q)
    (h' : InOrder q ops' r) : InOrder p (ops ++ ops') r := by
  induction h with
  | nil p => exact h'
  | cons hop _ ih => exact .cons hop (ih h')

/-- The operations lead from one place and log to another. -/
structure Performs (p : Place) (l : ConnectionLog) (ops : List ConnectionOp) (q : Place)
    (m : ConnectionLog) : Prop where
  order : InOrder p ops q
  run : run ConnectionLog.step ops l = .ok m

def arrivals (ops : List ConnectionOp) : List Surroundings :=
  ops.filterMap fun
    | .arrive i => some i
    | _ => none

theorem arrivals_append (ops ops' : List ConnectionOp) :
    arrivals (ops ++ ops') = arrivals ops ++ arrivals ops' :=
  List.filterMap_append

namespace Performs
variable {p q r : Place} {l m n : ConnectionLog} {op : ConnectionOp}
variable {ops ops' : List ConnectionOp}

theorem nil (p : Place) (l : ConnectionLog) : Performs p l [] p l := ⟨.nil p, rfl⟩

theorem single (h : Next p op q) (hstep : l.step op = .ok m) : Performs p l [op] q m :=
  ⟨.cons h (.nil q), run_cons_ok.mpr ⟨m, hstep, rfl⟩⟩

theorem trans (h : Performs p l ops q m) (h' : Performs q m ops' r n) :
    Performs p l (ops ++ ops') r n :=
  ⟨h.order.append h'.order, run_append_ok.mpr ⟨m, h.run, h'.run⟩⟩

end Performs

/-! ## The runs of the program -/

theorem step_wait {l : ConnectionLog} {connection : OpenflowConnection} {type : UInt8}
    {xid : UInt32} {msg msg' : OpenflowMessage}
    (h : openflowWaitForMessage l.connection type msg xid = .ok (connection, msg')) :
    l.step (.wait type xid msg) =
      .ok { l with connection := connection, returned := l.returned ++ [msg'] } :=
  bind_eq_ok.mpr ⟨(connection, msg'), h, rfl⟩

theorem openflowCreateConnection_performs {connection : OpenflowConnection}
    {transactionId : UInt32} {message : OpenflowMessage} {handshake : Handshake}
    (h : openflowCreateConnection connection transactionId message = .ok handshake) :
    ∃ ops l, Performs .greeting (.start connection) ops .connected l ∧ arrivals ops = [] ∧
      l.connection = handshake.connection := by
  obtain ⟨⟨connection₁, message₁⟩, hhello, h⟩ := bind_eq_ok.mp h
  obtain ⟨⟨connection₂, message₂⟩, hfeatures, h⟩ := bind_eq_ok.mp h
  obtain ⟨features, -, h⟩ := bind_eq_ok.mp h
  cases h
  have hxid : transactionId + 1 + 1 - 1 = transactionId + 1 := by
    rw [UInt32.add_sub_cancel]
  rw [hxid] at hfeatures
  have hgreeted := Performs.single (.hello message)
    (step_wait (l := .start connection) hhello)
  have hanswered := hgreeted.trans (.single (.answer transactionId) rfl)
  have hasked := hanswered.trans (.single (.ask (transactionId + 1)) rfl)
  exact ⟨_, _, hasked.trans (.single (.features (transactionId + 1) message₁)
    (step_wait hfeatures)), rfl, rfl⟩

theorem openflowGetFlows_performs {connection : OpenflowConnection} {transactionId : UInt32}
    {stack : ℕ → OpenflowMessage} {flows : OpenflowFlows} {payloads : Heap ActionPayload}
    {r : GetFlows} {p q : Place} {l : ConnectionLog}
    (hquery : Next p (.write (.statsRequest (flowRequest transactionId))) q)
    (hpart : ∀ msg, Next q (.wait OFP_STATS_REPLY transactionId msg) q)
    (h : openflowGetFlows connection transactionId stack flows payloads = .ok r)
    (hl : l.connection = connection) :
    ∃ ops m, Performs p l ops q m ∧ arrivals ops = [] ∧ m.connection = r.connection ∧
      r.transactionId = transactionId + 1 := by
  subst hl
  have hwrite := Performs.single (l := l) hquery rfl
  obtain ⟨asked, rfl, rfl | ⟨s, parsed, hreach, -, rfl⟩⟩ := openflowGetFlows_ok h
  · exact ⟨_, _, hwrite, rfl, rfl, rfl⟩
  · have hparts : ∃ ops m, Performs p l ops q m ∧ arrivals ops = [] ∧
        m.connection = s.connection := by
      refine hreach.invariant (P := fun t : Collecting => ∃ ops m, Performs p l ops q m ∧
        arrivals ops = [] ∧ m.connection = t.connection) ⟨_, _, hwrite, rfl, rfl⟩ ?_
      intro t t' ht hstep
      obtain ⟨ops, m, hperforms, harrivals, hconnection⟩ := ht
      obtain ⟨-, msg, msg', -, -, -, hwait, -⟩ := collectStep_ok hstep
      rw [← hconnection] at hwait
      refine ⟨_, _, hperforms.trans (.single (hpart msg) (step_wait hwait)), ?_, rfl⟩
      rw [arrivals_append, harrivals]
      rfl
    obtain ⟨ops, m, hperforms, harrivals, hm⟩ := hparts
    exact ⟨ops, m, hperforms, harrivals, hm, rfl⟩

theorem applyMigrations_performs (migrations : List Migration) (transactionId : UInt32)
    {p : Place} (l : ConnectionLog) (hp : p.Applies) :
    ∃ ops q m, Performs p l ops q m ∧ q.Applies ∧ arrivals ops = [] ∧
      m.connection = { l.connection with
        fd := (applyMigrations l.connection.fd transactionId migrations).1 } := by
  induction migrations generalizing p l transactionId with
  | nil => exact ⟨[], p, l, .nil p l, hp, rfl, rfl⟩
  | cons migration migrations ih =>
    obtain ⟨message, hmessage⟩ : ∃ message, message = flowModMessage transactionId migration.key
      (UInt16.ofNat migration.destinationCore) := ⟨_, rfl⟩
    have hwrite : Performs p l [.write (.flowMod message)] .applying _ :=
      .single (.migrate message hp) rfl
    obtain ⟨ops, q, m, hperforms, hq, harrivals, hconnection⟩ :=
      ih (transactionId + 1) (p := .applying) { l with connection := { l.connection with
        fd := (write l.connection.fd (.flowMod message)).2 } } trivial
    refine ⟨_, q, m, hwrite.trans hperforms, hq, harrivals, ?_⟩
    rw [hconnection, hmessage]
    rfl

theorem iteration_performs {s : MainState} {i : Surroundings} {r : Iteration} {p : Place}
    {l : ConnectionLog} (h : iteration s i = .ok r) (hp : p.InFront)
    (hl : l.connection = s.connection) :
    ∃ ops q m, Performs p l ops q m ∧ q.InFront ∧ arrivals ops = [i] ∧
      m.connection = r.after.connection := by
  obtain ⟨connection, r₁, r₂, map, migrations, freed, hcontrol, hfirst, hsecond, -, -, rfl⟩ :=
    iteration_ok h
  obtain ⟨messages, hlogged⟩ := openflowControlLogged_of_ok hcontrol
  have harrive : Performs p l [.arrive i] .arrived { l with connection := s.connection.meets i } :=
    .single (.arrive i hp) (by rw [← hl]; rfl)
  have hhandle := harrive.trans (.single .control (bind_eq_ok.mpr ⟨(connection, messages), hlogged,
    rfl⟩))
  obtain ⟨ops₁, m₁, hquery, hnone₁, hm₁, hxid⟩ := openflowGetFlows_performs
    (.query s.transactionId) (.part s.transactionId) hfirst
    (l := { l with connection := connection, handled := l.handled ++ messages }) rfl
  rw [hxid] at hsecond
  obtain ⟨ops₂, m₂, hagain, hnone₂, hm₂, -⟩ := openflowGetFlows_performs
    (.queryAgain s.transactionId) (.partAgain (s.transactionId + 1)) hsecond hm₁
  obtain ⟨ops₃, q, m₃, happly, hq, hnone₃, hm₃⟩ := applyMigrations_performs migrations
    r₂.transactionId (p := .collectingAgain (s.transactionId + 1)) m₂ trivial
  refine ⟨_, q, m₃, ((hhandle.trans hquery).trans hagain).trans happly, hq.inFront, ?_, ?_⟩
  · rw [arrivals_append, arrivals_append, arrivals_append, hnone₁, hnone₂, hnone₃]
    rfl
  · rw [hm₃, hm₂]

theorem trace_performs {inputs : List Surroundings} {s : MainState} {rs : List Iteration}
    {p : Place} {l : ConnectionLog} (h : trace iteration Iteration.after inputs s = .ok rs)
    (hp : p.InFront) (hl : l.connection = s.connection) :
    ∃ ops q m, Performs p l ops q m ∧ q.InFront ∧ arrivals ops = inputs ∧
      m.connection = (final Iteration.after s rs).connection := by
  induction inputs generalizing s rs p l with
  | nil =>
    cases h
    exact ⟨[], p, l, .nil p l, hp, rfl, hl⟩
  | cons i inputs ih =>
    obtain ⟨r, rs', hr, hrs', rfl⟩ := trace_cons_ok.mp h
    obtain ⟨ops, q, m, hfirst, hq, harrivals, hm⟩ := iteration_performs hr hp hl
    obtain ⟨ops', q', m', hrest, hq', harrivals', hm'⟩ := ih hrs' hq hm
    refine ⟨ops ++ ops', q', m', hfirst.trans hrest, hq', ?_, hm'⟩
    rw [arrivals_append, harrivals, harrivals']
    rfl

/-- The program performs its operations in this order. -/
theorem main_performs {connection : OpenflowConnection} {transactionId : UInt32}
    {message : OpenflowMessage} {handshake : Handshake} {inputs : List Surroundings}
    {rs : List Iteration}
    (hcreate : openflowCreateConnection connection transactionId message = .ok handshake)
    (hloop : mainLoop handshake.connection handshake.transactionId inputs = .ok rs) :
    ∃ ops q l, Performs .greeting (.start connection) ops q l ∧ arrivals ops = inputs ∧
      l.connection = (final Iteration.after
        (.start handshake.connection handshake.transactionId) rs).connection := by
  obtain ⟨ops, l, hhandshake, hnone, hl⟩ := openflowCreateConnection_performs hcreate
  have henter : Performs .connected l [.enterLoop] .looping
      { l with connection := (MainState.start handshake.connection 0).connection } :=
    .single .enterLoop (by rw [← hl]; rfl)
  obtain ⟨ops', q, m, hrun, -, harrivals, hm⟩ := trace_performs hloop (p := .looping) trivial
    (l := { l with connection := (MainState.start handshake.connection 0).connection }) rfl
  refine ⟨_, q, m, (hhandshake.trans henter).trans hrun, ?_, hm⟩
  rw [arrivals_append, arrivals_append, hnone, harrivals]
  rfl

end OrssNic
