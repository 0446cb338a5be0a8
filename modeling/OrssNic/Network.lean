import OrssNic.PlacementLedger
import OrssNic.Controller

/-!
# The switch, its controller and the main loop

One flow table, on which two parties act in any order: the controller, when a
packet comes in or the switch is entered, and iterations of the main loop, whose
report is what the table holds. The history of the handled messages decides the
tags: an exact entry has the tag of the last `FLOW_MOD` for its flow, unless the
controller has installed the flow again since.
-/

namespace OrssNic
open CLoops CRuns Placement OpenflowMatch

inductive SwitchMessage
  | controller (m : FlowMod)
  | orss (message : OpenflowFlowModMessage)

namespace SwitchMessage

def flowMod : SwitchMessage → Option FlowMod
  | controller m => some m
  | orss message => message.flowMod

def retags (key : FiveTuple) : SwitchMessage → Bool
  | controller _ => false
  | orss message => message.fiveTuple == key

def installs (key : FiveTuple) : SwitchMessage → Bool
  | controller m => m.command == .add && m.match == exactMatch key
  | orss _ => false

end SwitchMessage

def handle (table : List SwitchEntry) (message : SwitchMessage) : List SwitchEntry :=
  match message.flowMod with
  | some m => applyFlowMod table m
  | none => table

structure Network where
  table : List SwitchEntry
  main : MainState
  history : List SwitchMessage

namespace Network

def start (connection : OpenflowConnection) (transactionId : UInt32) : Network :=
  ⟨[], .start connection transactionId, []⟩

def receive (n : Network) (messages : List SwitchMessage) : Network :=
  { n with
    table := messages.foldl handle n.table
    history := n.history ++ messages }

def after (n : Network) (r : Iteration) : Network :=
  { n.receive (r.flowMods.map .orss) with main := r.after }

end Network

def Asked (e : SwitchEntry) : Bool :=
  (ntohOpenflowMatch (flowRequest 0).body.match).covers e.match

theorem asked_iff {e : SwitchEntry} :
    Asked e = true ↔
      e.match.wild OFPFW10_IN_PORT = false ∧ e.match.inPort = OVS_NETWORK_IFINDEX := by
  have hrequest : ntohOpenflowMatch (flowRequest 0).body.match =
      { (default : OpenflowMatch) with
        wildcards := OFPFW10_ALL &&& ~~~OFPFW10_IN_PORT
        inPort := OVS_NETWORK_IFINDEX } := by
    decide
  rw [Asked, hrequest, covers, fieldCovers_of_not_wild (by decide),
    fieldCovers_of_wild (by decide), fieldCovers_of_wild (by decide),
    fieldCovers_of_wild (by decide), fieldCovers_of_wild (by decide),
    fieldCovers_of_wild (by decide), fieldCovers_of_wild (by decide),
    fieldCovers_of_wild (by decide), addressCovers_of_wild (by decide),
    addressCovers_of_wild (by decide), fieldCovers_of_wild (by decide),
    fieldCovers_of_wild (by decide)]
  simp only [Bool.and_true, Bool.and_eq_true, Bool.not_eq_true', beq_iff_eq]
  exact and_congr_right fun _ => eq_comm

/-- The report is the answer of the switch, in an order of its own. The counters
are free. -/
def Reports (table : List SwitchEntry) (flows : OpenflowFlows) : Prop :=
  List.Perm ((reportedStats flows).map fun stats => (stats.match, stats.priority))
    ((table.filter Asked).map fun e => (e.match, e.priority))

instance (table : List SwitchEntry) (flows : OpenflowFlows) : Decidable (Reports table flows) :=
  inferInstanceAs (Decidable (List.Perm _ _))

/-- A step of one of the parties. An iteration and its `FLOW_MOD`s are one step. -/
inductive NetworkStep : Network → Network → Prop
  | packetIn (n : Network) (packet : Controller.ReceivedPacket) :
    NetworkStep n (n.receive ((Controller.packetInHandler packet).map .controller))
  | switchEnter (n : Network) :
    NetworkStep n (n.receive (Controller.onSwitchConnection.map .controller))
  | iterate {n : Network} {i : Surroundings} {r : Iteration} (hok : iteration n.main i = .ok r)
    (hreport : Reports n.table r.flows) (hwrites : r.after.connection.fd.FlowModsSucceed) :
    NetworkStep n (n.after r)

def NetworkReaches (connection : OpenflowConnection) (transactionId : UInt32) : Network → Prop :=
  Relation.ReflTransGen NetworkStep (.start connection transactionId)

/-! ## The history of a flow -/

def retagging (history : List SwitchMessage) : List (FiveTuple × ℕ) :=
  history.filterMap fun
    | .controller _ => none
    | .orss message => some message.move

/-- What came after the last `FLOW_MOD` for the flow, the newest first. -/
def sinceRetag (key : FiveTuple) (history : List SwitchMessage) : List SwitchMessage :=
  history.reverse.takeWhile fun message => !message.retags key

/-- The controller has not installed the flow since the last `FLOW_MOD` for it,
or there has been none. -/
def Undisturbed (key : FiveTuple) (history : List SwitchMessage) : Prop :=
  (∀ message ∈ history, message.retags key = false) ∨
    ∀ message ∈ sinceRetag key history, message.installs key = false

def matchKey (m : OpenflowMatch) : FiveTuple :=
  ⟨m.nwSrc, m.nwDst, m.tpSrc, m.tpDst, m.nwProto⟩

theorem matchKey_exactMatch (key : FiveTuple) : matchKey (exactMatch key) = key := rfl

/-- The main loop has never retagged the flow of the match; or it has, the match
is exact, and the controller has not installed the flow again since. -/
def Kept (m : OpenflowMatch) (history : List SwitchMessage) : Prop :=
  (∀ message ∈ history, message.retags (matchKey m) = false) ∨
    m = exactMatch (matchKey m) ∧
      ∀ message ∈ sinceRetag (matchKey m) history, message.installs (matchKey m) = false

instance (m : OpenflowMatch) (history : List SwitchMessage) : Decidable (Kept m history) :=
  inferInstanceAs (Decidable (_ ∨ _ ∧ _))

theorem Kept.undisturbed {m : OpenflowMatch} {history : List SwitchMessage}
    (h : Kept m history) : Undisturbed (matchKey m) history :=
  h.imp_right And.right

section History
variable {key : FiveTuple} {history : List SwitchMessage} {message : SwitchMessage}

theorem sinceRetag_concat (h : message.retags key = false) :
    sinceRetag key (history ++ [message]) = message :: sinceRetag key history := by
  simp [sinceRetag, h]

theorem Undisturbed.of_concat (hu : Undisturbed key (history ++ [message]))
    (h : message.retags key = false) : Undisturbed key history := by
  rcases hu with hnone | hsince
  · exact .inl fun m hm => hnone m (List.mem_append_left _ hm)
  · rw [sinceRetag_concat h, List.forall_mem_cons] at hsince
    exact .inr hsince.2

theorem Undisturbed.never_retagged (hu : Undisturbed key (history ++ [message]))
    (h : message.retags key = false) (hinstalls : message.installs key = true) :
    ∀ m ∈ history, m.retags key = false := by
  rcases hu with hnone | hsince
  · exact fun m hm => hnone m (List.mem_append_left _ hm)
  · rw [sinceRetag_concat h, List.forall_mem_cons] at hsince
    rw [hsince.1] at hinstalls
    cases hinstalls

theorem lastMove_retagging_eq_none (h : ∀ m ∈ history, m.retags key = false) :
    lastMove (retagging history) key = none := by
  rw [lastMove_eq_none_iff]
  intro move hmove
  obtain ⟨message, hmem, hsome⟩ := List.mem_filterMap.mp hmove
  cases message with
  | controller m => cases hsome
  | orss message =>
    have hne : (message.fiveTuple == key) = false := h _ hmem
    cases hsome
    exact beq_eq_false_iff_ne.mp hne

theorem retagging_append (history history' : List SwitchMessage) :
    retagging (history ++ history') = retagging history ++ retagging history' :=
  List.filterMap_append

theorem retagging_controller (ms : List FlowMod) :
    retagging (ms.map .controller) = [] := by
  simp [retagging, List.filterMap_map]

theorem retagging_orss (messages : List OpenflowFlowModMessage) :
    retagging (messages.map .orss) = messages.map OpenflowFlowModMessage.move := by
  simp [retagging, List.filterMap_map]

end History

end OrssNic
