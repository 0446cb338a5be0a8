import OrssNic.BodyRefinement

/-!
# The calls of the main loop, with bodies on the heap

`openflow_control` gives back every body it handles, and `openflow_get_flows`
those of its parts; what is left is owned by the side buffer.
-/

namespace OrssNic.Bodies
open CLoops CRuns

/-! ## Housekeeping -/

theorem controlLogic_agree {m : OpenflowMessage} {v : OrssNic.OpenflowMessage} (fd : Socket)
    (h : m.header = v.header) : controlLogic fd m = OrssNic.controlLogic fd v := by
  rw [controlLogic, OrssNic.controlLogic, h]

structure BufferAgrees (start : BodyHeap) (others : List Ref) (messages : List OpenflowMessage)
    (i : ℕ) (s : Socket × BodyHeap) (fd : Socket) : Prop where
  fd : s.1 = fd
  extended : Extends start s.2
  owned : s.2.OwnedBy (others ++ (messages.drop i).flatMap OpenflowMessage.owns)

theorem controlBufferStep_agree {start : BodyHeap} {others : List Ref}
    {connection : OpenflowConnection} {connection' : OrssNic.OpenflowConnection}
    (hc : Mirrors start connection connection') {i : ℕ} {s : Socket × BodyHeap} {fd : Socket}
    (hi : i < connection.nbMsgBuffered.toNat)
    (h : BufferAgrees start others connection.buffered i s fd) :
    Agree (BufferAgrees start others connection.buffered (i + 1))
      (controlBufferStep connection.msgBuffer i s)
      (OrssNic.controlBufferStep connection'.msgBuffer i fd) := by
  rw [controlBufferStep, OrssNic.controlBufferStep]
  have hmsg : connection.buffered[i]? = connection.msgBuffer[i]? := List.getElem?_take_of_lt hi
  have hmsg' : connection'.buffered[i]? = connection'.msgBuffer[i]? :=
    List.getElem?_take_of_lt (hc.count ▸ hi)
  cases hv : connection'.msgBuffer[i]? with
  | none =>
    have hnone : connection.msgBuffer[i]? = none := by
      rw [← hmsg, List.getElem?_eq_none_iff, hc.buffered.length_eq, ← List.getElem?_eq_none_iff,
        hmsg', hv]
    rw [readAt_of_getElem?_none hv, readAt_of_getElem?_none hnone]
    exact .error _
  | some v =>
    obtain ⟨m, hm, hshows⟩ := CLists.exists_of_forall₂ hc.buffered (hmsg'.trans hv)
    obtain ⟨hlt, hget⟩ := List.getElem?_eq_some_iff.mp hm
    rw [readAt_of_getElem? hv, readAt_of_getElem? (hmsg ▸ hm)]
    have howned := h.owned
    rw [List.drop_eq_getElem_cons hlt, List.flatMap_cons, hget] at howned
    obtain ⟨bodies, hfree, hnext, hextends⟩ :=
      freeOpenflowMessageBody_owned (hshows.extends h.extended)
        (howned.perm (List.perm_append_comm_assoc m.owns others _))
    simp only [bind, Except.bind, hfree]
    refine .ok ⟨?_, h.extended.trans hextends, ?_⟩
    · rw [h.fd, controlLogic_agree _ hshows.header]
    · exact hnext

structure DrainAgrees (start : BodyHeap) (others : List Ref) (s : Draining)
    (s' : OrssNic.Draining) : Prop where
  fd : s.fd = s'.fd
  header : s.message.header = s'.message.header
  drained : s.drained = s'.drained
  extended : Extends start s.bodies
  owned : s.bodies.OwnedBy others

theorem controlSocketStep_agree {start : BodyHeap} {others : List Ref} {s : Draining}
    {s' : OrssNic.Draining} (h : DrainAgrees start others s s') :
    Agree (Option.Rel (DrainAgrees start others)) (controlSocketStep s)
      (OrssNic.controlSocketStep s') := by
  rw [controlSocketStep, OrssNic.controlSocketStep, ← h.drained, ← h.fd]
  split_ifs
  · exact .ok .none
  refine (readOpenflowMessage_agree s.fd s.bodies h.header).bind ?_
  rintro ⟨received, fd, bodies, msg⟩ ⟨received', fd', msg'⟩ hread
  have hshows := hread.shows
  have hnew := hread.owned h.owned
  have hextends := h.extended.trans hread.extends
  have hheader := hread.header
  obtain rfl : received = received' := hread.received
  obtain rfl : fd = fd' := hread.fd
  dsimp only at hshows hnew hextends hheader ⊢
  split_ifs with hreceived
  · rw [if_pos hreceived] at hnew
    obtain ⟨bodies', hfree, hnext, hafter⟩ := freeOpenflowMessageBody_owned (hshows hreceived)
      (hnew.perm List.perm_append_comm)
    simp only [bind, Except.bind, hfree]
    refine .ok (.some ⟨?_, hheader, rfl, hextends.trans hafter, hnext⟩)
    exact controlLogic_agree fd hheader
  · rw [if_neg hreceived, List.append_nil] at hnew
    exact .ok (.some ⟨rfl, hheader, rfl, hextends, hnew⟩)

structure ControlResult (start : BodyHeap) (others : List Ref)
    (r : OpenflowConnection × BodyHeap) (connection' : OrssNic.OpenflowConnection) : Prop where
  extended : Extends start r.2
  connection : Mirrors r.2 r.1 connection'
  empty : r.1.owners = []
  owned : r.2.OwnedBy others

theorem openflowControl_agree {bodies : BodyHeap} {others : List Ref}
    {connection : OpenflowConnection} {connection' : OrssNic.OpenflowConnection}
    (h : Mirrors bodies connection connection')
    (ho : bodies.OwnedBy (others ++ connection.owners)) :
    Agree (ControlResult bodies others) (openflowControl connection bodies)
      (OrssNic.openflowControl connection') := by
  rw [openflowControl, OrssNic.openflowControl, ← h.count, ← h.fd]
  have hbuffer : Agree
      (BufferAgrees bodies others connection.buffered connection.nbMsgBuffered.toNat)
      (forLoop (controlBufferStep connection.msgBuffer) connection.nbMsgBuffered.toNat
        (connection.fd, bodies))
      (forLoop (OrssNic.controlBufferStep connection'.msgBuffer) connection.nbMsgBuffered.toNat
        connection.fd) := by
    apply forLoop_agree
    · exact ⟨rfl, .refl bodies, ho⟩
    · exact fun i t t' hi ht => controlBufferStep_agree h hi ht
  refine hbuffer.bind ?_
  rintro ⟨fd, bodies'⟩ _ ⟨rfl, hextends, howned⟩
  have hnil : connection.buffered.drop connection.nbMsgBuffered.toNat = [] :=
    List.drop_eq_nil_of_le (List.length_take_le _ _)
  rw [hnil, List.flatMap_nil, List.append_nil] at howned
  refine (whileLoop_agree (fun t t' ht => controlSocketStep_agree ht) _
    ⟨rfl, rfl, rfl, hextends, howned⟩).bind ?_
  rintro t t' ⟨ht, -⟩
  refine .ok ⟨ht.extended, ⟨ht.fd, rfl, ?_⟩, ?_, ht.owned⟩
  · exact .nil
  · rfl

/-! ## Collecting the parts -/

structure CollectAgrees (others : List Ref) (s : Collecting) (s' : OrssNic.Collecting) :
    Prop where
  connection : Mirrors s.bodies s.connection s'.connection
  nbMessages : s.nbMessages = s'.nbMessages
  replyFullyReceived : s.replyFullyReceived = s'.replyFullyReceived
  follows : List.Forall₂ (fun m v => Follows s.bodies (s.connection.owners ++ m.owns) m v)
    s.messages s'.messages
  unused : ∀ m ∈ s.messages.drop s.nbMessages, m.data = none
  shows : List.Forall₂ (Shows s.bodies) (s.messages.take s.nbMessages)
    (s'.messages.take s.nbMessages)
  owned : s.bodies.OwnedBy (others ++ s.connection.owners ++
    (s.messages.take s.nbMessages).flatMap OpenflowMessage.owns)

theorem CollectAgrees.owns_subset {others : List Ref} {s : Collecting}
    {s' : OrssNic.Collecting} (h : CollectAgrees others s s') :
    ∀ m ∈ s.messages, s.connection.owners ++ m.owns ⊆ others ++ s.connection.owners ++
      (s.messages.take s.nbMessages).flatMap OpenflowMessage.owns := by
  intro m hm
  have howns : m.owns ⊆ (s.messages.take s.nbMessages).flatMap OpenflowMessage.owns := by
    rw [← List.take_append_drop s.nbMessages s.messages, List.mem_append] at hm
    rcases hm with hused | hunused
    · exact fun r hr => List.mem_flatMap.mpr ⟨m, hused, hr⟩
    · intro r hr
      rw [OpenflowMessage.owns, h.unused m hunused] at hr
      split_ifs at hr
      · cases hr
      · cases hr
  rw [List.append_assoc]
  apply List.subset_append_of_subset_right
  exact List.append_subset.mpr
    ⟨List.subset_append_left _ _, List.subset_append_of_subset_right _ howns⟩

theorem CollectAgrees.next {others : List Ref} {s : Collecting} {s' : OrssNic.Collecting}
    (h : CollectAgrees others s s') {v : OrssNic.OpenflowMessage}
    (hv : s'.messages[s.nbMessages]? = some v) :
    ∃ m, s.messages[s.nbMessages]? = some m ∧ Follows s.bodies ([] ++ s.connection.owners) m v := by
  obtain ⟨m, hm, hfollows⟩ := CLists.exists_of_forall₂ h.follows hv
  obtain ⟨hlt, hget⟩ := List.getElem?_eq_some_iff.mp hm
  have hnull : m.data = none := by
    apply h.unused
    rw [List.drop_eq_getElem_cons hlt, hget]
    exact List.mem_cons_self
  refine ⟨m, hm, hfollows.header, hfollows.data, fun r hr => ?_⟩
  rw [hnull] at hr
  cases hr

theorem CollectAgrees.stored {others : List Ref} {s : Collecting} {s' : OrssNic.Collecting}
    (h : CollectAgrees others s s') (hlt : s.nbMessages < s.messages.length)
    {r : OpenflowConnection × BodyHeap × OpenflowMessage}
    {r' : OrssNic.OpenflowConnection × OrssNic.OpenflowMessage}
    (hwait : WaitResult s.bodies s.connection []
      (others ++ (s.messages.take s.nbMessages).flatMap OpenflowMessage.owns) r r')
    (received : Bool) :
    CollectAgrees others
      ⟨r.1, r.2.1, s.messages.set s.nbMessages r.2.2, s.nbMessages + 1, received⟩
      ⟨r'.1, s'.messages.set s.nbMessages r'.2, s.nbMessages + 1, received⟩ := by
  refine ⟨hwait.connection, rfl, rfl, ?_, ?_, ?_, ?_⟩
  · have hold := (List.forall₂_and_left _ _).mpr ⟨h.owns_subset, h.follows⟩
    apply CLists.forall₂_set (R := fun m v => Follows r.2.1 (r.1.owners ++ m.owns) m v)
    · refine hold.imp fun m v hm => ?_
      apply (hm.2.extends h.owned hm.1 hwait.extended).mono
      exact List.append_subset.mpr
        ⟨List.subset_append_of_subset_left _ hwait.grown, List.subset_append_right _ _⟩
    · exact hwait.msg
  · intro m hm
    rw [List.drop_set_of_lt (Nat.lt_succ_self _)] at hm
    exact h.unused m (List.drop_subset_drop_left _ (Nat.le_succ _) hm)
  · rw [CLists.take_succ_set hlt, CLists.take_succ_set (h.follows.length_eq ▸ hlt)]
    refine List.rel_append (h.shows.imp fun _ _ hm => hm.extends hwait.extended) (.cons ?_ .nil)
    exact hwait.shows
  · rw [CLists.take_succ_set hlt, List.flatMap_append, List.flatMap_singleton]
    refine hwait.owned.perm ?_
    simp only [List.append_assoc]
    exact (List.perm_append_comm_assoc _ _ _).append_left others

theorem collectStep_agree (currentXid : UInt32) {others : List Ref} {s : Collecting}
    {s' : OrssNic.Collecting} (h : CollectAgrees others s s') :
    Agree (Option.Rel (CollectAgrees others)) (collectStep currentXid s)
      (OrssNic.collectStep currentXid s') := by
  rw [collectStep, OrssNic.collectStep, ← h.replyFullyReceived, ← h.nbMessages]
  split_ifs
  · exact .ok .none
  cases hv : s'.messages[s.nbMessages]? with
  | none =>
    have hnone : s.messages[s.nbMessages]? = none := by
      rw [List.getElem?_eq_none_iff, h.follows.length_eq, ← List.getElem?_eq_none_iff, hv]
    rw [readAt_of_getElem?_none hv, readAt_of_getElem?_none hnone]
    exact .error _
  | some v =>
    obtain ⟨m, hm, hinput⟩ := h.next hv
    have hlt := (List.getElem?_eq_some_iff.mp hm).1
    have howned : s.bodies.OwnedBy
        (others ++ (s.messages.take s.nbMessages).flatMap OpenflowMessage.owns ++
          s.connection.owners) := by
      refine h.owned.perm ?_
      rw [List.append_assoc, List.append_assoc]
      exact List.perm_append_comm.append_left others
    rw [readAt_of_getElem? hv, readAt_of_getElem? hm]
    simp only [bind, Except.bind]
    refine (openflowWaitForMessage_agree OFP_STATS_REPLY currentXid h.connection hinput
      howned).bind ?_
    rintro ⟨connection, bodies, msg⟩ ⟨connection', msg'⟩ hwait
    have hmsg : Follows bodies (connection.owners ++ msg.owns) msg msg' := hwait.msg
    have hdata : messageData bodies msg = OrssNic.messageData msg' := by
      refine messageData_agree hmsg hwait.owned ?_
      rw [List.append_assoc]
      exact List.subset_append_right _ _
    simp only [writeAt_of_lt hlt, writeAt_of_lt (h.follows.length_eq ▸ hlt), hdata]
    refine (agree_self (R := Eq) fun _ _ => rfl).bind ?_
    rintro data _ rfl
    refine (agree_self (R := Eq) fun _ _ => rfl).bind ?_
    rintro flags _ rfl
    exact .ok (.some (h.stored hlt hwait _))

/-! ## Parsing the parts -/

structure ParseResult (start : BodyHeap) (owners : List Ref) (r : Parsed)
    (r' : OpenflowFlows × Heap ActionPayload) : Prop where
  flows : r.flows = r'.1
  payloads : r.payloads = r'.2
  extended : Extends start r.bodies
  owned : r.bodies.OwnedBy owners

theorem parts_extend {held others : List Ref} {bodies bodies' : BodyHeap}
    {messages : List OpenflowMessage} {messages' : List OrssNic.OpenflowMessage}
    (hheld : held ⊆ others)
    (h : List.Forall₂ (fun m v => Follows bodies (held ++ m.owns) m v ∧ Shows bodies m v)
      messages messages')
    (ho : bodies.OwnedBy (others ++ messages.flatMap OpenflowMessage.owns))
    (hextends : Extends bodies bodies') :
    List.Forall₂ (fun m v => Follows bodies' (held ++ m.owns) m v ∧ Shows bodies' m v)
      messages messages' := by
  have hsub : ∀ m ∈ messages, held ++ m.owns ⊆
      others ++ messages.flatMap OpenflowMessage.owns := by
    intro m hm
    have howns : m.owns ⊆ messages.flatMap OpenflowMessage.owns :=
      fun r hr => List.mem_flatMap.mpr ⟨m, hm, hr⟩
    exact List.append_subset.mpr ⟨List.subset_append_of_subset_left _ hheld,
      List.subset_append_of_subset_right _ howns⟩
  refine ((List.forall₂_and_left _ _).mpr ⟨hsub, h⟩).imp fun m v hm => ?_
  exact ⟨hm.2.1.extends ho hm.1 hextends, hm.2.2.extends hextends⟩

theorem parseReplies_agree {held : List Ref} (others : List Ref) {messages : List OpenflowMessage}
    {messages' : List OrssNic.OpenflowMessage} (s : Parsed) (hheld : held ⊆ others)
    (hfollows : List.Forall₂ (fun m v => Follows s.bodies (held ++ m.owns) m v ∧
      Shows s.bodies m v) messages messages')
    (ho : s.bodies.OwnedBy (others ++ messages.flatMap OpenflowMessage.owns)) :
    Agree (ParseResult s.bodies others) (parseReplies messages s)
      (OrssNic.parseReplies messages' s.flows s.payloads) := by
  induction messages generalizing messages' s with
  | nil =>
    cases hfollows
    rw [List.flatMap_nil, List.append_nil] at ho
    exact .ok ⟨rfl, rfl, .refl _, ho⟩
  | cons m messages ih =>
    cases hfollows with
    | cons hm hrest =>
      rename_i v messages'
      rw [List.flatMap_cons] at ho
      have hdata : messageData s.bodies m = OrssNic.messageData v := by
        refine messageData_agree hm.1 ho ?_
        exact List.append_subset.mpr ⟨List.subset_append_of_subset_left _ hheld,
          List.subset_append_of_subset_right _ (List.subset_append_left _ _)⟩
      rw [parseReplies, OrssNic.parseReplies, hdata]
      cases hv : v.data with
      | none =>
        simp only [parseReply, OrssNic.messageData, hv, bind, Except.bind]
        exact .error _
      | some data =>
        have hmessage : (⟨m.header, some data⟩ : OrssNic.OpenflowMessage) = v := by
          rw [hm.1.header, ← hv]
        have hok : OrssNic.messageData v = .ok data := by
          rw [OrssNic.messageData, hv]
        obtain ⟨bodies, hfree, howned, hextends⟩ := freeOpenflowMessageBody_owned hm.2
          (ho.perm (List.perm_append_comm_assoc _ _ _))
        rw [hok]
        simp only [bind, Except.bind, hmessage]
        refine (agree_self (R := Eq) fun _ _ => rfl).bind ?_
        rintro ⟨flows, payloads⟩ _ rfl
        have hlater : List.Forall₂ (fun m v => Follows bodies (held ++ m.owns) m v ∧
            Shows bodies m v) messages messages' := by
          apply parts_extend (List.Subset.trans hheld (List.subset_append_left others m.owns))
            hrest ?_ hextends
          rw [List.append_assoc]
          exact ho
        simp only [hfree]
        refine (ih ⟨flows, payloads, bodies⟩ hlater howned).mono ?_
        rintro r r' ⟨hflows, hpayloads, hnext, hr⟩
        exact ⟨hflows, hpayloads, hextends.trans hnext, hr⟩

structure GetFlowsResult (others : List Ref) (r : GetFlows) (r' : OrssNic.GetFlows) : Prop where
  connection : Mirrors r.parsed.bodies r.connection r'.connection
  transactionId : r.transactionId = r'.transactionId
  flows : r.parsed.flows = r'.flows
  payloads : r.parsed.payloads = r'.payloads
  owned : r.parsed.bodies.OwnedBy (others ++ r.connection.owners)

theorem openflowGetFlows_agree {others : List Ref} {connection : OpenflowConnection}
    {connection' : OrssNic.OpenflowConnection} (transactionId : UInt32)
    (stack : ℕ → OpenflowHeader) (parsed : Parsed)
    (h : Mirrors parsed.bodies connection connection')
    (ho : parsed.bodies.OwnedBy (others ++ connection.owners)) :
    Agree (GetFlowsResult others) (openflowGetFlows connection transactionId stack parsed)
      (OrssNic.openflowGetFlows connection' transactionId (fun k => ⟨stack k, none⟩) parsed.flows
        parsed.payloads) := by
  rw [openflowGetFlows, OrssNic.openflowGetFlows, ← h.fd]
  dsimp only
  have hasked : Mirrors parsed.bodies
      { connection with fd := (write connection.fd (.statsRequest (flowRequest transactionId))).2 }
      { connection' with
        fd := (write connection.fd (.statsRequest (flowRequest transactionId))).2 } :=
    ⟨rfl, h.count, h.buffered⟩
  split_ifs
  · exact .ok ⟨hasked, rfl, rfl, rfl, ho⟩
  have hstart : CollectAgrees others
      ⟨{ connection with
        fd := (write connection.fd (.statsRequest (flowRequest transactionId))).2 },
        parsed.bodies, (List.range MAX_STATS_REPLY).map fun k => ⟨stack k, none⟩, 0, false⟩
      ⟨{ connection' with
        fd := (write connection.fd (.statsRequest (flowRequest transactionId))).2 },
        (List.range MAX_STATS_REPLY).map fun k => ⟨stack k, none⟩, 0, false⟩ := by
    refine ⟨hasked, rfl, rfl, ?_, ?_, ?_, ?_⟩
    · rw [List.forall₂_map_left_iff, List.forall₂_map_right_iff, List.forall₂_same]
      intro k _
      refine ⟨rfl, rfl, fun r hr => ?_⟩
      cases hr
    · intro m hm
      obtain ⟨k, -, rfl⟩ := List.mem_map.mp (List.mem_of_mem_drop hm)
      rfl
    · exact .nil
    · rw [List.take_zero, List.flatMap_nil, List.append_nil]
      exact ho
  refine (whileLoop_agree (fun t t' ht => collectStep_agree transactionId ht) _ hstart).bind ?_
  rintro s s' ⟨hs, -⟩
  rw [← hs.nbMessages]
  have hparts : List.Forall₂ (fun m v => Follows s.bodies (s.connection.owners ++ m.owns) m v ∧
      Shows s.bodies m v) (s.messages.take s.nbMessages) (s'.messages.take s.nbMessages) :=
    CLists.forall₂_and (List.forall₂_take _ hs.follows) hs.shows
  refine (parseReplies_agree (others ++ s.connection.owners)
    ⟨{ parsed.flows with nbFlows := 0 }, parsed.payloads, s.bodies⟩ (List.subset_append_right _ _)
    hparts hs.owned).bind ?_
  rintro r ⟨flows, payloads⟩ hr
  exact .ok ⟨hs.connection.extends hr.extended, rfl, hr.flows, hr.payloads, hr.owned⟩

end OrssNic.Bodies
