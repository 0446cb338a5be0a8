import OrssNic.MessageConservation
import OrssNic.OpenflowReply

/-!
# Matching replies to their request

A wait with the number 0 does not look at the number of a message, and 0 is
also a value of the counter that numbers the requests. With any other value the
parts of an answer are those with the number of the request.
-/

namespace OrssNic
open CLoops

/-! ## What a call takes from the socket -/

def WireMessage.isReplyTo (xid : UInt32) (m : WireMessage) : Bool :=
  m.type == OFP_STATS_REPLY && m.xid == xid

def announcesMore : Option (List UInt8) → Bool
  | some data => !(ntohs (loadU16 ((data.drop 2).take 2) 0) &&& OFPSF_REPLY_MORE == 0)
  | none => false

/-- Up to the first awaited message that does not announce more parts. Every
awaited one moves on to the next cell of the uninitialised array. -/
def takenFrom (stack : ℕ → OpenflowMessage) (awaited : WireMessage → Bool) :
    ℕ → Option (List UInt8) → List WireMessage → List WireMessage
  | _, _, [] => []
  | k, data, m :: unread =>
    let data := dataAfter data m
    m :: if awaited m then
        if announcesMore data then takenFrom stack awaited (k + 1) (stack (k + 1)).data unread
        else []
      else takenFrom stack awaited k data unread

/-- The messages taken are the replies to the request, which are parsed, and others,
which are set aside. -/
def RepliesMatched (connection : OpenflowConnection) (transactionId : UInt32)
    (flows : OpenflowFlows) (payloads : Heap ActionPayload) (unread : List WireMessage)
    (r : GetFlows) : Prop :=
  ∃ taken rest replies, unread = taken ++ rest ∧ Unread r.connection.fd rest ∧
    replies.map OpenflowMessage.content =
      (taken.filter (·.isReplyTo transactionId)).map WireMessage.content ∧
    parseReplies replies { flows with nbFlows := 0 } payloads = .ok (r.flows, r.payloads) ∧
    r.connection.buffered.map OpenflowMessage.content =
      connection.buffered.map OpenflowMessage.content ++
        (taken.filter fun m => !m.isReplyTo transactionId).map WireMessage.content

section Unique
variable {fd : Socket} {rest rest' front front' : List WireMessage}

theorem wireBytes_suffix_inj (h : rest <:+ rest') (hbytes : wireBytes rest = wireBytes rest') :
    rest = rest' := by
  obtain ⟨front, rfl⟩ := h
  cases front with
  | nil => rfl
  | cons m front =>
    have hlength := congrArg List.length hbytes
    rw [List.cons_append, wireBytes_cons_length, OFP_HEADER_LEN, wireBytes,
      wireBytes, List.flatMap_append, List.length_append] at hlength
    omega

theorem Unread.unique (h : Unread fd rest) (h' : Unread fd rest')
    (hsplit : front ++ rest = front' ++ rest') : front = front' ∧ rest = rest' := by
  have hbytes : wireBytes rest = wireBytes rest' := h.stream.symm.trans h'.stream
  have hsuffix : rest <:+ front' ++ rest' := hsplit ▸ List.suffix_append front rest
  have hrest : rest = rest' := by
    rcases List.suffix_or_suffix_of_suffix hsuffix (List.suffix_append front' rest') with hs | hs
    · exact wireBytes_suffix_inj hs hbytes
    · exact (wireBytes_suffix_inj hs hbytes.symm).symm
  subst hrest
  exact ⟨List.append_cancel_right hsplit, rfl⟩

end Unique

section Wait
variable {connection connection' : OpenflowConnection} {type : UInt8} {xid : UInt32}
variable {msg msg' : OpenflowMessage} {unread : List WireMessage}

theorem openflowWaitForMessage_data (h : Unread connection.fd unread)
    (hok : openflowWaitForMessage connection type msg xid = .ok (connection', msg')) :
    ∃ taken rest, unread = taken ++ rest ∧ Unread connection'.fd rest ∧
      msg'.data = taken.foldl dataAfter msg.data := by
  obtain ⟨s, hloop, hok⟩ := bind_eq_ok.mp hok
  cases hok
  refine (whileLoop_correct hloop).1.invariant (P := fun s : Waiting => ∃ taken rest,
    unread = taken ++ rest ∧ Unread s.connection.fd rest ∧
      s.msg.data = taken.foldl dataAfter msg.data) ⟨[], unread, rfl, h, rfl⟩ ?_
  rintro t t' ⟨taken, rest, hsplit, hunread, hdata⟩ hstep
  obtain ⟨-, received, fd, msg₁, hread, hcases⟩ := waitStep_ok hstep
  have hnext : ∃ taken rest, unread = taken ++ rest ∧ Unread fd rest ∧
      msg₁.data = taken.foldl dataAfter msg.data := by
    rcases (hunread.read_cases hread).2 with ⟨-, hrest, hsame⟩ | ⟨-, m, rest', rfl, -, rfl, hrest⟩
    · exact ⟨taken, rest, hsplit, hrest, hsame.trans hdata⟩
    · refine ⟨taken ++ [m], rest', by simp [hsplit], hrest, ?_⟩
      rw [List.foldl_append, ← hdata]
      rfl
  obtain ⟨-, rfl⟩ | ⟨-, -, rfl⟩ | ⟨-, -, connection₁, hbuffer, rfl⟩ := hcases
  · exact hnext
  · exact hnext
  · rw [(bufferMessage_ok hbuffer).2.1]
    exact hnext

theorem openflowWaitForMessage_takes (h : Unread connection.fd unread)
    (hok : openflowWaitForMessage connection type msg xid = .ok (connection', msg')) :
    ∃ skipped m rest, unread = (skipped ++ [m]) ++ rest ∧
      (∀ u ∈ skipped, ¬Awaited type xid u.content) ∧ Awaited type xid m.content ∧
      Unread connection'.fd rest ∧ msg'.content = m.content ∧
      msg'.data = (skipped ++ [m]).foldl dataAfter msg.data ∧
      connection'.buffered.map OpenflowMessage.content =
        connection.buffered.map OpenflowMessage.content ++ skipped.map WireMessage.content := by
  obtain ⟨skipped, m, rest, hsplit, hskipped, hawaited, hcontent, hrest, -, hbuffered⟩ :=
    openflowWaitForMessage_selects h hok
  obtain ⟨taken, rest', hsplit', hrest', hdata⟩ := openflowWaitForMessage_data h hok
  have hsame : (skipped ++ [m]) ++ rest = taken ++ rest' := by
    rw [← hsplit', hsplit, List.append_assoc, List.singleton_append]
  obtain ⟨rfl, rfl⟩ := hrest.unique hrest' hsame
  exact ⟨skipped, m, rest, hsplit', hskipped, hawaited, hrest, hcontent, hdata, hbuffered⟩

end Wait

/-! ## The whole collection -/

section Collect
variable {stack : ℕ → OpenflowMessage} {awaited : WireMessage → Bool}
variable {connection : OpenflowConnection} {currentXid : UInt32} {s s' : Collecting}
variable {unread consumed rest : List WireMessage}

theorem takenFrom_part {k : ℕ} {data : Option (List UInt8)} {skipped : List WireMessage}
    {m : WireMessage} (hskipped : ∀ u ∈ skipped, awaited u = false) (hm : awaited m = true)
    (rest : List WireMessage) :
    takenFrom stack awaited k data ((skipped ++ [m]) ++ rest) =
      (skipped ++ [m]) ++ if announcesMore ((skipped ++ [m]).foldl dataAfter data) then
        takenFrom stack awaited (k + 1) (stack (k + 1)).data rest else [] := by
  induction skipped generalizing data with
  | nil =>
    rw [List.nil_append, List.singleton_append, takenFrom, if_pos hm]
    rfl
  | cons u skipped ih =>
    rw [List.forall_mem_cons] at hskipped
    rw [List.cons_append, List.cons_append, takenFrom, hskipped.1, if_neg Bool.false_ne_true,
      ih hskipped.2]
    rfl

structure Collecting.Took (connection : OpenflowConnection) (stack : ℕ → OpenflowMessage)
    (awaited : WireMessage → Bool) (unread consumed rest : List WireMessage) (s : Collecting) :
    Prop where
  split : unread = consumed ++ rest
  socket : Unread s.connection.fd rest
  size : s.messages.length = MAX_STATS_REPLY
  replies : (s.messages.take s.nbMessages).map OpenflowMessage.content =
    (consumed.filter awaited).map WireMessage.content
  aside : s.connection.buffered.map OpenflowMessage.content =
    connection.buffered.map OpenflowMessage.content ++
      (consumed.filter fun m => !awaited m).map WireMessage.content
  untouched : ∀ k, s.nbMessages ≤ k → k < MAX_STATS_REPLY → s.messages[k]? = some (stack k)
  walk : takenFrom stack awaited 0 (stack 0).data unread = consumed ++
    if s.replyFullyReceived then []
    else takenFrom stack awaited s.nbMessages (stack s.nbMessages).data rest

theorem collectStep_took (hawaited : ∀ m : WireMessage,
      awaited m = true ↔ Awaited OFP_STATS_REPLY currentXid m.content)
    (h : s.Took connection stack awaited unread consumed rest)
    (hok : collectStep currentXid s = .ok (some s')) :
    ∃ consumed' rest', s'.Took connection stack awaited unread consumed' rest' := by
  obtain ⟨hflag, msg, msg', data, flags, hmsg, hwait, hdata', hflags, hs'⟩ := collectStep_ok hok
  have hlt := (List.getElem?_eq_some_iff.mp hmsg).1
  have hmessages := congrArg Collecting.messages hs'
  have hnb := congrArg Collecting.nbMessages hs'
  have hmore : s'.replyFullyReceived = !announcesMore msg'.data := by
    rw [loadBytes] at hflags
    split_ifs at hflags
    rw [hs', hdata', announcesMore, Bool.not_not, Except.ok.inj hflags]
  dsimp only at hmessages hnb
  obtain ⟨skipped, m, rest', rfl, hskipped, hm, hunread', hcontent, hdata, hbuffered⟩ :=
    openflowWaitForMessage_takes h.socket hwait
  have hcell : msg = stack s.nbMessages := by
    have := h.untouched _ le_rfl (h.size ▸ hlt)
    rw [hmsg, Option.some.injEq] at this
    exact this
  subst hcell
  have hskipped' : ∀ u ∈ skipped, awaited u = false :=
    fun u hu => Bool.eq_false_iff.mpr fun ha => hskipped u hu ((hawaited u).mp ha)
  have hm' := (hawaited m).mpr hm
  have hown : (skipped ++ [m]).filter awaited = [m] := by
    rw [List.filter_append, List.filter_eq_nil_iff.mpr fun u hu => by simp [hskipped' u hu]]
    simp [hm']
  have hothers : ((skipped ++ [m]).filter fun m => !awaited m) = skipped := by
    rw [List.filter_append, List.filter_eq_self.mpr fun u hu => by simp [hskipped' u hu]]
    simp [hm']
  refine ⟨consumed ++ (skipped ++ [m]), rest', ?_, hunread', ?_, ?_, ?_, ?_, ?_⟩
  · rw [h.split, ← List.append_assoc consumed]
  · rw [hmessages, List.length_set, h.size]
  · rw [hmessages, hnb, List.take_add_one, List.take_set_of_le le_rfl,
      List.getElem?_set_self hlt, List.map_append, h.replies, List.filter_append, hown,
      List.map_append, Option.toList_some, List.map_singleton, List.map_singleton, hcontent]
  · rw [hbuffered, h.aside, List.filter_append, hothers, List.map_append, List.append_assoc]
  · intro k hk hmax
    rw [hnb] at hk
    rw [hmessages, List.getElem?_set_ne (by omega)]
    exact h.untouched k (by omega) hmax
  · rw [h.walk, hflag, if_neg Bool.false_ne_true, takenFrom_part hskipped' hm' rest', hmore, hdata,
      hnb, ← List.append_assoc consumed]
    cases announcesMore ((skipped ++ [m]).foldl dataAfter (stack s.nbMessages).data) <;> rfl

theorem openflowGetFlows_took {transactionId : UInt32} {flows : OpenflowFlows}
    {payloads : Heap ActionPayload} {r : GetFlows} (hawaited : ∀ m : WireMessage,
      awaited m = true ↔ Awaited OFP_STATS_REPLY transactionId m.content)
    (hwrite : (write connection.fd (.statsRequest (flowRequest transactionId))).1 = true)
    (h : Unread connection.fd unread)
    (hok : openflowGetFlows connection transactionId stack flows payloads = .ok r) :
    ∃ rest replies, unread = takenFrom stack awaited 0 (stack 0).data unread ++ rest ∧
      Unread r.connection.fd rest ∧
      replies.map OpenflowMessage.content =
        ((takenFrom stack awaited 0 (stack 0).data unread).filter awaited).map
          WireMessage.content ∧
      parseReplies replies { flows with nbFlows := 0 } payloads = .ok (r.flows, r.payloads) ∧
      r.connection.buffered.map OpenflowMessage.content =
        connection.buffered.map OpenflowMessage.content ++
          ((takenFrom stack awaited 0 (stack 0).data unread).filter fun m => !awaited m).map
            WireMessage.content := by
  unfold openflowGetFlows at hok
  dsimp only at hok
  rw [hwrite, Bool.not_true, if_neg Bool.false_ne_true] at hok
  obtain ⟨s, hloop, hok⟩ := bind_eq_ok.mp hok
  obtain ⟨parsed, hparse, hret⟩ := bind_eq_ok.mp hok
  cases hret
  obtain ⟨hreach, hstop⟩ := whileLoop_correct hloop
  have hstart : (⟨{ connection with
        fd := (write connection.fd (.statsRequest (flowRequest transactionId))).2 },
      (List.range MAX_STATS_REPLY).map stack, 0, false⟩ : Collecting).Took connection stack
        awaited unread [] unread :=
    { split := rfl
      socket := h.write _
      size := by simp
      replies := rfl
      aside := by simp [OpenflowConnection.buffered]
      untouched := fun k _ hk => by simp [List.getElem?_range hk]
      walk := rfl }
  obtain ⟨consumed, rest, hs⟩ := hreach.invariant
    (P := fun s => ∃ consumed rest, s.Took connection stack awaited unread consumed rest)
    ⟨[], unread, hstart⟩ fun t t' ht hstep => by
      obtain ⟨consumed, rest, ht⟩ := ht
      exact collectStep_took hawaited ht hstep
  have hwalk := hs.walk
  rw [collectStep_stop hstop, if_pos rfl, List.append_nil] at hwalk
  rw [hwalk]
  exact ⟨rest, _, hs.split, hs.socket, hs.replies, hparse, hs.aside⟩

end Collect

def WireMessage.isAccepted (xid : UInt32) (m : WireMessage) : Bool :=
  m.type == OFP_STATS_REPLY && (xid == 0 || m.xid == xid)

theorem WireMessage.isAccepted_iff {xid : UInt32} {m : WireMessage} :
    m.isAccepted xid = true ↔ Awaited OFP_STATS_REPLY xid m.content := by
  simp only [isAccepted, Bool.and_eq_true, Bool.or_eq_true, beq_iff_eq]
  rfl

theorem WireMessage.isAccepted_of_isReplyTo {xid : UInt32} {m : WireMessage}
    (h : m.isReplyTo xid = true) : m.isAccepted xid = true := by
  rw [isReplyTo, Bool.and_eq_true] at h
  simp [WireMessage.isAccepted, h.1, h.2]

/-- The counter is not 0, or what arrives up to the end of the answer has no reply
to another request. -/
def OwnRepliesOnly (transactionId : UInt32) (stack : ℕ → OpenflowMessage)
    (unread : List WireMessage) : Prop :=
  transactionId ≠ 0 ∨ ∀ m ∈ takenFrom stack (·.type == OFP_STATS_REPLY) 0 (stack 0).data unread,
    m.type = OFP_STATS_REPLY → m.xid = 0

theorem ownRepliesOnly_iff {transactionId : UInt32} {stack : ℕ → OpenflowMessage}
    {unread : List WireMessage} :
    OwnRepliesOnly transactionId stack unread ↔
      ∀ m ∈ takenFrom stack (·.isAccepted transactionId) 0 (stack 0).data unread,
        m.isAccepted transactionId = true → m.isReplyTo transactionId = true := by
  by_cases hxid : transactionId = 0
  · subst hxid
    have hany : WireMessage.isAccepted 0 = (·.type == OFP_STATS_REPLY) := by
      funext m
      simp [WireMessage.isAccepted]
    simp only [OwnRepliesOnly, hany, ne_eq, not_true_eq_false, false_or, beq_iff_eq,
      WireMessage.isReplyTo, Bool.and_eq_true]
    exact forall₂_congr fun m _ => ⟨fun h ht => ⟨ht, h ht⟩, fun h ht => (h ht).2⟩
  · refine iff_of_true (.inl hxid) fun m _ h => ?_
    simpa [WireMessage.isAccepted, WireMessage.isReplyTo, hxid] using h

/-- The replies of a call are those to its request, and all else is set aside,
exactly when the counter is not 0 or no reply to another request comes in front
of the end of the answer. -/
theorem replies_matched_iff {connection : OpenflowConnection} {transactionId : UInt32}
    {stack : ℕ → OpenflowMessage} {flows : OpenflowFlows} {payloads : Heap ActionPayload}
    {unread : List WireMessage} {r : GetFlows}
    (hwrite : (write connection.fd (.statsRequest (flowRequest transactionId))).1 = true)
    (h : Unread connection.fd unread)
    (hok : openflowGetFlows connection transactionId stack flows payloads = .ok r) :
    RepliesMatched connection transactionId flows payloads unread r ↔
      OwnRepliesOnly transactionId stack unread := by
  obtain ⟨rest, replies, hsplit, hrest, hreplies, hparse, haside⟩ :=
    openflowGetFlows_took (fun _ => WireMessage.isAccepted_iff) hwrite h hok
  rw [ownRepliesOnly_iff]
  obtain ⟨taken, htaken⟩ : ∃ taken, taken =
    takenFrom stack (·.isAccepted transactionId) 0 (stack 0).data unread := ⟨_, rfl⟩
  rw [← htaken] at hsplit hreplies haside ⊢
  constructor
  · rintro ⟨taken', rest', -, hsplit', hrest', -, -, haside'⟩ m hm haccepted
    obtain ⟨rfl, rfl⟩ := hrest.unique hrest' (hsplit.symm.trans hsplit')
    -- No fewer messages were set aside than those that are no replies to the request.
    have hlength := congrArg List.length (haside.symm.trans haside')
    simp only [List.length_append, List.length_map, Nat.add_left_cancel_iff] at hlength
    have hsublist : (taken.filter fun m => !m.isAccepted transactionId).Sublist
        (taken.filter fun m => !m.isReplyTo transactionId) := by
      refine List.monotone_filter_right taken fun u hu => ?_
      rw [Bool.not_eq_true'] at hu ⊢
      rw [Bool.eq_false_iff] at hu ⊢
      exact fun hreply => hu (WireMessage.isAccepted_of_isReplyTo hreply)
    by_contra hreply
    have hmem : m ∈ taken.filter fun m => !m.isReplyTo transactionId := by
      simpa [hm] using hreply
    rw [← hsublist.eq_of_length hlength, List.mem_filter, haccepted] at hmem
    cases hmem.2
  · intro hown
    have hsame : ∀ m ∈ taken, m.isAccepted transactionId = m.isReplyTo transactionId :=
      fun m hm => Bool.eq_iff_iff.mpr ⟨hown m hm, WireMessage.isAccepted_of_isReplyTo⟩
    refine ⟨taken, rest, replies, hsplit, hrest, ?_, hparse, ?_⟩
    · rw [hreplies, List.filter_congr hsame]
    · rw [haside, List.filter_congr fun m hm => congrArg (!·) (hsame m hm)]

def statsReplies (xids : List UInt32) : List WireMessage :=
  xids.map (StatsReply.message ⟨1, OFPST_FLOW, 0, [taggedEntry 80 7]⟩)

def repliesConnection (xids : List UInt32) : OpenflowConnection :=
  .ofSocket ⟨wireBytes (statsReplies xids), List.replicate 20 (some 64), [], [], []⟩

theorem replies_matched_iff_foreign :
    ∃ r, openflowGetFlows (repliesConnection [99, 5]) 5 (fun _ => default) .zeroed .empty =
        .ok r ∧
      RepliesMatched (repliesConnection [99, 5]) 5 .zeroed .empty (statsReplies [99, 5]) r := by
  have hrun : returns (openflowGetFlows (repliesConnection [99, 5]) 5 (fun _ => default) .zeroed
      .empty) (fun _ => true) = true := by
    decide +kernel
  obtain ⟨r, hok, -⟩ := exists_of_returns hrun
  have hunread : Unread (repliesConnection [99, 5]).fd (statsReplies [99, 5]) := by
    refine ⟨rfl, ?_, ?_⟩
    · have hsize : ∀ m ∈ statsReplies [99, 5], m.size < 2 ^ 16 := by decide +kernel
      exact hsize
    · intro k hk
      rw [Option.some.inj (List.eq_of_mem_replicate hk)]
      decide
  exact ⟨r, hok, (replies_matched_iff rfl hunread hok).mpr (.inl (by decide))⟩

/-- With the counter at 0, the flow of a reply to another request is reported. -/
theorem foreign_reply_parsed :
    (∀ m ∈ statsReplies [99], m.isReplyTo 0 = false) ∧
      ∃ r, openflowGetFlows (repliesConnection [99]) 0 (fun _ => default) .zeroed .empty = .ok r ∧
        r.flows.nbFlows = 1 ∧ r.connection.nbMsgBuffered = 0 := by
  refine ⟨by decide, ?_⟩
  have hrun : returns (openflowGetFlows (repliesConnection [99]) 0 (fun _ => default) .zeroed
      .empty) (fun r => decide (r.flows.nbFlows = 1 ∧ r.connection.nbMsgBuffered = 0)) = true := by
    decide +kernel
  obtain ⟨r, hok, htest⟩ := exists_of_returns hrun
  exact ⟨r, hok, of_decide_eq_true htest⟩

end OrssNic
