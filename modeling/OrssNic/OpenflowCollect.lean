import OrssNic.OpenflowReceive
import OrssNic.Library.Lists

/-!
# Collecting the parts of an answer

An answer to the flow-stats request arrives in parts, with other messages in
front of each of them. The collecting loop stores the parts in its array, sets
the others aside, and stops behind the part that does not announce more. The
array has a cell for each of the first `MAX_STATS_REPLY` parts.
-/

namespace OrssNic
open CLoops CLists

/-- `OFPSF_REPLY_MORE` in the flags of a reply. -/
def WireMessage.announcesMore (m : WireMessage) : Bool :=
  !(ntohs (loadU16 ((m.body.drop 2).take 2) 0) &&& OFPSF_REPLY_MORE == 0)

def WireMessage.received (m : WireMessage) : OpenflowMessage := ⟨m.header, some m.body⟩

abbrev Parts := List (List WireMessage × WireMessage)

namespace Parts

def bytes (parts : Parts) : List UInt8 :=
  parts.flatMap fun part => wireBytes (part.1 ++ [part.2])

def others (parts : Parts) : List WireMessage := parts.flatMap Prod.fst

/-- All parts but the last announce more. -/
def WellCut : Parts → Prop
  | [] => False
  | [part] => part.2.announcesMore = false
  | part :: part' :: parts => part.2.announcesMore = true ∧ WellCut (part' :: parts)

theorem bytes_cons (part : List WireMessage × WireMessage) (parts : Parts) :
    bytes (part :: parts) = wireBytes (part.1 ++ [part.2]) ++ bytes parts :=
  List.flatMap_cons

theorem others_length_cons (part : List WireMessage × WireMessage) (parts : Parts) :
    (others (part :: parts)).length = part.1.length + (others parts).length := by
  rw [others, List.flatMap_cons, List.length_append, others]

end Parts

/-- A reply with the number of the request and room for the header of the reply,
behind messages that the wait for it sets aside. -/
structure IsPart (xid : UInt32) (part : List WireMessage × WireMessage) : Prop where
  awaited : part.2.type = OFP_STATS_REPLY ∧ part.2.xid = xid
  fits : part.2.Fits
  header : 4 ≤ part.2.body.length
  others : ∀ m ∈ part.1, m.SetAside OFP_STATS_REPLY xid

section Collect
variable {xid : UInt32} {fd : Socket} {rest : List UInt8} {n total : ℕ}
variable {done : List WireMessage} {left : Parts} {s : Collecting}

/-- The parts `done` are in the array, and `left` is still to come. -/
structure Collecting.At (fd : Socket) (rest : List UInt8) (n total : ℕ)
    (done : List WireMessage) (left : Parts) (s : Collecting) : Prop where
  socket : s.connection.fd =
    { fd with stream := left.bytes ++ rest, reads := s.connection.fd.reads }
  delivers : Delivers s.connection.fd.reads (left.bytes.length + n)
  buffered : s.connection.nbMsgBuffered.toNat + left.others.length = total
  size : s.messages.length = MAX_STATS_REPLY
  nbMessages : s.nbMessages = done.length
  collected : s.messages.take done.length = done.map WireMessage.received

theorem collectStep_next {part : List WireMessage × WireMessage} (htotal : total ≤ MSG_BUFFER_SIZE)
    (hroom : done.length < MAX_STATS_REPLY) (hpart : IsPart xid part)
    (hflag : s.replyFullyReceived = false) (hs : s.At fd rest n total done (part :: left)) :
    ∃ s', collectStep xid s = .ok (some s') ∧ s'.At fd rest n total (done ++ [part.2]) left ∧
      s'.replyFullyReceived = !part.2.announcesMore := by
  obtain ⟨hsocket, hdelivers, hbuffered, hsize, hnb, hcollected⟩ := hs
  have hlt : s.nbMessages < s.messages.length := by
    rw [hnb, hsize]
    exact hroom
  have hcount := Parts.others_length_cons part left
  have hstream : s.connection.fd.stream =
      wireBytes (part.1 ++ [part.2]) ++ (left.bytes ++ rest) := by
    rw [hsocket, Parts.bytes_cons, List.append_assoc]
  rw [Parts.bytes_cons, List.length_append, add_assoc] at hdelivers
  have hbody : part.2.body ≠ [] := by
    rw [← List.length_pos_iff]
    exact Nat.lt_of_lt_of_le (by decide) hpart.header
  obtain ⟨connection, reads, hwait, hfd, hdel, hbuf⟩ := openflowWaitForMessage_eq
    (by omega) hpart.fits hbody hpart.awaited hpart.others hstream hdelivers
    s.messages[s.nbMessages]
  have hflags : loadBytes part.2.body 2 2 = .ok ((part.2.body.drop 2).take 2) := by
    rw [loadBytes, if_pos hpart.header]
  refine ⟨⟨connection, s.messages.set s.nbMessages part.2.received, s.nbMessages + 1,
    !part.2.announcesMore⟩, ?_, ?_, rfl⟩
  · simp only [collectStep, hflag, readAt_of_getElem? (List.getElem?_eq_getElem hlt), hwait,
      writeAt_of_lt hlt, messageData, hflags, WireMessage.announcesMore, Bool.not_not,
      WireMessage.received, bind, Except.bind, pure, Except.pure, Bool.false_eq_true, if_false]
  · refine ⟨?_, ?_, ?_, ?_, ?_, ?_⟩
    · rw [hfd, hsocket]
    · rw [hfd]
      exact hdel
    · dsimp only
      rw [hbuf]
      omega
    · rw [List.length_set, hsize]
    · rw [List.length_append, List.length_singleton, hnb]
    · dsimp only
      rw [List.length_append, List.length_singleton, hnb, take_succ_set (hnb ▸ hlt), hcollected,
        List.map_append]
      rfl

theorem collectStep_full (hfull : done.length = MAX_STATS_REPLY)
    (hflag : s.replyFullyReceived = false) (hs : s.At fd rest n total done left) :
    collectStep xid s = .error .outOfBounds := by
  have hnone : s.messages[s.nbMessages]? = none := by
    rw [List.getElem?_eq_none_iff, hs.size, hs.nbMessages, hfull]
  simp only [collectStep, hflag, readAt, hnone, bind, Except.bind, Bool.false_eq_true, if_false]

theorem collectLoop_eq (left : Parts) {done : List WireMessage} {s : Collecting} {k : ℕ}
    (htotal : total ≤ MSG_BUFFER_SIZE) (hcut : left.WellCut)
    (hroom : done.length + left.length ≤ MAX_STATS_REPLY)
    (hparts : ∀ part ∈ left, IsPart xid part) (hflag : s.replyFullyReceived = false)
    (hs : s.At fd rest n total done left) (hk : left.length < k) :
    ∃ s', whileLoop Halt.diverges (collectStep xid) k s = .ok s' ∧
      s'.At fd rest n total (done ++ left.map Prod.snd) [] := by
  induction left generalizing done s k with
  | nil => exact hcut.elim
  | cons part left ih =>
    obtain ⟨k, rfl⟩ := Nat.exists_eq_succ_of_ne_zero (Nat.ne_zero_of_lt hk)
    rw [List.length_cons] at hroom hk
    rw [List.forall_mem_cons] at hparts
    obtain ⟨s', hstep, hs', hflag'⟩ := collectStep_next htotal (by omega) hparts.1 hflag hs
    rw [whileLoop_step hstep]
    cases left with
    | nil =>
      have hpos := Nat.ne_zero_of_lt (Nat.lt_of_succ_lt_succ hk)
      obtain ⟨k, rfl⟩ := Nat.exists_eq_succ_of_ne_zero hpos
      have hlast : part.2.announcesMore = false := hcut
      refine ⟨s', whileLoop_stop ?_ k, hs'⟩
      simp [collectStep, hflag', hlast, pure, Except.pure]
    | cons part' left =>
      obtain ⟨s'', hloop, hs''⟩ := ih (k := k) hcut.2
        (by rw [List.length_append, List.length_singleton]; omega) hparts.2
        (by simp [hflag', hcut.1]) hs' (by omega)
      refine ⟨s'', hloop, ?_⟩
      rwa [List.append_assoc, List.singleton_append, ← List.map_cons] at hs''

theorem collectLoop_overflow (left : Parts) {done : List WireMessage} {s : Collecting} {k : ℕ}
    (htotal : total ≤ MSG_BUFFER_SIZE) (hcut : left.WellCut) (hdone : done.length ≤ MAX_STATS_REPLY)
    (hover : MAX_STATS_REPLY < done.length + left.length)
    (hparts : ∀ part ∈ left, IsPart xid part) (hflag : s.replyFullyReceived = false)
    (hs : s.At fd rest n total done left) (hk : MAX_STATS_REPLY < done.length + k) :
    whileLoop Halt.diverges (collectStep xid) k s = .error .outOfBounds := by
  induction left generalizing done s k with
  | nil => exact hcut.elim
  | cons part left ih =>
    obtain ⟨k, rfl⟩ := Nat.exists_eq_succ_of_ne_zero (n := k) (by omega)
    rw [List.length_cons] at hover
    rw [List.forall_mem_cons] at hparts
    rcases hdone.eq_or_lt with hfull | hroom
    · rw [whileLoop, collectStep_full hfull hflag hs]
    · obtain ⟨s', hstep, hs', hflag'⟩ := collectStep_next htotal hroom hparts.1 hflag hs
      rw [whileLoop_step hstep]
      cases left with
      | nil =>
        rw [List.length_nil] at hover
        omega
      | cons part' left =>
        refine ih hcut.2 ?_ ?_ hparts.2 (by simp [hflag', hcut.1]) hs' ?_
        all_goals rw [List.length_append, List.length_singleton]
        all_goals omega

end Collect

/-! ## The query -/

theorem write_succeeds {fd : Socket} (hwrite : fd.writes.head? ≠ some false)
    (request : OpenflowRequest) :
    write fd request =
      (true, { fd with writes := fd.writes.tail, sent := fd.sent ++ [request] }) := by
  cases hwrites : fd.writes with
  | nil => simp [write, hwrites]
  | cons outcome writes =>
    cases outcome with
    | false => simp [hwrites] at hwrite
    | true => simp [write, hwrites]

structure GetFlows.Collected (connection : OpenflowConnection) (parts : Parts)
    (rest : List UInt8) (n : ℕ) (connection' : OpenflowConnection) : Prop where
  stream : connection'.fd.stream = rest
  delivers : Delivers connection'.fd.reads n
  writes : connection'.fd.writes = connection.fd.writes.tail
  buffered : connection'.nbMsgBuffered.toNat =
    connection.nbMsgBuffered.toNat + parts.others.length

section Query
variable {connection : OpenflowConnection} {transactionId : UInt32} {parts : Parts}
variable {rest : List UInt8} {n : ℕ}

theorem collecting_start (connection : OpenflowConnection) (fd : Socket) (stack : ℕ → OpenflowMessage)
    (hstream : fd.stream = parts.bytes ++ rest)
    (hdelivers : Delivers fd.reads (parts.bytes.length + n)) :
    (⟨{ connection with fd := fd }, (List.range MAX_STATS_REPLY).map stack, 0, false⟩ :
      Collecting).At fd rest n (connection.nbMsgBuffered.toNat + parts.others.length) [] parts where
  socket := by
    dsimp only
    rw [← hstream]
  delivers := hdelivers
  buffered := rfl
  size := by simp
  nbMessages := rfl
  collected := rfl

theorem openflowGetFlows_collected (stack : ℕ → OpenflowMessage) (flows : OpenflowFlows)
    (payloads : Heap ActionPayload) (hwrite : connection.fd.writes.head? ≠ some false)
    (hcut : parts.WellCut) (hlength : parts.length ≤ MAX_STATS_REPLY)
    (hparts : ∀ part ∈ parts, IsPart transactionId part)
    (hroom : connection.nbMsgBuffered.toNat + parts.others.length ≤ MSG_BUFFER_SIZE)
    (hstream : connection.fd.stream = parts.bytes ++ rest)
    (hdelivers : Delivers connection.fd.reads (parts.bytes.length + n)) :
    ∃ connection', GetFlows.Collected connection parts rest n connection' ∧
      openflowGetFlows connection transactionId stack flows payloads =
        (parseReplies (parts.map fun part => part.2.received) { flows with nbFlows := 0 }
          payloads).map fun parsed => ⟨connection', transactionId + 1, parsed.1, parsed.2⟩ := by
  have hsent := write_succeeds hwrite (OpenflowRequest.statsRequest (flowRequest transactionId))
  obtain ⟨fd, hfd⟩ : ∃ fd, fd = { connection.fd with
      writes := connection.fd.writes.tail
      sent := connection.fd.sent ++ [OpenflowRequest.statsRequest (flowRequest transactionId)] } :=
    ⟨_, rfl⟩
  rw [← hfd] at hsent
  have hstream' : fd.stream = parts.bytes ++ rest := by
    rw [hfd]
    exact hstream
  have hdelivers' : Delivers fd.reads (parts.bytes.length + n) := by
    rw [hfd]
    exact hdelivers
  have hstart := collecting_start connection fd stack hstream' hdelivers'
  obtain ⟨s, hloop, hs⟩ := collectLoop_eq (k := MAX_STATS_REPLY + 1) parts hroom hcut
    (by simpa using hlength) hparts rfl hstart (Nat.lt_succ_of_le hlength)
  rw [List.nil_append] at hs
  refine ⟨s.connection, ⟨?_, ?_, ?_, hs.buffered⟩, ?_⟩
  · exact congrArg Socket.stream hs.socket
  · simpa [Parts.bytes] using hs.delivers
  · rw [congrArg Socket.writes hs.socket, hfd]
  · have hcollected : s.messages.take s.nbMessages = parts.map fun part => part.2.received := by
      rw [hs.nbMessages, hs.collected, List.map_map]
      rfl
    simp only [openflowGetFlows, hsent, hloop, hcollected, bind, Except.bind, pure, Except.pure,
      Bool.not_true, Bool.false_eq_true, if_false]
    cases parseReplies (parts.map fun part => part.2.received) { flows with nbFlows := 0 }
      payloads <;> rfl

theorem openflowGetFlows_overflow (stack : ℕ → OpenflowMessage) (flows : OpenflowFlows)
    (payloads : Heap ActionPayload) (hwrite : connection.fd.writes.head? ≠ some false)
    (hcut : parts.WellCut) (hlength : MAX_STATS_REPLY < parts.length)
    (hparts : ∀ part ∈ parts, IsPart transactionId part)
    (hroom : connection.nbMsgBuffered.toNat + parts.others.length ≤ MSG_BUFFER_SIZE)
    (hstream : connection.fd.stream = parts.bytes ++ rest)
    (hdelivers : Delivers connection.fd.reads (parts.bytes.length + n)) :
    openflowGetFlows connection transactionId stack flows payloads = .error .outOfBounds := by
  have hsent := write_succeeds hwrite (OpenflowRequest.statsRequest (flowRequest transactionId))
  have hstart := collecting_start connection { connection.fd with
    writes := connection.fd.writes.tail
    sent := connection.fd.sent ++ [OpenflowRequest.statsRequest (flowRequest transactionId)] }
    stack hstream hdelivers
  have hloop := collectLoop_overflow (k := MAX_STATS_REPLY + 1) parts hroom hcut (Nat.zero_le _)
    (by simpa using hlength) hparts rfl hstart (by simp)
  simp only [openflowGetFlows, hsent, hloop, bind, Except.bind, Bool.not_true, Bool.false_eq_true,
    if_false]

end Query

end OrssNic
