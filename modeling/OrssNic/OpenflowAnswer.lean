import OrssNic.StoredEntries
import OrssNic.OpenflowCollect

/-!
# Parsing the parts of an answer

The parts of a well-formed answer may carry any entries. When the array has a
cell for each of them, `openflowGetFlows` stores the entries of all parts in
order, as `storeEntry` says.
-/

namespace OrssNic
open CLoops CRuns

structure WireReply where
  version : UInt8
  type : UInt16
  flags : UInt16
  entries : List WireEntry

def WireReply.message (reply : WireReply) (xid : UInt32) : WireMessage where
  version := reply.version
  type := OFP_STATS_REPLY
  xid := xid
  body := be16 reply.type ++ be16 reply.flags ++ reply.entries.flatMap WireEntry.bytes

/-- The parts in order, each with the other messages that arrive before it. -/
abbrev Answer := List (List WireMessage × WireReply)

namespace Answer

def parts (answer : Answer) (xid : UInt32) : Parts :=
  answer.map fun part => (part.1, part.2.message xid)

def entries (answer : Answer) : List WireEntry := answer.flatMap fun part => part.2.entries

/-- The parts carry the number of the request, and all but the last announce more. -/
structure WellFormed (answer : Answer) (xid : UInt32) : Prop where
  more : ∀ part ∈ answer.dropLast, part.2.flags &&& OFPSF_REPLY_MORE ≠ 0
  last : ∃ part, answer.getLast? = some part ∧ part.2.flags &&& OFPSF_REPLY_MORE = 0
  fits : ∀ part ∈ answer, (part.2.message xid).Fits
  others : ∀ part ∈ answer, ∀ m ∈ part.1, m.SetAside OFP_STATS_REPLY xid

end Answer

section Reply
variable {xid : UInt32} {answer : Answer}

theorem WireReply.announcesMore_eq (reply : WireReply) (xid : UInt32) :
    (reply.message xid).announcesMore = !(reply.flags &&& OFPSF_REPLY_MORE == 0) := by
  have hbytes : ((reply.message xid).body.drop 2).take 2 = be16 reply.flags := by
    simp [message, List.append_assoc]
  have hflags : ntohs (loadU16 (be16 reply.flags) 0) = reply.flags :=
    ntohs_loadU16 (by rw [List.drop_zero, ← be16_length reply.flags, List.take_length])
  rw [WireMessage.announcesMore, hbytes, hflags]

theorem Answer.WellFormed.wellCut (h : answer.WellFormed xid) : (answer.parts xid).WellCut := by
  obtain ⟨hmore, hlast, -, -⟩ := h
  induction answer with
  | nil =>
    obtain ⟨part, hpart, -⟩ := hlast
    cases hpart
  | cons part answer ih =>
    cases answer with
    | nil =>
      obtain ⟨part', hpart, hzero⟩ := hlast
      rw [List.getLast?_singleton, Option.some.injEq] at hpart
      subst hpart
      simp [Answer.parts, Parts.WellCut, WireReply.announcesMore_eq, hzero]
    | cons part' answer =>
      rw [List.dropLast_cons_cons, List.forall_mem_cons] at hmore
      rw [List.getLast?_cons_cons] at hlast
      refine ⟨?_, ih hmore.2 hlast⟩
      simp [WireReply.announcesMore_eq, hmore.1]

theorem Answer.WellFormed.isPart (h : answer.WellFormed xid) :
    ∀ part ∈ answer.parts xid, IsPart xid part := by
  intro part hpart
  obtain ⟨part, hmem, rfl⟩ := List.mem_map.mp hpart
  refine ⟨⟨rfl, rfl⟩, h.fits part hmem, ?_, h.others part hmem⟩
  simp only [WireReply.message, List.length_append, be16_length]
  omega

end Reply

/-! ## Parsing the parts -/

section Parse
variable {flows : OpenflowFlows} {payloads : Heap ActionPayload} {xid : UInt32}

theorem WireEntry.size_le {e : WireEntry} {entries : List WireEntry} (h : e ∈ entries) :
    e.size ≤ (entries.flatMap WireEntry.bytes).length := by
  rw [← e.bytes_length, List.flatMap_def]
  exact (List.sublist_flatten_of_mem (List.mem_map_of_mem h)).length_le

theorem parseReply_store (reply : WireReply) (hsizes : TableSizes flows)
    (hfits : (reply.message xid).Fits) :
    parseReply (reply.message xid).received flows payloads =
      run storeEntry reply.entries (flows, payloads) := by
  have hbody : (reply.message xid).body =
      be16 reply.type ++ (be16 reply.flags ++ reply.entries.flatMap WireEntry.bytes) := by
    simp only [WireReply.message, List.append_assoc]
  have hlength : 4 + (reply.entries.flatMap WireEntry.bytes).length =
      (reply.message xid).body.length := by
    rw [hbody]
    simp only [List.length_append, be16_length]
    omega
  have hdrop : (reply.message xid).body.drop 4 = reply.entries.flatMap WireEntry.bytes := by
    rw [hbody]
    simp
  have hend : ((reply.message xid).header.length.toNat : ℤ) - OFP_HEADER_LEN =
      (reply.message xid).body.length := by
    rw [hfits.length_toNat, WireMessage.size]
    omega
  have hsize : ∀ e ∈ reply.entries, e.size < 2 ^ 16 := by
    intro e he
    have hle := WireEntry.size_le he
    rw [WireMessage.Fits, WireMessage.size] at hfits
    omega
  rw [← flowLoop_store (n := MAX_HANDLED_FLOWS + 1) reply.entries hsizes hsize (Nat.succ_pos _)
    (Nat.lt_add_right _ (Nat.lt_succ_self _)) hdrop (by omega) hend]
  simp only [parseReply, messageData, WireMessage.received, bind, Except.bind]
  cases whileLoop Halt.diverges (flowStep (reply.message xid).body
    ((reply.message xid).header.length.toNat - OFP_HEADER_LEN)) (MAX_HANDLED_FLOWS + 1)
    ⟨flows, payloads, 4⟩ <;> rfl

theorem storeEntries_sizes {entries : List WireEntry} {s s' : OpenflowFlows × Heap ActionPayload}
    (hsizes : TableSizes s.1) (h : run storeEntry entries s = .ok s') : TableSizes s'.1 :=
  run_invariant (P := fun _ s => TableSizes s.1) hsizes
    (fun _ _ _ _ hr hstep => (storeEntry_ok hr hstep).2.1) h

theorem parseReplies_store (replies : List WireReply) (hsizes : TableSizes flows)
    (hfits : ∀ reply ∈ replies, (reply.message xid).Fits) :
    parseReplies (replies.map fun reply => (reply.message xid).received) flows payloads =
      run storeEntry (replies.flatMap WireReply.entries) (flows, payloads) := by
  induction replies generalizing flows payloads with
  | nil => rfl
  | cons reply replies ih =>
    rw [List.forall_mem_cons] at hfits
    rw [List.map_cons, parseReplies, parseReply_store reply hsizes hfits.1, List.flatMap_cons,
      run_append]
    cases hrun : run storeEntry reply.entries (flows, payloads) with
    | error e => rfl
    | ok t => exact ih (storeEntries_sizes hsizes hrun) hfits.2

end Parse

section Query
variable {connection : OpenflowConnection} {transactionId : UInt32} {flows : OpenflowFlows}
variable {answer : Answer}

/-- The socket delivers a well-formed answer, and the messages in between find room. -/
structure Answer.Arrives (answer : Answer) (connection : OpenflowConnection)
    (transactionId : UInt32) : Prop where
  write : connection.fd.writes.head? ≠ some false
  wellFormed : answer.WellFormed transactionId
  room : connection.nbMsgBuffered.toNat + (answer.parts transactionId).others.length ≤
    MSG_BUFFER_SIZE
  stream : (answer.parts transactionId).bytes <+: connection.fd.stream
  delivers : Delivers connection.fd.reads (answer.parts transactionId).bytes.length

theorem openflowGetFlows_store (stack : ℕ → OpenflowMessage) (payloads : Heap ActionPayload)
    (hsizes : TableSizes flows) (h : answer.Arrives connection transactionId)
    (hparts : answer.length ≤ MAX_STATS_REPLY) :
    ∃ connection', openflowGetFlows connection transactionId stack flows payloads =
      (run storeEntry answer.entries ({ flows with nbFlows := 0 }, payloads)).map fun s =>
        ⟨connection', transactionId + 1, s.1, s.2⟩ := by
  obtain ⟨rest, hrest⟩ := h.stream
  obtain ⟨connection', -, hcall⟩ := openflowGetFlows_collected (n := 0) stack flows payloads
    h.write h.wellFormed.wellCut (by simpa [Answer.parts] using hparts) h.wellFormed.isPart h.room
    hrest.symm h.delivers
  have hreceived : ((answer.parts transactionId).map fun part => part.2.received) =
      (answer.map Prod.snd).map fun reply => (reply.message transactionId).received := by
    rw [Answer.parts, List.map_map, List.map_map]
    rfl
  have hentries : (answer.map Prod.snd).flatMap WireReply.entries = answer.entries := by
    rw [List.flatMap_map]
    rfl
  rw [hreceived, parseReplies_store _ (hsizes.counted 0)
    (List.forall_mem_map.mpr h.wellFormed.fits), hentries] at hcall
  exact ⟨connection', hcall⟩

end Query

end OrssNic
