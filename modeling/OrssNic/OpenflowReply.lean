import OrssNic.OpenflowAnswer

/-!
# Decoding a multipart answer

A list of flow entries may be cut into several parts, and other messages may
arrive before each of them. `openflowGetFlows` collects the parts, sets the
others aside, and fills the tables with the entries in order.
-/

namespace OrssNic
open CLoops CLists CRuns

structure StatsReply where
  version : UInt8
  type : UInt16
  flags : UInt16
  entries : List FlowEntry

def StatsReply.message (reply : StatsReply) (xid : UInt32) : WireMessage where
  version := reply.version
  type := OFP_STATS_REPLY
  xid := xid
  body := be16 reply.type ++ be16 reply.flags ++ reply.entries.flatMap FlowEntry.bytes

abbrev Script := List (List WireMessage × StatsReply)

namespace Script

def WellCut : Script → Prop
  | [] => False
  | [part] => part.2.flags &&& OFPSF_REPLY_MORE = 0
  | part :: part' :: script =>
    part.2.flags &&& OFPSF_REPLY_MORE ≠ 0 ∧ WellCut (part' :: script)

def bytes (script : Script) (xid : UInt32) : List UInt8 :=
  script.flatMap fun part => wireBytes (part.1 ++ [part.2.message xid])

def entries (script : Script) : List FlowEntry := script.flatMap fun part => part.2.entries

def others (script : Script) : List WireMessage := script.flatMap Prod.fst

/-- A well-formed answer that stays within the sizes of the tables. -/
structure Answers (script : Script) (xid : UInt32) : Prop where
  wellCut : script.WellCut
  parts : script.length ≤ MAX_STATS_REPLY
  fits : ∀ part ∈ script, (part.2.message xid).Fits
  unrelated : ∀ part ∈ script, ∀ m ∈ part.1, m.Unrelated OFP_STATS_REPLY xid
  flows : script.entries.length ≤ MAX_HANDLED_FLOWS
  actions : ∀ e ∈ script.entries, e.actions.length ≤ MAX_ACTIONS

end Script

def StatsReply.received (reply : StatsReply) (xid : UInt32) : OpenflowMessage :=
  ⟨(reply.message xid).header, some (reply.message xid).body⟩

/-! ## Entries of the two known actions -/

namespace FlowEntry

def wire (e : FlowEntry) : WireEntry where
  stats := e.fixedBytes.drop 2
  sized := by rw [List.length_drop, e.fixedBytes_length]
  actions := e.actions.map WireAction.known

theorem wire_actions (e : FlowEntry) :
    e.wire.actions.flatMap WireAction.bytes = e.actions.flatMap FlowAction.bytes :=
  List.flatMap_map ..

theorem wire_size (e : FlowEntry) : e.wire.size = e.size := by
  rw [WireEntry.size, wire_actions, actions_length, size]

theorem wire_fixedBytes (e : FlowEntry) : e.wire.fixedBytes = e.fixedBytes := by
  have hlength : e.fixedBytes.take 2 = be16 (UInt16.ofNat e.size) := by
    simp [fixedBytes, List.append_assoc]
  rw [WireEntry.fixedBytes, wire_size, ← hlength]
  exact List.take_append_drop 2 e.fixedBytes

theorem wire_bytes (e : FlowEntry) : e.wire.bytes = e.bytes := by
  rw [WireEntry.bytes, wire_fixedBytes, wire_actions, bytes]

theorem wire_decoded (e : FlowEntry) : e.wire.decoded = e.decoded := by
  rw [WireEntry.decoded, wire_fixedBytes, ntohOpenflowFlowStats_loadFlowStats]

theorem wire_stored (e : FlowEntry) : e.wire.stored = e.actions.map WireAction.known := by
  rw [WireEntry.stored, wire]
  induction e.actions with
  | nil => rfl
  | cons a actions ih => rw [List.map_cons, WireAction.stored, ih]

end FlowEntry

section Storing
variable {items : List (OpenflowFlowStats × List FlowAction)} {stats : OpenflowFlowStats}
variable {s : OpenflowFlows × Heap ActionPayload}

theorem storeAction_stored {done : List FlowAction} (a : FlowAction)
    (hstored : Stored (items ++ [(stats, done)]) s.1 s.2) (hnb : s.1.nbFlows.toNat = items.length)
    (hdone : done.length < MAX_ACTIONS) :
    ∃ s', storeAction s (.known a) = .ok s' ∧ Stored (items ++ [(stats, done ++ [a])]) s'.1 s'.2 ∧
      s'.1.nbFlows = s.1.nbFlows := by
  have hlast : (items ++ [(stats, done)])[items.length]? = some (stats, done) :=
    getElem?_split items [] _
  obtain ⟨-, hcount, -⟩ := hstored.rows _ _ hlast
  have hk : (UInt8.ofNat done.length).toNat = done.length := by
    rw [MAX_ACTIONS] at hdone
    rw [UInt8.toNat_ofNat']
    omega
  rw [← hnb] at hcount
  obtain ⟨-, row, descriptor, hrow, -, hok⟩ | ⟨hfull, -⟩ :=
    storeAction_cases (a := .known a) hstored.sizes hcount
  · rw [hnb, hk] at hok
    rw [hnb] at hrow
    exact ⟨_, hok, hstored.pushAction a hrow hdone, rfl⟩
  · rw [hk] at hfull
    exact absurd hdone hfull.not_gt

theorem storeActions_stored (actions : List FlowAction) {done : List FlowAction}
    (hstored : Stored (items ++ [(stats, done)]) s.1 s.2) (hnb : s.1.nbFlows.toNat = items.length)
    (hroom : done.length + actions.length ≤ MAX_ACTIONS) :
    ∃ s', run storeAction (actions.map WireAction.known) s = .ok s' ∧
      Stored (items ++ [(stats, done ++ actions)]) s'.1 s'.2 ∧ s'.1.nbFlows = s.1.nbFlows := by
  induction actions generalizing s done with
  | nil => exact ⟨s, rfl, by rwa [List.append_nil], rfl⟩
  | cons a actions ih =>
    rw [List.length_cons] at hroom
    obtain ⟨t, hstep, hstored', hnb'⟩ := storeAction_stored a hstored hnb (by omega)
    obtain ⟨s', hrun, hstored'', hnb''⟩ := ih hstored' (hnb' ▸ hnb)
      (by rw [List.length_append, List.length_singleton]; omega)
    refine ⟨s', ?_, ?_, hnb''.trans hnb'⟩
    · rw [List.map_cons, run_cons, hstep]
      exact hrun
    · rwa [List.append_assoc, List.singleton_append] at hstored''

theorem storeEntry_stored {e : FlowEntry} (hstored : Stored items s.1 s.2)
    (hnb : s.1.nbFlows.toNat = items.length) (hroom : items.length < MAX_HANDLED_FLOWS)
    (hactions : e.actions.length ≤ MAX_ACTIONS) :
    ∃ s', storeEntry s e.wire = .ok s' ∧ Stored (items ++ [e.item]) s'.1 s'.2 ∧
      s'.1.nbFlows.toNat = items.length + 1 := by
  have hlt : items.length < s.1.flowStats.length := hstored.sizes.flowStats.symm ▸ hroom
  obtain ⟨t, hrun, hstored', hnb'⟩ := storeActions_stored
    (s := ({ s.1 with flowStats := s.1.flowStats.set items.length e.decoded }, s.2)) e.actions
    (hstored.newRow hroom e.decoded) hnb (by simpa using hactions)
  refine ⟨({ t.1 with nbFlows := t.1.nbFlows + 1 }, t.2), ?_, ?_, ?_⟩
  · rw [storeEntry, e.wire_decoded, e.wire_stored, hnb, writeAt_of_lt hlt]
    simp only [hrun, bind, Except.bind, pure, Except.pure]
  · exact hstored'.counted _
  · dsimp only at hnb' ⊢
    rw [hnb', nbFlows_next (hnb ▸ hroom), hnb]

theorem storeEntries_stored (entries : List FlowEntry) (hstored : Stored items s.1 s.2)
    (hnb : s.1.nbFlows.toNat = items.length)
    (hroom : items.length + entries.length ≤ MAX_HANDLED_FLOWS)
    (hactions : ∀ e ∈ entries, e.actions.length ≤ MAX_ACTIONS) :
    ∃ s', run storeEntry (entries.map FlowEntry.wire) s = .ok s' ∧
      Stored (items ++ entries.map FlowEntry.item) s'.1 s'.2 ∧
      s'.1.nbFlows.toNat = items.length + entries.length := by
  induction entries generalizing s items with
  | nil => exact ⟨s, rfl, by simpa using hstored, hnb⟩
  | cons e entries ih =>
    rw [List.forall_mem_cons] at hactions
    rw [List.length_cons] at hroom
    obtain ⟨t, hstep, hstored', hnb'⟩ := storeEntry_stored hstored hnb (by omega) hactions.1
    have hlen : (items ++ [e.item]).length = items.length + 1 := by
      rw [List.length_append, List.length_singleton]
    obtain ⟨s', hrun, hstored'', hnb''⟩ :=
      ih hstored' (hnb'.trans hlen.symm) (by omega) hactions.2
    refine ⟨s', ?_, ?_, ?_⟩
    · rw [List.map_cons, run_cons, hstep]
      exact hrun
    · rwa [List.append_assoc, List.singleton_append, ← List.map_cons] at hstored''
    · rw [hnb'', hlen, List.length_cons]
      omega

end Storing

def StatsReply.wire (reply : StatsReply) : WireReply where
  version := reply.version
  type := reply.type
  flags := reply.flags
  entries := reply.entries.map FlowEntry.wire

theorem StatsReply.wire_message (reply : StatsReply) (xid : UInt32) :
    reply.wire.message xid = reply.message xid := by
  have hentries : reply.wire.entries.flatMap WireEntry.bytes =
      reply.entries.flatMap FlowEntry.bytes := by
    rw [StatsReply.wire, List.flatMap_map]
    exact congrArg (List.flatMap · reply.entries) (funext FlowEntry.wire_bytes)
  rw [WireReply.message, hentries]
  rfl

/-! ## Collecting the parts -/

section Collect
variable {xid : UInt32}

theorem StatsReply.announcesMore_eq (reply : StatsReply) (xid : UInt32) :
    (reply.message xid).announcesMore = !(reply.flags &&& OFPSF_REPLY_MORE == 0) := by
  rw [← reply.wire_message, reply.wire.announcesMore_eq]
  rfl

namespace Script

def parts (script : Script) (xid : UInt32) : Parts :=
  script.map fun part => (part.1, part.2.message xid)

theorem parts_bytes (script : Script) : (script.parts xid).bytes = script.bytes xid := by
  rw [parts, Parts.bytes, List.flatMap_map, bytes]

theorem parts_others (script : Script) : (script.parts xid).others = script.others := by
  rw [parts, Parts.others, List.flatMap_map, others]

theorem WellCut.parts {script : Script} (h : script.WellCut) : (script.parts xid).WellCut := by
  induction script with
  | nil => exact h.elim
  | cons part script ih =>
    cases script with
    | nil =>
      have hlast : part.2.flags &&& OFPSF_REPLY_MORE = 0 := h
      simp [Script.parts, Parts.WellCut, StatsReply.announcesMore_eq, hlast]
    | cons part' script =>
      refine ⟨?_, ih h.2⟩
      simp [StatsReply.announcesMore_eq, h.1]

theorem Answers.isPart {script : Script} (h : script.Answers xid) (hxid : xid ≠ 0) :
    ∀ part ∈ script.parts xid, IsPart xid part := by
  intro part hpart
  obtain ⟨part, hmem, rfl⟩ := List.mem_map.mp hpart
  refine ⟨⟨rfl, rfl⟩, h.fits part hmem, ?_, fun m hm => ?_⟩
  · simp only [StatsReply.message, List.length_append, be16_length]
    omega
  · exact (h.unrelated part hmem m hm).setAside hxid

end Script

end Collect

/-! ## Parsing the parts -/

theorem parseReplies_eq (xid : UInt32) (replies : List StatsReply)
    {items : List (OpenflowFlowStats × List FlowAction)} {flows : OpenflowFlows}
    {payloads : Heap ActionPayload} (hstored : Stored items flows payloads)
    (hnb : flows.nbFlows.toNat = items.length)
    (hroom : items.length + (replies.flatMap StatsReply.entries).length ≤ MAX_HANDLED_FLOWS)
    (hactions : ∀ e ∈ replies.flatMap StatsReply.entries, e.actions.length ≤ MAX_ACTIONS)
    (hfits : ∀ reply ∈ replies, (reply.message xid).Fits) :
    ∃ flows' payloads', parseReplies (replies.map fun reply => reply.received xid) flows payloads =
        .ok (flows', payloads') ∧
      Stored (items ++ (replies.flatMap StatsReply.entries).map FlowEntry.item) flows' payloads' ∧
      flows'.nbFlows.toNat = items.length + (replies.flatMap StatsReply.entries).length := by
  have hreceived : (replies.map fun reply => reply.received xid) =
      (replies.map StatsReply.wire).map fun reply => (reply.message xid).received := by
    rw [List.map_map]
    refine List.map_congr_left fun reply _ => ?_
    rw [Function.comp_apply, reply.wire_message]
    rfl
  have hentries : (replies.map StatsReply.wire).flatMap WireReply.entries =
      (replies.flatMap StatsReply.entries).map FlowEntry.wire := by
    rw [List.flatMap_map, List.map_flatMap]
    rfl
  have hfits' : ∀ reply ∈ replies.map StatsReply.wire, (reply.message xid).Fits := by
    refine List.forall_mem_map.mpr fun reply hreply => ?_
    rw [reply.wire_message]
    exact hfits reply hreply
  obtain ⟨s, hrun, hstored', hnb'⟩ := storeEntries_stored (s := (flows, payloads))
    (replies.flatMap StatsReply.entries) hstored hnb hroom hactions
  refine ⟨s.1, s.2, ?_, hstored', hnb'⟩
  rw [hreceived, parseReplies_store _ hstored.sizes hfits', hentries]
  exact hrun

theorem zeroed_stored (payloads : Heap ActionPayload) : Stored [] .zeroed payloads := by
  refine ⟨⟨?_, ?_, ?_, ?_⟩, by simp, ?_⟩
  · exact List.length_replicate
  · exact List.length_replicate
  · exact List.length_replicate
  · intro i row hrow
    rw [List.eq_of_mem_replicate (List.mem_of_getElem? hrow)]
    exact List.length_replicate
  · intro i _ hi
    exact List.getElem?_replicate_of_lt hi

/-! ## The whole query -/

structure GetFlows.Answered (connection : OpenflowConnection) (transactionId : UInt32)
    (script : Script) (rest : List UInt8) (n : ℕ) (r : GetFlows) : Prop where
  transactionId : r.transactionId = transactionId + 1
  nbFlows : r.flows.nbFlows.toNat = script.entries.length
  stored : Stored (script.entries.map FlowEntry.item) r.flows r.payloads
  stream : r.connection.fd.stream = rest
  delivers : Delivers r.connection.fd.reads n
  writes : r.connection.fd.writes = connection.fd.writes.tail
  buffered : r.connection.nbMsgBuffered.toNat =
    connection.nbMsgBuffered.toNat + script.others.length

theorem openflowGetFlows_answered {connection : OpenflowConnection} {transactionId : UInt32}
    {flows : OpenflowFlows} {payloads : Heap ActionPayload} {script : Script} {rest : List UInt8}
    {n : ℕ} (stack : ℕ → OpenflowMessage) (hxid : transactionId ≠ 0)
    (hwrite : connection.fd.writes.head? ≠ some false) (hanswer : script.Answers transactionId)
    (hroom : connection.nbMsgBuffered.toNat + script.others.length ≤ MSG_BUFFER_SIZE)
    (hflows : Stored [] { flows with nbFlows := 0 } payloads)
    (hstream : connection.fd.stream = script.bytes transactionId ++ rest)
    (hdelivers : Delivers connection.fd.reads ((script.bytes transactionId).length + n)) :
    ∃ r, openflowGetFlows connection transactionId stack flows payloads = .ok r ∧
      r.Answered connection transactionId script rest n := by
  obtain ⟨connection', hcollected, hcall⟩ := openflowGetFlows_collected stack flows payloads
    hwrite hanswer.wellCut.parts (by simpa [Script.parts] using hanswer.parts)
    (hanswer.isPart hxid) (by rwa [script.parts_others]) (by rwa [script.parts_bytes])
    (by rwa [script.parts_bytes])
  have hreceived : ((script.parts transactionId).map fun part => part.2.received) =
      (script.map Prod.snd).map fun reply => reply.received transactionId := by
    rw [Script.parts, List.map_map, List.map_map]
    rfl
  have hentries : (script.map Prod.snd).flatMap StatsReply.entries = script.entries := by
    rw [List.flatMap_map]
    rfl
  obtain ⟨flows', payloads', hparse, hstored, hnb⟩ := parseReplies_eq transactionId
    (script.map Prod.snd) hflows rfl (by rw [hentries]; simpa using hanswer.flows)
    (by rw [hentries]; exact hanswer.actions) (List.forall_mem_map.mpr hanswer.fits)
  rw [hentries, List.nil_append] at hstored
  rw [hentries] at hnb
  rw [hreceived, hparse] at hcall
  refine ⟨⟨connection', transactionId + 1, flows', payloads'⟩, hcall, rfl, by simpa using hnb,
    hstored, hcollected.stream, hcollected.delivers, hcollected.writes, ?_⟩
  rw [← script.parts_others]
  exact hcollected.buffered

structure Reported (flows : OpenflowFlows) (payloads : Heap ActionPayload) (i : ℕ)
    (e : FlowEntry) : Prop where
  flowStats : ∃ stats, flows.flowStats[i]? = some stats ∧ stats.match = e.match ∧
    stats.priority = e.priority ∧ openflowOvsbe64ToUint64 stats.packetCount = e.packetCount
  nbActions : ∃ nbActions, flows.nbActions[i]? = some nbActions ∧
    nbActions.toNat = e.actions.length
  actions : ∃ row, flows.actions[i]? = some row ∧
    ∀ (j : ℕ) (a : FlowAction), e.actions[j]? = some a →
      ∃ ref, row[j]? = some (⟨a.type, some ref⟩ : ActionDescriptor) ∧ payloads.cell ref = a.decoded

theorem RowHolds.reported {flows : OpenflowFlows} {payloads : Heap ActionPayload} {i : ℕ}
    {e : FlowEntry} (h : RowHolds flows payloads i e.item)
    (hactions : e.actions.length ≤ MAX_ACTIONS) : Reported flows payloads i e := by
  obtain ⟨hstats, hcount, row, hrow, hforall⟩ := h
  refine ⟨⟨e.decoded, hstats, rfl, rfl, openflowOvsbe64ToUint64_halves e.packetCount⟩,
    ⟨_, hcount, ?_⟩, row, hrow, fun j a ha => ?_⟩
  · have h4 : e.actions.length ≤ 4 := hactions
    simp only [FlowEntry.item, UInt8.toNat_ofNat']
    omega
  · obtain ⟨d, hd, htype, ref, hdata, -, hcell⟩ := exists_of_forall₂ hforall ha
    have hj : j < e.item.2.length := (List.getElem?_eq_some_iff.mp ha).1
    rw [List.getElem?_take, if_pos hj] at hd
    refine ⟨ref, ?_, hcell⟩
    rw [hd, ← htype, ← hdata]

/-- However an answer is cut and whatever arrives in between, the tables hold
exactly its entries, in order. -/
theorem openflow_get_flows_decodes {connection : OpenflowConnection} {transactionId : UInt32}
    {stack : ℕ → OpenflowMessage} {payloads : Heap ActionPayload} {script : Script}
    {rest : List UInt8} (hxid : transactionId ≠ 0)
    (hwrite : connection.fd.writes.head? ≠ some false) (hanswer : script.Answers transactionId)
    (hroom : connection.nbMsgBuffered.toNat + script.others.length ≤ MSG_BUFFER_SIZE)
    (hstream : connection.fd.stream = script.bytes transactionId ++ rest)
    (hdelivers : Delivers connection.fd.reads (script.bytes transactionId).length) :
    ∃ r, openflowGetFlows connection transactionId stack .zeroed payloads = .ok r ∧
      r.flows.nbFlows.toNat = script.entries.length ∧
      ∀ i e, script.entries[i]? = some e → Reported r.flows r.payloads i e := by
  have hzeroed : Stored [] { OpenflowFlows.zeroed with nbFlows := 0 } payloads :=
    zeroed_stored payloads
  rw [← Nat.add_zero (script.bytes transactionId).length] at hdelivers
  obtain ⟨r, hok, hr⟩ :=
    openflowGetFlows_answered stack hxid hwrite hanswer hroom hzeroed hstream hdelivers
  refine ⟨r, hok, hr.nbFlows, ?_⟩
  intro i e he
  have hitem : (script.entries.map FlowEntry.item)[i]? = some e.item := by
    rw [List.getElem?_map, he]
    rfl
  exact (hr.stored.rows i _ hitem).reported (hanswer.actions e (List.mem_of_getElem? he))

def taggedEntry (port : UInt16) (packetCount : UInt64) : FlowEntry where
  tableId := 0
  pad := 0
  «match» := { (default : OpenflowMatch) with nwProto := 6, tpSrc := port }
  durationSec := 0
  durationNsec := 0
  priority := 1
  idleTimeout := 0
  hardTimeout := 0
  pad2 := default
  cookie := 0
  packetCount := packetCount
  byteCount := 0
  actions := [.setVlanVid 3 default, .output 2 65535]

def twoParts : Script :=
  [([], ⟨1, OFPST_FLOW, OFPSF_REPLY_MORE, [taggedEntry 80 7]⟩),
    ([⟨1, 2, 0, []⟩], ⟨1, OFPST_FLOW, 0, [taggedEntry 443 9]⟩)]

def twoPartsConnection : OpenflowConnection :=
  .ofSocket ⟨twoParts.bytes 5, none :: List.replicate 300 (some 64), [], [], []⟩

theorem twoParts_answers : twoParts.Answers 5 where
  wellCut := by
    simp only [twoParts, Script.WellCut]
    decide
  parts := by decide
  fits := by
    intro part hpart
    have hsize : ∀ part ∈ twoParts, (part.2.message 5).size < 2 ^ 16 := by decide +kernel
    exact hsize part hpart
  unrelated := by
    intro part hpart m hm
    have hsize : ∀ part ∈ twoParts, ∀ m ∈ part.1, m.size < 2 ^ 16 ∧
        (m.type ≠ OFP_STATS_REPLY ∨ m.xid ≠ 5) := by decide +kernel
    exact hsize part hpart m hm
  flows := by decide
  actions := by decide

theorem openflow_get_flows_decodes_twoParts :
    ∃ r, openflowGetFlows twoPartsConnection 5 (fun _ => default) .zeroed Heap.empty = .ok r ∧
      r.flows.nbFlows.toNat = twoParts.entries.length ∧
      ∀ i e, twoParts.entries[i]? = some e → Reported r.flows r.payloads i e := by
  have hdelivers : Delivers twoPartsConnection.fd.reads (twoParts.bytes 5).length := by
    refine ⟨fun k hk => ?_, by decide +kernel⟩
    have hcaps : ∀ r ∈ twoPartsConnection.fd.reads, r = none ∨ r = some 64 := by decide +kernel
    rcases hcaps _ hk with h | h
    · cases h
    · cases h
      decide
  exact openflow_get_flows_decodes (by decide) (by decide) twoParts_answers (by decide)
    (List.append_nil _).symm hdelivers

end OrssNic
