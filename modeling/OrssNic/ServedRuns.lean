import OrssNic.FullMapExit
import OrssNic.TableBounds

/-!
# Runs against a switch that answers

The loop stops for many reasons. None of them is met as long as the switch
answers both requests of an iteration within the tables, whatever it sends in
between, and its reports are for fewer flows than the map has slots.
-/

namespace OrssNic
open CLoops CLists CRuns

/-! ## The entries of an answer, as they are reported -/

section Store
variable {s s' : OpenflowFlows × Heap ActionPayload}

theorem storeActions_flowStats {actions : List WireAction}
    (h : run storeAction actions s = .ok s') :
    s'.1.flowStats = s.1.flowStats ∧ s'.1.nbFlows = s.1.nbFlows := by
  refine run_invariant (P := fun _ t => t.1.flowStats = s.1.flowStats ∧ t.1.nbFlows = s.1.nbFlows)
    ⟨rfl, rfl⟩ ?_ h
  intro done a r t hr hstep
  obtain ⟨k, -, hstep⟩ := bind_eq_ok.mp hstep
  obtain ⟨row, -, hstep⟩ := bind_eq_ok.mp hstep
  obtain ⟨d, -, hstep⟩ := bind_eq_ok.mp hstep
  cases hstep
  exact hr

theorem storeEntry_row {e : WireEntry} (hsizes : TableSizes s.1) (h : storeEntry s e = .ok s') :
    s.1.nbFlows.toNat < MAX_HANDLED_FLOWS ∧
      s'.1.flowStats = s.1.flowStats.set s.1.nbFlows.toNat e.decoded ∧
      ∃ k, s.1.nbActions[s.1.nbFlows.toNat]? = some k ∧ EntryStored s k e s' := by
  obtain ⟨hlt, -, -⟩ := storeEntry_ok hsizes h
  have hk := List.getElem?_eq_getElem (hsizes.nbActions.symm ▸ hlt)
  refine ⟨hlt, ?_, _, hk, ?_⟩
  · obtain ⟨flowStats, hwrite, hrest⟩ := bind_eq_ok.mp h
    obtain ⟨t, hrun, hreturn⟩ := bind_eq_ok.mp hrest
    rw [writeAt_of_lt (hsizes.flowStats.symm ▸ hlt)] at hwrite
    cases hwrite
    cases hreturn
    exact (storeActions_flowStats hrun).1
  · obtain ⟨-, t, hok, hstored⟩ | ⟨-, herror⟩ := storeEntry_cases e hsizes hk
    · rw [h, Except.ok.injEq] at hok
      subst hok
      exact hstored
    · rw [h] at herror
      cases herror

def storedAt (entries : List WireEntry) (i : ℕ) : ℕ :=
  (entries[i]?).elim 0 fun e => e.stored.length

theorem storedAt_concat_self (entries : List WireEntry) (e : WireEntry) :
    storedAt (entries ++ [e]) entries.length = e.stored.length := by
  rw [storedAt, List.getElem?_concat_length]
  rfl

theorem storedAt_concat_of_ne (entries : List WireEntry) (e : WireEntry) {i : ℕ}
    (hi : i ≠ entries.length) : storedAt (entries ++ [e]) i = storedAt entries i := by
  rw [storedAt, storedAt]
  rcases Nat.lt_or_gt_of_ne hi with hlt | hgt
  · rw [List.getElem?_append_left hlt]
  · rw [List.getElem?_eq_none hgt.le, List.getElem?_eq_none]
    rw [List.length_append, List.length_singleton]
    exact hgt

structure Tabled (s : OpenflowFlows × Heap ActionPayload) (entries : List WireEntry)
    (s' : OpenflowFlows × Heap ActionPayload) : Prop where
  sizes : TableSizes s'.1
  nbFlows : s'.1.nbFlows.toNat = entries.length
  reported : reportedStats s'.1 = entries.map WireEntry.decoded
  counts : ∀ (i : ℕ) (k : UInt8), s.1.nbActions[i]? = some k →
    s'.1.nbActions[i]? = some (k + UInt8.ofNat (storedAt entries i))

theorem Tabled.nil (hsizes : TableSizes s.1) (hstart : s.1.nbFlows = 0) : Tabled s [] s where
  sizes := hsizes
  nbFlows := by rw [hstart, UInt16.toNat_zero, List.length_nil]
  reported := by rw [reportedStats, hstart, UInt16.toNat_zero, List.take_zero, List.map_nil]
  counts i k hk := by
    rw [hk, storedAt, List.getElem?_nil]
    exact congrArg some (UInt8.add_zero k).symm

theorem Tabled.concat {entries : List WireEntry} {e : WireEntry}
    {t : OpenflowFlows × Heap ActionPayload} (h : Tabled s entries s')
    (hstep : storeEntry s' e = .ok t) : Tabled s (entries ++ [e]) t := by
  obtain ⟨hlt, hstats, k, hk, hstored⟩ := storeEntry_row h.sizes hstep
  refine ⟨hstored.sizes, ?_, ?_, fun i k₀ hk₀ => ?_⟩
  · rw [hstored.nbFlows, h.nbFlows, List.length_append, List.length_singleton]
  · rw [reportedStats, hstored.nbFlows, hstats, take_succ_set (h.sizes.flowStats.symm ▸ hlt),
      List.map_append, ← h.reported]
    rfl
  · have hold := h.counts i k₀ hk₀
    by_cases hi : i = entries.length
    · subst hi
      rw [h.nbFlows, hold, Option.some.injEq] at hk
      have hnone : storedAt entries entries.length = 0 := by
        rw [storedAt, List.getElem?_eq_none le_rfl]
        rfl
      have hzero : k₀ + UInt8.ofNat 0 = k₀ := UInt8.add_zero k₀
      rw [hnone, hzero] at hk hold
      rw [hstored.nbActions, h.nbFlows, storedAt_concat_self, hk,
        List.getElem?_set_self (List.getElem?_eq_some_iff.mp hold).1]
    · rw [hstored.nbActions, h.nbFlows, List.getElem?_set_ne (Ne.symm hi), hold,
        storedAt_concat_of_ne entries e hi]

theorem Tabled.count {entries : List WireEntry} (h : Tabled s entries s') (hsizes : TableSizes s.1)
    {i : ℕ} {k' : UInt8} (hk' : s'.1.nbActions[i]? = some k')
    (hroom : ∀ k, s.1.nbActions[i]? = some k → k.toNat + storedAt entries i ≤ MAX_ACTIONS) :
    ∃ k, s.1.nbActions[i]? = some k ∧ k'.toNat = k.toNat + storedAt entries i := by
  have hlt : i < s.1.nbActions.length := by
    rw [hsizes.nbActions, ← h.sizes.nbActions]
    exact (List.getElem?_eq_some_iff.mp hk').1
  have hk := List.getElem?_eq_getElem hlt
  have hle := hroom _ hk
  have hmax : MAX_ACTIONS = 4 := rfl
  rw [h.counts i _ hk, Option.some.injEq] at hk'
  refine ⟨_, hk, ?_⟩
  rw [← hk', UInt8.toNat_add, UInt8.toNat_ofNat']
  omega

theorem storeEntries_tabled {entries : List WireEntry} (hsizes : TableSizes s.1)
    (hstart : s.1.nbFlows = 0) (h : run storeEntry entries s = .ok s') : Tabled s entries s' :=
  run_invariant (.nil hsizes hstart) (fun _ _ _ _ hr hstep => hr.concat hstep) h

end Store

/-! ## One query -/

structure GetFlows.Served (connection : OpenflowConnection) (xid : UInt32)
    (flows : OpenflowFlows) (payloads : Heap ActionPayload) (answer : Answer) (n : ℕ)
    (rest : List UInt8) (r : GetFlows) : Prop where
  transactionId : r.transactionId = xid + 1
  collected : GetFlows.Collected connection (answer.parts xid) rest n r.connection
  tabled : Tabled ({ flows with nbFlows := 0 }, payloads) answer.entries (r.flows, r.payloads)

theorem openflowGetFlows_served {connection : OpenflowConnection} {xid : UInt32}
    {flows : OpenflowFlows} {answer : Answer} {n : ℕ} {rest : List UInt8}
    (stack : ℕ → OpenflowMessage) (payloads : Heap ActionPayload) (hsizes : TableSizes flows)
    (hwrite : connection.fd.writes.head? ≠ some false) (hformed : answer.WellFormed xid)
    (hroom : connection.nbMsgBuffered.toNat + (answer.parts xid).others.length ≤ MSG_BUFFER_SIZE)
    (hstream : connection.fd.stream = (answer.parts xid).bytes ++ rest)
    (hdelivers : Delivers connection.fd.reads ((answer.parts xid).bytes.length + n))
    (htables : answer.InTables flows.nbActions) :
    ∃ r, openflowGetFlows connection xid stack flows payloads = .ok r ∧
      r.Served connection xid flows payloads answer n rest := by
  obtain ⟨connection', hcollected, hcall⟩ := openflowGetFlows_collected stack flows payloads
    hwrite hformed.wellCut (by simpa [Answer.parts] using htables.parts) hformed.isPart hroom
    hstream hdelivers
  have hreceived : ((answer.parts xid).map fun part => part.2.received) =
      (answer.map Prod.snd).map fun reply => (reply.message xid).received := by
    rw [Answer.parts, List.map_map, List.map_map]
    rfl
  have hentries : (answer.map Prod.snd).flatMap WireReply.entries = answer.entries := by
    rw [List.flatMap_map]
    rfl
  rw [hreceived, parseReplies_store _ (hsizes.counted 0)
    (List.forall_mem_map.mpr hformed.fits), hentries] at hcall
  obtain ⟨-, s', hrun, -⟩ | ⟨hrows, -⟩ :=
    storeEntries_cases (s := ({ flows with nbFlows := 0 }, payloads)) answer.entries
      (hsizes.counted 0) (Nat.zero_le _)
  · rw [hrun] at hcall
    refine ⟨⟨connection', xid + 1, s'.1, s'.2⟩, hcall, rfl, hcollected, ?_⟩
    exact storeEntries_tabled (hsizes.counted 0) rfl hrun
  · exact absurd htables.rows hrows

/-! ## Housekeeping -/

/-- The answers that `control_logic` writes to messages of these types. -/
def echoes (types : List UInt8) : ℕ := types.count OFP_ECHO_REQUEST

theorem echoes_append (types types' : List UInt8) :
    echoes (types ++ types') = echoes types + echoes types' :=
  List.count_append

/-- So many writes leave what is to be read alone. -/
structure OnlyWrites (fd fd' : Socket) (n : ℕ) : Prop where
  stream : fd'.stream = fd.stream
  reads : fd'.reads = fd.reads
  writes : fd'.writes = fd.writes.drop n

namespace OnlyWrites
variable {fd fd' fd'' : Socket} {m n : ℕ}

theorem refl (fd : Socket) : OnlyWrites fd fd 0 := ⟨rfl, rfl, rfl⟩

theorem trans (h : OnlyWrites fd fd' m) (h' : OnlyWrites fd' fd'' n) :
    OnlyWrites fd fd'' (m + n) := by
  refine ⟨h'.stream.trans h.stream, h'.reads.trans h.reads, ?_⟩
  rw [h'.writes, h.writes, List.drop_drop]

theorem write (fd : Socket) (request : OpenflowRequest) :
    OnlyWrites fd (OrssNic.write fd request).2 1 := by
  unfold OrssNic.write
  split
  case h_1 writes hwrites => exact ⟨rfl, rfl, by rw [hwrites, List.drop_one, List.tail_cons]⟩
  case h_2 writes hwrites => exact ⟨rfl, rfl, by rw [hwrites, List.drop_one, List.tail_cons]⟩
  case h_3 hwrites => exact ⟨rfl, rfl, by rw [hwrites, List.drop_nil]⟩

theorem controlLogic (fd : Socket) (message : OpenflowMessage) :
    OnlyWrites fd (OrssNic.controlLogic fd message) (echoes [message.header.type]) := by
  unfold OrssNic.controlLogic
  split_ifs with htype
  · rw [echoes, htype, List.count_singleton_self]
    exact write fd _
  · rw [echoes, List.count_singleton, if_neg (by simpa using htype)]
    exact refl fd

end OnlyWrites

/-- The reads hand over all messages, and then find nothing. -/
inductive Drains : List WireMessage → List (Option ℕ) → List (Option ℕ) → Prop
  | idle (reads : List (Option ℕ)) : Drains [] (none :: reads) reads
  | message {m : WireMessage} {ahead : List WireMessage} {reads behind left : List (Option ℕ)}
      {k : ℕ} (hcap : OFP_HEADER_LEN ≤ k) (hafter : readsAfter reads m.body.length = some behind)
      (h : Drains ahead behind left) : Drains (m :: ahead) (some k :: reads) left

structure Drained (fd : Socket) (types : List UInt8) (rest : List UInt8)
    (left : List (Option ℕ)) (fd' : Socket) : Prop where
  stream : fd'.stream = rest
  reads : fd'.reads = left
  writes : fd'.writes = fd.writes.drop (echoes types)

theorem drainLoop_eq {ahead : List WireMessage} {reads left : List (Option ℕ)}
    {rest : List UInt8} (h : Drains ahead reads left) (hfits : ∀ m ∈ ahead, m.Fits) {fd : Socket}
    (message : OpenflowMessage) {n : ℕ} (hreads : fd.reads = reads)
    (hstream : fd.stream = wireBytes ahead ++ rest) (hfuel : reads.length + 2 ≤ n) :
    ∃ s, whileLoop .blocked controlSocketStep n ⟨fd, message, false⟩ = .ok s ∧
      Drained fd (ahead.map WireMessage.type) rest left s.fd := by
  induction h generalizing fd message n with
  | idle reads =>
    obtain ⟨n, rfl⟩ := Nat.exists_eq_add_of_le' ((Nat.le_add_left 2 _).trans hfuel)
    obtain ⟨message', hread⟩ := readOpenflowMessage_none hreads message
    have hstep : controlSocketStep ⟨fd, message, false⟩ =
        .ok (some ⟨{ fd with reads := reads }, message', true⟩) := by
      simp [controlSocketStep, hread, bind, Except.bind, pure, Except.pure]
    have hstop : controlSocketStep ⟨{ fd with reads := reads }, message', true⟩ = .ok none := rfl
    refine ⟨⟨{ fd with reads := reads }, message', true⟩, ?_, hstream, rfl, rfl⟩
    rw [whileLoop_step hstep]
    exact whileLoop_stop hstop _
  | @message m ahead reads behind left k hcap hafter h ih =>
    rw [List.forall_mem_cons] at hfits
    rw [List.length_cons] at hfuel
    obtain ⟨n, rfl⟩ := Nat.exists_eq_add_of_le' (Nat.succ_le_of_lt (Nat.zero_lt_of_lt hfuel))
    rw [wireBytes, List.flatMap_cons, List.append_assoc] at hstream
    have hread := readOpenflowMessage_whole hreads hstream hfits.1 hcap message
    rw [hafter] at hread
    obtain ⟨message', hmessage⟩ : ∃ message', message' = (⟨m.header,
        if m.body = [] then message.data else some m.body⟩ : OpenflowMessage) := ⟨_, rfl⟩
    rw [← hmessage] at hread
    have htype : message'.header.type = m.type := by
      rw [hmessage]
      rfl
    have hquiet := OnlyWrites.controlLogic
      { fd with stream := wireBytes ahead ++ rest, reads := behind } message'
    obtain ⟨fd', hfd'⟩ : ∃ fd', fd' = controlLogic
        { fd with stream := wireBytes ahead ++ rest, reads := behind } message' := ⟨_, rfl⟩
    rw [← hfd', htype] at hquiet
    have hstep : controlSocketStep ⟨fd, message, false⟩ =
        .ok (some ⟨fd', message', false⟩) := by
      simp only [controlSocketStep, hread, bind, Except.bind, pure, Except.pure, hfd']
      rfl
    have hshorter := (readsAfter_suffix hafter).length_le
    obtain ⟨s, hloop, hs⟩ := ih hfits.2 message' hquiet.reads hquiet.stream
      (n := n) (by omega)
    refine ⟨s, ?_, hs.stream, hs.reads, ?_⟩
    · rw [whileLoop_step hstep, hloop]
    · rw [hs.writes, hquiet.writes, List.drop_drop, ← echoes_append]
      rfl

def OpenflowConnection.bufferedTypes (connection : OpenflowConnection) : List UInt8 :=
  (connection.msgBuffer.take connection.nbMsgBuffered.toNat).map fun message => message.header.type

theorem openflowControl_drained (connection : OpenflowConnection) {ahead : List WireMessage}
    {left : List (Option ℕ)} {rest : List UInt8}
    (hbuffered : connection.nbMsgBuffered.toNat ≤ MSG_BUFFER_SIZE)
    (h : Drains ahead connection.fd.reads left) (hfits : ∀ m ∈ ahead, m.Fits)
    (hstream : connection.fd.stream = wireBytes ahead ++ rest) :
    ∃ connection', openflowControl connection = .ok connection' ∧
      connection'.nbMsgBuffered = 0 ∧ Drained connection.fd
        (connection.bufferedTypes ++ ahead.map WireMessage.type) rest left connection'.fd := by
  obtain ⟨fd, hbuffer, hfd⟩ : ∃ fd, forLoop (controlBufferStep connection.msgBuffer)
      connection.nbMsgBuffered.toNat connection.fd = .ok fd ∧
      OnlyWrites connection.fd fd (echoes connection.bufferedTypes) := by
    apply forLoop_total (P := fun i fd => OnlyWrites connection.fd fd
      (echoes ((connection.msgBuffer.take i).map fun message => message.header.type)))
    · exact .refl _
    · intro i fd hi hfd
      have hlt : i < connection.msgBuffer.length :=
        hi.trans_le (hbuffered.trans connection.allocated.ge)
      refine ⟨controlLogic fd connection.msgBuffer[i], ?_, ?_⟩
      · exact bind_eq_ok.mpr ⟨_, readAt_of_getElem? (List.getElem?_eq_getElem hlt), rfl⟩
      · rw [← List.take_append_getElem hlt, List.map_append, echoes_append]
        exact hfd.trans (.controlLogic fd connection.msgBuffer[i])
  obtain ⟨s, hloop, hs⟩ := drainLoop_eq h hfits default hfd.reads
    (hfd.stream.trans hstream) le_rfl
  rw [← hfd.reads] at hloop
  refine ⟨{ connection with fd := s.fd, nbMsgBuffered := 0 }, ?_, rfl, hs.stream, hs.reads, ?_⟩
  · exact bind_eq_ok.mpr ⟨fd, hbuffer, bind_eq_ok.mpr ⟨s, hloop, rfl⟩⟩
  · rw [hs.writes, hfd.writes, List.drop_drop, echoes_append]

/-! ## An iteration that is served -/

/-- What the switch sends in one iteration: messages ahead of the first request,
and the answers to both. -/
structure Service where
  ahead : List WireMessage
  first : Answer
  second : Answer

namespace Service

def answers (service : Service) (xid : UInt32) : List UInt8 :=
  (service.first.parts xid).bytes ++ (service.second.parts (xid + 1)).bytes

def report (service : Service) : List OpenflowFlowStats :=
  service.second.entries.map WireEntry.decoded

/-- There is a cell for all that is sent: the actions of the second answer are
stored behind those of the first. -/
structure Fits (service : Service) (xid : UInt32) : Prop where
  ahead : ∀ m ∈ service.ahead, m.Fits
  first : service.first.WellFormed xid
  second : service.second.WellFormed (xid + 1)
  others : (service.first.parts xid).others.length +
    (service.second.parts (xid + 1)).others.length ≤ MSG_BUFFER_SIZE
  parts : service.first.length ≤ MAX_STATS_REPLY
  parts' : service.second.length ≤ MAX_STATS_REPLY
  rows : service.first.entries.length ≤ MAX_HANDLED_FLOWS
  rows' : service.second.entries.length ≤ MAX_HANDLED_FLOWS
  cells : ∀ i, storedAt service.first.entries i + storedAt service.second.entries i ≤ MAX_ACTIONS

/-- The `ECHO_REQUEST`s that are answered in front of the first request. -/
def echoes (service : Service) (connection : OpenflowConnection) : ℕ :=
  OrssNic.echoes (connection.bufferedTypes ++ service.ahead.map WireMessage.type)

/-- The iteration gets it: what is ahead at once, and the answers in time. Of its
writes, only those of the two requests have to succeed. -/
structure Serves (service : Service) (s : MainState) (i : Surroundings) : Prop
    extends service.Fits s.transactionId where
  arrived : wireBytes service.ahead ++ service.answers s.transactionId <+:
    s.connection.fd.stream ++ i.arrived
  drains : ∃ left, Drains service.ahead i.reads left ∧
    Delivers left (service.answers s.transactionId).length
  write : i.writes[service.echoes s.connection]? ≠ some false
  write' : i.writes[service.echoes s.connection + 1]? ≠ some false

end Service

theorem Service.Fits.inTables {service : Service} {xid : UInt32} (h : service.Fits xid)
    {nbActions : List UInt8} (hzero : ∀ (i : ℕ) (k : UInt8), nbActions[i]? = some k → k = 0) :
    service.first.InTables nbActions := by
  refine ⟨h.parts, (zero_add _).trans_le h.rows, fun i e k he hk => .inr ?_⟩
  rw [zero_add] at hk
  have hcells := h.cells i
  rw [storedAt, he, Option.elim_some] at hcells
  rw [hzero i k hk, UInt8.toNat_zero]
  omega

/-- The second answer comes on top of the rows that the first one has filled. -/
theorem Service.Fits.inTables_second {service : Service} {xid : UInt32} (h : service.Fits xid)
    {nbActions : List UInt8} (hcounts : ∀ (i : ℕ) (k : UInt8), nbActions[i]? = some k →
      k.toNat = storedAt service.first.entries i) : service.second.InTables nbActions := by
  refine ⟨h.parts', (zero_add _).trans_le h.rows', fun i e k he hk => .inr ?_⟩
  rw [zero_add] at hk
  have hcells := h.cells i
  rw [← hcounts i k hk, storedAt, he, Option.elim_some] at hcells
  exact hcells

structure GetFlows.Queried (s : MainState) (service : Service) (r : GetFlows) : Prop where
  transactionId : r.transactionId = s.transactionId + 1 + 1
  buffered : r.connection.nbMsgBuffered.toNat ≤ MSG_BUFFER_SIZE
  reported : reportedStats r.flows = service.report
  counting : Counting r.flows

theorem queryFlows_served {s : MainState} {i : Surroundings} {service : Service}
    (hbuffered : s.connection.nbMsgBuffered.toNat ≤ MSG_BUFFER_SIZE) (h : service.Serves s i) :
    ∃ r, queryFlows s i = .ok r ∧ r.Queried s service := by
  obtain ⟨rest, hrest⟩ := h.arrived
  obtain ⟨left, hdrains, hdelivers⟩ := h.drains
  rw [Service.answers, List.length_append] at hdelivers
  rw [Service.answers, List.append_assoc, List.append_assoc] at hrest
  have hothers := h.others
  obtain ⟨connection, hcontrol, hempty, hdrained⟩ :=
    openflowControl_drained (s.connection.meets i) hbuffered hdrains h.ahead hrest.symm
  have hwrites : connection.fd.writes = i.writes.drop (service.echoes s.connection) :=
    hdrained.writes
  have hzeroed : ∀ (i : ℕ) (k : UInt8), OpenflowFlows.zeroed.nbActions[i]? = some k → k = 0 :=
    fun i k hk => List.eq_of_mem_replicate (List.mem_of_getElem? hk)
  have hsizes : TableSizes .zeroed := (zeroed_stored Heap.empty).sizes
  obtain ⟨r₁, hfirst, hr₁⟩ := openflowGetFlows_served i.stack s.payloads hsizes
    (by rw [hwrites, List.head?_drop]; exact h.write) h.first
    (by rw [hempty, UInt8.toNat_zero]; omega) hdrained.stream (hdrained.reads ▸ hdelivers)
    (h.inTables hzeroed)
  have hcounts : ∀ (j : ℕ) (k : UInt8), r₁.flows.nbActions[j]? = some k →
      k.toNat = storedAt service.first.entries j := by
    intro j k hk
    have hcells := h.cells j
    obtain ⟨k₀, hk₀, hcount⟩ := hr₁.tabled.count (hsizes.counted 0) hk fun k₀ hk₀ => by
      rw [hzeroed j k₀ hk₀, UInt8.toNat_zero]
      omega
    rw [hcount, hzeroed j k₀ hk₀, UInt8.toNat_zero, zero_add]
  have hcollected := hr₁.collected
  have hwrites₁ : r₁.connection.fd.writes = i.writes.drop (service.echoes s.connection + 1) := by
    rw [hcollected.writes, hwrites, List.tail_drop]
  obtain ⟨r₂, hsecond, hr₂⟩ := openflowGetFlows_served (n := 0) i.stack' r₁.payloads
    hr₁.tabled.sizes (by rw [hwrites₁, List.head?_drop]; exact h.write')
    (hr₁.transactionId ▸ h.second)
    (by rw [hcollected.buffered, hempty, UInt8.toNat_zero, hr₁.transactionId]; omega)
    (by rw [hcollected.stream, hr₁.transactionId])
    (by rw [hr₁.transactionId, Nat.add_zero]; exact hcollected.delivers)
    (h.inTables_second hcounts)
  refine ⟨r₂, ?_, ?_, ?_, hr₂.tabled.reported, hr₂.tabled.sizes, ?_, fun j k hk => ?_⟩
  · exact bind_eq_ok.mpr ⟨connection, hcontrol, bind_eq_ok.mpr ⟨r₁, hfirst, hsecond⟩⟩
  · rw [hr₂.transactionId, hr₁.transactionId]
  · rw [hr₂.collected.buffered, hcollected.buffered, hempty, UInt8.toNat_zero, hr₁.transactionId]
    omega
  · exact hr₂.tabled.nbFlows.trans_le h.rows'
  · have hroom : ∀ k, r₁.flows.nbActions[j]? = some k →
        k.toNat + storedAt service.second.entries j ≤ MAX_ACTIONS :=
      fun k hk => hcounts j k hk ▸ h.cells j
    obtain ⟨k₁, hk₁, hcount⟩ := hr₂.tabled.count (hr₁.tabled.sizes.counted 0) hk hroom
    rw [hcount]
    exact hroom k₁ hk₁

theorem applyMigrations_transactionId (fd : Socket) (transactionId : UInt32)
    (migrations : List Migration) : (applyMigrations fd transactionId migrations).2 =
      transactionId + UInt32.ofNat migrations.length := by
  induction migrations generalizing fd transactionId with
  | nil => exact (UInt32.add_zero _).symm
  | cons m migrations ih =>
    rw [applyMigrations, List.foldl_cons]
    refine (ih _ _).trans ?_
    rw [List.length_cons, Nat.add_comm, UInt32.ofNat_add, ← UInt32.add_assoc]
    rfl

/-- The report was processed, and the connection and its counter are ready for the next one. -/
structure Iteration.Processes (r : Iteration) (s : MainState) (service : Service) : Prop where
  before : r.before = s
  reported : reportedStats r.flows = service.report
  live : r.after.map.Live
  keys : r.after.map.hashmap.keys.toFinset =
    s.map.hashmap.keys.toFinset ∪ (service.report.map fiveTupleOf).toFinset
  buffered : r.after.connection.nbMsgBuffered.toNat ≤ MSG_BUFFER_SIZE
  transactionId : r.after.transactionId =
    s.transactionId + 1 + 1 + UInt32.ofNat r.migrations.length

theorem iteration_served {s : MainState} {i : Surroundings} {service : Service}
    (hlive : s.map.Live) (hbuffered : s.connection.nbMsgBuffered.toNat ≤ MSG_BUFFER_SIZE)
    (h : service.Serves s i) (hroom : (s.map.hashmap.keys.toFinset ∪
      (service.report.map fiveTupleOf).toFinset).card < HASHMAP_SIZE) :
    ∃ r, iteration s i = .ok r ∧ r.Processes s service := by
  obtain ⟨r, hquery, hr⟩ := queryFlows_served hbuffered h
  have hreported : reported r.flows = service.report.map fiveTupleOf := by
    rw [reported, hr.reported]
  have hdemand : (s.map.demand r.flows).card < HASHMAP_SIZE := by
    rw [MapState.demand, hreported]
    exact hroom
  obtain ⟨map, migrations, hget⟩ := getMigrations_total i.previousKey hlive
    (hr.counting.sizes.flowStats.symm ▸ hr.counting.rows) hdemand
  obtain ⟨r', hok, hflows, hconnection, hxid⟩ : ∃ r', iteration s i = .ok r' ∧
      r'.flows = r.flows ∧
      r'.after.connection.nbMsgBuffered = r.connection.nbMsgBuffered ∧
      r'.after.transactionId = r.transactionId + UInt32.ofNat r'.migrations.length := by
    rw [iteration_eq]
    refine ⟨_, bind_eq_ok.mpr ⟨r, hquery, bind_eq_ok.mpr ⟨(map, migrations), hget,
      bind_eq_ok.mpr ⟨_, openflowFreeFlows_eq hr.counting r.payloads, rfl⟩⟩⟩, rfl, rfl, ?_⟩
    exact applyMigrations_transactionId _ _ _
  obtain ⟨hbefore, sampled, flows, coreLoad, t, hspec⟩ := iteration_spec hlive hok
  refine ⟨r', hok, hbefore, ?_, hspec.afterLive, ?_, ?_, ?_⟩
  · rw [hflows, hr.reported]
  · ext key
    rw [List.mem_toFinset, hspec.mem_keys, hbefore, hflows, hreported, Finset.mem_union,
      List.mem_toFinset, List.mem_toFinset]
  · rw [hconnection]
    exact hr.buffered
  · rw [hxid, hr.transactionId]

/-! ## The run -/

/-- A switch that serves every iteration: what it sends depends on the number
that the migrations before have left. -/
inductive ServedRun : MainState → List Surroundings → List Service → Prop
  | nil (s : MainState) : ServedRun s [] []
  | cons {s : MainState} {i : Surroundings} {inputs : List Surroundings} {service : Service}
      {services : List Service} (serves : service.Serves s i)
      (next : ∀ r, iteration s i = .ok r → ServedRun r.after inputs services) :
      ServedRun s (i :: inputs) (service :: services)

def servedFlows (services : List Service) : Finset FiveTuple :=
  ((services.flatMap Service.report).map fiveTupleOf).toFinset

theorem servedFlows_cons (service : Service) (services : List Service) :
    servedFlows (service :: services) =
      (service.report.map fiveTupleOf).toFinset ∪ servedFlows services := by
  rw [servedFlows, List.flatMap_cons, List.map_append, List.toFinset_append, servedFlows]

theorem servedRun_processed {s : MainState} {inputs : List Surroundings}
    {services : List Service} (h : ServedRun s inputs services) (hlive : s.map.Live)
    (hbuffered : s.connection.nbMsgBuffered.toNat ≤ MSG_BUFFER_SIZE)
    (hroom : (s.map.hashmap.keys.toFinset ∪ servedFlows services).card < HASHMAP_SIZE) :
    ∃ rs, trace iteration Iteration.after inputs s = .ok rs ∧
      List.Forall₂ (fun r service => r.Processes r.before service) rs services := by
  induction h with
  | nil s => exact ⟨[], rfl, .nil⟩
  | @cons s i inputs service services serves next ih =>
    rw [servedFlows_cons, ← Finset.union_assoc] at hroom
    obtain ⟨r, hok, hr⟩ := iteration_served hlive hbuffered serves
      ((Finset.card_le_card Finset.subset_union_left).trans_lt hroom)
    rw [← hr.keys] at hroom
    obtain ⟨rs, hrs, hprocessed⟩ := ih r hok hr.live hr.buffered hroom
    refine ⟨r :: rs, trace_cons_ok.mpr ⟨r, rs, hok, hrs, rfl⟩, .cons ?_ hprocessed⟩
    rw [hr.before]
    exact hr

/-- Against a switch that serves it the loop never stops, and balances in every
iteration what the second answer says, as long as all reports of the run are
for fewer flows than the map has slots. -/
theorem served_run_processes_reports {connection : OpenflowConnection} {transactionId : UInt32}
    {inputs : List Surroundings} {services : List Service}
    (hbuffered : connection.nbMsgBuffered.toNat ≤ MSG_BUFFER_SIZE)
    (h : ServedRun (.start connection transactionId) inputs services)
    (hroom : (servedFlows services).card < HASHMAP_SIZE) :
    ∃ rs, mainLoop connection transactionId inputs = .ok rs ∧
      List.Forall₂ (fun r service => reportedStats r.flows = service.report ∧
        r.after.transactionId =
          r.before.transactionId + 1 + 1 + UInt32.ofNat r.migrations.length) rs services := by
  have hkeys : (MainState.start connection transactionId).map.hashmap.keys.toFinset ∪
      servedFlows services = servedFlows services := by
    rw [MainState.start_keys, List.toFinset_nil, Finset.empty_union]
  obtain ⟨rs, hrs, hprocessed⟩ := servedRun_processed h .start hbuffered (hkeys.symm ▸ hroom)
  exact ⟨rs, hrs, hprocessed.imp fun r service hr => ⟨hr.reported, hr.transactionId⟩⟩

/-- An echo request, whose answer fails, and two answers of one flow, for which
the first `FLOW_MOD` fails. -/
def echoedService : Service where
  ahead := [⟨OFP_VERSION, OFP_ECHO_REQUEST, 9, [1, 2]⟩]
  first := onePartAnswer (outputs 1)
  second := onePartAnswer (outputs 1)

def echoedSurroundings : Surroundings where
  arrived := wireBytes echoedService.ahead ++ echoedService.answers 6
  reads := some 8 :: some 8 :: none :: List.replicate 300 (some 64)
  writes := [false, true, true, false]
  stack := fun _ => default
  stack' := fun _ => default
  previousKey := default

theorem storedAt_singleton_le {e : WireEntry} {n : ℕ} (h : e.stored.length ≤ n) (i : ℕ) :
    storedAt [e] i ≤ n := by
  cases i with
  | zero => exact h
  | succ i => exact Nat.zero_le n

theorem echoedService_serves :
    echoedService.Serves (.start idleConnection 6) echoedSurroundings where
  ahead := by
    intro m hm
    rw [List.mem_singleton.mp hm]
    change 10 < 2 ^ 16
    decide
  first := (onePartAnswer_delivered (by decide +kernel)).wellFormed
  second := (onePartAnswer_delivered (by decide +kernel)).wellFormed
  others := by decide
  parts := by decide
  parts' := by decide
  rows := by decide
  rows' := by decide
  cells i := by
    have h := storedAt_singleton_le (e := outputEntry [.known (.output 2 65535)]) (n := 1)
      (by decide) i
    exact (Nat.add_le_add h h).trans (by decide)
  arrived := List.prefix_rfl
  drains := by
    refine ⟨List.replicate 300 (some 64), .message (by decide) rfl (.idle _), fun k hk => ?_, ?_⟩
    · rw [Option.some.inj (List.eq_of_mem_replicate hk)]
      decide
    · decide +kernel
  write := by decide
  write' := by decide

theorem served_run_processes_reports_echoed :
    ∃ rs, mainLoop idleConnection 6 [echoedSurroundings] = .ok rs ∧
      List.Forall₂ (fun r service => reportedStats r.flows = service.report ∧
        r.after.transactionId =
          r.before.transactionId + 1 + 1 + UInt32.ofNat r.migrations.length) rs
        [echoedService] :=
  served_run_processes_reports (Nat.zero_le _)
    (.cons echoedService_serves fun r _ => .nil r.after) (by decide +kernel)

end OrssNic
