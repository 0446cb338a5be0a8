import OrssNic.ExitPaths
import OrssNic.OpenflowFree
import OrssNic.OpenflowReply
import OrssNic.ReportedFlows

/-!
# Runs that fill the map

The flows of a run stay in the map, so that the map is full as soon as a run
has reported more flows than it has slots, however few are in each report.
-/

namespace OrssNic
open CLoops CRuns

/-- What an iteration asks for: the report that `get_migrations` sees is the
second one. -/
def queryFlows (s : MainState) (i : Surroundings) : Except Halt GetFlows := do
  let connection ← openflowControl (s.connection.meets i)
  let r ← openflowGetFlows connection s.transactionId i.stack .zeroed s.payloads
  openflowGetFlows r.connection r.transactionId i.stack' r.flows r.payloads

/-- What it makes of the report. -/
def concludeIteration (s : MainState) (i : Surroundings) (r : GetFlows) :
    Except Halt Iteration := do
  let (map, migrations) ← getMigrations r.flows s.map i.previousKey []
  let (fd, transactionId) := applyMigrations r.connection.fd r.transactionId migrations
  let (_, payloads) ← openflowFreeFlows r.flows r.payloads
  let (hashmap, heap) := hashmapCleanupInactiveFlows map.hashmap map.heap
  return {
    before := s
    flows := r.flows
    migrations := migrations
    after := ⟨{ r.connection with fd := fd }, transactionId, ⟨hashmap, heap⟩, payloads⟩ }

theorem iteration_eq (s : MainState) (i : Surroundings) :
    iteration s i = queryFlows s i >>= concludeIteration s i := by
  simp only [queryFlows, bind_assoc]
  rfl

theorem queryFlows_spares (s : MainState) (i : Surroundings) : Spares (queryFlows s i) :=
  avoids_bind (openflowControl_spares _) fun _ _ =>
    avoids_bind (openflowGetFlows_spares _ _ _ _ _) fun _ _ => openflowGetFlows_spares _ _ _ _ _

theorem concludeIteration_full_iff (s : MainState) (i : Surroundings) (r : GetFlows) :
    concludeIteration s i r = .error .hashmapFull ↔
      forLoop (sampleStep r.flows) r.flows.nbFlows.toNat s.map = .error .hashmapFull := by
  rw [concludeIteration, bind_error_iff_of_avoids, getMigrations, bind_error_iff_of_avoids]
  · exact fun map => avoids_bind (balancerBalance_spares _ _ _ _ _) fun _ _ => avoids_ok _
  · exact fun map => avoids_bind (openflowFreeFlows_spares _ _) fun _ _ => avoids_ok _

/-! ## The size of a report -/

structure OpenflowFlows.Within (flows : OpenflowFlows) : Prop where
  size : flows.flowStats.length = MAX_HANDLED_FLOWS
  count : flows.nbFlows.toNat ≤ MAX_HANDLED_FLOWS

theorem OpenflowFlows.Within.zeroed : OpenflowFlows.zeroed.Within :=
  ⟨List.length_replicate, by decide⟩

section Within
variable {data : List UInt8} {s s' : Parsing}

theorem flowStep_within {responseEnd : ℤ} (h : s.flows.Within)
    (hok : flowStep data responseEnd s = .ok (some s')) : s'.flows.Within := by
  obtain ⟨-, bytes, stats, t, -, -, hroom, hloop, rfl⟩ := flowStep_ok hok
  obtain ⟨hkeep, hcount⟩ : t.flows.flowStats = s.flows.flowStats.set s.flows.nbFlows.toNat stats ∧
      t.flows.nbFlows = s.flows.nbFlows := by
    refine (whileLoop_correct hloop).1.invariant (P := fun t => t.flows.flowStats =
      s.flows.flowStats.set s.flows.nbFlows.toNat stats ∧ t.flows.nbFlows = s.flows.nbFlows)
      ⟨rfl, rfl⟩ ?_
    intro t₁ t₂ ht hstep
    obtain ⟨-, _, _, _, _, -, -, -, -, hflows⟩ := actionStep_ok hstep
    rw [hflows]
    exact ht
  have hlt : s.flows.nbFlows.toNat < MAX_HANDLED_FLOWS := h.size ▸ hroom
  refine ⟨?_, ?_⟩
  · rw [hkeep, List.length_set, h.size]
  · rw [hcount, nbFlows_next hlt]
    exact hlt

theorem openflowGetFlows_within {connection : OpenflowConnection} {transactionId : UInt32}
    {stack : ℕ → OpenflowMessage} {flows : OpenflowFlows} {payloads : Heap ActionPayload}
    {r : GetFlows} (h : flows.Within)
    (hok : openflowGetFlows connection transactionId stack flows payloads = .ok r) :
    r.flows.Within := by
  obtain ⟨asked, -, rfl | ⟨s, parsed, -, hparse, rfl⟩⟩ := openflowGetFlows_ok hok
  · exact h
  · have hcleared : OpenflowFlows.Within { flows with nbFlows := 0 } := ⟨h.size, Nat.zero_le _⟩
    exact parseReplies_invariant (fun _ _ _ _ => flowStep_within) hcleared hparse

theorem queryFlows_within {s : MainState} {i : Surroundings} {r : GetFlows}
    (hok : queryFlows s i = .ok r) : r.flows.Within := by
  obtain ⟨connection, -, hok⟩ := bind_eq_ok.mp hok
  obtain ⟨r₁, hfirst, hok⟩ := bind_eq_ok.mp hok
  exact openflowGetFlows_within (openflowGetFlows_within .zeroed hfirst) hok

end Within

/-! ## The exit -/

theorem iteration_full_iff {s : MainState} (i : Surroundings) (h : s.map.Live) :
    iteration s i = .error .hashmapFull ↔
      ∃ r, queryFlows s i = .ok r ∧ HASHMAP_SIZE < (s.map.demand r.flows).card := by
  rw [iteration_eq, (queryFlows_spares s i).bind_error_iff]
  refine exists_congr fun r => and_congr_right fun hquery => ?_
  have hwithin := queryFlows_within hquery
  rw [concludeIteration_full_iff,
    sampleLoop_full_iff h.toSound.held (hwithin.size.symm ▸ hwithin.count)]

def everReported (rs : List Iteration) : Finset FiveTuple :=
  (rs.flatMap fun r => reported r.flows).toFinset

theorem everReported_append (rs : List Iteration) (r : Iteration) :
    everReported (rs ++ [r]) = everReported rs ∪ (reported r.flows).toFinset := by
  rw [everReported, List.flatMap_append, List.toFinset_append, List.flatMap_singleton, everReported]

section Exit
variable {connection : OpenflowConnection} {transactionId : UInt32}
variable {inputs : List Surroundings} {rs : List Iteration}

theorem mainLoop_final (h : mainLoop connection transactionId inputs = .ok rs) :
    (final Iteration.after (.start connection transactionId) rs).map.Live ∧
      (final Iteration.after (.start connection transactionId) rs).map.hashmap.keys.toFinset =
        everReported rs := by
  have hstart : (MainState.start connection transactionId).map.Live ∧
      (MainState.start connection transactionId).map.hashmap.keys.toFinset = everReported [] := by
    refine ⟨.start, ?_⟩
    rw [MainState.start_keys]
    rfl
  refine trace_final (P := fun rs s => s.map.Live ∧ s.map.hashmap.keys.toFinset = everReported rs)
    ?_ hstart h
  intro history s i r hs hok
  obtain ⟨hlive, hkeys⟩ := hs
  obtain ⟨rfl, sampled, flows, coreLoad, t, hr⟩ := iteration_spec hlive hok
  refine ⟨hr.afterLive, ?_⟩
  rw [everReported_append, ← hkeys]
  ext key
  rw [Finset.mem_union, List.mem_toFinset, List.mem_toFinset, List.mem_toFinset, hr.mem_keys]

theorem mainLoop_full_iff :
    mainLoop connection transactionId inputs = .error .hashmapFull ↔
      ∃ before i after rs r, inputs = before ++ i :: after ∧
        mainLoop connection transactionId before = .ok rs ∧
        queryFlows (final Iteration.after (.start connection transactionId) rs) i = .ok r ∧
        HASHMAP_SIZE < (everReported rs ∪ (reported r.flows).toFinset).card := by
  have hexit : ∀ {before : List Surroundings} {rs : List Iteration} (i : Surroundings),
      mainLoop connection transactionId before = .ok rs →
      (iteration (final Iteration.after (.start connection transactionId) rs) i =
          .error .hashmapFull ↔
        ∃ r, queryFlows (final Iteration.after (.start connection transactionId) rs) i = .ok r ∧
          HASHMAP_SIZE < (everReported rs ∪ (reported r.flows).toFinset).card) := by
    intro before rs i hrs
    obtain ⟨hlive, hkeys⟩ := mainLoop_final hrs
    simp only [iteration_full_iff i hlive, MapState.demand, hkeys]
  rw [mainLoop, trace_error_iff]
  constructor
  · intro hrun
    obtain ⟨before, i, after, rs, hsplit, hrs, hfail⟩ := hrun
    obtain ⟨r, hquery, hcard⟩ := (hexit i hrs).mp hfail
    exact ⟨before, i, after, rs, r, hsplit, hrs, hquery, hcard⟩
  · intro hrun
    obtain ⟨before, i, after, rs, r, hsplit, hrs, hquery, hcard⟩ := hrun
    exact ⟨before, i, after, rs, hsplit, hrs, (hexit i hrs).mpr ⟨r, hquery, hcard⟩⟩

/-- The full map ends a run, unless the reports of the run are never for more
flows in total than the map has slots. -/
theorem full_map_exit_iff :
    mainLoop connection transactionId inputs ≠ .error .hashmapFull ↔
      ∀ before i after rs r, inputs = before ++ i :: after →
        mainLoop connection transactionId before = .ok rs →
        queryFlows (final Iteration.after (.start connection transactionId) rs) i = .ok r →
        (everReported rs ∪ (reported r.flows).toFinset).card ≤ HASHMAP_SIZE := by
  rw [ne_eq, mainLoop_full_iff]
  constructor
  · intro hnone before i after rs r hsplit hrs hquery
    by_contra hcard
    exact hnone ⟨before, i, after, rs, r, hsplit, hrs, hquery, not_le.mp hcard⟩
  · intro hroom hrun
    obtain ⟨before, i, after, rs, r, hsplit, hrs, hquery, hcard⟩ := hrun
    exact absurd (hroom before i after rs r hsplit hrs hquery) (not_le.mpr hcard)

end Exit

/-! ## Two reports that fill the map -/

def MainState.Idle (s : MainState) : Prop :=
  s.connection.fd.stream = [] ∧ s.connection.nbMsgBuffered.toNat = 0

def onePart (entries : List FlowEntry) : Script := [([], ⟨1, OFPST_FLOW, 0, entries⟩)]

/-- Two equal answers, in pieces of the size of a header. -/
def answeringPiecewise (xid : UInt32) (entries : List FlowEntry) : Surroundings where
  arrived := (onePart entries).bytes xid ++ (onePart entries).bytes (xid + 1)
  reads := none :: List.replicate
    (((onePart entries).bytes xid).length + ((onePart entries).bytes (xid + 1)).length)
    (some OFP_HEADER_LEN)
  writes := []
  stack := fun _ => default
  stack' := fun _ => default
  previousKey := default

/-- Entries of one answer that are without actions and without packets. -/
structure Silent (entries : List FlowEntry) : Prop where
  fits : entries.length ≤ 700
  actions : ∀ e ∈ entries, e.actions = []
  packetCount : ∀ e ∈ entries, e.packetCount = 0

section Silent
variable {entries : List FlowEntry} {xid : UInt32}

theorem Silent.bytes_length (h : Silent entries) :
    (entries.flatMap FlowEntry.bytes).length = entries.length * FLOW_STATS_SIZE := by
  have hentry : ∀ e ∈ entries, e.bytes.length = FLOW_STATS_SIZE := by
    intro e he
    simp [FlowEntry.bytes, h.actions e he, e.fixedBytes_length]
  rw [List.length_flatMap, List.map_congr_left hentry, List.map_const', List.sum_replicate,
    smul_eq_mul]

theorem onePart_entries (entries : List FlowEntry) : (onePart entries).entries = entries := by
  rw [onePart, Script.entries, List.flatMap_singleton]

theorem onePart_others (entries : List FlowEntry) : (onePart entries).others = [] := by
  rw [onePart, Script.others, List.flatMap_singleton]

theorem Silent.answers (h : Silent entries) (xid : UInt32) : (onePart entries).Answers xid where
  wellCut := by
    change (0 : UInt16) &&& OFPSF_REPLY_MORE = 0
    decide
  parts := by
    change 1 ≤ MAX_STATS_REPLY
    decide
  fits := by
    rw [onePart, List.forall_mem_singleton]
    have hfits := h.fits
    have hsize : FLOW_STATS_SIZE = 88 := rfl
    simp only [WireMessage.Fits, WireMessage.size, StatsReply.message, List.length_append,
      be16_length, h.bytes_length, OFP_HEADER_LEN, hsize]
    omega
  unrelated := by simp [onePart]
  flows := by
    rw [onePart_entries]
    exact h.fits.trans (by decide)
  actions := by
    rw [onePart_entries]
    intro e he
    rw [h.actions e he]
    exact Nat.zero_le _

theorem openflowControl_idle {connection : OpenflowConnection} {reads : List (Option ℕ)}
    (hbuffered : connection.nbMsgBuffered.toNat = 0) (hreads : connection.fd.reads = none :: reads) :
    openflowControl connection = .ok { connection with
      fd := { connection.fd with reads := reads }
      nbMsgBuffered := 0 } := by
  obtain ⟨msg, hread⟩ := readOpenflowMessage_none hreads default
  have hstep : controlSocketStep ⟨connection.fd, default, false⟩ =
      .ok (some ⟨{ connection.fd with reads := reads }, msg, true⟩) := by
    simp [controlSocketStep, hread, bind, Except.bind, pure, Except.pure]
  have hstop : controlSocketStep ⟨{ connection.fd with reads := reads }, msg, true⟩ = .ok none := rfl
  simp only [openflowControl, hbuffered, forLoop, bind, Except.bind, pure, Except.pure]
  rw [whileLoop_step hstep, whileLoop_stop hstop]

theorem Stored.cleared {flows : OpenflowFlows} {payloads : Heap ActionPayload}
    (h : Silent entries) (hstored : Stored (entries.map FlowEntry.item) flows payloads) :
    Stored [] { flows with nbFlows := 0 } payloads := by
  obtain ⟨hsizes, hrows, hfresh⟩ := hstored
  refine ⟨hsizes.counted 0, by simp, ?_⟩
  intro i _ hi
  by_cases hlt : i < (entries.map FlowEntry.item).length
  · obtain ⟨e, he, hitem⟩ := List.mem_map.mp (List.getElem_mem hlt)
    have hrow := (hrows i _ (List.getElem?_eq_getElem hlt)).nbActions
    rw [← hitem, FlowEntry.item, h.actions e he] at hrow
    exact hrow
  · exact hfresh i (not_lt.mp hlt) hi

theorem Stored.reportedStats_eq {flows : OpenflowFlows} {payloads : Heap ActionPayload}
    (hstored : Stored (entries.map FlowEntry.item) flows payloads)
    (hnb : flows.nbFlows.toNat = entries.length) :
    reportedStats flows = entries.map FlowEntry.decoded := by
  apply List.ext_getElem?
  intro i
  rw [reportedStats, hnb, List.getElem?_map]
  by_cases hlt : i < entries.length
  · have hitem : (entries.map FlowEntry.item)[i]? = some entries[i].item := by
      rw [List.getElem?_map, List.getElem?_eq_getElem hlt]
      rfl
    rw [List.getElem?_take_of_lt hlt, (hstored.rows i _ hitem).flowStats,
      List.getElem?_eq_getElem hlt]
    rfl
  · rw [List.getElem?_eq_none (by rw [List.length_take]; omega),
      List.getElem?_eq_none (not_lt.mp hlt)]
    rfl

structure GetFlows.Quiet (s : MainState) (entries : List FlowEntry) (r : GetFlows) : Prop where
  transactionId : r.transactionId = s.transactionId + 1 + 1
  stream : r.connection.fd.stream = []
  buffered : r.connection.nbMsgBuffered.toNat = 0
  nbFlows : r.flows.nbFlows.toNat = entries.length
  stored : Stored (entries.map FlowEntry.item) r.flows r.payloads

theorem GetFlows.Quiet.reported_eq {s : MainState} {r : GetFlows} (hr : r.Quiet s entries) :
    reported r.flows = entries.map fun e => fiveTupleOf e.decoded := by
  rw [reported, hr.stored.reportedStats_eq hr.nbFlows, List.map_map]
  rfl

theorem queryFlows_quiet {s : MainState} (h : Silent entries) (hidle : s.Idle)
    (hxid : s.transactionId ≠ 0) (hxid' : s.transactionId + 1 ≠ 0) :
    ∃ r, queryFlows s (answeringPiecewise s.transactionId entries) = .ok r ∧
      r.Quiet s entries := by
  obtain ⟨hstream, hbuffered⟩ := hidle
  have hothers : (onePart entries).others.length = 0 := by rw [onePart_others, List.length_nil]
  obtain ⟨connection, hcontrol, hstream₀, hreads₀, hwrites₀, hbuffered₀⟩ :
      ∃ connection : OpenflowConnection,
        openflowControl (s.connection.meets (answeringPiecewise s.transactionId entries)) =
          .ok connection ∧
        connection.fd.stream = (onePart entries).bytes s.transactionId ++
          (onePart entries).bytes (s.transactionId + 1) ∧
        connection.fd.reads = List.replicate (((onePart entries).bytes s.transactionId).length +
          ((onePart entries).bytes (s.transactionId + 1)).length) (some OFP_HEADER_LEN) ∧
        connection.fd.writes = [] ∧ connection.nbMsgBuffered.toNat = 0 := by
    refine ⟨_, openflowControl_idle hbuffered rfl, ?_, rfl, rfl, rfl⟩
    simp only [OpenflowConnection.meets, answeringPiecewise, hstream, List.nil_append]
  have hdelivers : Delivers connection.fd.reads (((onePart entries).bytes s.transactionId).length +
      ((onePart entries).bytes (s.transactionId + 1)).length) := by
    rw [hreads₀]
    refine ⟨fun k hk => ?_, ?_⟩
    · have hcap := List.eq_of_mem_replicate hk
      rw [Option.some.injEq] at hcap
      exact hcap.ge
    · simp [List.countP_replicate]
  have hzeroed : Stored [] { OpenflowFlows.zeroed with nbFlows := 0 } s.payloads :=
    zeroed_stored s.payloads
  obtain ⟨r₁, hfirst, hr₁⟩ := openflowGetFlows_answered (fun _ => default) hxid
    (by simp [hwrites₀]) (h.answers s.transactionId) (by rw [hothers, hbuffered₀]; exact zero_le)
    hzeroed hstream₀ hdelivers
  have hstored₁ := hr₁.stored
  have hdelivers₁ := hr₁.delivers
  rw [onePart_entries] at hstored₁
  rw [← Nat.add_zero ((onePart entries).bytes (s.transactionId + 1)).length,
    ← hr₁.transactionId] at hdelivers₁
  have hbuffered₁ : r₁.connection.nbMsgBuffered.toNat = 0 := by
    rw [hr₁.buffered, hbuffered₀, hothers]
  have hstream₁ : r₁.connection.fd.stream = (onePart entries).bytes r₁.transactionId ++ [] := by
    rw [hr₁.stream, hr₁.transactionId, List.append_nil]
  obtain ⟨r₂, hsecond, hr₂⟩ := openflowGetFlows_answered (fun _ => default)
    (hr₁.transactionId ▸ hxid') (by simp [hr₁.writes, hwrites₀]) (h.answers r₁.transactionId)
    (by rw [hothers, hbuffered₁]; exact zero_le) (hstored₁.cleared h)
    hstream₁ hdelivers₁
  refine ⟨r₂, ?_, ?_, hr₂.stream, ?_, ?_, ?_⟩
  · exact bind_eq_ok.mpr ⟨connection, hcontrol, bind_eq_ok.mpr ⟨r₁, hfirst, hsecond⟩⟩
  · rw [hr₂.transactionId, hr₁.transactionId]
  · rw [hr₂.buffered, hbuffered₁, hothers]
  · rw [hr₂.nbFlows, onePart_entries]
  · rw [← onePart_entries entries]
    exact hr₂.stored

/-! ### Flows without load do not migrate -/

def Unloaded (ring : FiniteMap FiveTuple RingBuffer) : Prop :=
  ∀ (key : FiveTuple) (rb : RingBuffer), ring key = some rb → ringbufferGetLast rb = 0

theorem ringbufferGetLast_add_zero {rb : RingBuffer} (h : ringbufferGetLast rb = 0) :
    ringbufferGetLast (ringbufferAdd rb 0) = 0 := by
  rw [ringbufferGetLast] at h
  by_cases hsize : rb.size = 0
  · simp [ringbufferGetLast, ringbufferAdd, hsize]
  · rw [if_neg hsize] at h
    simp [ringbufferGetLast, ringbufferAdd, hsize, h]

theorem Unloaded.foldl {ring : FiniteMap FiveTuple RingBuffer} {report : List OpenflowFlowStats}
    (h : Unloaded ring)
    (hreport : ∀ stats ∈ report, openflowOvsbe64ToUint64 stats.packetCount = 0) :
    Unloaded (report.foldl sample ring) := by
  induction report generalizing ring with
  | nil => exact h
  | cons stats report ih =>
    rw [List.forall_mem_cons] at hreport
    refine ih (fun key rb hrb => ?_) hreport.2
    by_cases hkey : key = fiveTupleOf stats
    · rw [hkey, sample_self, hreport.1, Option.some.injEq] at hrb
      rw [← hrb]
      apply ringbufferGetLast_add_zero
      cases hold : ring (fiveTupleOf stats) with
      | none => rfl
      | some old => exact h _ old hold
    · rw [sample_of_ne hkey] at hrb
      exact h key rb hrb

theorem Unloaded.balanced {hashmap : HashMap} {heap heap' : Heap RingBuffer}
    (h : Unloaded (MapState.ring ⟨hashmap, heap⟩)) (hsamples : SameSamples heap heap') :
    Unloaded (MapState.ring ⟨hashmap, heap'⟩) := by
  intro key rb hrb
  obtain ⟨r, hr, rfl⟩ := Option.map_eq_some_iff.mp hrb
  rw [hsamples.getLast]
  exact h key (heap.cell r) (Option.map_eq_some_iff.mpr ⟨r, hr, rfl⟩)

theorem getMigrations_unloaded {flows : OpenflowFlows} {map map' : MapState}
    {previousKey : FiveTuple} {migrations : List Migration} (h : map.Live)
    (hunloaded : Unloaded ((reportedStats flows).foldl sample map.ring))
    (hok : getMigrations flows map previousKey [] = .ok (map', migrations)) : migrations = [] := by
  obtain ⟨sampled, visited, coreLoad, t, -, hlive, hring, hvisited, -, -, -, -, hs, rfl, -⟩ :=
    getMigrations_correct h hok
  rw [List.eq_nil_iff_forall_not_mem]
  intro m hm
  obtain ⟨-, e, he, -, hload⟩ := hs.moved m hm
  have hcell := MapState.ring_of_mem hlive.inv (hvisited.subset he)
  rw [hring] at hcell
  rw [flowLoad, hunloaded _ _ hcell] at hload
  exact absurd hload (by decide)

theorem openflowFreeFlows_total {flows : OpenflowFlows} {payloads : Heap ActionPayload}
    (hnb : flows.nbFlows.toNat ≤ MAX_HANDLED_FLOWS)
    (h : Stored [] { flows with nbFlows := 0 } payloads) :
    ∃ r, openflowFreeFlows flows payloads = .ok r := by
  have hcells : ∀ (i : ℕ) (k : UInt8), flows.nbActions[i]? = some k → k.toNat ≤ MAX_ACTIONS := by
    intro i k hk
    have hi : i < MAX_HANDLED_FLOWS :=
      (List.getElem?_eq_some_iff.mp hk).1.trans_eq h.sizes.nbActions
    have hzero : flows.nbActions[i]? = some 0 := h.fresh i (Nat.zero_le i) hi
    rw [hk, Option.some.injEq] at hzero
    rw [hzero]
    exact Nat.zero_le _
  have hsizes : TableSizes flows :=
    ⟨h.sizes.flowStats, h.sizes.nbActions, h.sizes.actions, h.sizes.row⟩
  exact ⟨_, openflowFreeFlows_eq ⟨hsizes, hnb, hcells⟩ payloads⟩

theorem concludeIteration_quiet {s : MainState} {r : GetFlows} (i : Surroundings)
    (h : Silent entries) (hlive : s.map.Live)
    (hunloaded : Unloaded ((reportedStats r.flows).foldl sample s.map.ring))
    (hr : r.Quiet s entries) (hroom : (s.map.demand r.flows).card < HASHMAP_SIZE) :
    ∃ r', concludeIteration s i r = .ok r' ∧ r'.flows = r.flows ∧
      r'.after.connection = r.connection ∧ r'.after.transactionId = r.transactionId := by
  have hnb : r.flows.nbFlows.toNat ≤ MAX_HANDLED_FLOWS := by
    rw [hr.nbFlows]
    exact h.fits.trans (by decide)
  obtain ⟨map', migrations, hget⟩ := getMigrations_total i.previousKey hlive
    (hr.stored.sizes.flowStats.symm ▸ hnb) hroom
  have hnone := getMigrations_unloaded hlive hunloaded hget
  obtain ⟨⟨flows', payloads⟩, hfree⟩ := openflowFreeFlows_total hnb (hr.stored.cleared h)
  subst hnone
  refine ⟨_, bind_eq_ok.mpr ⟨(map', []), hget, bind_eq_ok.mpr ⟨(flows', payloads), hfree, rfl⟩⟩,
    rfl, rfl, rfl⟩

/-- Nothing is unread, and no flow has a load. -/
structure MainState.Quiet (s : MainState) : Prop where
  live : s.map.Live
  idle : s.Idle
  unloaded : Unloaded s.map.ring

theorem MainState.Quiet.start : (MainState.start idleConnection 5).Quiet where
  live := .start
  idle := ⟨rfl, rfl⟩
  unloaded := by
    intro key rb hrb
    rw [MainState.start, MapState.ring_start] at hrb
    cases hrb

theorem iteration_quiet {s : MainState} (h : Silent entries) (hs : s.Quiet)
    (hxid : s.transactionId ≠ 0) (hxid' : s.transactionId + 1 ≠ 0)
    (hroom : s.map.hashmap.keys.toFinset.card + entries.length < HASHMAP_SIZE) :
    ∃ r, iteration s (answeringPiecewise s.transactionId entries) = .ok r ∧
      reported r.flows = entries.map (fun e => fiveTupleOf e.decoded) ∧ r.after.Quiet ∧
      r.after.transactionId = s.transactionId + 1 + 1 := by
  obtain ⟨r, hquery, hr⟩ := queryFlows_quiet h hs.idle hxid hxid'
  have hunloaded : Unloaded ((reportedStats r.flows).foldl sample s.map.ring) := by
    refine hs.unloaded.foldl ?_
    rw [hr.stored.reportedStats_eq hr.nbFlows, List.forall_mem_map]
    intro e he
    rw [FlowEntry.decoded, openflowOvsbe64ToUint64_halves, h.packetCount e he]
  have hdemand : (s.map.demand r.flows).card < HASHMAP_SIZE := by
    have hreport := List.toFinset_card_le (reported r.flows)
    rw [hr.reported_eq, List.length_map, ← hr.reported_eq] at hreport
    exact ((Finset.card_union_le _ _).trans (Nat.add_le_add_left hreport _)).trans_lt hroom
  obtain ⟨r', hconclude, hflows, hconnection, hnext⟩ := concludeIteration_quiet
    (answeringPiecewise s.transactionId entries) h hs.live hunloaded hr hdemand
  have hok : iteration s (answeringPiecewise s.transactionId entries) = .ok r' := by
    rw [iteration_eq]
    exact bind_eq_ok.mpr ⟨r, hquery, hconclude⟩
  obtain ⟨rfl, sampled, flows, coreLoad, t, hiter⟩ := iteration_spec hs.live hok
  have hsampled : Unloaded sampled.ring := by
    rw [hiter.ring, hflows]
    exact hunloaded
  refine ⟨r', hok, by rw [hflows, hr.reported_eq], ⟨hiter.afterLive, ?_, ?_⟩, ?_⟩
  · rw [MainState.Idle, hconnection]
    exact ⟨hr.stream, hr.buffered⟩
  · rw [hiter.after]
    exact hsampled.balanced hiter.balancing.samples
  · rw [hnext, hr.transactionId]

end Silent

/-! ### The run -/

def newFlows (first n : ℕ) : List FlowEntry :=
  (List.range n).map fun j => { taggedEntry 80 0 with
    «match» := { (default : OpenflowMatch) with nwSrc := UInt32.ofNat (first + j) }
    actions := [] }

theorem newFlows_silent (first : ℕ) {n : ℕ} (hn : n ≤ 700) : Silent (newFlows first n) := by
  refine ⟨by simpa [newFlows] using hn, ?_, ?_⟩
  · exact List.forall_mem_map.mpr fun j _ => rfl
  · exact List.forall_mem_map.mpr fun j _ => rfl

theorem newFlows_keys (first n : ℕ) :
    (newFlows first n).map (fun e => fiveTupleOf e.decoded) =
      (List.range n).map fun j => ⟨UInt32.ofNat (first + j), 0, 0, 0, 0⟩ := by
  rw [newFlows, List.map_map]
  rfl

theorem newFlows_append (m n : ℕ) : newFlows 0 m ++ newFlows m n = newFlows 0 (m + n) := by
  simp only [newFlows, List.range_add, List.map_append, List.map_map, Function.comp_def, zero_add]

theorem newFlows_nodup {n : ℕ} (hn : n ≤ 2 ^ 32) :
    ((newFlows 0 n).map fun e => fiveTupleOf e.decoded).Nodup := by
  rw [newFlows_keys]
  refine List.Nodup.map_on ?_ List.nodup_range
  intro j hj k hk heq
  rw [List.mem_range] at hj hk
  have hsrc := congrArg UInt32.toNat (congrArg FiveTuple.srcIp heq)
  simp only [zero_add, UInt32.toNat_ofNat'] at hsrc
  omega

/-- The second iteration is one without flows, so that even a reset of `is_active`
would leave it the time to evict those of the first. -/
def fillingReports : List Surroundings :=
  [answeringPiecewise 5 (newFlows 0 700), answeringPiecewise 7 [],
    answeringPiecewise 9 (newFlows 700 700)]

theorem fillingReports_queries :
    ∃ rs r, mainLoop idleConnection 5
        [answeringPiecewise 5 (newFlows 0 700), answeringPiecewise 7 []] = .ok rs ∧
      queryFlows (final Iteration.after (.start idleConnection 5) rs)
        (answeringPiecewise 9 (newFlows 700 700)) = .ok r ∧
      everReported rs = ((newFlows 0 700).map fun e => fiveTupleOf e.decoded).toFinset ∧
      reported r.flows = (newFlows 700 700).map fun e => fiveTupleOf e.decoded := by
  have hlength : (newFlows 0 700).length = 700 := by
    rw [newFlows, List.length_map, List.length_range]
  obtain ⟨r₁, hfirst, hreport₁, hquiet₁, hxid₁⟩ := iteration_quiet
    (newFlows_silent 0 (le_refl 700)) .start (by decide) (by decide) (by
      rw [MainState.start_keys, hlength]
      decide)
  have hrun₁ : mainLoop idleConnection 5 [answeringPiecewise 5 (newFlows 0 700)] = .ok [r₁] :=
    trace_cons_ok.mpr ⟨r₁, [], hfirst, rfl, rfl⟩
  have hever₁ : everReported [r₁] =
      ((newFlows 0 700).map fun e => fiveTupleOf e.decoded).toFinset := by
    rw [everReported, List.flatMap_singleton, hreport₁]
  have hkeys₁ : r₁.after.map.hashmap.keys.toFinset.card ≤ 700 := by
    have hkeys : r₁.after.map.hashmap.keys.toFinset = everReported [r₁] := (mainLoop_final hrun₁).2
    rw [hkeys, hever₁]
    refine (List.toFinset_card_le _).trans_eq ?_
    rw [List.length_map, hlength]
  have hafter₁ : r₁.after.transactionId = 7 := hxid₁
  have hnone : Silent [] := newFlows_silent 0 (Nat.zero_le 700)
  obtain ⟨r₂, hsecond, hreport₂, hquiet₂, hxid₂⟩ := iteration_quiet hnone hquiet₁
    (by rw [hafter₁]; decide) (by rw [hafter₁]; decide) (hkeys₁.trans_lt (by decide))
  rw [hafter₁] at hsecond hxid₂
  have hafter₂ : r₂.after.transactionId = 9 := hxid₂
  obtain ⟨r₃, hthird, hr₃⟩ := queryFlows_quiet (newFlows_silent 700 (le_refl 700)) hquiet₂.idle
    (by rw [hafter₂]; decide) (by rw [hafter₂]; decide)
  rw [hafter₂] at hthird
  refine ⟨[r₁, r₂], r₃, ?_, hthird, ?_, hr₃.reported_eq⟩
  · exact trace_cons_ok.mpr ⟨r₁, [r₂], hfirst, trace_cons_ok.mpr ⟨r₂, [], hsecond, rfl, rfl⟩, rfl⟩
  · rw [← List.singleton_append, everReported_append, hever₁, hreport₂]
    exact Finset.union_empty _

/-- Reports that fit the map one by one still end the program. -/
theorem full_map_exit_reached :
    (∀ before i after rs r, fillingReports = before ++ i :: after →
      mainLoop idleConnection 5 before = .ok rs →
      queryFlows (final Iteration.after (.start idleConnection 5) rs) i = .ok r →
      (reported r.flows).toFinset.card ≤ HASHMAP_SIZE) ∧
    mainLoop idleConnection 5 fillingReports = .error .hashmapFull := by
  constructor
  · intro before i after rs r _ _ hok
    refine (List.toFinset_card_le _).trans ?_
    rw [reported, List.length_map, reportedStats, List.length_take]
    exact (min_le_left _ _).trans (queryFlows_within hok).count
  · obtain ⟨rs, r, hrs, hquery, hever, hreported⟩ := fillingReports_queries
    rw [mainLoop_full_iff]
    refine ⟨_, _, [], rs, r, rfl, hrs, hquery, ?_⟩
    rw [hever, hreported, ← List.toFinset_append, ← List.map_append, newFlows_append,
      List.toFinset_card_of_nodup (newFlows_nodup (by decide)), List.length_map, newFlows,
      List.length_map, List.length_range]
    decide

end OrssNic
