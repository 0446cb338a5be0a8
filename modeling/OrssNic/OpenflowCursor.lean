import OrssNic.OpenflowHandshake
import OrssNic.OpenflowFraming

/-!
# The cursor of the parsers

Where the parsers read is decided by the length fields of the message and of
its entries and by the types of the actions, whatever they store. The cursor
loops are the loops of `openflow_get_flows` over `response_head` with a record
of the reads; a read behind the end of the body finds what the heap holds there.
-/

namespace OrssNic
open CLoops

/-- A message as its parser finds it: `memory` is what stands from `data` on. -/
structure ReceivedBody where
  length : UInt16
  body : Option (List UInt8)
  allocated : body.map List.length =
    if OFP_HEADER_LEN < length.toNat then some (length.toNat - OFP_HEADER_LEN) else none
  memory : ℕ → UInt8
  holds : ∀ bytes, body = some bytes → ∀ (i : ℕ) (b), bytes[i]? = some b → memory i = b

structure Cursor where
  responseHead : ℕ
  /-- The offsets read from, with the numbers of bytes. -/
  reads : List (ℕ × ℕ)

namespace ReceivedBody

def load (m : ReceivedBody) (offset count : ℕ) : List UInt8 :=
  (List.range count).map fun i => m.memory (offset + i)

def responseEnd (m : ReceivedBody) : ℤ := m.length.toNat - OFP_HEADER_LEN

def actionType (m : ReceivedBody) (head : ℕ) : UInt16 := ntohs (loadU16 (m.load head 2) 0)

def entryLength (m : ReceivedBody) (head : ℕ) : ℕ :=
  (ntohOpenflowFlowStats (loadFlowStats (m.load head FLOW_STATS_SIZE))).length.toNat

def isParsed (type : UInt16) : Bool := type == OFPAT_OUTPUT || type == OFPAT_SET_VLAN_VID

def actionStep (m : ReceivedBody) (actionsEnd : ℕ) (c : Cursor) : Except Halt (Option Cursor) := do
  if c.responseHead < actionsEnd then
    let reads := c.reads ++ [(c.responseHead, 2)]
    if isParsed (m.actionType c.responseHead) then
      return some ⟨c.responseHead + ACTION_SIZE, reads ++ [(c.responseHead, ACTION_SIZE)]⟩
    return some ⟨actionsEnd, reads⟩
  return none

/-- The loop over the actions moves on in every pass, so that its budget suffices. -/
def flowStep (m : ReceivedBody) (c : Cursor) : Except Halt (Option Cursor) := do
  if (c.responseHead : ℤ) < m.responseEnd then
    let reads := c.reads ++ [(c.responseHead, FLOW_STATS_SIZE)]
    let actionsEnd := c.responseHead + m.entryLength c.responseHead
    let c ← whileLoop .diverges (m.actionStep actionsEnd) (actionsEnd + 1)
      ⟨c.responseHead + FLOW_STATS_SIZE, reads⟩
    return some ⟨actionsEnd, c.reads⟩
  return none

/-- Behind the header of the reply, whose flags have been read. -/
def start : Cursor := ⟨4, [(2, 2)]⟩

def parse (n : ℕ) : List ReceivedBody → Except Halt Unit
  | [] => .ok ()
  | m :: messages => do
    let _ ← whileLoop .diverges m.flowStep n start
    parse n messages

/-! ## What a pass does -/

def actionOffsets (m : ReceivedBody) (actionsEnd : ℕ) : ℕ → ℕ → List ℕ
  | 0, _ => []
  | n + 1, head =>
    if head < actionsEnd then
      head :: if isParsed (m.actionType head) then actionOffsets m actionsEnd n (head + ACTION_SIZE)
        else []
    else []

def actionReads (m : ReceivedBody) (head : ℕ) : List (ℕ × ℕ) :=
  (head, 2) :: if isParsed (m.actionType head) then [(head, ACTION_SIZE)] else []

def actionsOf (m : ReceivedBody) (head : ℕ) : List ℕ :=
  m.actionOffsets (head + m.entryLength head) (head + m.entryLength head + 1)
    (head + FLOW_STATS_SIZE)

def entryReads (m : ReceivedBody) (head : ℕ) : List (ℕ × ℕ) :=
  (head, FLOW_STATS_SIZE) :: (m.actionsOf head).flatMap m.actionReads

variable {m : ReceivedBody}

theorem actionLoop_reads {actionsEnd : ℕ} (n head : ℕ) (reads : List (ℕ × ℕ))
    (hn : actionsEnd ≤ n + head) :
    ∃ head', whileLoop Halt.diverges (m.actionStep actionsEnd) (n + 1) ⟨head, reads⟩ =
      .ok ⟨head', reads ++ (m.actionOffsets actionsEnd (n + 1) head).flatMap m.actionReads⟩ := by
  induction n generalizing head reads with
  | zero =>
    have hstop : ¬head < actionsEnd := by omega
    refine ⟨head, ?_⟩
    rw [whileLoop_stop (by simp only [actionStep, if_neg hstop]; rfl), actionOffsets, if_neg hstop,
      List.flatMap_nil, List.append_nil]
  | succ n ih =>
    rw [actionOffsets]
    by_cases hlt : head < actionsEnd
    · rw [if_pos hlt, List.flatMap_cons, actionReads]
      by_cases hparsed : isParsed (m.actionType head) = true
      · have hstep : m.actionStep actionsEnd ⟨head, reads⟩ =
            .ok (some ⟨head + ACTION_SIZE, reads ++ [(head, 2)] ++ [(head, ACTION_SIZE)]⟩) := by
          simp only [actionStep, if_pos hlt, if_pos hparsed, pure, Except.pure]
        obtain ⟨head', hloop⟩ := ih (head + ACTION_SIZE)
          (reads ++ [(head, 2)] ++ [(head, ACTION_SIZE)]) (by rw [ACTION_SIZE]; omega)
        refine ⟨head', ?_⟩
        rw [whileLoop_step hstep, hloop, if_pos hparsed, if_pos hparsed]
        simp only [List.append_assoc, List.cons_append, List.nil_append]
      · have hstep : m.actionStep actionsEnd ⟨head, reads⟩ =
            .ok (some ⟨actionsEnd, reads ++ [(head, 2)]⟩) := by
          simp only [actionStep, if_pos hlt, if_neg hparsed, pure, Except.pure]
        have hstop : m.actionStep actionsEnd ⟨actionsEnd, reads ++ [(head, 2)]⟩ = .ok none := by
          simp only [actionStep, if_neg (Nat.lt_irrefl _)]
          rfl
        refine ⟨actionsEnd, ?_⟩
        rw [whileLoop_step hstep, whileLoop_stop hstop, if_neg hparsed, if_neg hparsed,
          List.flatMap_nil, List.append_nil]
    · refine ⟨head, ?_⟩
      rw [whileLoop_stop (by simp only [actionStep, if_neg hlt]; rfl), if_neg hlt,
        List.flatMap_nil, List.append_nil]

theorem flowStep_below {c : Cursor} (hlt : (c.responseHead : ℤ) < m.responseEnd) :
    m.flowStep c = .ok (some ⟨c.responseHead + m.entryLength c.responseHead,
      c.reads ++ m.entryReads c.responseHead⟩) := by
  obtain ⟨head', hloop⟩ := m.actionLoop_reads (c.responseHead + m.entryLength c.responseHead)
    (c.responseHead + FLOW_STATS_SIZE) (c.reads ++ [(c.responseHead, FLOW_STATS_SIZE)])
    (Nat.le_add_right _ _)
  simp only [flowStep, if_pos hlt, hloop, bind, Except.bind, pure, Except.pure, entryReads,
    actionsOf, List.append_assoc, List.singleton_append]

theorem flowStep_behind {c : Cursor} (hstop : ¬(c.responseHead : ℤ) < m.responseEnd) :
    m.flowStep c = .ok none := by
  rw [flowStep, if_neg hstop]
  rfl

inductive AtEntry (m : ReceivedBody) : ℕ → Prop
  | first : AtEntry m 4
  | next {head : ℕ} (h : AtEntry m head) (hlt : (head : ℤ) < m.responseEnd) :
    AtEntry m (head + m.entryLength head)

theorem flowStep_cases {c c' : Cursor} (h : m.flowStep c = .ok (some c')) :
    (c.responseHead : ℤ) < m.responseEnd ∧
      c' = ⟨c.responseHead + m.entryLength c.responseHead,
        c.reads ++ m.entryReads c.responseHead⟩ := by
  by_cases hlt : (c.responseHead : ℤ) < m.responseEnd
  · rw [flowStep_below hlt] at h
    cases h
    exact ⟨hlt, rfl⟩
  · rw [flowStep_behind hlt] at h
    cases h

theorem atEntry_of_reaches {c : Cursor} (h : Reaches m.flowStep start c) :
    m.AtEntry c.responseHead := by
  refine h.invariant (P := fun c => m.AtEntry c.responseHead) .first fun t t' ht hstep => ?_
  obtain ⟨hlt, rfl⟩ := flowStep_cases hstep
  exact ht.next hlt

theorem AtEntry.reached {head : ℕ} (h : m.AtEntry head) :
    ∃ c : Cursor, c.responseHead = head ∧ Reaches m.flowStep start c := by
  induction h with
  | first => exact ⟨start, rfl, .refl⟩
  | next _ hlt ih =>
    obtain ⟨c, rfl, hreach⟩ := ih
    exact ⟨_, rfl, hreach.tail (flowStep_below hlt)⟩

/-! ## Termination -/

/-- Every pass of the loop over the entries moves the cursor towards the end. -/
def Advances (m : ReceivedBody) : Prop :=
  ∀ c c', Reaches m.flowStep start c → m.flowStep c = .ok (some c') →
    c.responseHead < c'.responseHead

def NoEmptyEntry (m : ReceivedBody) : Prop :=
  ∀ head, m.AtEntry head → (head : ℤ) < m.responseEnd → m.entryLength head ≠ 0

theorem advances_iff : m.Advances ↔ m.NoEmptyEntry := by
  constructor
  · intro hadvances head hentry hlt
    obtain ⟨c, rfl, hreach⟩ := hentry.reached
    have h := hadvances c _ hreach (flowStep_below hlt)
    dsimp only at h
    omega
  · intro hnonzero c c' hreach hstep
    obtain ⟨hlt, rfl⟩ := flowStep_cases hstep
    have h := hnonzero _ (atEntry_of_reaches hreach) hlt
    dsimp only
    omega

theorem responseEnd_lt (m : ReceivedBody) : m.responseEnd < 2 ^ 16 := by
  have h := m.length.toNat_lt
  rw [responseEnd, OFP_HEADER_LEN]
  omega

/-- The distance to the end of the body is the measure. -/
theorem flowLoop_returns (h : m.NoEmptyEntry) :
    ∃ c, whileLoop Halt.diverges m.flowStep (2 ^ 16) start = .ok c := by
  have hend := m.responseEnd_lt
  have hpass : ∀ c : Cursor, m.AtEntry c.responseHead → m.flowStep c = .ok none ∨
      ∃ c', m.flowStep c = .ok (some c') ∧ m.AtEntry c'.responseHead ∧
        m.responseEnd.toNat - c'.responseHead < m.responseEnd.toNat - c.responseHead := by
    intro c hc
    by_cases hlt : (c.responseHead : ℤ) < m.responseEnd
    · have hnonzero := h _ hc hlt
      refine .inr ⟨_, flowStep_below hlt, hc.next hlt, ?_⟩
      dsimp only
      omega
    · exact .inl (flowStep_behind hlt)
  have hbudget : m.responseEnd.toNat - start.responseHead < 2 ^ 16 := by omega
  obtain ⟨c, hloop, -⟩ := whileLoop_total Halt.diverges
    (fun c : Cursor => m.responseEnd.toNat - c.responseHead)
    (show m.AtEntry start.responseHead from .first) hbudget hpass
  exact ⟨c, hloop⟩

theorem flowLoop_stuck {head n : ℕ} (hentry : m.AtEntry head) (hlt : (head : ℤ) < m.responseEnd)
    (hzero : m.entryLength head = 0) (c : Cursor) :
    whileLoop Halt.diverges m.flowStep n start ≠ .ok c := by
  intro hloop
  obtain ⟨c₀, hc₀, hreach⟩ := hentry.reached
  obtain ⟨hlast, hnone⟩ := whileLoop_correct hloop
  have hstays : c.responseHead = head := by
    refine (hreach.to_last hlast hnone).invariant (P := fun c => c.responseHead = head) hc₀ ?_
    intro t t' ht hstep
    obtain ⟨-, rfl⟩ := flowStep_cases hstep
    dsimp only
    rw [ht, hzero, Nat.add_zero]
  rw [flowStep_below (hstays ▸ hlt)] at hnone
  cases hnone

theorem parse_ok_iff {n : ℕ} {messages : List ReceivedBody} :
    parse n messages = .ok () ↔
      ∀ m ∈ messages, ∃ c, whileLoop Halt.diverges m.flowStep n start = .ok c := by
  induction messages with
  | nil => simp [parse]
  | cons m messages ih => simp only [parse, bind_eq_ok, exists_and_right, List.forall_mem_cons, ih]

/-- The loops over `response_head` terminate, and every pass advances it, just
when no entry that is reached has the length zero. -/
theorem flowParsing_terminates_iff (messages : List ReceivedBody) :
    ((∃ n, parse n messages = .ok ()) ↔ ∀ m ∈ messages, m.NoEmptyEntry) ∧
      ((∀ m ∈ messages, m.Advances) ↔ ∀ m ∈ messages, m.NoEmptyEntry) := by
  refine ⟨⟨?_, fun h => ⟨2 ^ 16, parse_ok_iff.mpr fun m hm => flowLoop_returns (h m hm)⟩⟩,
    forall₂_congr fun m _ => advances_iff⟩
  rintro ⟨n, hparse⟩ m hm head hentry hlt hzero
  obtain ⟨c, hloop⟩ := parse_ok_iff.mp hparse m hm
  exact flowLoop_stuck hentry hlt hzero c hloop

def zeroEntry : ReceivedBody where
  length := 100
  body := some (List.replicate 92 0)
  allocated := by decide
  memory := fun _ => 0
  holds := by
    intro bytes hbytes i b hb
    cases hbytes
    exact (List.eq_of_mem_replicate (List.mem_of_getElem? hb)).symm

theorem flowParsing_zeroEntry :
    (¬∃ n, parse n [zeroEntry] = .ok ()) ∧ ¬zeroEntry.Advances := by
  have hlt : ((4 : ℕ) : ℤ) < zeroEntry.responseEnd := by decide
  have hzero : zeroEntry.entryLength 4 = 0 := by decide +kernel
  constructor
  · rintro ⟨n, hparse⟩
    obtain ⟨c, hloop⟩ := parse_ok_iff.mp hparse _ List.mem_cons_self
    exact flowLoop_stuck .first hlt hzero c hloop
  · intro hadvances
    exact advances_iff.mp hadvances 4 .first hlt hzero

/-! ## Bounds -/

/-- `parse_features_reply` reads the fields it stores, without the padding. -/
def featureFields : List (ℕ × ℕ) := [(0, 8), (8, 4), (12, 1), (16, 4), (20, 4)]

def nbPorts (length : UInt16) : UInt8 :=
  let rest : UInt64 := length.toUInt64 - UInt64.ofNat OFP_HEADER_LEN - UInt64.ofNat FEATURES_SIZE
  if 0 < rest then (rest / UInt64.ofNat PORT_DATA_SIZE).toUInt8 else 0

/-- Of a port all bytes are read. -/
def featuresReads (length : UInt16) : List (ℕ × ℕ) :=
  featureFields ++ (List.range (nbPorts length).toNat).map fun i =>
    (FEATURES_SIZE + i * PORT_DATA_SIZE, PORT_DATA_SIZE)

def Within (m : ReceivedBody) (reads : List (ℕ × ℕ)) : Prop :=
  ∀ r ∈ reads, ∃ bytes, m.body = some bytes ∧ r.1 + r.2 ≤ bytes.length

theorem within_append {reads reads' : List (ℕ × ℕ)} :
    m.Within (reads ++ reads') ↔ m.Within reads ∧ m.Within reads' :=
  List.forall_mem_append

theorem within_cons {offset count : ℕ} {reads : List (ℕ × ℕ)} (hcount : 0 < count) :
    m.Within ((offset, count) :: reads) ↔
      ((offset + count : ℕ) : ℤ) ≤ m.responseEnd ∧ m.Within reads := by
  rw [Within, List.forall_mem_cons]
  refine and_congr_left fun _ => ?_
  have hallocated := m.allocated
  rw [responseEnd]
  cases hbody : m.body with
  | none =>
    rw [hbody] at hallocated
    split_ifs at hallocated with hlong
    · cases hallocated
    · simp only [reduceCtorEq, false_and, exists_false, false_iff]
      omega
  | some bytes =>
    rw [hbody] at hallocated
    split_ifs at hallocated with hlong
    · simp only [Option.map_some, Option.some.injEq] at hallocated
      simp only [Option.some.injEq, exists_eq_left', hallocated]
      omega
    · cases hallocated

theorem within_nil : m.Within [] := List.forall_mem_nil _

/-- The action lies in the body, or the type of one that is skipped. -/
def WholeAction (m : ReceivedBody) (offset : ℕ) : Prop :=
  ((offset + if isParsed (m.actionType offset) then ACTION_SIZE else 2 : ℕ) : ℤ) ≤ m.responseEnd

structure WholeEntry (m : ReceivedBody) (head : ℕ) : Prop where
  fixed : ((head + FLOW_STATS_SIZE : ℕ) : ℤ) ≤ m.responseEnd
  actions : ∀ offset ∈ m.actionsOf head, m.WholeAction offset

/-- The message has room for the header of the reply, and for every entry that
begins in it. -/
structure Whole (m : ReceivedBody) : Prop where
  header : OFP_HEADER_LEN + 4 ≤ m.length.toNat
  entries : ∀ head, m.AtEntry head → (head : ℤ) < m.responseEnd → m.WholeEntry head

theorem within_actionReads {offset : ℕ} :
    m.Within (m.actionReads offset) ↔ m.WholeAction offset := by
  rw [actionReads, within_cons (by decide), WholeAction]
  split_ifs
  · rw [within_cons (by decide), ACTION_SIZE]
    refine ⟨fun h => h.2.1, fun h => ⟨?_, h, within_nil⟩⟩
    omega
  · exact and_iff_left within_nil

theorem within_entryReads {head : ℕ} : m.Within (m.entryReads head) ↔ m.WholeEntry head := by
  rw [entryReads, within_cons (by decide)]
  have hactions : m.Within ((m.actionsOf head).flatMap m.actionReads) ↔
      ∀ offset ∈ m.actionsOf head, m.WholeAction offset := by
    rw [Within, List.forall_mem_flatMap]
    exact forall₂_congr fun offset _ => within_actionReads
  rw [hactions]
  exact ⟨fun h => ⟨h.1, h.2⟩, fun h => ⟨h.fixed, h.actions⟩⟩

theorem within_start : m.Within start.reads ↔ OFP_HEADER_LEN + 4 ≤ m.length.toNat := by
  rw [start, within_cons (by decide), responseEnd]
  refine ⟨fun h => ?_, fun h => ⟨?_, within_nil⟩⟩
  · have h' := h.1
    omega
  · omega

theorem reads_within_iff : (∀ c, Reaches m.flowStep start c → m.Within c.reads) ↔ m.Whole := by
  constructor
  · intro hwithin
    refine ⟨within_start.mp (hwithin start .refl), fun head hentry hlt => ?_⟩
    obtain ⟨c, rfl, hreach⟩ := hentry.reached
    have h := hwithin _ (hreach.tail (flowStep_below hlt))
    exact within_entryReads.mp (within_append.mp h).2
  · intro hwhole c hreach
    refine (hreach.invariant (P := fun c => m.AtEntry c.responseHead ∧ m.Within c.reads)
      ⟨.first, within_start.mpr hwhole.header⟩ fun t t' ht hstep => ?_).2
    obtain ⟨hlt, rfl⟩ := flowStep_cases hstep
    exact ⟨ht.1.next hlt,
      within_append.mpr ⟨ht.2, within_entryReads.mpr (hwhole.entries _ ht.1 hlt)⟩⟩

theorem nbPorts_le {length : UInt16} (h : OFP_HEADER_LEN + FEATURES_SIZE ≤ length.toNat) :
    (nbPorts length).toNat * PORT_DATA_SIZE ≤ length.toNat - (OFP_HEADER_LEN + FEATURES_SIZE) := by
  have hlt := length.toNat_lt
  rw [OFP_HEADER_LEN, FEATURES_SIZE] at h ⊢
  have hrest : (length.toUInt64 - UInt64.ofNat OFP_HEADER_LEN - UInt64.ofNat FEATURES_SIZE).toNat =
      length.toNat - 32 := by
    simp only [OFP_HEADER_LEN, FEATURES_SIZE, UInt64.toNat_sub, UInt16.toNat_toUInt64,
      UInt64.toNat_ofNat']
    omega
  rw [nbPorts]
  split_ifs
  · rw [UInt64.toNat_toUInt8, UInt64.toNat_div, hrest]
    simp only [PORT_DATA_SIZE, UInt64.toNat_ofNat', Nat.reducePow, Nat.reduceMod]
    omega
  · simp

theorem featuresReads_within_iff :
    m.Within (featuresReads m.length) ↔ OFP_HEADER_LEN + FEATURES_SIZE ≤ m.length.toNat := by
  rw [featuresReads, featureFields, within_append]
  simp only [within_cons, Nat.ofNat_pos, Nat.lt_one_iff, responseEnd]
  constructor
  · rintro ⟨⟨-, -, -, -, hlast, -⟩, -⟩
    rw [FEATURES_SIZE]
    omega
  · intro h
    have hports := nbPorts_le h
    rw [OFP_HEADER_LEN, FEATURES_SIZE] at *
    refine ⟨⟨by omega, by omega, by omega, by omega, by omega, within_nil⟩, ?_⟩
    intro r hr
    obtain ⟨i, hi, rfl⟩ := List.mem_map.mp hr
    have hread : m.Within [(24 + i * PORT_DATA_SIZE, PORT_DATA_SIZE)] := by
      rw [within_cons (by decide), responseEnd, OFP_HEADER_LEN]
      rw [List.mem_range] at hi
      rw [PORT_DATA_SIZE] at *
      refine ⟨?_, within_nil⟩
      omega
    exact hread _ List.mem_cons_self

/-! ## The cursor of a parser that returned -/

section Faithful
variable {data : List UInt8}

theorem load_eq (hbody : m.body = some data) {offset count : ℕ} {bytes : List UInt8}
    (h : loadBytes data offset count = .ok bytes) :
    m.load offset count = bytes ∧ m.Within [(offset, count)] := by
  rw [loadBytes] at h
  split_ifs at h with hle
  cases h
  refine ⟨?_, ?_⟩
  · apply List.ext_getElem
    · rw [load, List.length_map, List.length_range, List.length_take, List.length_drop]
      omega
    · intro i hi _
      have hi' : i < count := by simpa [load] using hi
      simp only [load, List.getElem_map, List.getElem_range, List.getElem_take, List.getElem_drop]
      exact m.holds data hbody _ _ (List.getElem?_eq_getElem (by omega))
  · intro r hr
    rw [List.mem_singleton] at hr
    exact ⟨data, hbody, hr ▸ hle⟩

theorem readAction_reads (hbody : m.body = some data) {actionsEnd head head' : ℕ}
    {payloads payloads' : Heap ActionPayload} {d d' : ActionDescriptor}
    (h : readAction data actionsEnd payloads d head = .ok (d', payloads', head')) :
    m.Within (m.actionReads head) ∧
      head' = if isParsed (m.actionType head) then head + ACTION_SIZE else actionsEnd := by
  obtain ⟨bytes, htype, h⟩ := bind_eq_ok.mp h
  obtain ⟨hload, hwithin⟩ := m.load_eq hbody htype
  have hactionType : m.actionType head = ntohs (loadU16 bytes 0) := by rw [actionType, hload]
  rw [actionReads, hactionType, isParsed]
  dsimp only at h
  split_ifs at h with houtput hvlan
  · obtain ⟨action, haction, h⟩ := bind_eq_ok.mp h
    cases h
    rw [houtput]
    exact ⟨within_append.mpr ⟨hwithin, (m.load_eq hbody haction).2⟩, rfl⟩
  · obtain ⟨action, haction, h⟩ := bind_eq_ok.mp h
    cases h
    rw [hvlan]
    exact ⟨within_append.mpr ⟨hwithin, (m.load_eq hbody haction).2⟩, rfl⟩
  · cases h
    have hskipped : (ntohs (loadU16 bytes 0) == OFPAT_OUTPUT ||
        ntohs (loadU16 bytes 0) == OFPAT_SET_VLAN_VID) = false := by
      rw [Bool.or_eq_false_iff, beq_eq_false_iff_ne, beq_eq_false_iff_ne]
      exact ⟨houtput, hvlan⟩
    rw [hskipped]
    exact ⟨hwithin, rfl⟩

theorem actionStep_reads (hbody : m.body = some data) {actionsEnd : ℕ} {s s' : Parsing}
    (h : OrssNic.actionStep data actionsEnd s = .ok (some s')) (reads : List (ℕ × ℕ)) :
    m.actionStep actionsEnd ⟨s.responseHead, reads⟩ =
        .ok (some ⟨s'.responseHead, reads ++ m.actionReads s.responseHead⟩) ∧
      m.Within (m.actionReads s.responseHead) := by
  obtain ⟨hlt, _, _, _, _, -, -, -, haction, -⟩ := actionStep_ok h
  obtain ⟨hwithin, hhead⟩ := m.readAction_reads hbody haction
  refine ⟨?_, hwithin⟩
  rw [actionStep, if_pos hlt, actionReads, hhead]
  split_ifs <;> simp [pure, Except.pure]

theorem flowStep_reads (hbody : m.body = some data) {s s' : Parsing}
    (h : OrssNic.flowStep data m.responseEnd s = .ok (some s')) (reads : List (ℕ × ℕ)) :
    m.flowStep ⟨s.responseHead, reads⟩ =
        .ok (some ⟨s'.responseHead, reads ++ m.entryReads s.responseHead⟩) ∧
      m.Within (m.entryReads s.responseHead) := by
  obtain ⟨hlt, bytes, stats, t, hbytes, hstats, -, hloop, rfl⟩ := flowStep_ok h
  obtain ⟨hload, hwithin⟩ := m.load_eq hbody hbytes
  have hlength : m.entryLength s.responseHead = stats.length.toNat := by
    rw [entryLength, hload, hstats]
  rw [← hlength] at hloop ⊢
  refine ⟨flowStep_below hlt, ?_⟩
  -- The passes of the parser over the actions are passes of the cursor.
  obtain ⟨hreach, hstop⟩ := whileLoop_correct hloop
  obtain ⟨c, hc, hhead, hreads⟩ := hreach.invariant
    (P := fun t => ∃ c : Cursor,
      Reaches (m.actionStep (s.responseHead + m.entryLength s.responseHead))
        ⟨s.responseHead + FLOW_STATS_SIZE, []⟩ c ∧
      c.responseHead = t.responseHead ∧ m.Within c.reads)
    ⟨_, .refl, rfl, within_nil⟩ (by
      rintro t t' ⟨c, hc, hhead, hreads⟩ hstep
      obtain ⟨hpass, hwithin⟩ := m.actionStep_reads hbody hstep c.reads
      rw [← hhead] at hpass hwithin
      exact ⟨_, hc.tail hpass, rfl, within_append.mpr ⟨hreads, hwithin⟩⟩)
  obtain ⟨head', hcursor⟩ := m.actionLoop_reads
    (s.responseHead + m.entryLength s.responseHead)
    (s.responseHead + FLOW_STATS_SIZE) [] (Nat.le_add_right _ _)
  obtain ⟨hreach', hstop'⟩ := whileLoop_correct hcursor
  rcases (hc.to_last hreach' hstop').cases_head with rfl | ⟨c', hpass, -⟩
  · rw [List.nil_append] at hreads
    rw [entryReads, ← List.singleton_append, within_append]
    exact ⟨hwithin, hreads⟩
  · have hbehind := actionStep_stop hstop
    rw [actionStep, hhead, if_neg hbehind] at hpass
    cases hpass

theorem parseReply_whole {message : OpenflowMessage} {flows : OpenflowFlows}
    {payloads : Heap ActionPayload} {r : OpenflowFlows × Heap ActionPayload}
    (hlength : m.length = message.header.length) (hbody : m.body = message.data)
    (hheader : OFP_HEADER_LEN + 4 ≤ m.length.toNat)
    (h : parseReply message flows payloads = .ok r) : m.Whole := by
  obtain ⟨data, hdata, h⟩ := bind_eq_ok.mp h
  obtain ⟨s, hloop, -⟩ := bind_eq_ok.mp h
  rw [messageData] at hdata
  split at hdata
  · next data' hsome =>
    cases hdata
    rw [hsome] at hbody
    rw [← hlength] at hloop
    change whileLoop _ (OrssNic.flowStep data m.responseEnd) _ _ = _ at hloop
    obtain ⟨hreach, hstop⟩ := whileLoop_correct hloop
    obtain ⟨c, hc, hhead, hreads⟩ := hreach.invariant
      (P := fun t => ∃ c : Cursor, Reaches m.flowStep start c ∧ c.responseHead = t.responseHead ∧
        m.Within c.reads)
      ⟨start, .refl, rfl, within_start.mpr hheader⟩ (by
        rintro t t' ⟨c, hc, hhead, hreads⟩ hstep
        obtain ⟨hpass, hwithin⟩ := m.flowStep_reads hbody hstep c.reads
        rw [← hhead] at hpass hwithin
        exact ⟨_, hc.tail hpass, rfl, within_append.mpr ⟨hreads, hwithin⟩⟩)
    have hlast : m.flowStep c = .ok none := by
      refine flowStep_behind ?_
      rw [hhead]
      exact flowStep_stop hstop
    refine reads_within_iff.mp fun c' hc' => ?_
    exact ((hc'.to_last hc hlast).invariant
      (P := fun t => m.Within t.reads → m.Within c'.reads) id fun t t' ht hstep hwithin => by
        obtain ⟨-, rfl⟩ := flowStep_cases hstep
        exact ht (within_append.mp hwithin).1) hreads
  · cases hdata

theorem parseFeaturesReply_within {msg : OpenflowMessage} {r : SwitchFeatures}
    (hlength : m.length = msg.header.length) (hbody : m.body = msg.data)
    (h : parseFeaturesReply msg = .ok r) :
    m.Within (featuresReads m.length) ∧ r.nbPorts = nbPorts m.length := by
  obtain ⟨data, hdata, h⟩ := bind_eq_ok.mp h
  obtain ⟨bytes, hbytes, h⟩ := bind_eq_ok.mp h
  rw [messageData] at hdata
  split at hdata
  · next data' hsome =>
    cases hdata
    have hfixed := (m.load_eq (hbody.trans hsome) hbytes).2
    rw [FEATURES_SIZE, within_cons (by decide), responseEnd] at hfixed
    have hlong : OFP_HEADER_LEN + FEATURES_SIZE ≤ m.length.toNat := by
      have hle := hfixed.1
      rw [FEATURES_SIZE]
      omega
    refine ⟨featuresReads_within_iff.mpr hlong, ?_⟩
    rw [nbPorts, hlength]
    dsimp only at h ⊢
    split_ifs at h ⊢ with hrest
    · obtain ⟨ports, -, h⟩ := bind_eq_ok.mp h
      cases h
      rfl
    · cases h
      rfl
  · cases hdata

end Faithful

theorem readOpenflowMessage_allocated {fd fd' : Socket} {msg msg' : OpenflowMessage}
    (hdata : msg.data = none) (h : readOpenflowMessage fd msg = .ok (1, fd', msg')) :
    msg'.data.map List.length = if OFP_HEADER_LEN < msg'.header.length.toNat then
      some (msg'.header.length.toNat - OFP_HEADER_LEN) else none := by
  obtain ⟨⟨valread, fd₁⟩, -, h⟩ := bind_eq_ok.mp h
  obtain ⟨bytes, -, h⟩ := bind_eq_ok.mp h
  dsimp only at h
  split_ifs at h with hpos hlong
  · obtain ⟨s, hsafe, h⟩ := bind_eq_ok.mp h
    cases h
    rw [if_pos hlong, Option.map_some, (safeRead_consumes hsafe).2, List.length_replicate]
  · cases h
    rw [if_neg hlong, hdata, Option.map_none]
  · cases h

/-- The parsers stay in a body that was allocated just when the message has
room for the structures they look for. -/
theorem parsers_within_iff (m : ReceivedBody) :
    (m.Within (featuresReads m.length) ↔ OFP_HEADER_LEN + FEATURES_SIZE ≤ m.length.toNat) ∧
      ((∀ c, Reaches m.flowStep start c → m.Within c.reads) ↔ m.Whole) :=
  ⟨featuresReads_within_iff, reads_within_iff⟩

def shortBody : ReceivedBody where
  length := 20
  body := some (List.replicate 12 0)
  allocated := by decide
  memory := fun _ => 0
  holds := by
    intro bytes hbytes i b hb
    cases hbytes
    exact (List.eq_of_mem_replicate (List.mem_of_getElem? hb)).symm

theorem parsers_leave_shortBody :
    ¬shortBody.Within (featuresReads shortBody.length) ∧
      ¬∀ c, Reaches shortBody.flowStep start c → shortBody.Within c.reads := by
  refine ⟨fun h => ?_, fun h => ?_⟩
  · exact absurd (featuresReads_within_iff.mp h) (by decide)
  · have hentry := (reads_within_iff.mp h).entries 4 .first (by decide)
    exact absurd hentry.fixed (by decide)

end ReceivedBody

end OrssNic
