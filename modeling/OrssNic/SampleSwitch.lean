import OrssNic.PacketMatch
import OrssNic.Controller
import OrssNic.Library.LearningBridge

/-!
# The sample controller (`sample_switch.py`)

A learning switch: the handler learns the port of the sender, installs an entry
when it knows the port of the receiver, and sends the packet out. The entries
are never changed, and they hide the frames that they admit from the controller.
-/

namespace OrssNic.SampleSwitch
open OpenflowMatch Controller LearningBridge

def OFP_NO_BUFFER : UInt32 := 0xffffffff

/-- `OFPMatch` for the three arguments that `add_flow` gives. -/
def macMatch (inPort : UInt16) (dst src : Octets6) : OpenflowMatch :=
  { (default : OpenflowMatch) with
    wildcards := OFPFW10_ALL &&& ~~~(OFPFW10_IN_PORT ||| OFPFW10_DL_DST ||| OFPFW10_DL_SRC)
    inPort := inPort
    dlSrc := src
    dlDst := dst }

def addFlow (inPort : UInt16) (dst src : Octets6) (actions : List SwitchAction) : FlowMod :=
  ⟨.add, macMatch inPort dst src, OFP_DEFAULT_PRIORITY, actions⟩

structure PacketIn where
  datapath : UInt64
  bufferId : UInt32
  inPort : UInt16
  ethertype : UInt16
  dst : Octets6
  src : Octets6
  data : List UInt8

structure PacketOut where
  bufferId : UInt32
  inPort : UInt16
  actions : List SwitchAction
  data : Option (List UInt8)

inductive Message
  | flowMod (m : FlowMod)
  | packetOut (out : PacketOut)

abbrev MacToPort := FiniteMap UInt64 (FiniteMap Octets6 UInt16)

def packetInHandler (macToPort : MacToPort) (msg : PacketIn) : MacToPort × List Message :=
  if msg.ethertype = ETH_TYPE_LLDP then (macToPort, [])
  else
    -- `setdefault`, and the assignment behind it
    let ports := ((macToPort msg.datapath).getD .empty).insert msg.src msg.inPort
    let outPort := (ports msg.dst).getD OFPP_FLOOD
    let actions := [.output outPort]
    let flows :=
      if outPort ≠ OFPP_FLOOD then [.flowMod (addFlow msg.inPort msg.dst msg.src actions)] else []
    let data := if msg.bufferId = OFP_NO_BUFFER then some msg.data else none
    (macToPort.insert msg.datapath ports,
      flows ++ [.packetOut ⟨msg.bufferId, msg.inPort, actions, data⟩])

/-! ## The switches -/

structure Switches where
  macToPort : MacToPort
  tables : UInt64 → List SwitchEntry

def Switches.start : Switches := ⟨.empty, fun _ => []⟩

structure Arrival where
  datapath : UInt64
  bufferId : UInt32
  ethertype : UInt16
  header : PacketHeader
  data : List UInt8

def Arrival.message (a : Arrival) : PacketIn where
  datapath := a.datapath
  bufferId := a.bufferId
  inPort := a.header.inPort
  ethertype := a.ethertype
  dst := a.header.dlDst
  src := a.header.dlSrc
  data := a.data

def handleMessage (table : List SwitchEntry) : Message → List SwitchEntry
  | .flowMod m => applyFlowMod table m
  | .packetOut _ => table

/-- What the switch does with the frame of a packet-in. -/
def released : Message → List SwitchAction
  | .flowMod _ => []
  | .packetOut out => out.actions

/-- A frame goes where the actions of an entry say, or to the controller. All
entries have the same priority. -/
def arrive (s : Switches) (a : Arrival) : Switches × List SwitchAction :=
  match (s.tables a.datapath).find? fun e => e.match.admits a.header with
  | some e => (s, e.actions)
  | none =>
    let (macToPort, messages) := packetInHandler s.macToPort a.message
    (⟨macToPort, Function.update s.tables a.datapath
      (messages.foldl handleMessage (s.tables a.datapath))⟩, messages.flatMap released)

def after (s : Switches) (arrivals : List Arrival) : Switches :=
  arrivals.foldl (fun s a => (arrive s a).1) s

/-- The addresses of all switches, and their ports. -/
def Arrival.frame (a : Arrival) : Frame (UInt64 × Octets6) UInt16 :=
  ⟨(a.datapath, a.header.dlSrc), (a.datapath, a.header.dlDst), a.header.inPort⟩

/-! ## The matches -/

theorem macMatch_admits {inPort : UInt16} {dst src : Octets6} {p : PacketHeader} :
    (macMatch inPort dst src).admits p = true ↔
      inPort = p.inPort ∧ src = p.dlSrc ∧ dst = p.dlDst := by
  have hwildcards : (macMatch inPort dst src).wildcards =
      OFPFW10_ALL &&& ~~~(OFPFW10_IN_PORT ||| OFPFW10_DL_DST ||| OFPFW10_DL_SRC) := rfl
  obtain ⟨hinPort, hsrc, hdst⟩ : (macMatch inPort dst src).wild OFPFW10_IN_PORT = false ∧
      (macMatch inPort dst src).wild OFPFW10_DL_SRC = false ∧
      (macMatch inPort dst src).wild OFPFW10_DL_DST = false := by
    simp only [wild, hwildcards]
    exact ⟨rfl, rfl, rfl⟩
  obtain ⟨hvlan, hpcp, htype, htos, hproto, hsport, hdport⟩ :
      (macMatch inPort dst src).wild OFPFW10_DL_VLAN = true ∧
      (macMatch inPort dst src).wild OFPFW10_DL_VLAN_PCP = true ∧
      (macMatch inPort dst src).wild OFPFW10_DL_TYPE = true ∧
      (macMatch inPort dst src).wild OFPFW10_NW_TOS = true ∧
      (macMatch inPort dst src).wild OFPFW10_NW_PROTO = true ∧
      (macMatch inPort dst src).wild OFPFW10_TP_SRC = true ∧
      (macMatch inPort dst src).wild OFPFW10_TP_DST = true := by
    simp only [wild, hwildcards]
    exact ⟨rfl, rfl, rfl, rfl, rfl, rfl, rfl⟩
  have hnwSrc : addressWildcards (macMatch inPort dst src).wildcards OFPFW10_NW_SRC_SHIFT = 32 := by
    rw [hwildcards]
    decide
  have hnwDst : addressWildcards (macMatch inPort dst src).wildcards OFPFW10_NW_DST_SHIFT = 32 := by
    rw [hwildcards]
    decide
  rw [admits, fieldAdmits_of_not_wild hinPort, fieldAdmits_of_not_wild hsrc,
    fieldAdmits_of_not_wild hdst, fieldAdmits_of_wild hvlan, fieldAdmits_of_wild hpcp,
    fieldAdmits_of_wild htype, fieldAdmits_of_wild htos, fieldAdmits_of_wild hproto,
    addressAdmits_of_wild hnwSrc, addressAdmits_of_wild hnwDst, fieldAdmits_of_wild hsport,
    fieldAdmits_of_wild hdport]
  simp only [macMatch, Bool.and_true, Bool.and_eq_true, beq_iff_eq, and_assoc]

theorem macMatch_inj {inPort inPort' : UInt16} {dst dst' src src' : Octets6} :
    macMatch inPort dst src = macMatch inPort' dst' src' ↔
      inPort = inPort' ∧ src = src' ∧ dst = dst' := by
  constructor
  · intro h
    exact ⟨congrArg OpenflowMatch.inPort h, congrArg dlSrc h, congrArg dlDst h⟩
  · rintro ⟨rfl, rfl, rfl⟩
    rfl

/-! ## The switches are a bridge with a cache -/

def learnedEntry (inPort : UInt16) (dst src : Octets6) (outPort : UInt16) : SwitchEntry :=
  ⟨macMatch inPort dst src, OFP_DEFAULT_PRIORITY, [.output outPort]⟩

/-- `mac_to_port` holds what is learned, and the tables hold the decisions. -/
structure Represents (s : Switches) (c : Cached (UInt64 × Octets6) UInt16) : Prop where
  learned : ∀ datapath mac, (s.macToPort datapath).bind (fun ports => ports mac) =
    c.learned (datapath, mac)
  ports : ∀ address, c.learned address ≠ some OFPP_FLOOD
  tables : ∀ datapath, ∀ e ∈ s.tables datapath, ∃ inPort dst src outPort,
    e = learnedEntry inPort dst src outPort ∧
      c.cache ⟨(datapath, src), (datapath, dst), inPort⟩ = some outPort
  cached : ∀ datapath dst src inPort outPort,
    c.cache ⟨(datapath, src), (datapath, dst), inPort⟩ = some outPort →
      learnedEntry inPort dst src outPort ∈ s.tables datapath

theorem represents_start : Represents .start .empty where
  learned _ _ := rfl
  ports := by
    intro address h
    cases h
  tables := by
    intro datapath e he
    cases he
  cached := by
    intro datapath dst src inPort outPort h
    cases h

section Arrive
variable {s : Switches} {c : Cached (UInt64 × Octets6) UInt16} {a : Arrival}

theorem Represents.admits_iff (h : Represents s c) {e : SwitchEntry}
    (he : e ∈ s.tables a.datapath) (hadmits : e.match.admits a.header = true) :
    ∃ outPort, e.actions = [.output outPort] ∧ c.cache a.frame = some outPort := by
  obtain ⟨inPort, dst, src, outPort, rfl, hcache⟩ := h.tables a.datapath e he
  obtain ⟨rfl, rfl, rfl⟩ := macMatch_admits.mp hadmits
  exact ⟨outPort, rfl, hcache⟩

theorem Represents.find?_eq_none (h : Represents s c) :
    ((s.tables a.datapath).find? fun e => e.match.admits a.header) = none ↔
      c.cache a.frame = none := by
  rw [List.find?_eq_none]
  constructor
  · intro hnone
    apply Option.eq_none_iff_forall_ne_some.mpr
    intro outPort hcache
    have hmem := h.cached a.datapath a.header.dlDst a.header.dlSrc a.header.inPort outPort hcache
    exact hnone _ hmem (macMatch_admits.mpr ⟨rfl, rfl, rfl⟩)
  · intro hcache e he hadmits
    obtain ⟨outPort, -, hsome⟩ := h.admits_iff he hadmits
    rw [hcache] at hsome
    cases hsome

theorem Represents.arrive_hit (h : Represents s c) {outPort : UInt16}
    (hcache : c.cache a.frame = some outPort) : arrive s a = (s, [.output outPort]) := by
  cases hfind : (s.tables a.datapath).find? fun e => e.match.admits a.header with
  | none =>
    rw [h.find?_eq_none.mp hfind] at hcache
    cases hcache
  | some e =>
    have hadmits := List.find?_some hfind
    obtain ⟨port, hactions, hsome⟩ := h.admits_iff (List.mem_of_find?_eq_some hfind) hadmits
    rw [hcache, Option.some.injEq] at hsome
    rw [arrive, hfind, hsome]
    dsimp only
    rw [hactions]

def learnedPorts (s : Switches) (a : Arrival) : FiniteMap Octets6 UInt16 :=
  ((s.macToPort a.datapath).getD .empty).insert a.header.dlSrc a.header.inPort

theorem Represents.learnedPorts_eq (h : Represents s c) (mac : Octets6) :
    learnedPorts s a mac = learn c.learned a.frame (a.datapath, mac) := by
  have hbase : (s.macToPort a.datapath).getD .empty mac = c.learned (a.datapath, mac) := by
    rw [← h.learned]
    cases s.macToPort a.datapath <;> rfl
  by_cases hmac : mac = a.header.dlSrc
  · rw [hmac, learnedPorts, FiniteMap.insert_self]
    exact (FiniteMap.insert_self _ _ _).symm
  · have hne : (a.datapath, mac) ≠ a.frame.src := fun heq => hmac (Prod.mk.inj heq).2
    rw [learnedPorts, FiniteMap.insert_of_ne _ _ hmac, hbase]
    exact (FiniteMap.insert_of_ne _ _ hne).symm

theorem Represents.learn_ports (h : Represents s c) (hport : a.header.inPort ≠ OFPP_FLOOD)
    (address : UInt64 × Octets6) : learn c.learned a.frame address ≠ some OFPP_FLOOD := by
  by_cases haddress : address = a.frame.src
  · rw [haddress, learn, FiniteMap.insert_self]
    exact fun heq => hport (Option.some.inj heq)
  · rw [learn, FiniteMap.insert_of_ne _ _ haddress]
    exact h.ports address

def Arrival.answer (a : Arrival) (decided : Option UInt16) : List Message :=
  (decided.toList.map fun port =>
    .flowMod (addFlow a.header.inPort a.header.dlDst a.header.dlSrc [.output port])) ++
  [.packetOut ⟨a.bufferId, a.header.inPort, [.output (decided.getD OFPP_FLOOD)],
    if a.bufferId = OFP_NO_BUFFER then some a.data else none⟩]

theorem packetInHandler_eq (s : Switches) (hlldp : a.ethertype ≠ ETH_TYPE_LLDP) {outPort : UInt16}
    (hport : (learnedPorts s a a.header.dlDst).getD OFPP_FLOOD = outPort) :
    packetInHandler s.macToPort a.message = (s.macToPort.insert a.datapath (learnedPorts s a),
      (if outPort ≠ OFPP_FLOOD then [.flowMod
        (addFlow a.header.inPort a.header.dlDst a.header.dlSrc [.output outPort])] else []) ++
      [.packetOut ⟨a.bufferId, a.header.inPort, [.output outPort],
        if a.bufferId = OFP_NO_BUFFER then some a.data else none⟩]) := by
  rw [← hport]
  exact if_neg hlldp

theorem Represents.packetInHandler_eq (h : Represents s c) (hlldp : a.ethertype ≠ ETH_TYPE_LLDP)
    (hport : a.header.inPort ≠ OFPP_FLOOD) :
    packetInHandler s.macToPort a.message =
      (s.macToPort.insert a.datapath (learnedPorts s a),
        a.answer (decision c.learned a.frame)) := by
  have hdecided : learnedPorts s a a.header.dlDst = decision c.learned a.frame :=
    h.learnedPorts_eq a.header.dlDst
  have hflood : decision c.learned a.frame ≠ some OFPP_FLOOD := h.learn_ports hport _
  rw [SampleSwitch.packetInHandler_eq s hlldp (congrArg (Option.getD · OFPP_FLOOD) hdecided)]
  cases hcase : decision c.learned a.frame with
  | none => rfl
  | some port =>
    have hne : port ≠ OFPP_FLOOD := fun heq => hflood (heq ▸ hcase)
    rw [Option.getD_some, if_pos hne]
    rfl

theorem released_answer (a : Arrival) (decided : Option UInt16) :
    (a.answer decided).flatMap released = [.output (decided.getD OFPP_FLOOD)] := by
  cases decided <;> rfl

theorem Represents.handle_answer (h : Represents s c) (hcache : c.cache a.frame = none)
    (decided : Option UInt16) :
    (a.answer decided).foldl handleMessage (s.tables a.datapath) =
      s.tables a.datapath ++ decided.toList.map fun port =>
        learnedEntry a.header.inPort a.header.dlDst a.header.dlSrc port := by
  cases decided with
  | none => exact (List.append_nil _).symm
  | some port =>
    apply addEntry_of_fresh
    intro e he hmatch
    obtain ⟨inPort, dst, src, outPort, rfl, hsome⟩ := h.tables a.datapath e he
    obtain ⟨rfl, rfl, rfl⟩ := macMatch_inj.mp hmatch
    exact Option.some_ne_none _ (hsome.symm.trans hcache)

theorem Represents.arrive_miss (h : Represents s c) (hcache : c.cache a.frame = none) :
    arrive s a = (⟨(packetInHandler s.macToPort a.message).1,
      Function.update s.tables a.datapath
        ((packetInHandler s.macToPort a.message).2.foldl handleMessage (s.tables a.datapath))⟩,
      (packetInHandler s.macToPort a.message).2.flatMap released) := by
  rw [arrive, h.find?_eq_none.mpr hcache]

theorem packetInHandler_lldp (macToPort : MacToPort) (hlldp : a.ethertype = ETH_TYPE_LLDP) :
    packetInHandler macToPort a.message = (macToPort, []) := if_pos hlldp

theorem Represents.arrive_lldp (h : Represents s c) (hlldp : a.ethertype = ETH_TYPE_LLDP) :
    (arrive s a).1 = s := by
  cases hcache : c.cache a.frame with
  | some outPort => rw [h.arrive_hit hcache]
  | none =>
    rw [h.arrive_miss hcache, packetInHandler_lldp _ hlldp]
    exact congrArg (Switches.mk s.macToPort) (Function.update_eq_self _ _)

theorem Represents.mem_tables (h : Represents s c) (hcache : c.cache a.frame = none)
    {decided : Option UInt16} {datapath : UInt64} {e : SwitchEntry} :
    e ∈ Function.update s.tables a.datapath
        ((a.answer decided).foldl handleMessage (s.tables a.datapath)) datapath ↔
      e ∈ s.tables datapath ∨ datapath = a.datapath ∧ ∃ port ∈ decided,
        e = learnedEntry a.header.inPort a.header.dlDst a.header.dlSrc port := by
  by_cases hdatapath : datapath = a.datapath
  · subst hdatapath
    rw [Function.update_self, h.handle_answer hcache, List.mem_append, List.mem_map]
    refine or_congr_right ?_
    simp only [Option.mem_toList, true_and, Option.mem_def, eq_comm]
  · rw [Function.update_of_ne hdatapath]
    exact (or_iff_left fun h => hdatapath h.1).symm

theorem Represents.arrive (h : Represents s c) (hlldp : a.ethertype ≠ ETH_TYPE_LLDP)
    (hport : a.header.inPort ≠ OFPP_FLOOD) :
    Represents (arrive s a).1 (c.step a.frame).1 ∧
      (SampleSwitch.arrive s a).2 = [.output ((c.step a.frame).2.getD OFPP_FLOOD)] := by
  cases hcache : c.cache a.frame with
  | some outPort =>
    rw [h.arrive_hit hcache, Cached.step_hit hcache]
    exact ⟨h, rfl⟩
  | none =>
    rw [h.arrive_miss hcache, h.packetInHandler_eq hlldp hport, Cached.step_decision hcache]
    refine ⟨?_, released_answer a _⟩
    constructor
    case learned =>
      intro datapath mac
      dsimp only
      rw [Cached.step_learned hcache]
      by_cases hdatapath : datapath = a.datapath
      · rw [hdatapath, FiniteMap.insert_self]
        exact h.learnedPorts_eq mac
      · have hne : (datapath, mac) ≠ a.frame.src := fun heq => hdatapath (Prod.mk.inj heq).1
        rw [FiniteMap.insert_of_ne _ _ hdatapath, h.learned]
        exact (FiniteMap.insert_of_ne _ _ hne).symm
    case ports =>
      rw [Cached.step_learned hcache]
      exact h.learn_ports hport
    case tables =>
      intro datapath e he
      obtain hold | ⟨rfl, port, hdecided, rfl⟩ := (h.mem_tables hcache).mp he
      · obtain ⟨inPort, dst, src, outPort, rfl, hsome⟩ := h.tables datapath e hold
        exact ⟨inPort, dst, src, outPort, rfl, Cached.step_cache hsome⟩
      · exact ⟨_, _, _, port, rfl, (Cached.step_cache_eq_some hcache).mpr (.inr ⟨rfl, hdecided⟩)⟩
    case cached =>
      intro datapath dst src inPort outPort hsome
      apply (h.mem_tables hcache).mpr
      obtain hold | ⟨hframe, hdecided⟩ := (Cached.step_cache_eq_some hcache).mp hsome
      · exact .inl (h.cached datapath dst src inPort outPort hold)
      · obtain ⟨⟨rfl, rfl⟩, ⟨-, rfl⟩, rfl⟩ := Frame.mk.inj hframe
        exact .inr ⟨rfl, outPort, hdecided, rfl⟩

end Arrive

/-! ## Runs -/

section Runs
variable {arrivals : List Arrival} {a : Arrival}

def learnable (arrivals : List Arrival) : List Arrival :=
  arrivals.filter fun a => a.ethertype ≠ ETH_TYPE_LLDP

theorem mem_learnable : a ∈ learnable arrivals ↔ a ∈ arrivals ∧ a.ethertype ≠ ETH_TYPE_LLDP := by
  rw [learnable, List.mem_filter, decide_eq_true_eq]

theorem learnable_append (arrivals later : List Arrival) :
    learnable (arrivals ++ later) = learnable arrivals ++ learnable later := List.filter_append ..

theorem learnable_concat (hlldp : a.ethertype ≠ ETH_TYPE_LLDP) :
    learnable (arrivals ++ [a]) = learnable arrivals ++ [a] := by
  rw [learnable_append]
  exact congrArg _ (List.filter_cons_of_pos (decide_eq_true hlldp))

theorem learnable_concat_lldp (hlldp : a.ethertype = ETH_TYPE_LLDP) :
    learnable (arrivals ++ [a]) = learnable arrivals := by
  have hnone : learnable [a] = [] :=
    List.filter_cons_of_neg fun h => of_decide_eq_true h hlldp
  rw [learnable_append, hnone, List.append_nil]

theorem after_concat (s : Switches) (arrivals : List Arrival) (a : Arrival) :
    after s (arrivals ++ [a]) = (arrive (after s arrivals) a).1 := List.foldl_concat ..

def bridge (arrivals : List Arrival) : Cached (UInt64 × Octets6) UInt16 :=
  Cached.empty.after ((learnable arrivals).map Arrival.frame)

theorem represents_after (hports : ∀ a ∈ learnable arrivals, a.header.inPort ≠ OFPP_FLOOD) :
    Represents (after .start arrivals) (bridge arrivals) := by
  induction arrivals using List.reverseRecOn with
  | nil => exact represents_start
  | append_singleton arrivals a ih =>
    rw [after_concat]
    by_cases hlldp : a.ethertype = ETH_TYPE_LLDP
    · rw [learnable_concat_lldp hlldp] at hports
      rw [(ih hports).arrive_lldp hlldp, bridge, learnable_concat_lldp hlldp]
      exact ih hports
    · rw [learnable_concat hlldp, List.forall_mem_append, List.forall_mem_singleton] at hports
      rw [bridge, learnable_concat hlldp, List.map_append, Cached.after, List.foldl_append]
      exact ((ih hports.1).arrive hlldp hports.2).1

/-- No two entries admit one packet, so that the order of the entries means nothing. -/
theorem entry_unique (hports : ∀ a ∈ learnable arrivals, a.header.inPort ≠ OFPP_FLOOD)
    {datapath : UInt64} {p : PacketHeader} {e e' : SwitchEntry}
    (he : e ∈ (after .start arrivals).tables datapath)
    (he' : e' ∈ (after .start arrivals).tables datapath)
    (hadmits : e.match.admits p = true) (hadmits' : e'.match.admits p = true) : e = e' := by
  have h := represents_after hports
  obtain ⟨inPort, dst, src, outPort, rfl, hcache⟩ := h.tables datapath e he
  obtain ⟨inPort', dst', src', outPort', rfl, hcache'⟩ := h.tables datapath e' he'
  obtain ⟨rfl, rfl, rfl⟩ := macMatch_admits.mp hadmits
  obtain ⟨rfl, rfl, rfl⟩ := macMatch_admits.mp hadmits'
  rw [hcache, Option.some.injEq] at hcache'
  rw [hcache']

theorem mem_senders_frames {datapath : UInt64} {mac : Octets6} :
    (datapath, mac) ∈ senders (arrivals.map Arrival.frame) ↔
      ∃ b ∈ arrivals, b.datapath = datapath ∧ b.header.dlSrc = mac := by
  simp only [senders, List.map_map, List.mem_map, Function.comp_apply, Arrival.frame,
    Prod.mk.injEq]

/-- Nobody moves. -/
structure Settled (home : UInt64 × Octets6 → UInt16) (arrivals : List Arrival) : Prop where
  inPort : ∀ a ∈ learnable arrivals, a.header.inPort = home (a.datapath, a.header.dlSrc)
  port : ∀ address, home address ≠ OFPP_FLOOD

/-- While nobody moves, a frame goes to the port of its receiver when the
receiver has sent, and everywhere when it has not, entries or not. -/
theorem sample_switch_bridges {home : UInt64 × Octets6 → UInt16}
    (h : Settled home (arrivals ++ [a])) (hlldp : a.ethertype ≠ ETH_TYPE_LLDP) :
    (arrive (after .start arrivals) a).2 =
      [.output (if ∃ b ∈ learnable (arrivals ++ [a]),
          b.datapath = a.datapath ∧ b.header.dlSrc = a.header.dlDst
        then home (a.datapath, a.header.dlDst) else OFPP_FLOOD)] := by
  have hconcat : learnable (arrivals ++ [a]) = learnable arrivals ++ [a] := learnable_concat hlldp
  have hframes : ∀ f ∈ (learnable (arrivals ++ [a])).map Arrival.frame, f.port = home f.src := by
    rw [List.forall_mem_map]
    exact h.inPort
  have hports : ∀ b ∈ learnable (arrivals ++ [a]), b.header.inPort ≠ OFPP_FLOOD :=
    fun b hb => h.inPort b hb ▸ h.port _
  rw [hconcat, List.forall_mem_append, List.forall_mem_singleton] at hports
  rw [hconcat, List.map_append, List.map_singleton] at hframes
  have hdecided := (Cached.step_eq_decision hframes).trans (decision_homeOf hframes)
  have hsent : a.frame.dst ∈ senders ((learnable arrivals).map Arrival.frame ++ [a.frame]) ↔
      ∃ b ∈ learnable arrivals ++ [a],
        b.datapath = a.datapath ∧ b.header.dlSrc = a.header.dlDst := by
    rw [← List.map_singleton, ← List.map_append]
    exact mem_senders_frames
  rw [((represents_after hports.1).arrive hlldp hports.2).2, bridge, hdecided, homeOf, hconcat]
  by_cases hknown : ∃ b ∈ learnable arrivals ++ [a],
      b.datapath = a.datapath ∧ b.header.dlSrc = a.header.dlDst
  · rw [if_pos hknown, if_pos (hsent.mpr hknown)]
    rfl
  · rw [if_neg hknown, if_neg (mt hsent.mp hknown)]
    rfl

def frameOf (inPort : UInt16) (src dst : UInt8) : Arrival :=
  ⟨1, 7, ETH_TYPE_IP, { (default : PacketHeader) with
    inPort := inPort
    dlSrc := ⟨0, 0, 0, 0, 0, src⟩
    dlDst := ⟨0, 0, 0, 0, 0, dst⟩ }, []⟩

def twoHosts (address : UInt64 × Octets6) : UInt16 := if address.2.b5 = 1 then 1 else 2

theorem twoHosts_settled :
    Settled twoHosts ([frameOf 1 1 2, frameOf 2 2 1] ++ [frameOf 1 1 2]) where
  inPort := by decide
  port address := by
    rw [twoHosts]
    split_ifs <;> decide

theorem sample_switch_bridges_answered :
    (arrive (after .start [frameOf 1 1 2, frameOf 2 2 1]) (frameOf 1 1 2)).2 = [.output 2] :=
  (sample_switch_bridges twoHosts_settled (by decide)).trans rfl

theorem bridge_append (arrivals later : List Arrival) :
    bridge (arrivals ++ later) =
      (bridge arrivals).after ((learnable later).map Arrival.frame) := by
  rw [bridge, learnable_append, List.map_append, Cached.after, List.foldl_append]
  rfl

theorem bridge_cache {port : UInt16} (h : Represents (after .start arrivals) (bridge arrivals))
    (hinPort : a.header.inPort ≠ OFPP_FLOOD) (hport : port ≠ OFPP_FLOOD)
    (hsent : (arrive (after .start arrivals) a).2 = [.output port]) :
    (bridge (arrivals ++ [a])).cache a.frame = some port := by
  cases hcache : (bridge arrivals).cache a.frame with
  | some outPort =>
    rw [h.arrive_hit hcache, List.cons.injEq, SwitchAction.output.injEq] at hsent
    rw [bridge_append, Cached.after_cache _ hcache, hsent.1]
  | none =>
    by_cases hlldp : a.ethertype = ETH_TYPE_LLDP
    · rw [h.arrive_miss hcache, packetInHandler_lldp _ hlldp] at hsent
      cases hsent
    · have hdecided := (h.arrive hlldp hinPort).2.symm.trans hsent
      rw [List.cons.injEq, SwitchAction.output.injEq] at hdecided
      have hsome : ((bridge arrivals).step a.frame).2 = some port := by
        cases hstep : ((bridge arrivals).step a.frame).2 with
        | none =>
          rw [hstep] at hdecided
          exact absurd hdecided.1.symm hport
        | some port' =>
          rw [hstep] at hdecided
          exact congrArg some hdecided.1
      rw [bridge, learnable_concat hlldp, List.map_append, Cached.after, List.foldl_append]
      exact Cached.step_cache_self hsome

/-- What was decided with a port stays, whatever the handler learns behind it:
the frames that it is for do not reach the handler. -/
theorem learned_decisions_stay {later : List Arrival} {b : Arrival} {port : UInt16}
    (hports : ∀ a' ∈ arrivals ++ [a] ++ later, a'.header.inPort ≠ OFPP_FLOOD)
    (hport : port ≠ OFPP_FLOOD) (hsent : (arrive (after .start arrivals) a).2 = [.output port])
    (hframe : b.frame = a.frame) :
    arrive (after .start (arrivals ++ [a] ++ later)) b =
      (after .start (arrivals ++ [a] ++ later), [.output port]) := by
  have hafter := represents_after fun a' ha' => hports a' (mem_learnable.mp ha').1
  rw [List.forall_mem_append, List.forall_mem_append, List.forall_mem_singleton] at hports
  have hbefore := represents_after fun a' ha' => hports.1.1 a' (mem_learnable.mp ha').1
  apply hafter.arrive_hit
  rw [hframe, bridge_append]
  exact Cached.after_cache _ (bridge_cache hbefore hports.1.2 hport hsent)

theorem learned_decisions_stay_moved :
    (arrive (after .start [frameOf 1 1 2, frameOf 2 2 1, frameOf 3 1 2]) (frameOf 2 2 1)).2 =
      [.output 1] :=
  congrArg Prod.snd (@learned_decisions_stay [frameOf 1 1 2] (frameOf 2 2 1) [frameOf 3 1 2]
    (frameOf 2 2 1) 1 (by decide) (by decide) rfl rfl)

end Runs

end OrssNic.SampleSwitch
