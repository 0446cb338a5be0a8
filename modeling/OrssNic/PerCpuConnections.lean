import OrssNic.XdpConnections
import OrssNic.Library.BoundedRecord

/-!
# The copies of all CPUs

The map `connections` is a `BPF_MAP_TYPE_PERCPU_HASH`: all CPUs have the same
keys, and each of them its own copy of every state. A program on one CPU reads
and writes the copy of this CPU; a key that is new gets a zeroed copy on every
other CPU, and no key at all once the map is full.
-/

namespace OrssNic
open BoundedMap

variable {Cpu : Type} [DecidableEq Cpu]

abbrev PerCpuConnections (Cpu : Type) := BoundedMap FiveTuple (Cpu → ConnectionState)

namespace PerCpuConnections

/-- `bpf_map_lookup_elem` on a CPU -/
def lookupOn (cpu : Cpu) (connections : PerCpuConnections Cpu) (tuple : FiveTuple) :
    Option ConnectionState :=
  (connections.lookup tuple).map fun copies => copies cpu

/-- `bpf_map_update_elem` on a CPU, with `BPF_ANY` -/
def updateOn (cpu : Cpu) (connections : PerCpuConnections Cpu) (tuple : FiveTuple)
    (state : ConnectionState) : PerCpuConnections Cpu :=
  match connections.lookup tuple with
  | some copies =>
    connections.update CONNECTIONS_MAX_ENTRIES tuple (Function.update copies cpu state)
  | none =>
    connections.update CONNECTIONS_MAX_ENTRIES tuple
      (Function.update (fun _ => default) cpu state)

def updateConnectionState (cpu : Cpu) (connections : PerCpuConnections Cpu) (tuple : FiveTuple)
    (state : ConnectionState) : PerCpuConnections Cpu :=
  match connections.lookupOn cpu tuple with
  | some oldState => connections.updateOn cpu tuple (orState oldState state)
  | none => connections.updateOn cpu tuple state

section Programs

-- `bpf_redirect_map` on the device map
variable (bpfRedirectMap : UInt32 → XdpAction)

def xdpRx (cpu : Cpu) (connections : PerCpuConnections Cpu) (ctx : XdpMd) :
    PerCpuConnections Cpu × XdpAction :=
  let (flags, tuple) := parseHeaders ctx default
  if flags = .error ∨ flags = .noFlags ∨ (flags = .notTcp ∧ tuple.proto ≠ IPPROTO_UDP) then
    (connections, forward bpfRedirectMap ctx.ingressIfindex)
  else
    (connections.updateConnectionState cpu tuple (packetState flags),
      forward bpfRedirectMap ctx.ingressIfindex)

def xdpTx (cpu : Cpu) (connections : PerCpuConnections Cpu) (ctx : XdpMd) :
    PerCpuConnections Cpu × XdpAction :=
  let (flags, tuple) := parseHeaders ctx default
  if flags = .error ∨ flags = .noFlags ∨ (flags = .notTcp ∧ tuple.proto ≠ IPPROTO_UDP) then
    (connections, forward bpfRedirectMap ctx.ingressIfindex)
  else
    let tuple := swapTuple tuple
    -- As in the program of one CPU, the update stands inside the branch that is not UDP.
    if flags = .udp then (connections, forward bpfRedirectMap ctx.ingressIfindex)
    else
      (connections.updateConnectionState cpu tuple (packetState flags),
        forward bpfRedirectMap ctx.ingressIfindex)

end Programs

/-- A packet, the program that sees it, and the CPU that runs it. -/
abbrev Processed (Cpu : Type) := Cpu × Hook × XdpMd

section Runs
variable (bpfRedirectMap : UInt32 → XdpAction)

def step (connections : PerCpuConnections Cpu) (p : Processed Cpu) : PerCpuConnections Cpu :=
  match p.2.1 with
  | .rx => (xdpRx bpfRedirectMap p.1 connections p.2.2).1
  | .tx => (xdpTx bpfRedirectMap p.1 connections p.2.2).1

def run (packets : List (Processed Cpu)) : PerCpuConnections Cpu :=
  packets.foldl (step bpfRedirectMap) BoundedMap.empty

theorem run_concat (packets : List (Processed Cpu)) (p : Processed Cpu) :
    run bpfRedirectMap (packets ++ [p]) = step bpfRedirectMap (run bpfRedirectMap packets) p :=
  List.foldl_concat ..

theorem step_eq (connections : PerCpuConnections Cpu) (p : Processed Cpu) :
    step bpfRedirectMap connections p =
      match observation p.2 with
      | some (key, seen) => connections.updateConnectionState p.1 key (.ofSeen seen)
      | none => connections := by
  obtain ⟨cpu, hook, ctx⟩ := p
  have hskip := skipped_iff ctx
  rw [Skipped] at hskip
  cases hook with
  | rx =>
    simp only [step, xdpRx, observation]
    cases hc : contributed .rx (parseHeaders ctx default).1 with
    | none =>
      rw [if_pos (hskip.mpr hc)]
      rfl
    | some seen =>
      rw [if_neg fun h => by simp [hskip.mp h] at hc, packetState_eq hc]
      rfl
  | tx =>
    simp only [step, xdpTx, observation]
    by_cases hudp : (parseHeaders ctx default).1 = .udp
    · rw [if_neg fun h => by simpa [hudp, contributed] using hskip.mp h, if_pos hudp, hudp]
      rfl
    rw [contributed_tx hudp]
    cases hc : contributed .rx (parseHeaders ctx default).1 with
    | none =>
      rw [if_pos (hskip.mpr hc)]
      rfl
    | some seen =>
      rw [if_neg fun h => by simp [hskip.mp h] at hc, if_neg hudp, packetState_eq hc]
      rfl

end Runs

/-! ## What the copies record -/

def contribution (cpu : Cpu) (seen : Finset TcpFlags) : Cpu → Finset TcpFlags :=
  Function.update (fun _ => ∅) cpu seen

def copiesOf (seen : Cpu → Finset TcpFlags) (cpu : Cpu) : ConnectionState := .ofSeen (seen cpu)

def recorded (p : Processed Cpu) : Option (FiveTuple × (Cpu → Finset TcpFlags)) :=
  (observation p.2).map fun o => (o.1, contribution p.1 o.2)

theorem copiesOf_contribution (cpu : Cpu) (seen : Finset TcpFlags) :
    Function.update (fun _ => default) cpu (.ofSeen seen) = copiesOf (contribution cpu seen) := by
  funext cpu'
  by_cases hcpu : cpu' = cpu
  · rw [hcpu, Function.update_self, copiesOf, contribution, Function.update_self]
  · rw [Function.update_of_ne hcpu, copiesOf, contribution, Function.update_of_ne hcpu]
    rfl

theorem copiesOf_sup (old : Cpu → Finset TcpFlags) (cpu : Cpu) (seen : Finset TcpFlags) :
    Function.update (copiesOf old) cpu (.ofSeen (old cpu ⊔ seen)) =
      copiesOf (old ⊔ contribution cpu seen) := by
  funext cpu'
  by_cases hcpu : cpu' = cpu
  · rw [hcpu, Function.update_self, copiesOf, Pi.sup_apply, contribution, Function.update_self]
  · rw [Function.update_of_ne hcpu, copiesOf, copiesOf, Pi.sup_apply, contribution,
      Function.update_of_ne hcpu, Finset.sup_eq_union, Finset.union_empty]

theorem updateConnectionState_mapValues (m : BoundedMap FiveTuple (Cpu → Finset TcpFlags))
    (cpu : Cpu) (key : FiveTuple) (seen : Finset TcpFlags) :
    updateConnectionState cpu (m.mapValues copiesOf) key (.ofSeen seen) =
      (m.record CONNECTIONS_MAX_ENTRIES (key, contribution cpu seen)).mapValues copiesOf := by
  cases hlookup : m.lookup key with
  | none =>
    have hcopies : (m.mapValues copiesOf).lookup key = none := by
      rw [lookup_mapValues, hlookup, Option.map_none]
    rw [updateConnectionState, lookupOn, hcopies, record, hlookup]
    dsimp only [Option.map_none]
    rw [updateOn, hcopies, ← update_mapValues, ← copiesOf_contribution]
  | some old =>
    have hcopies : (m.mapValues copiesOf).lookup key = some (copiesOf old) := by
      rw [lookup_mapValues, hlookup, Option.map_some]
    rw [updateConnectionState, lookupOn, hcopies, record, hlookup]
    dsimp only [Option.map_some]
    rw [updateOn, hcopies, copiesOf, orState_ofSeen]
    dsimp only
    rw [copiesOf_sup, ← update_mapValues]

section Runs
variable {bpfRedirectMap : UInt32 → XdpAction}

variable (bpfRedirectMap) in
theorem run_eq (packets : List (Processed Cpu)) :
    run bpfRedirectMap packets =
      (recordAll CONNECTIONS_MAX_ENTRIES (packets.filterMap recorded)).mapValues copiesOf := by
  induction packets using List.reverseRecOn with
  | nil => rfl
  | append_singleton packets p ih =>
    rw [run_concat, step_eq, ih, List.filterMap_append]
    cases hobs : observation p.2 with
    | none =>
      have hnone : recorded p = none := by rw [recorded, hobs, Option.map_none]
      rw [List.filterMap_cons_none hnone, List.filterMap_nil, List.append_nil]
    | some o =>
      have hsome : recorded p = some (o.1, contribution p.1 o.2) := by
        rw [recorded, hobs, Option.map_some]
      rw [List.filterMap_cons_some hsome, List.filterMap_nil, recordAll_concat]
      exact updateConnectionState_mapValues _ _ _ _

/-- The packets of a CPU that contribute a class under a key. -/
def contributesOn (cpu : Cpu) (key : FiveTuple) (c : TcpFlags) (p : Processed Cpu) : Bool :=
  p.1 == cpu && contributes key c p.2

theorem mem_contribution {cpu cpu' : Cpu} {seen : Finset TcpFlags} {c : TcpFlags} :
    c ∈ contribution cpu seen cpu' ↔ cpu' = cpu ∧ c ∈ seen := by
  by_cases hcpu : cpu' = cpu
  · rw [hcpu, contribution, Function.update_self, eq_self, true_and]
  · rw [contribution, Function.update_of_ne hcpu]
    exact ⟨fun h => absurd h (Finset.notMem_empty c), fun h => absurd h.1 hcpu⟩

theorem mem_recorded {packets : List (Processed Cpu)} {key : FiveTuple}
    {seen : Cpu → Finset TcpFlags}
    (h : FiniteMap.recordAll (packets.filterMap recorded) key = some seen) (cpu : Cpu)
    (c : TcpFlags) : c ∈ seen cpu ↔ packets.any (contributesOn cpu key c) = true := by
  have hsup : ∀ a b : Cpu → Finset TcpFlags, c ∈ (a ⊔ b) cpu ↔ c ∈ a cpu ∨ c ∈ b cpu :=
    fun a b => Finset.mem_union
  rw [FiniteMap.recordAll_iff (P := fun seen => c ∈ seen cpu) hsup h, List.any_eq_true]
  constructor
  · rintro ⟨_, hmem, hc⟩
    obtain ⟨p, hp, hrecorded⟩ := List.mem_filterMap.mp hmem
    obtain ⟨o, hobs, heq⟩ := Option.map_eq_some_iff.mp hrecorded
    rw [Prod.mk.injEq] at heq
    obtain ⟨rfl, rfl⟩ := heq
    obtain ⟨rfl, hseen⟩ := mem_contribution.mp hc
    have hcontributes : contributes o.1 c p.2 = true := contributes_iff.mpr ⟨o.2, hobs, hseen⟩
    exact ⟨p, hp, Bool.and_eq_true_iff.mpr ⟨beq_self_eq_true _, hcontributes⟩⟩
  · rintro ⟨p, hp, hcontributes⟩
    obtain ⟨hcpu, hcontributes⟩ := Bool.and_eq_true_iff.mp hcontributes
    obtain ⟨o, hobs, hc⟩ := contributes_iff.mp hcontributes
    refine ⟨contribution p.1 o, List.mem_filterMap.mpr ⟨p, hp, ?_⟩, ?_⟩
    · rw [recorded, hobs, Option.map_some]
    · exact mem_contribution.mpr ⟨(beq_iff_eq.mp hcpu).symm, hc⟩

variable (bpfRedirectMap) in
/-- For any packets on any CPUs, also when the map fills up: a key is in the map
when it came before the map was full, and the copy of each CPU is the union of
what the packets of this CPU contributed. -/
theorem copies_hold_contributions (packets : List (Processed Cpu)) (key : FiveTuple) :
    (run bpfRedirectMap packets).lookup key =
      if BoundedMap.Admitted CONNECTIONS_MAX_ENTRIES (packets.filterMap recorded) key then
        some fun cpu =>
          { syn := bit (packets.any (contributesOn cpu key .syn))
            synack := bit (packets.any (contributesOn cpu key .synack))
            ack := bit (packets.any (contributesOn cpu key .ack))
            fin := 0
            handled := 0 }
      else none := by
  rw [run_eq, lookup_mapValues, (recordAll_recorded _ _).lookup]
  split_ifs with hadmitted
  · obtain ⟨seen, hseen⟩ :=
      Option.ne_none_iff_exists'.mp (FiniteMap.mem_dom_recordAll.mpr (mem_keysOf.mp hadmitted.1))
    rw [hseen, Option.map_some, Option.some.injEq]
    funext cpu
    simp only [copiesOf, ConnectionState.ofSeen, bit, mem_recorded hseen]
  · rfl

end Runs

/-! ## The copies together -/

/-- What a reader makes of the copies of a key. -/
def merged [Fintype Cpu] (copies : Cpu → ConnectionState) : ConnectionState where
  syn := bit (decide (∃ cpu, (copies cpu).syn ≠ 0))
  synack := bit (decide (∃ cpu, (copies cpu).synack ≠ 0))
  ack := bit (decide (∃ cpu, (copies cpu).ack ≠ 0))
  fin := bit (decide (∃ cpu, (copies cpu).fin ≠ 0))
  handled := bit (decide (∃ cpu, (copies cpu).handled ≠ 0))

theorem updateConnectionState_ofSeen (m : BoundedMap FiveTuple (Finset TcpFlags))
    (event : FiveTuple × Finset TcpFlags) :
    OrssNic.updateConnectionState (m.mapValues .ofSeen) event.1 (.ofSeen event.2) =
      (m.record CONNECTIONS_MAX_ENTRIES event).mapValues .ofSeen := by
  cases hlookup : m.lookup event.1 with
  | none =>
    have hstates : (m.mapValues ConnectionState.ofSeen).lookup event.1 = none := by
      rw [lookup_mapValues, hlookup, Option.map_none]
    rw [OrssNic.updateConnectionState, hstates, record, hlookup]
    exact update_mapValues _ _ _ _ _
  | some old =>
    have hstates : (m.mapValues ConnectionState.ofSeen).lookup event.1 = some (.ofSeen old) := by
      rw [lookup_mapValues, hlookup, Option.map_some]
    rw [OrssNic.updateConnectionState, hstates, record, hlookup]
    dsimp only
    rw [orState_ofSeen, update_mapValues]

theorem xdpRun_eq (bpfRedirectMap : UInt32 → XdpAction) (packets : List (Hook × XdpMd)) :
    xdpRun bpfRedirectMap packets =
      (recordAll CONNECTIONS_MAX_ENTRIES (packets.filterMap observation)).mapValues .ofSeen := by
  induction packets using List.reverseRecOn with
  | nil => rfl
  | append_singleton packets p ih =>
    rw [xdpRun_concat, xdpStep_eq, ih, List.filterMap_append]
    cases hobs : observation p with
    | none => rw [List.filterMap_cons_none hobs, List.filterMap_nil, List.append_nil]
    | some o =>
      rw [List.filterMap_cons_some hobs, List.filterMap_nil, recordAll_concat]
      exact updateConnectionState_ofSeen _ o

theorem recorded_keys (packets : List (Processed Cpu)) :
    (packets.filterMap recorded).map Prod.fst =
      ((packets.map Prod.snd).filterMap observation).map Prod.fst := by
  rw [List.filterMap_map, List.map_filterMap, List.map_filterMap]
  apply List.filterMap_congr
  intro p _
  rw [recorded, Option.map_map]
  rfl

theorem ofSeen_ne_zero {c : TcpFlags} {seen : Finset TcpFlags} :
    (if c ∈ seen then (1 : UInt8) else 0) ≠ 0 ↔ c ∈ seen := by
  split_ifs with hc
  · exact ⟨fun _ => hc, fun _ => by decide⟩
  · exact ⟨fun h => absurd rfl h, fun h => absurd h hc⟩

theorem bit_decide {p q : Prop} [Decidable p] [Decidable q] (h : p ↔ q) :
    bit (decide p) = if q then 1 else 0 := by
  by_cases hq : q
  · rw [bit, if_pos (decide_eq_true (h.mpr hq)), if_pos hq]
  · rw [bit, if_neg (by simpa [h] using hq), if_neg hq]

omit [DecidableEq Cpu] in
theorem merged_copiesOf [Fintype Cpu] {seen : Cpu → Finset TcpFlags} {seen' : Finset TcpFlags}
    (h : ∀ c, c ∈ seen' ↔ ∃ cpu, c ∈ seen cpu) : merged (copiesOf seen) = .ofSeen seen' := by
  have hclass : ∀ c, bit (decide (∃ cpu, (if c ∈ seen cpu then (1 : UInt8) else 0) ≠ 0)) =
      if c ∈ seen' then 1 else 0 := by
    intro c
    apply bit_decide
    rw [h c]
    exact exists_congr fun cpu => ofSeen_ne_zero
  have hnever : bit (decide (∃ _ : Cpu, (0 : UInt8) ≠ 0)) = 0 :=
    if_neg fun hcpu => (of_decide_eq_true hcpu).elim fun _ hne => hne rfl
  rw [merged, ConnectionState.ofSeen, ConnectionState.mk.injEq]
  exact ⟨hclass .syn, hclass .synack, hclass .ack, hnever, hnever⟩

/-- The copies together are the table of one CPU that processes all packets: it
does not matter which CPU gets which packet. -/
theorem merged_copies [Fintype Cpu] (bpfRedirectMap : UInt32 → XdpAction)
    (packets : List (Processed Cpu)) (key : FiveTuple) :
    ((run bpfRedirectMap packets).lookup key).map merged =
      (xdpRun bpfRedirectMap (packets.map Prod.snd)).lookup key := by
  rw [run_eq, xdpRun_eq, lookup_mapValues, lookup_mapValues, (recordAll_recorded _ _).lookup,
    (recordAll_recorded _ _).lookup, if_congr (admitted_congr (recorded_keys packets)) rfl rfl]
  split_ifs with hadmitted
  · obtain ⟨seen', hseen'⟩ :=
      Option.ne_none_iff_exists'.mp (FiniteMap.mem_dom_recordAll.mpr (mem_keysOf.mp hadmitted.1))
    obtain ⟨seen, hseen⟩ := Option.ne_none_iff_exists'.mp (FiniteMap.mem_dom_recordAll.mpr
      (mem_keysOf.mp ((admitted_congr (recorded_keys packets)).mpr hadmitted).1))
    rw [hseen, hseen', Option.map_some, Option.map_some, Option.map_some]
    refine congrArg some (merged_copiesOf fun c => ?_)
    rw [mem_of_seenIn hseen' c, List.any_map]
    simp only [mem_recorded hseen, List.any_eq_true, Function.comp_apply, contributesOn,
      Bool.and_eq_true, beq_iff_eq]
    constructor
    · rintro ⟨p, hp, hcontributes⟩
      exact ⟨p.1, p, hp, rfl, hcontributes⟩
    · rintro ⟨cpu, p, hp, -, hcontributes⟩
      exact ⟨p, hp, hcontributes⟩
  · rfl

end PerCpuConnections

end OrssNic
