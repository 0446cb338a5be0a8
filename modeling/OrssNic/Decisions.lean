import OrssNic.FullMapExit
import OrssNic.Library.Agreement

/-!
# What decides the migrations

Of all that an iteration meets, only the five-tuples and the packet counts of
its second report and the slot that its uninitialised key stands in reach the
balancer. Two runs that agree on these decide alike, whatever the connections,
the first reports, the other fields of the entries and the failures of the
writes are.
-/

namespace OrssNic
open CLoops CRuns

def sampleOf (stats : OpenflowFlowStats) : FiveTuple × UInt64 :=
  (fiveTupleOf stats, openflowOvsbe64ToUint64 stats.packetCount)

def samples (flows : OpenflowFlows) : List (FiveTuple × UInt64) :=
  (reportedStats flows).map sampleOf

section Sampling
variable {flows flows' : OpenflowFlows}

theorem sampleStep_congr {stats stats' : OpenflowFlowStats} {i : ℕ} (map : MapState)
    (hstats : flows.flowStats[i]? = some stats) (hstats' : flows'.flowStats[i]? = some stats')
    (h : sampleOf stats = sampleOf stats') :
    sampleStep flows i map = sampleStep flows' i map := by
  obtain ⟨hkey, hcount⟩ := Prod.mk.inj h
  have hread : readAt Halt.outOfBounds flows.flowStats i = .ok stats := readAt_of_getElem? hstats
  have hread' : readAt Halt.outOfBounds flows'.flowStats i = .ok stats' :=
    readAt_of_getElem? hstats'
  simp only [sampleStep, hread, hread', hkey, hcount, bind, Except.bind]

theorem samples_length (h : flows.Within) : (samples flows).length = flows.nbFlows.toNat := by
  rw [samples, List.length_map, reportedStats, List.length_take, h.size]
  exact min_eq_left h.count

theorem samples_getElem? (h : flows.Within) {i : ℕ} (hi : i < flows.nbFlows.toNat) :
    ∃ stats, flows.flowStats[i]? = some stats ∧ (samples flows)[i]? = some (sampleOf stats) := by
  have hlt : i < flows.flowStats.length := by
    rw [h.size]
    exact hi.trans_le h.count
  refine ⟨flows.flowStats[i], List.getElem?_eq_getElem hlt, ?_⟩
  rw [samples, List.getElem?_map, reportedStats, List.getElem?_take_of_lt hi,
    List.getElem?_eq_getElem hlt]
  rfl

/-- The entries behind `nbFlows` are left over from another report. -/
theorem sampleLoop_congr (h : flows.Within) (h' : flows'.Within)
    (hsamples : samples flows = samples flows') (map : MapState) :
    forLoop (sampleStep flows) flows.nbFlows.toNat map =
      forLoop (sampleStep flows') flows'.nbFlows.toNat map := by
  have hcount : flows.nbFlows.toNat = flows'.nbFlows.toNat := by
    rw [← samples_length h, hsamples, samples_length h']
  rw [← hcount]
  refine (forLoop_agree (R := fun _ => Eq) rfl ?_).eq
  rintro i map _ hi rfl
  obtain ⟨stats, hstats, hsample⟩ := samples_getElem? h hi
  obtain ⟨stats', hstats', hsample'⟩ := samples_getElem? h' (hcount ▸ hi)
  rw [hsamples, hsample', Option.some.injEq] at hsample
  rw [sampleStep_congr map hstats hstats' hsample.symm]
  exact agree_self fun _ _ => rfl

end Sampling

section Balancing
variable {hashmap : HashMap} {key key' : FiveTuple}

theorem hashmapGetNext_congr (hinv : hashmap.Inv)
    (h : hashmap.walkIndex key = hashmap.walkIndex key') :
    hashmapGetNext hashmap key = hashmapGetNext hashmap key' := by
  rw [hashmapGetNext_slot hinv, hashmapGetNext_slot hinv, h]

/-- The walk forgets the key that it started from with its first step. -/
theorem balancerComputeRepartition_congr (hinv : hashmap.Inv)
    (h : hashmap.walkIndex key = hashmap.walkIndex key') (heap : Heap RingBuffer)
    (nbCores : UInt8) :
    balancerComputeRepartition hashmap heap key nbCores =
      balancerComputeRepartition hashmap heap key' nbCores := by
  have hstep : ∀ coreLoad, repartitionStep hashmap heap (key, coreLoad) =
      repartitionStep hashmap heap (key', coreLoad) := by
    intro coreLoad
    simp only [repartitionStep, hashmapGetNext_congr hinv h]
  rw [balancerComputeRepartition, balancerComputeRepartition, whileLoop, whileLoop, hstep]
  cases repartitionStep hashmap heap (key', List.replicate nbCores.toNat CoreLoad.zeroed) with
  | error e => rfl
  | ok next =>
    cases next with
    | none => rfl
    | some s => rfl

theorem balancerBalance_congr (hinv : hashmap.Inv)
    (h : hashmap.walkIndex key = hashmap.walkIndex key') (heap : Heap RingBuffer) (nbCores : ℕ)
    (migrations : List Migration) :
    balancerBalance hashmap heap key nbCores migrations =
      balancerBalance hashmap heap key' nbCores migrations := by
  rw [balancerBalance, balancerBalance, balancerComputeRepartition_congr hinv h]

end Balancing

/-! ## Two runs -/

theorem getMigrations_congr {flows flows' : OpenflowFlows} {map map' : MapState}
    {key key' : FiveTuple} {migrations : List Migration} (hlive : map.Live) (h : flows.Within)
    (h' : flows'.Within) (hsamples : samples flows = samples flows')
    (hget : getMigrations flows map key [] = .ok (map', migrations))
    (hkey : map'.hashmap.walkIndex key = map'.hashmap.walkIndex key') :
    getMigrations flows' map key' [] = .ok (map', migrations) := by
  obtain ⟨sampled, hloop, hget⟩ := bind_eq_ok.mp hget
  obtain ⟨⟨heap, migrations'⟩, hbalance, hget⟩ := bind_eq_ok.mp hget
  cases hget
  have hsound := (sampleLoop_correct hlive.toSound hloop).1
  rw [sampleLoop_congr h h' hsamples] at hloop
  rw [balancerBalance_congr hsound.inv hkey] at hbalance
  exact bind_eq_ok.mpr ⟨sampled, hloop, bind_eq_ok.mpr ⟨(heap, migrations), hbalance, rfl⟩⟩

/-- What the balancer of an iteration gets to see, in two iterations. -/
structure SeenAlike (p p' : Surroundings × Iteration) : Prop where
  samples : samples p.2.flows = samples p'.2.flows
  /-- The uninitialised keys stand in the same slot, or in none. -/
  previousKey : p.2.after.map.hashmap.walkIndex p.1.previousKey =
    p.2.after.map.hashmap.walkIndex p'.1.previousKey

instance : DecidableRel SeenAlike := fun p p' =>
  decidable_of_iff (OrssNic.samples p.2.flows = OrssNic.samples p'.2.flows ∧
      p.2.after.map.hashmap.walkIndex p.1.previousKey =
        p.2.after.map.hashmap.walkIndex p'.1.previousKey)
    ⟨fun h => ⟨h.1, h.2⟩, fun h => ⟨h.samples, h.previousKey⟩⟩

structure Iteration.DecidesAs (r r' : Iteration) : Prop where
  migrations : r.migrations = r'.migrations
  map : r.after.map = r'.after.map

theorem iteration_decision {s : MainState} {i : Surroundings} {r : Iteration} (hlive : s.map.Live)
    (hok : iteration s i = .ok r) :
    r.flows.Within ∧ r.after.map.Live ∧
      getMigrations r.flows s.map i.previousKey [] = .ok (r.after.map, r.migrations) := by
  have hquery : ∃ q, queryFlows s i = .ok q ∧ concludeIteration s i q = .ok r := by
    rw [iteration_eq] at hok
    exact bind_eq_ok.mp hok
  obtain ⟨q, hq, hconclude⟩ := hquery
  obtain ⟨⟨map, migrations⟩, hget, hrest⟩ := bind_eq_ok.mp hconclude
  obtain ⟨freed, -, hrest⟩ := bind_eq_ok.mp hrest
  have hlive' := getMigrations_live hlive hget
  have hcleanup := hashmapCleanup_active fun e he => hlive'.isActive he
  rw [hcleanup] at hrest
  cases hrest
  exact ⟨queryFlows_within hq, hlive', hget⟩

theorem iteration_decides {s s' : MainState} {i i' : Surroundings} {r r' : Iteration}
    (hlive : s.map.Live) (hmap : s.map = s'.map) (hok : iteration s i = .ok r)
    (hok' : iteration s' i' = .ok r') (h : SeenAlike (i, r) (i', r')) : r.DecidesAs r' := by
  obtain ⟨hwithin, -, hget⟩ := iteration_decision hlive hok
  obtain ⟨hwithin', -, hget'⟩ := iteration_decision (hmap ▸ hlive) hok'
  have hsame := getMigrations_congr hlive hwithin hwithin' h.samples hget h.previousKey
  rw [hmap, hget', Except.ok.injEq, Prod.mk.injEq] at hsame
  exact ⟨hsame.2.symm, hsame.1.symm⟩

section Runs
variable {connection connection' : OpenflowConnection} {xid xid' : UInt32}
variable {inputs inputs' : List Surroundings} {rs rs' : List Iteration}

/-- Two runs in which the balancer gets to see the same decide alike, in every
iteration. -/
theorem decisions_agree (h : mainLoop connection xid inputs = .ok rs)
    (h' : mainLoop connection' xid' inputs' = .ok rs')
    (hseen : List.Forall₂ SeenAlike (inputs.zip rs) (inputs'.zip rs')) :
    List.Forall₂ Iteration.DecidesAs rs rs' := by
  refine trace_lockstep (R := fun s s' => s.map.Live ∧ s.map = s'.map) ?_ ⟨.start, rfl⟩ h h' hseen
  intro s s' i i' r r' hs hok hok' hsee
  obtain ⟨hlive, hmap⟩ := hs
  have hdecides := iteration_decides hlive hmap hok hok' hsee
  exact ⟨hdecides, (iteration_decision hlive hok).2.1, hdecides.map⟩

/-- The flows of `pausingFlows` with other actions and byte counts, under other
transaction ids, and with writes that fail. -/
def otherFlows : List Surroundings :=
  let entries := [taggedEntry 80 100, taggedEntry 443 100].map fun entry =>
    { entry with byteCount := 7, actions := [.output 2 65535] }
  [{ answering 40 entries with
      writes := [true, true, false]
      previousKey := { (default : FiveTuple) with srcIp := 9 } },
    answering 52 entries]

theorem decisions_agree_pausing : ∃ rs rs',
    mainLoop idleConnection 5 pausingFlows = .ok rs ∧
      mainLoop idleConnection 40 otherFlows = .ok rs' ∧
      (rs.map fun r => r.flowMods.length) = [10, 0] ∧
      (rs'.map fun r => r.flowMods.length) = [9, 0] ∧
      List.Forall₂ Iteration.DecidesAs rs rs' := by
  have hrun : returns (mainLoop idleConnection 5 pausingFlows >>= fun rs =>
      mainLoop idleConnection 40 otherFlows >>= fun rs' => .ok (rs, rs')) (fun p => decide (
      (p.1.map fun r => r.flowMods.length) = [10, 0] ∧
      (p.2.map fun r => r.flowMods.length) = [9, 0] ∧
      List.Forall₂ SeenAlike (pausingFlows.zip p.1) (otherFlows.zip p.2))) = true := by
    decide +kernel
  obtain ⟨p, hok, htest⟩ := exists_of_returns hrun
  obtain ⟨rs, hrs, hok⟩ := bind_eq_ok.mp hok
  obtain ⟨rs', hrs', hok⟩ := bind_eq_ok.mp hok
  cases hok
  obtain ⟨hcount, hcount', hseen⟩ := of_decide_eq_true htest
  exact ⟨rs, rs', hrs, hrs', hcount, hcount', decisions_agree hrs hrs' hseen⟩

end Runs

end OrssNic
