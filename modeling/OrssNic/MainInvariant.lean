import OrssNic.OpenflowWrites
import OrssNic.Sampling
import OrssNic.BalancerInvariant

/-!
# The invariant of the main loop

`Live` holds in front of every iteration: the map has no holes and no shared
ring buffers, every flow is active and on one of the cores. `Iterates` says
everything that an iteration does to the map and to the record of the writes.
-/

namespace OrssNic
open CLoops CRuns Placement

structure MapState.Live (map : MapState) : Prop extends Sound map where
  active : ∀ (key : FiveTuple) (rb : RingBuffer), map.ring key = some rb → rb.isActive = true
  cores : ∀ key, coreOf map.ring key < NB_CORES

namespace MapState
variable {map map' : MapState}

theorem assignment_eq_coreOf (map : MapState) :
    assignment map.hashmap map.heap = coreOf map.ring :=
  funext map.assignment_eq_ring

theorem Live.start : Live ⟨hashmapInit, Heap.empty⟩ where
  toSound := .start
  active := by
    intro key rb h
    rw [ring_start] at h
    cases h
  cores := by
    intro key
    rw [ring_start]
    change 0 < NB_CORES
    decide

theorem Live.assigned (h : map.Live) : Assigned map.hashmap map.heap NB_CORES := by
  intro e he
  rw [← assignment_of_mem h.inv _ he, assignment_eq_coreOf]
  exact h.cores e.1

theorem Live.isActive (h : map.Live) {e : FiveTuple × Ref} (he : e ∈ map.hashmap.entries) :
    (map.heap.cell e.2).isActive = true :=
  h.active e.1 _ (ring_of_mem h.inv he)

theorem Live.sampled {report : List OpenflowFlowStats} (h : map.Live) (hs : map'.Sound)
    (hring : map'.ring = report.foldl sample map.ring) : map'.Live where
  toSound := hs
  active := hring ▸ foldl_sample_active h.active
  cores := by
    rw [hring, coreOf_foldl_sample]
    exact h.cores

theorem Live.balanced {heap : Heap RingBuffer} (h : map.Live)
    (hsamples : SameSamples map.heap heap) (hassigned : Assigned map.hashmap heap NB_CORES) :
    Live ⟨map.hashmap, heap⟩ where
  inv := h.inv
  isPrefix := h.isPrefix
  refs := h.refs
  fresh := by
    intro e he
    rw [hsamples.next]
    exact h.fresh e he
  active := by
    intro key rb hrb
    obtain ⟨r, hr, rfl⟩ := (ring_eq_some h.inv).mp hrb
    rw [hsamples.isActive]
    exact h.isActive hr
  cores := by
    intro key
    rw [coreOf]
    cases hring : ring ⟨map.hashmap, heap⟩ key with
    | none =>
      change 0 < NB_CORES
      decide
    | some rb =>
      obtain ⟨r, hr, rfl⟩ := (ring_eq_some h.inv).mp hring
      exact hassigned _ hr

end MapState

def Iteration.flowMods (r : Iteration) : List OpenflowFlowModMessage :=
  (OrssNic.flowMods r.after.connection.fd.sent).drop
    (OrssNic.flowMods r.before.connection.fd.sent).length

def balanceStart (map : MapState) (coreLoad : Repartition) : BalanceState :=
  ⟨map.heap, coreLoad, []⟩

structure Iteration.Iterates (r : Iteration) (sampled : MapState) (flows : List (FiveTuple × Ref))
    (coreLoad : Repartition) (s : BalanceState) : Prop where
  before : r.before.map.Live
  sampling : forLoop (sampleStep r.flows) r.flows.nbFlows.toNat r.before.map = .ok sampled
  live : sampled.Live
  ring : sampled.ring = (reportedStats r.flows).foldl sample r.before.map.ring
  visited : flows.Sublist sampled.hashmap.entries
  computed : ∃ previousKey, balancerComputeRepartition sampled.hashmap sampled.heap previousKey
    (UInt8.ofNat NB_CORES) = .ok coreLoad
  cores : Exact (· ∈ flows) sampled.heap NB_CORES coreLoad
  reaches : Reaches (balanceStep NB_CORES) (balanceStart sampled coreLoad) s
  stops : balanceStep NB_CORES s = .ok none
  balancing : Balancing sampled.hashmap flows sampled.heap NB_CORES s
  migrations : s.migrations = r.migrations
  after : r.after.map = ⟨sampled.hashmap, s.heap⟩
  afterLive : r.after.map.Live
  writes : Written r.before.connection.fd r.after.connection.fd r.migrations r.flowMods

theorem getMigrations_correct {flows : OpenflowFlows} {map map' : MapState}
    {previousKey : FiveTuple} {migrations : List Migration} (h : map.Live)
    (hok : getMigrations flows map previousKey [] = .ok (map', migrations)) :
    ∃ sampled visited coreLoad s,
      forLoop (sampleStep flows) flows.nbFlows.toNat map = .ok sampled ∧ sampled.Live ∧
      sampled.ring = (reportedStats flows).foldl sample map.ring ∧
      visited.Sublist sampled.hashmap.entries ∧
      balancerComputeRepartition sampled.hashmap sampled.heap previousKey
        (UInt8.ofNat NB_CORES) = .ok coreLoad ∧
      Exact (· ∈ visited) sampled.heap NB_CORES coreLoad ∧
      Reaches (balanceStep NB_CORES) (balanceStart sampled coreLoad) s ∧
      balanceStep NB_CORES s = .ok none ∧
      Balancing sampled.hashmap visited sampled.heap NB_CORES s ∧ s.migrations = migrations ∧
      map' = ⟨sampled.hashmap, s.heap⟩ ∧ map'.Live := by
  obtain ⟨sampled, hloop, hok⟩ := bind_eq_ok.mp hok
  obtain ⟨⟨heap, migrations'⟩, hbalance, hok⟩ := bind_eq_ok.mp hok
  cases hok
  obtain ⟨hsound, hring⟩ := sampleLoop_correct h.toSound hloop
  have hlive := h.sampled hsound hring
  obtain ⟨coreLoad, s, hcompute, hreach, hstop, rfl, rfl, hs⟩ := balancerBalance_correct
    (by decide) (by decide) hlive.inv hlive.isPrefix hlive.refs hlive.assigned hbalance
  have hcores := balancerComputeRepartition_correct (by decide) hlive.inv hlive.isPrefix
    hlive.assigned hcompute
  exact ⟨sampled, _, coreLoad, s, hloop, hlive, hring, List.drop_sublist _ _, hcompute, hcores,
    hreach, hstop, hs, rfl, rfl, hlive.balanced hs.samples (hs.assigned hlive.inv hlive.assigned)⟩

theorem getMigrations_live {flows : OpenflowFlows} {map map' : MapState}
    {previousKey : FiveTuple} {migrations : List Migration} (h : map.Live)
    (hok : getMigrations flows map previousKey [] = .ok (map', migrations)) : map'.Live := by
  obtain ⟨-, -, -, -, -, -, -, -, -, -, -, -, -, -, -, hlive⟩ := getMigrations_correct h hok
  exact hlive

theorem getMigrations_total {flows : OpenflowFlows} {map : MapState} (previousKey : FiveTuple)
    (h : map.Live) (hnb : flows.nbFlows.toNat ≤ flows.flowStats.length)
    (hroom : (map.demand flows).card < HASHMAP_SIZE) :
    ∃ map' migrations, getMigrations flows map previousKey [] = .ok (map', migrations) := by
  obtain ⟨sampled, hloop⟩ := sampleLoop_total h.toSound.held hnb hroom.le
  obtain ⟨hsound, hring⟩ := sampleLoop_correct h.toSound hloop
  have hlive := h.sampled hsound hring
  have hlength := entries_length_eq_demand hsound.inv hring
  obtain ⟨heap, migrations, hbalance⟩ := balancerBalance_total previousKey (by decide) (by decide)
    hlive.inv hlive.isPrefix (hlength.trans_lt hroom) hlive.refs hlive.assigned
  refine ⟨⟨sampled.hashmap, heap⟩, migrations, ?_⟩
  exact bind_eq_ok.mpr ⟨sampled, hloop, bind_eq_ok.mpr ⟨(heap, migrations), hbalance, rfl⟩⟩

theorem iteration_spec {s : MainState} {i : Surroundings} {r : Iteration} (h : s.map.Live)
    (hok : iteration s i = .ok r) :
    r.before = s ∧ ∃ sampled flows coreLoad t, r.Iterates sampled flows coreLoad t := by
  obtain ⟨connection, r₁, r₂, map, migrations, freed, hcontrol, hfirst, hsecond, hget, -, hr⟩ :=
    iteration_ok hok
  obtain ⟨sampled, visited, coreLoad, t, hloop, hlive, hring, hvisited, hcompute, hcores, hreach,
    hstop, hs, rfl, rfl, hlive'⟩ := getMigrations_correct h hget
  have hcleanup := hashmapCleanup_active fun e he => hlive'.isActive he
  have hquiet : Quiet s.connection.fd r₂.connection.fd :=
    ((⟨rfl, rfl⟩ : Quiet s.connection.fd (s.connection.meets i).fd).trans
      (openflowControl_quiet hcontrol)).trans
      ((openflowGetFlows_quiet hfirst).trans (openflowGetFlows_quiet hsecond))
  obtain ⟨new, hnew⟩ := applyMigrations_written r₂.connection.fd r₂.transactionId
    fun m hm => (hs.moved m hm).1
  rw [hcleanup] at hr
  subst hr
  exact ⟨rfl, sampled, visited, coreLoad, t, h, hloop, hlive, hring, hvisited, ⟨_, hcompute⟩,
    hcores, hreach, hstop, hs, rfl, rfl, hlive', (hnew.quiet hquiet).drop⟩

end OrssNic
