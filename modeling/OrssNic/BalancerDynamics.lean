import OrssNic.BalancerGreedy
import OrssNic.LoadArithmetic
import OrssNic.Library.Dominance

/-!
# What the balancer does from one iteration to the next

A call of `balancer_balance` is silent exactly when the loads are already near
their average, and then it stays silent while the loads stay the same. With a
flow that outweighs all others it never is: every call uses up its iterations
on this flow, and leaves the others alone.
-/

namespace OrssNic
open CLoops CRuns Placement

/-- The loads for which the loop of `balancer_balance` stops. -/
def NearAverage (hashmap : HashMap) (heap : Heap RingBuffer) (nbCores : ℕ) : Prop :=
  ∀ c < nbCores, 9 * (totalLoad hashmap heap / nbCores) ≤ 10 * coreTotal hashmap heap c ∧
    10 * coreTotal hashmap heap c ≤ 11 * (totalLoad hashmap heap / nbCores)

section Congr
variable {hashmap hashmap' : HashMap} {heap heap' : Heap RingBuffer} {nbCores : ℕ}

theorem weight_eq_zero {key : FiveTuple} (heap : Heap RingBuffer) (h : key ∉ hashmap.keys) :
    weight hashmap heap key = 0 := by
  rw [weight, HashMap.lookup_eq_none.mpr h]

theorem weight_support (hashmap : HashMap) (heap : Heap RingBuffer) :
    ∀ k ∉ hashmap.keys.toFinset, weight hashmap heap k = 0 :=
  fun _ hk => weight_eq_zero heap (mt List.mem_toFinset.mpr hk)

theorem totalLoad_congr (hinv : hashmap.Inv) (hinv' : hashmap'.Inv)
    (hweight : weight hashmap' heap' = weight hashmap heap) :
    totalLoad hashmap' heap' = totalLoad hashmap heap := by
  rw [← sum_weight hinv, ← sum_weight hinv', hweight]
  exact sum_eq_of_support (hweight ▸ weight_support hashmap' heap') (weight_support hashmap heap)

theorem coreTotal_congr (hinv : hashmap.Inv) (hinv' : hashmap'.Inv)
    (hweight : weight hashmap' heap' = weight hashmap heap)
    (hassignment : assignment hashmap' heap' = assignment hashmap heap) (c : ℕ) :
    coreTotal hashmap' heap' c = coreTotal hashmap heap c := by
  rw [← load_eq_coreTotal hinv, ← load_eq_coreTotal hinv', hweight, hassignment]
  exact load_eq_of_support (hweight ▸ weight_support hashmap' heap')
    (weight_support hashmap heap) c

end Congr

theorem NearAverage.congr {hashmap hashmap' : HashMap} {heap heap' : Heap RingBuffer}
    {nbCores : ℕ} (hinv : hashmap.Inv) (hinv' : hashmap'.Inv)
    (hweight : weight hashmap' heap' = weight hashmap heap)
    (hassignment : assignment hashmap' heap' = assignment hashmap heap)
    (h : NearAverage hashmap heap nbCores) : NearAverage hashmap' heap' nbCores := by
  intro c hc
  rw [totalLoad_congr hinv hinv' hweight, coreTotal_congr hinv hinv' hweight hassignment]
  exact h c hc

section Silence
variable {hashmap : HashMap} {heap heap' : Heap RingBuffer} {nbCores : ℕ}
variable {previousKey : FiveTuple} {migrations : List Migration} {coreLoad : Repartition}

theorem NearAverage.not_imbalanced {scan : LoadScan} (hinv : hashmap.Inv)
    (hassigned : Assigned hashmap heap nbCores) (hsum : totalLoad hashmap heap < 2 ^ 64)
    (hcores : Exact (· ∈ hashmap.entries) heap nbCores coreLoad)
    (hdesc : scan.Describes coreLoad) (h : NearAverage hashmap heap nbCores) :
    scan.imbalanced = false := by
  have haverage := hcores.average_eq hinv hassigned hsum hdesc
  obtain ⟨big, hbig, hbigLoad⟩ := hdesc.biggest
  obtain ⟨small, hsmall, hsmallLoad⟩ := hdesc.smallest
  have hbigNear := (h _ (hcores.length ▸ (List.getElem?_eq_some_iff.mp hbig).1)).2
  have hsmallNear := (h _ (hcores.length ▸ (List.getElem?_eq_some_iff.mp hsmall).1)).1
  rw [← hcores.load_eq_coreTotal hinv hsum hbig, hbigLoad, ← haverage] at hbigNear
  rw [← hcores.load_eq_coreTotal hinv hsum hsmall, hsmallLoad, ← haverage] at hsmallNear
  rw [← Bool.not_eq_true, scan.imbalanced_iff]
  omega

theorem Balanceable.silent (hpos : 1 ≤ nbCores) (hn : nbCores ≤ 255)
    (h : Balanceable hashmap heap nbCores previousKey) (hnear : NearAverage hashmap heap nbCores)
    (hok : balancerBalance hashmap heap previousKey nbCores [] = .ok (heap', migrations)) :
    heap' = heap ∧ migrations = [] := by
  obtain ⟨hinv, hp, hroom, hrefs, hassigned, hsum, hkey⟩ := h
  obtain ⟨coreLoad, s, hcompute, hreach, hstop, rfl, rfl, hs⟩ :=
    balancerBalance_correct hpos hn hinv hp hrefs hassigned hok
  have hcores := balancerComputeRepartition_correct hn hinv hp hassigned hcompute
  rw [HashMap.walkIndex_absent hkey, List.drop_zero] at hcores
  have hfirst : balanceStep nbCores ⟨heap, coreLoad, []⟩ = .ok none := by
    rcases balanceStep_cases (s := ⟨heap, coreLoad, []⟩) hpos hn hrefs hashmap.entries_length_le
      hcores with ⟨hstop, -⟩ | ⟨scan, e, s', -, hm, -⟩
    · exact hstop
    · have hnot := hnear.not_imbalanced hinv hassigned hsum hcores hm.describes
      rw [hm.imbalanced] at hnot
      cases hnot
  rcases Relation.ReflTransGen.cases_head hreach with hsame | ⟨s', hstep, -⟩
  · rw [← hsame]
    exact ⟨rfl, rfl⟩
  · cases hfirst.symm.trans hstep

end Silence

/-- The load of a core without that of one flow. -/
def othersTotal (hashmap : HashMap) (heap : Heap RingBuffer) (key : FiveTuple) (c : ℕ) : ℕ :=
  load (hashmap.keys.toFinset.erase key) (weight hashmap heap) (assignment hashmap heap) c

section Elephant
variable {hashmap : HashMap} {heap heap' : Heap RingBuffer} {nbCores : ℕ}
variable {previousKey : FiveTuple} {migrations : List Migration} {key : FiveTuple}

theorem Balanceable.dominates (h : Balanceable hashmap heap nbCores previousKey)
    (hkey : key ∈ hashmap.keys) (hheavy : totalLoad hashmap heap < 2 * weight hashmap heap key) :
    Dominates hashmap.keys.toFinset (weight hashmap heap) key := by
  rw [dominates_iff (List.mem_toFinset.mpr hkey), sum_weight h.inv]
  exact hheavy

/-- With a flow that is too heavy for every core, no placement is near the average. -/
theorem not_nearAverage (hinv : hashmap.Inv) (hassigned : Assigned hashmap heap nbCores)
    (hkey : key ∈ hashmap.keys)
    (hheavy : 11 * (totalLoad hashmap heap / nbCores) < 10 * weight hashmap heap key) :
    ¬NearAverage hashmap heap nbCores := by
  intro hnear
  obtain ⟨e, he, rfl⟩ := List.mem_map.mp hkey
  have hcore : assignment hashmap heap e.1 < nbCores :=
    (assignment_of_mem hinv heap he).trans_lt (hassigned e he)
  have hload := weight_le_load (w := weight hashmap heap) (A := assignment hashmap heap)
    (List.mem_toFinset.mpr hkey)
  rw [load_eq_coreTotal hinv] at hload
  have hupper := (hnear _ hcore).2
  omega

theorem Balanceable.elephant (hpos : 3 ≤ nbCores) (hn : nbCores ≤ 255)
    (h : Balanceable hashmap heap nbCores previousKey) (hkey : key ∈ hashmap.keys)
    (hheavy : totalLoad hashmap heap < 2 * weight hashmap heap key)
    (hok : balancerBalance hashmap heap previousKey nbCores [] = .ok (heap', migrations)) :
    migrations.length = MAX_REBALANCE_ITERATIONS ∧ (∀ m ∈ migrations, m.key = key) ∧
      (∀ other, other ≠ key → assignment hashmap heap' other = assignment hashmap heap other) ∧
      ∀ before m later, migrations = before ++ m :: later → m.destinationCore < nbCores ∧
        m.destinationCore ≠ replay (assignment hashmap heap) (moves before) key ∧
        ∀ c < nbCores, c ≠ replay (assignment hashmap heap) (moves before) key →
          othersTotal hashmap heap key m.destinationCore ≤ othersTotal hashmap heap key c := by
  have hplaced : ∀ k ∈ hashmap.keys.toFinset,
      assignment hashmap heap k ∈ Finset.range nbCores := by
    intro k hk
    obtain ⟨e, he, rfl⟩ := List.mem_map.mp (List.mem_toFinset.mp hk)
    rw [assignment_of_mem h.inv heap he, Finset.mem_range]
    exact h.assigned e he
  obtain ⟨_, _, hok', hsamples, hreplay, hgreedy, hexit⟩ := h.greedyRun (by omega) hn
  rw [hok, Except.ok.injEq, Prod.mk.injEq] at hok'
  obtain ⟨rfl, rfl⟩ := hok'
  have hdominates := h.dominates hkey hheavy
  have hall := hdominates.run hplaced hgreedy
  have htotal : totalLoad hashmap heap' = totalLoad hashmap heap := by
    rw [totalLoad, totalLoad, hsamples.flowLoad]
  refine ⟨hexit.resolve_right ?_, ?_, ?_, ?_⟩
  · have hassigned : Assigned hashmap heap' nbCores := by
      intro e he
      rw [← assignment_of_mem h.inv _ he, hreplay, ← Finset.mem_range]
      exact hgreedy.mapsTo hplaced _ (List.mem_toFinset.mpr (HashMap.mem_keys.mpr ⟨e.2, he⟩))
    refine not_nearAverage h.inv hassigned hkey ?_
    rw [htotal, hsamples.weight]
    have haverage : totalLoad hashmap heap / nbCores ≤ totalLoad hashmap heap / 3 :=
      Nat.div_le_div_left hpos (by decide)
    omega
  · intro m hm
    exact hall (m.key, m.destinationCore) (List.mem_map_of_mem hm)
  · intro other hother
    rw [hreplay]
    exact replay_of_forall_eq hall hother
  · rintro before m later rfl
    rw [moves, List.map_append, List.map_cons] at hgreedy
    obtain ⟨hcore, hleaves, hleast⟩ := hdominates.target hplaced hgreedy
    refine ⟨Finset.mem_range.mp hcore, hleaves, fun c hc hne => ?_⟩
    exact hleast c (Finset.mem_range.mpr hc) hne

end Elephant

/-! ## In the main loop -/

theorem HashMap.IsPrefix.room {hashmap : HashMap} {key : FiveTuple} (hp : hashmap.IsPrefix)
    (h : hashmap.WalkEnds key) : hashmap.entries.length < HASHMAP_SIZE := by
  obtain ⟨slot, hslot, hfree⟩ := h
  obtain ⟨i, hi⟩ := List.mem_iff_getElem?.mp (List.mem_of_mem_drop hslot)
  have hlt := (List.getElem?_eq_some_iff.mp hi).1
  rw [hashmap.allocated] at hlt
  have hnot := (not_congr (hp i slot hi)).mp (by rw [hfree]; decide)
  omega

theorem room_of_computed {hashmap : HashMap} {heap : Heap RingBuffer} {previousKey : FiveTuple}
    {coreLoad : Repartition} (hinv : hashmap.Inv) (hp : hashmap.IsPrefix)
    (hassigned : Assigned hashmap heap NB_CORES)
    (hok : balancerComputeRepartition hashmap heap previousKey (UInt8.ofNat NB_CORES) =
      .ok coreLoad) : hashmap.entries.length < HASHMAP_SIZE := by
  rcases balancerComputeRepartition_walk previousKey (by decide) hinv fun e he =>
    hassigned e ((hashmap.walk_sublist previousKey).subset he) with
    ⟨-, herror⟩ | ⟨hends, -⟩
  · cases hok.symm.trans herror
  · exact hp.room hends

structure Iteration.Balances (r : Iteration) (previousKey : FiveTuple) (sampled : MapState) :
    Prop where
  live : sampled.Live
  hashmap : r.after.map.hashmap = sampled.hashmap
  samples : SameSamples sampled.heap r.after.map.heap
  assignment : OrssNic.assignment sampled.hashmap sampled.heap =
    OrssNic.assignment r.before.map.hashmap r.before.map.heap
  balance : balancerBalance sampled.hashmap sampled.heap previousKey NB_CORES [] =
    .ok (r.after.map.heap, r.migrations)
  room : sampled.hashmap.entries.length < HASHMAP_SIZE
  writes : Written r.before.connection.fd r.after.connection.fd r.migrations r.flowMods

theorem iteration_balances {s : MainState} {i : Surroundings} {r : Iteration} (h : s.map.Live)
    (hok : iteration s i = .ok r) : ∃ sampled, r.Balances i.previousKey sampled := by
  obtain ⟨rfl, sampled, flows, coreLoad, t, hr⟩ := iteration_spec h hok
  obtain ⟨connection, r₁, r₂, map, migrations, freed, -, -, -, hget, -, hcalls⟩ := iteration_ok hok
  obtain ⟨sampled', hloop, hget⟩ := bind_eq_ok.mp hget
  obtain ⟨⟨heap, migrations'⟩, hbalance, hret⟩ := bind_eq_ok.mp hget
  cases hret
  have hflows : r.flows = r₂.flows := congrArg Iteration.flows hcalls
  have hsampled : sampled' = sampled := by
    have hsampling := hr.sampling
    rw [hflows, hloop, Except.ok.injEq] at hsampling
    exact hsampling
  subst hsampled
  obtain ⟨coreLoad', s, hcompute, -, -, rfl, rfl, hs⟩ := balancerBalance_correct (by decide)
    (by decide) hr.live.inv hr.live.isPrefix hr.live.refs hr.live.assigned hbalance
  have hlive := hr.live.balanced hs.samples (hs.assigned hr.live.inv hr.live.assigned)
  have hmap : r.after.map = ⟨sampled'.hashmap, s.heap⟩ := by
    have hafter := congrArg (fun r : Iteration => r.after.map) hcalls
    rwa [hashmapCleanup_active fun e he => hlive.isActive he] at hafter
  have hmigrations : r.migrations = s.migrations := congrArg Iteration.migrations hcalls
  refine ⟨sampled', hr.live, ?_, ?_, hr.sampled_assignment, ?_, ?_, hr.writes⟩
  · rw [hmap]
  · rw [hmap]
    exact hs.samples
  · rw [hmap, hmigrations]
    exact hbalance
  · exact room_of_computed hr.live.inv hr.live.isPrefix hr.live.assigned hcompute

namespace Iteration.Balances
variable {r : Iteration} {previousKey : FiveTuple} {sampled : MapState}

theorem totalLoad_eq (h : r.Balances previousKey sampled) :
    totalLoad r.after.map.hashmap r.after.map.heap = totalLoad sampled.hashmap sampled.heap := by
  rw [totalLoad, totalLoad, h.hashmap, h.samples.flowLoad]

theorem weight_eq (h : r.Balances previousKey sampled) :
    weight r.after.map.hashmap r.after.map.heap = weight sampled.hashmap sampled.heap := by
  rw [h.hashmap, h.samples.weight]

theorem balanceable (h : r.Balances previousKey sampled)
    (hkey : previousKey ∉ r.after.map.hashmap.keys)
    (hloads : totalLoad r.after.map.hashmap r.after.map.heap < 2 ^ 64) :
    Balanceable sampled.hashmap sampled.heap NB_CORES previousKey where
  inv := h.live.inv
  isPrefix := h.live.isPrefix
  room := h.room
  refs := h.live.refs
  assigned := h.live.assigned
  loads := h.totalLoad_eq ▸ hloads
  fresh := h.hashmap ▸ hkey

theorem nearAverage (h : r.Balances previousKey sampled)
    (hkey : previousKey ∉ r.after.map.hashmap.keys)
    (hloads : totalLoad r.after.map.hashmap r.after.map.heap < 2 ^ 64)
    (hsettled : r.migrations.length < MAX_REBALANCE_ITERATIONS) :
    NearAverage r.after.map.hashmap r.after.map.heap NB_CORES := by
  obtain ⟨heap', migrations, hok, -, -, -, hexit⟩ :=
    (h.balanceable hkey hloads).greedyRun (by decide) (by decide)
  rw [h.balance, Except.ok.injEq, Prod.mk.injEq] at hok
  obtain ⟨rfl, rfl⟩ := hok
  rw [h.hashmap]
  exact hexit.resolve_left hsettled.ne

theorem flowMods_nil (h : r.Balances previousKey sampled) (hnone : r.migrations = []) :
    r.flowMods = [] := by
  have hsublist := h.writes.sublist
  rw [hnone] at hsublist
  exact List.map_eq_nil_iff.mp (List.sublist_nil.mp hsublist)

end Iteration.Balances

section Runs
variable {connection : OpenflowConnection} {transactionId : UInt32}
variable {inputs : List Surroundings} {rs : List Iteration}

theorem mainLoop_balances (h : mainLoop connection transactionId inputs = .ok rs) {n : ℕ}
    {i : Surroundings} {r : Iteration} (hi : inputs[n]? = some i) (hr : rs[n]? = some r) :
    r.after.map.Live ∧ ∃ sampled, r.Balances i.previousKey sampled := by
  obtain ⟨s, hlive, -, hok⟩ := mainLoop_history h hi hr
  obtain ⟨-, sampled, flows, coreLoad, t, hiter⟩ := iteration_spec hlive hok
  exact ⟨hiter.afterLive, iteration_balances hlive hok⟩

/-- A flow that outweighs all others together gets all the `FLOW_MOD`s of the
iteration, as many as there can be, and the other flows stay where they are: it
only changes places with the cores that these load least. -/
theorem elephant_flow_mods (h : mainLoop connection transactionId inputs = .ok rs) {n : ℕ}
    {i : Surroundings} {r : Iteration} (hi : inputs[n]? = some i) (hr : rs[n]? = some r)
    (hprevious : i.previousKey ∉ r.after.map.hashmap.keys)
    (hloads : totalLoad r.after.map.hashmap r.after.map.heap < 2 ^ 64) {key : FiveTuple}
    (hheavy : totalLoad r.after.map.hashmap r.after.map.heap <
      2 * weight r.after.map.hashmap r.after.map.heap key)
    (hwrites : r.after.connection.fd.FlowModsSucceed) :
    r.flowMods.length = MAX_REBALANCE_ITERATIONS ∧
      (∀ message ∈ r.flowMods, message.fiveTuple = key) ∧
      (∀ other, other ≠ key → assignment r.after.map.hashmap r.after.map.heap other =
        assignment r.before.map.hashmap r.before.map.heap other) ∧
      ∀ before m later, r.migrations = before ++ m :: later → m.destinationCore < NB_CORES ∧
        m.destinationCore ≠
          replay (assignment r.before.map.hashmap r.before.map.heap) (moves before) key ∧
        ∀ c < NB_CORES,
          c ≠ replay (assignment r.before.map.hashmap r.before.map.heap) (moves before) key →
            othersTotal r.after.map.hashmap r.after.map.heap key m.destinationCore ≤
              othersTotal r.after.map.hashmap r.after.map.heap key c := by
  obtain ⟨-, sampled, hb⟩ := mainLoop_balances h hi hr
  have hbalanceable := hb.balanceable hprevious hloads
  rw [hb.totalLoad_eq, hb.weight_eq] at hheavy
  have hbound : key ∈ sampled.hashmap.keys := by
    by_contra hkey
    rw [weight_eq_zero sampled.heap hkey] at hheavy
    omega
  obtain ⟨hlength, hkeys, hothers, htargets⟩ :=
    hbalanceable.elephant (by decide) (by decide) hbound hheavy hb.balance
  have htotals : othersTotal r.after.map.hashmap r.after.map.heap key =
      othersTotal sampled.hashmap sampled.heap key := by
    funext c
    rw [othersTotal, othersTotal, hb.weight_eq, hb.hashmap]
    exact load_congr (fun k hk => hothers k (Finset.ne_of_mem_erase hk)) c
  have hmoves := hb.writes.all hwrites
  refine ⟨?_, ?_, ?_, ?_⟩
  · rw [← hlength, ← List.length_map (f := OpenflowFlowModMessage.move), hmoves, moves,
      List.length_map]
  · intro message hmessage
    have hmove : message.move ∈ moves r.migrations :=
      hmoves ▸ List.mem_map_of_mem hmessage
    obtain ⟨m, hm, heq⟩ := List.mem_map.mp hmove
    exact (congrArg Prod.fst heq).symm.trans (hkeys m hm)
  · intro other hother
    rw [← hb.assignment, hb.hashmap]
    exact hothers other hother
  · intro before m later hsplit
    rw [← hb.assignment, htotals]
    exact htargets before m later hsplit

theorem elephant_flow_mods_pair :
    ∃ r, mainLoop idleConnection 5 [answering 5 [taggedEntry 80 100, taggedEntry 443 10]] =
        .ok [r] ∧ r.flowMods.length = MAX_REBALANCE_ITERATIONS ∧
      (∀ message ∈ r.flowMods, message.fiveTuple = fiveTupleOf (taggedEntry 80 100).decoded) ∧
      ∀ before m later, r.migrations = before ++ m :: later → m.destinationCore < NB_CORES ∧
        m.destinationCore ≠
          replay (assignment r.before.map.hashmap r.before.map.heap) (moves before)
            (fiveTupleOf (taggedEntry 80 100).decoded) := by
  have hrun : returns (mainLoop idleConnection 5
      [answering 5 [taggedEntry 80 100, taggedEntry 443 10]]) (fun rs => decide (rs.length = 1 ∧
        ∀ r ∈ rs, default ∉ r.after.map.hashmap.keys ∧
          totalLoad r.after.map.hashmap r.after.map.heap < 2 ^ 64 ∧
          totalLoad r.after.map.hashmap r.after.map.heap <
            2 * weight r.after.map.hashmap r.after.map.heap
              (fiveTupleOf (taggedEntry 80 100).decoded) ∧
          r.after.connection.fd.FlowModsSucceed)) = true := by
    decide +kernel
  obtain ⟨rs, hrs, htest⟩ := exists_of_returns hrun
  obtain ⟨hlength, htest⟩ := of_decide_eq_true htest
  obtain ⟨r, rfl⟩ := List.length_eq_one_iff.mp hlength
  obtain ⟨hprevious, hloads, hheavy, hwrites⟩ := htest r (List.mem_singleton.mpr rfl)
  obtain ⟨hmods, hkeys, -, htargets⟩ :=
    elephant_flow_mods hrs (n := 0) rfl rfl hprevious hloads hheavy hwrites
  refine ⟨r, hrs, hmods, hkeys, fun before m later hsplit => ?_⟩
  obtain ⟨hcore, hleaves, -⟩ := htargets before m later hsplit
  exact ⟨hcore, hleaves⟩

theorem silent_step {s : MainState} {i : Surroundings} {r : Iteration} (hlive : s.map.Live)
    (hok : iteration s i = .ok r) (hprevious : i.previousKey ∉ r.after.map.hashmap.keys)
    (hloads : totalLoad s.map.hashmap s.map.heap < 2 ^ 64)
    (hweight : weight r.after.map.hashmap r.after.map.heap = weight s.map.hashmap s.map.heap)
    (hnear : NearAverage s.map.hashmap s.map.heap NB_CORES) :
    r.after.map.Live ∧ NearAverage r.after.map.hashmap r.after.map.heap NB_CORES ∧
      r.migrations = [] ∧ r.flowMods = [] := by
  obtain ⟨rfl, sampled, flows, coreLoad, t, hiter⟩ := iteration_spec hlive hok
  obtain ⟨sampled, hb⟩ := iteration_balances hlive hok
  have hsampled : NearAverage sampled.hashmap sampled.heap NB_CORES :=
    hnear.congr hlive.inv hb.live.inv (hb.weight_eq.symm.trans hweight) hb.assignment
  have htotal := totalLoad_congr hlive.inv hiter.afterLive.inv hweight
  obtain ⟨hheap, hnone⟩ := (hb.balanceable hprevious (htotal.trans_lt hloads)).silent (by decide)
    (by decide) hsampled hb.balance
  refine ⟨hiter.afterLive, ?_, hnone, hb.flowMods_nil hnone⟩
  rw [hb.hashmap, hheap]
  exact hsampled

/-- Once an iteration has come near the average, no `FLOW_MOD` is sent while
the loads stay as they are. -/
theorem settled_run_is_silent (h : mainLoop connection transactionId inputs = .ok rs) {n : ℕ}
    {r : Iteration} (hr : rs[n]? = some r)
    (hsettled : r.migrations.length < MAX_REBALANCE_ITERATIONS)
    (hloads : totalLoad r.after.map.hashmap r.after.map.heap < 2 ^ 64)
    (hsteady : ∀ m r', n ≤ m → rs[m]? = some r' →
      weight r'.after.map.hashmap r'.after.map.heap = weight r.after.map.hashmap r.after.map.heap)
    (hprevious : ∀ m i r', n ≤ m → inputs[m]? = some i → rs[m]? = some r' →
      i.previousKey ∉ r'.after.map.hashmap.keys) :
    ∀ m r', n < m → rs[m]? = some r' → r'.migrations = [] ∧ r'.flowMods = [] := by
  obtain ⟨i, hi⟩ := trace_input h hr
  obtain ⟨hlive, sampled, hb⟩ := mainLoop_balances h hi hr
  have hnear := hb.nearAverage (hprevious n i r le_rfl hi hr) hloads hsettled
  -- The loads are near their average behind every iteration from the settled one on.
  have hall : ∀ m r', n ≤ m → rs[m]? = some r' → r'.after.map.Live ∧
      NearAverage r'.after.map.hashmap r'.after.map.heap NB_CORES ∧
      (n < m → r'.migrations = [] ∧ r'.flowMods = []) := by
    intro m r' hm
    induction m, hm using Nat.le_induction generalizing r' with
    | base =>
      intro hr'
      rw [hr, Option.some.injEq] at hr'
      subst hr'
      exact ⟨hlive, hnear, fun hlt => absurd hlt (lt_irrefl n)⟩
    | succ m hm ih =>
      intro hr'
      obtain ⟨previous, hprev⟩ : ∃ previous, rs[m]? = some previous :=
        ⟨_, List.getElem?_eq_getElem (by have := (List.getElem?_eq_some_iff.mp hr').1; omega)⟩
      obtain ⟨hlive', hnear', -⟩ := ih previous hprev
      obtain ⟨i', hi', hok⟩ := trace_next h hprev hr'
      have hsame := hsteady m previous hm hprev
      have htotal := totalLoad_congr hlive.inv hlive'.inv hsame
      obtain ⟨hlive'', hnear'', hnone⟩ := silent_step hlive' hok
        (hprevious (m + 1) i' r' (by omega) hi' hr') (htotal.trans_lt hloads)
        ((hsteady (m + 1) r' (by omega) hr').trans hsame.symm) hnear'
      exact ⟨hlive'', hnear'', fun _ => hnone⟩
  intro m r' hm hr'
  exact (hall m r' hm.le hr').2.2 hm

theorem weight_ext {hashmap hashmap' : HashMap} {heap heap' : Heap RingBuffer}
    (hkeys : hashmap'.keys = hashmap.keys)
    (h : ∀ k ∈ hashmap.keys, weight hashmap' heap' k = weight hashmap heap k) :
    weight hashmap' heap' = weight hashmap heap := by
  funext k
  by_cases hk : k ∈ hashmap.keys
  · exact h k hk
  · rw [weight_eq_zero heap hk, weight_eq_zero heap' (hkeys ▸ hk)]

def eightFlows : List Surroundings :=
  [answering 5 ((List.range 8).map fun i => taggedEntry (UInt16.ofNat (80 + i)) 100),
    answering 14 ((List.range 8).map fun i => taggedEntry (UInt16.ofNat (80 + i)) 200)]

theorem settled_run_is_silent_eight :
    ∃ r r', mainLoop idleConnection 5 eightFlows = .ok [r, r'] ∧ r.migrations.length = 7 ∧
      r'.migrations = [] ∧ r'.flowMods = [] := by
  have hrun : returns (mainLoop idleConnection 5 eightFlows) (fun rs => decide (rs.length = 2 ∧
      ∀ r ∈ rs[0]?, r.migrations.length = 7 ∧
        totalLoad r.after.map.hashmap r.after.map.heap < 2 ^ 64 ∧
        ∀ r' ∈ rs, default ∉ r'.after.map.hashmap.keys ∧
          r'.after.map.hashmap.keys = r.after.map.hashmap.keys ∧
          ∀ k ∈ r.after.map.hashmap.keys, weight r'.after.map.hashmap r'.after.map.heap k =
            weight r.after.map.hashmap r.after.map.heap k)) = true := by
    decide +kernel
  obtain ⟨rs, hrs, htest⟩ := exists_of_returns hrun
  obtain ⟨hlength, htest⟩ := of_decide_eq_true htest
  obtain ⟨r, r', rfl⟩ := List.length_eq_two.mp hlength
  obtain ⟨hmigrations, hloads, hall⟩ := htest r rfl
  have hprevious : ∀ i ∈ eightFlows, i.previousKey = default := by
    simp [eightFlows, answering]
  refine ⟨r, r', hrs, hmigrations, ?_⟩
  refine settled_run_is_silent hrs (n := 0) rfl (hmigrations ▸ by decide) hloads ?_ ?_ 1 r'
    Nat.one_pos rfl
  · intro m r'' _ hr''
    obtain ⟨-, hkeys, hweights⟩ := hall r'' (List.mem_of_getElem? hr'')
    exact weight_ext hkeys hweights
  · intro m i r'' _ hi hr''
    rw [hprevious i (List.mem_of_getElem? hi)]
    exact (hall r'' (List.mem_of_getElem? hr'')).1

end Runs

end OrssNic
