import OrssNic.BalancerInvariant

/-!
# The emitted migrations

The list of migrations of one call is a run of greedy moves, and the assigned
cores left in the map are its replay. The bounds on the resulting loads and on
the repetition of a flow are those of greedy runs.
-/

namespace OrssNic
open CLoops Placement

def coreTotal (hashmap : HashMap) (heap : Heap RingBuffer) (c : ℕ) : ℕ :=
  ((hashmap.entries.filter fun e => flowCore heap e = c).map (flowLoad heap)).sum

section Loads
variable {hashmap : HashMap} {heap : Heap RingBuffer} {nbCores : ℕ} {coreLoad : Repartition}

theorem load_eq_coreTotal (hinv : hashmap.Inv) (heap : Heap RingBuffer) (c : ℕ) :
    load hashmap.keys.toFinset (weight hashmap heap) (assignment hashmap heap) c =
      coreTotal hashmap heap c := by
  have hfilter : hashmap.keys.toFinset.filter (fun k => assignment hashmap heap k = c) =
      ((hashmap.entries.filter fun e => flowCore heap e = c).map Prod.fst).toFinset := by
    ext k
    simp only [Finset.mem_filter, List.mem_toFinset, HashMap.keys, List.mem_map, List.mem_filter,
      decide_eq_true_eq]
    constructor
    · rintro ⟨⟨e, he, rfl⟩, hc⟩
      exact ⟨e, ⟨he, assignment_of_mem hinv heap he ▸ hc⟩, rfl⟩
    · rintro ⟨e, ⟨he, hc⟩, rfl⟩
      exact ⟨⟨e, he, rfl⟩, (assignment_of_mem hinv heap he).trans hc⟩
  have hnodup : ((hashmap.entries.filter fun e => flowCore heap e = c).map Prod.fst).Nodup :=
    hinv.keys_nodup.sublist (List.filter_sublist.map _)
  rw [load, hfilter, List.sum_toFinset _ hnodup, List.map_map, coreTotal]
  apply congrArg List.sum
  refine List.map_congr_left fun e he => ?_
  exact weight_of_mem hinv heap (List.mem_of_mem_filter he)

theorem sum_weight (hinv : hashmap.Inv) (heap : Heap RingBuffer) :
    ∑ k ∈ hashmap.keys.toFinset, weight hashmap heap k = totalLoad hashmap heap := by
  rw [List.sum_toFinset _ hinv.keys_nodup, HashMap.keys, List.map_map, totalLoad]
  apply congrArg List.sum
  exact List.map_congr_left fun e he => weight_of_mem hinv heap he

theorem Exact.load_eq_coreTotal (hinv : hashmap.Inv) (hsum : totalLoad hashmap heap < 2 ^ 64)
    (h : Exact (· ∈ hashmap.entries) heap nbCores coreLoad) {c : ℕ} {core : CoreLoad}
    (hcore : coreLoad[c]? = some core) : core.load.toNat = coreTotal hashmap heap c := by
  have hholds := h.holds c core hcore
  have hperm : List.Perm core.entries (hashmap.entries.filter fun e => flowCore heap e = c) := by
    rw [List.perm_ext_iff_of_nodup hholds.nodup (hinv.entries_nodup.filter _)]
    intro e
    rw [hholds.mem, List.mem_filter, decide_eq_true_eq]
  rw [h.load_eq hsum (List.mem_of_getElem? hcore), coreTotal, (hperm.map _).sum_eq]

theorem Exact.average_eq {scan : LoadScan} (hinv : hashmap.Inv)
    (hassigned : Assigned hashmap heap nbCores) (hsum : totalLoad hashmap heap < 2 ^ 64)
    (h : Exact (· ∈ hashmap.entries) heap nbCores coreLoad) (hdesc : scan.Describes coreLoad) :
    scan.averageLoad.toNat = totalLoad hashmap heap / nbCores := by
  rw [hdesc.average, h.sum_loads hinv hassigned hsum, Nat.mod_eq_of_lt hsum, h.length]

theorem Exact.coreTotal_bounds {scan : LoadScan} (hinv : hashmap.Inv)
    (hsum : totalLoad hashmap heap < 2 ^ 64)
    (h : Exact (· ∈ hashmap.entries) heap nbCores coreLoad) (hdesc : scan.Describes coreLoad)
    {c : ℕ} (hc : c < nbCores) :
    scan.smallestLoad.toNat ≤ coreTotal hashmap heap c ∧
      coreTotal hashmap heap c ≤ scan.biggestLoad.toNat := by
  have hcore := List.getElem?_eq_getElem (h.length.symm ▸ hc)
  have hmem := List.mem_of_getElem? hcore
  rw [← h.load_eq_coreTotal hinv hsum hcore]
  exact ⟨hdesc.lower _ hmem, hdesc.upper _ hmem⟩

end Loads

section Moves
variable {hashmap : HashMap} {heap₀ : Heap RingBuffer} {nbCores : ℕ}

theorem Migrates.greedyMove {scan : LoadScan} {e : FiveTuple × Ref} {s s' : BalanceState}
    (hinv : hashmap.Inv) (hassigned : Assigned hashmap heap₀ nbCores)
    (hsum : totalLoad hashmap heap₀ < 2 ^ 64)
    (hs : Balancing hashmap hashmap.entries heap₀ nbCores s)
    (hm : Migrates hashmap.entries scan e s s') :
    GreedyMove hashmap.keys.toFinset (Finset.range nbCores) (weight hashmap heap₀)
      (assignment hashmap s.heap) e.1 scan.smallestLoadIdx := by
  have hsum' : totalLoad hashmap s.heap < 2 ^ 64 := hs.totalLoad_eq.symm ▸ hsum
  have hassigned' := hs.assigned hinv hassigned
  have hcore : assignment hashmap s.heap e.1 = scan.biggestLoadIdx :=
    (assignment_of_mem hinv s.heap hm.mem).trans hm.core
  have hload := load_eq_coreTotal hinv s.heap
  rw [hs.samples.weight] at hload
  obtain ⟨big, hbig, hbigLoad⟩ := hm.describes.biggest
  obtain ⟨small, hsmall, hsmallLoad⟩ := hm.describes.smallest
  have hbigTotal := hs.cores.load_eq_coreTotal hinv hsum' hbig
  have hsmallTotal := hs.cores.load_eq_coreTotal hinv hsum' hsmall
  have hloads : (s.coreLoad.map fun core => core.load.toNat).sum < 2 ^ 64 := by
    rw [hs.cores.sum_loads hinv hassigned' hsum']
    exact hsum'
  refine ⟨?_, ?_, ?_, ?_, ?_, ?_, ?_⟩
  · exact List.mem_toFinset.mpr (List.mem_map_of_mem hm.mem)
  · intro k hk hsame
    obtain ⟨e', he', rfl⟩ := List.mem_map.mp (List.mem_toFinset.mp hk)
    rw [assignment_of_mem hinv _ he', hcore] at hsame
    rw [← hs.samples.weight, weight_of_mem hinv _ he', weight_of_mem hinv _ hm.mem]
    exact hm.heaviest e' he' hsame
  · rw [hcore, Finset.mem_range]
    exact hs.cores.length ▸ (List.getElem?_eq_some_iff.mp hbig).1
  · intro c hc
    rw [hcore, hload, hload, ← hbigTotal, hbigLoad]
    exact (hs.cores.coreTotal_bounds hinv hsum' hm.describes (Finset.mem_range.mp hc)).2
  · exact Finset.mem_range.mpr (hm.target_lt hs.cores)
  · intro c hc
    rw [hload, hload, ← hsmallTotal, hsmallLoad]
    exact (hs.cores.coreTotal_bounds hinv hsum' hm.describes (Finset.mem_range.mp hc)).1
  · rw [hcore]
    exact (hm.describes.indices_ne hm.imbalanced hloads).symm

variable {coreLoad : Repartition} {s : BalanceState}

theorem greedyRun_of_reaches (hpos : 1 ≤ nbCores) (hn : nbCores ≤ 255) (hinv : hashmap.Inv)
    (hrefs : (hashmap.entries.map Prod.snd).Nodup) (hassigned : Assigned hashmap heap₀ nbCores)
    (hsum : totalLoad hashmap heap₀ < 2 ^ 64)
    (hcores : Exact (· ∈ hashmap.entries) heap₀ nbCores coreLoad)
    (hreach : Reaches (balanceStep nbCores) ⟨heap₀, coreLoad, []⟩ s) :
    GreedyRun hashmap.keys.toFinset (Finset.range nbCores) (weight hashmap heap₀)
      (assignment hashmap heap₀) (moves s.migrations) := by
  suffices h : Balancing hashmap hashmap.entries heap₀ nbCores s ∧
      GreedyRun hashmap.keys.toFinset (Finset.range nbCores) (weight hashmap heap₀)
        (assignment hashmap heap₀) (moves s.migrations) from h.2
  refine hreach.invariant (P := fun t => Balancing hashmap hashmap.entries heap₀ nbCores t ∧
    GreedyRun hashmap.keys.toFinset (Finset.range nbCores) (weight hashmap heap₀)
      (assignment hashmap heap₀) (moves t.migrations)) ⟨.start hcores, trivial⟩ ?_
  intro t t' ht hstep
  obtain ⟨ht, hrun⟩ := ht
  rcases balanceStep_cases hpos hn hrefs hashmap.entries_length_le ht.cores with
    ⟨hstop, -⟩ | ⟨scan, e, t'', hok, hm, hexact⟩
  · rw [hstop] at hstep
    cases hstep
  · rw [hok, Except.ok.injEq, Option.some.injEq] at hstep
    subst hstep
    refine ⟨ht.step hn hinv hrefs (List.Subset.refl _) hm hexact, ?_⟩
    rw [hm.migrations, moves_concat, greedyRun_concat, ← ht.replayed]
    have hmove := hm.greedyMove hinv hassigned hsum ht
    exact ⟨hrun, hmove⟩

theorem balanced_of_stop (hpos : 1 ≤ nbCores) (hn : nbCores ≤ 255) (hinv : hashmap.Inv)
    (hrefs : (hashmap.entries.map Prod.snd).Nodup) (hassigned : Assigned hashmap heap₀ nbCores)
    (hsum : totalLoad hashmap heap₀ < 2 ^ 64)
    (hs : Balancing hashmap hashmap.entries heap₀ nbCores s)
    (hstop : balanceStep nbCores s = .ok none) :
    s.migrations.length = MAX_REBALANCE_ITERATIONS ∨
      ∀ c < nbCores, 9 * (totalLoad hashmap s.heap / nbCores) ≤ 10 * coreTotal hashmap s.heap c ∧
        10 * coreTotal hashmap s.heap c ≤ 11 * (totalLoad hashmap s.heap / nbCores) := by
  have hsum' : totalLoad hashmap s.heap < 2 ^ 64 := hs.totalLoad_eq.symm ▸ hsum
  rcases balanceStep_cases hpos hn hrefs hashmap.entries_length_le hs.cores with
    ⟨-, hmax | ⟨scan, hdesc, hbal⟩⟩ | ⟨scan, e, s', hok, -⟩
  · exact .inl (le_antisymm hs.count hmax)
  · right
    intro c hc
    obtain ⟨hlo, hhi⟩ := hs.cores.coreTotal_bounds hinv hsum' hdesc hc
    have haverage := hs.cores.average_eq hinv (hs.assigned hinv hassigned) hsum' hdesc
    have hnot : ¬(11 * scan.averageLoad.toNat < 10 * scan.biggestLoad.toNat ∨
        10 * scan.smallestLoad.toNat < 9 * scan.averageLoad.toNat) := by
      rw [← scan.imbalanced_iff, hbal]
      exact Bool.false_ne_true
    omega
  · rw [hstop] at hok
    cases hok

end Moves

section Results
variable {hashmap : HashMap} {heap : Heap RingBuffer} {nbCores : ℕ} {previousKey : FiveTuple}

theorem Balanceable.greedyRun (hpos : 1 ≤ nbCores) (hn : nbCores ≤ 255)
    (h : Balanceable hashmap heap nbCores previousKey) :
    ∃ heap' migrations, balancerBalance hashmap heap previousKey nbCores [] =
        .ok (heap', migrations) ∧
      SameSamples heap heap' ∧
      assignment hashmap heap' = replay (assignment hashmap heap) (moves migrations) ∧
      GreedyRun hashmap.keys.toFinset (Finset.range nbCores) (weight hashmap heap)
        (assignment hashmap heap) (moves migrations) ∧
      (migrations.length = MAX_REBALANCE_ITERATIONS ∨
        ∀ c < nbCores, 9 * (totalLoad hashmap heap' / nbCores) ≤ 10 * coreTotal hashmap heap' c ∧
          10 * coreTotal hashmap heap' c ≤ 11 * (totalLoad hashmap heap' / nbCores)) := by
  obtain ⟨hinv, hp, hroom, hrefs, hassigned, hsum, hkey⟩ := h
  obtain ⟨heap', migrations, hok⟩ :=
    balancerBalance_total previousKey hpos hn hinv hp hroom hrefs hassigned
  obtain ⟨coreLoad, s, hcompute, hreach, hstop, rfl, rfl, hs⟩ :=
    balancerBalance_correct hpos hn hinv hp hrefs hassigned hok
  have hcores := balancerComputeRepartition_correct hn hinv hp hassigned hcompute
  rw [HashMap.walkIndex_absent hkey, List.drop_zero] at hs hcores
  exact ⟨s.heap, s.migrations, hok, hs.samples, hs.replayed,
    greedyRun_of_reaches hpos hn hinv hrefs hassigned hsum hcores hreach,
    balanced_of_stop hpos hn hinv hrefs hassigned hsum hs hstop⟩

theorem Balanceable.assignment_mem (h : Balanceable hashmap heap nbCores previousKey) :
    ∀ k ∈ hashmap.keys.toFinset, assignment hashmap heap k ∈ Finset.range nbCores := by
  intro k hk
  obtain ⟨e, he, rfl⟩ := List.mem_map.mp (List.mem_toFinset.mp hk)
  rw [assignment_of_mem h.inv heap he, Finset.mem_range]
  exact h.assigned e he

/-- Replaying the migrations, every one moves a heaviest flow of a most loaded
core to a least loaded one; the result is in the map, and is balanced unless the
iterations ran out. -/
theorem balancer_balance_greedy (h : Balanceable hashmap heap NB_CORES previousKey) :
    ∃ heap' migrations, balancerBalance hashmap heap previousKey NB_CORES [] =
        .ok (heap', migrations) ∧
      GreedyRun hashmap.keys.toFinset (Finset.range NB_CORES) (weight hashmap heap)
        (assignment hashmap heap) (moves migrations) ∧
      replay (assignment hashmap heap) (moves migrations) = assignment hashmap heap' ∧
      (migrations.length = MAX_REBALANCE_ITERATIONS ∨
        (∀ c < NB_CORES, coreTotal hashmap heap' c = 0) ∨
        ∀ c < NB_CORES,
          (1 - IMBALANCE_THRESHOLD) * (totalLoad hashmap heap' / NB_CORES : ℕ) ≤
              (coreTotal hashmap heap' c : ℚ) ∧
            (coreTotal hashmap heap' c : ℚ) ≤
              (1 + IMBALANCE_THRESHOLD) * (totalLoad hashmap heap' / NB_CORES : ℕ)) := by
  obtain ⟨heap', migrations, hok, -, hreplay, hgreedy, hexit⟩ :=
    h.greedyRun (by decide) (by decide)
  refine ⟨heap', migrations, hok, hgreedy, hreplay.symm, ?_⟩
  rcases hexit with hmax | hnear
  · exact .inl hmax
  · refine .inr (.inr fun c hc => ?_)
    obtain ⟨hlo, hhi⟩ := hnear c hc
    have hlo' : (9 : ℚ) * (totalLoad hashmap heap' / NB_CORES : ℕ) ≤
        10 * coreTotal hashmap heap' c := by exact_mod_cast hlo
    have hhi' : (10 : ℚ) * coreTotal hashmap heap' c ≤
        11 * (totalLoad hashmap heap' / NB_CORES : ℕ) := by exact_mod_cast hhi
    rw [IMBALANCE_THRESHOLD]
    constructor <;> linarith

theorem balancer_balance_greedy_three :
    ∃ heap' migrations, balancerBalance threeFlows threeRings (flowKey 3) NB_CORES [] =
        .ok (heap', migrations) ∧
      GreedyRun threeFlows.keys.toFinset (Finset.range NB_CORES) (weight threeFlows threeRings)
        (assignment threeFlows threeRings) (moves migrations) ∧
      replay (assignment threeFlows threeRings) (moves migrations) =
        assignment threeFlows heap' ∧
      (migrations.length = MAX_REBALANCE_ITERATIONS ∨
        (∀ c < NB_CORES, coreTotal threeFlows heap' c = 0) ∨
        ∀ c < NB_CORES,
          (1 - IMBALANCE_THRESHOLD) * (totalLoad threeFlows heap' / NB_CORES : ℕ) ≤
              (coreTotal threeFlows heap' c : ℚ) ∧
            (coreTotal threeFlows heap' c : ℚ) ≤
              (1 + IMBALANCE_THRESHOLD) * (totalLoad threeFlows heap' / NB_CORES : ℕ)) :=
  balancer_balance_greedy (threeFlows_balanceable (by decide))

end Results

/-! ## The worst core -/

def largestLoad (hashmap : HashMap) (heap : Heap RingBuffer) (nbCores : ℕ) : ℕ :=
  (Finset.range nbCores).sup (coreTotal hashmap heap)

def largestMigrated (hashmap : HashMap) (heap : Heap RingBuffer) (migrations : List Migration) :
    ℕ :=
  (migrations.map fun m => weight hashmap heap m.key).foldr max 0

theorem weight_le_largestMigrated {hashmap : HashMap} {heap : Heap RingBuffer}
    {migrations : List Migration} :
    ∀ m ∈ moves migrations, weight hashmap heap m.1 ≤ largestMigrated hashmap heap migrations := by
  simp only [moves, List.mem_map, forall_exists_index, and_imp, forall_apply_eq_imp_iff₂]
  intro m hm
  exact List.le_max_of_le' 0 (List.mem_map_of_mem hm) le_rfl

/-- The largest load is no larger than before, or the average plus a migrated flow. -/
theorem balancer_balance_largestLoad {hashmap : HashMap} {heap : Heap RingBuffer}
    {previousKey : FiveTuple} (h : Balanceable hashmap heap NB_CORES previousKey) :
    ∃ heap' migrations, balancerBalance hashmap heap previousKey NB_CORES [] =
        .ok (heap', migrations) ∧
      largestLoad hashmap heap' NB_CORES ≤ max (largestLoad hashmap heap NB_CORES)
        (totalLoad hashmap heap / NB_CORES + largestMigrated hashmap heap migrations) := by
  obtain ⟨heap', migrations, hok, hsamples, hreplay, hgreedy, -⟩ :=
    h.greedyRun (by decide) (by decide)
  refine ⟨heap', migrations, hok, Finset.sup_le fun c hc => ?_⟩
  have hbefore : ∀ d ∈ Finset.range NB_CORES, load hashmap.keys.toFinset (weight hashmap heap)
      (assignment hashmap heap) d ≤ largestLoad hashmap heap NB_CORES := by
    intro d hd
    rw [load_eq_coreTotal h.inv]
    exact Finset.le_sup (f := coreTotal hashmap heap) hd
  have hload := hgreedy.load_le h.assignment_mem weight_le_largestMigrated hbefore c hc
  rwa [← hreplay, ← hsamples.weight, load_eq_coreTotal h.inv, hsamples.weight, sum_weight h.inv,
    Finset.card_range] at hload

theorem balancer_balance_largestLoad_three :
    ∃ heap' migrations, balancerBalance threeFlows threeRings (flowKey 3) NB_CORES [] =
        .ok (heap', migrations) ∧
      largestLoad threeFlows heap' NB_CORES ≤ max (largestLoad threeFlows threeRings NB_CORES)
        (totalLoad threeFlows threeRings / NB_CORES +
          largestMigrated threeFlows threeRings migrations) :=
  balancer_balance_largestLoad (threeFlows_balanceable (by decide))

def nineFlows : HashMap := .ofFlows (flowsOf 9) (by decide)

def nineRings : Heap RingBuffer :=
  .ofList [sampledOn 0 50, sampledOn 0 50, sampledOn 1 100, sampledOn 2 10, sampledOn 3 10,
    sampledOn 4 10, sampledOn 5 10, sampledOn 6 10, sampledOn 7 10]

/-- The heavy flow of core 1 joins the light one of another core. -/
theorem balancer_balance_worse :
    ¬ ∀ (hashmap : HashMap) (heap heap' : Heap RingBuffer) (previousKey : FiveTuple)
      (migrations : List Migration), Balanceable hashmap heap NB_CORES previousKey →
      balancerBalance hashmap heap previousKey NB_CORES [] = .ok (heap', migrations) →
      largestLoad hashmap heap' NB_CORES ≤ largestLoad hashmap heap NB_CORES := by
  intro hbound
  have hrun : returns (balancerBalance nineFlows nineRings (flowKey 9) NB_CORES []) (fun r =>
      decide (¬ largestLoad nineFlows r.1 NB_CORES ≤ largestLoad nineFlows nineRings NB_CORES)) =
      true := by
    decide +kernel
  obtain ⟨r, hr, hworse⟩ := exists_of_returns hrun
  have hmap : Balanceable nineFlows nineRings NB_CORES (flowKey 9) :=
    balanceable_ofFlows (by decide) (by decide) (by decide) (by decide) (by decide) (by decide)
  exact of_decide_eq_true hworse (hbound _ _ r.1 _ r.2 hmap hr)

/-! ## Repeated flows -/

/-- Every migration leaves the flow's core; a flow migrates again only off the
core it was last put on, as a heaviest flow of what is then a most loaded core;
and the last migration of a flow is its placement. -/
theorem balancer_balance_again {hashmap : HashMap} {heap : Heap RingBuffer}
    {previousKey : FiveTuple} (h : Balanceable hashmap heap NB_CORES previousKey) :
    ∃ heap' migrations, balancerBalance hashmap heap previousKey NB_CORES [] =
        .ok (heap', migrations) ∧
      (∀ before after m, migrations = before ++ m :: after →
        m.destinationCore ≠ replay (assignment hashmap heap) (moves before) m.key) ∧
      (∀ before between after m m', migrations = before ++ m :: (between ++ m' :: after) →
        m'.key = m.key → (∀ x ∈ between, x.key ≠ m.key) →
        replay (assignment hashmap heap) (moves (before ++ m :: between)) m.key =
            m.destinationCore ∧
          GreedyMove hashmap.keys.toFinset (Finset.range NB_CORES) (weight hashmap heap)
            (replay (assignment hashmap heap) (moves (before ++ m :: between))) m.key
            m'.destinationCore) ∧
      ∀ key, assignment hashmap heap' key =
        (lastMove (moves migrations) key).getD (assignment hashmap heap key) := by
  obtain ⟨heap', migrations, hok, -, hreplay, hgreedy, -⟩ := h.greedyRun (by decide) (by decide)
  refine ⟨heap', migrations, hok, ?_, ?_, ?_⟩
  · rintro before after m rfl
    rw [moves, List.map_append, List.map_cons] at hgreedy
    exact hgreedy.split.ne
  · rintro before between after m m' rfl hkey hbetween
    simp only [moves, List.map_append, List.map_cons, hkey] at hgreedy ⊢
    refine hgreedy.again ?_
    simpa using hbetween
  · intro key
    rw [hreplay, replay_eq_lastMove]

theorem balancer_balance_again_three :
    ∃ heap' migrations, balancerBalance threeFlows threeRings (flowKey 3) NB_CORES [] =
        .ok (heap', migrations) ∧
      (∀ before after m, migrations = before ++ m :: after →
        m.destinationCore ≠ replay (assignment threeFlows threeRings) (moves before) m.key) ∧
      (∀ before between after m m', migrations = before ++ m :: (between ++ m' :: after) →
        m'.key = m.key → (∀ x ∈ between, x.key ≠ m.key) →
        replay (assignment threeFlows threeRings) (moves (before ++ m :: between)) m.key =
            m.destinationCore ∧
          GreedyMove threeFlows.keys.toFinset (Finset.range NB_CORES)
            (weight threeFlows threeRings)
            (replay (assignment threeFlows threeRings) (moves (before ++ m :: between))) m.key
            m'.destinationCore) ∧
      ∀ key, assignment threeFlows heap' key =
        (lastMove (moves migrations) key).getD (assignment threeFlows threeRings key) :=
  balancer_balance_again (threeFlows_balanceable (by decide))

def oneFlow : HashMap := .ofFlows (flowsOf 1) (by decide)

def oneRing : Heap RingBuffer := .ofList [sampledOn 0 100]

/-- A single loaded flow oscillates between two cores. -/
theorem balancer_balance_oscillates :
    ¬ ∀ (hashmap : HashMap) (heap heap' : Heap RingBuffer) (previousKey : FiveTuple)
      (migrations : List Migration), Balanceable hashmap heap NB_CORES previousKey →
      balancerBalance hashmap heap previousKey NB_CORES [] = .ok (heap', migrations) →
      (migrations.map Migration.key).Nodup := by
  intro hnodup
  have hrun : returns (balancerBalance oneFlow oneRing (flowKey 1) NB_CORES []) (fun r =>
      decide (¬ (r.2.map Migration.key).Nodup)) = true := by
    decide +kernel
  obtain ⟨r, hr, hrepeats⟩ := exists_of_returns hrun
  have hmap : Balanceable oneFlow oneRing NB_CORES (flowKey 1) :=
    balanceable_ofFlows (by decide) (by decide) (by decide) (by decide) (by decide) (by decide)
  exact of_decide_eq_true hrepeats (hnodup _ _ r.1 _ r.2 hmap hr)

end OrssNic
