import OrssNic.BalancerCoverage

/-!
# Balancing a link that is nearly idle

A total load below the number of cores has the integer average 0. The guard of
`balancer_balance` against it only holds for the second quotient: the first one
is infinite as soon as one core carries a packet, and a flow is moved.
-/

namespace OrssNic
open CLoops

section Idle
variable {hashmap : HashMap} {heap : Heap RingBuffer} {nbCores : ℕ} {coreLoad : Repartition}
variable {flows : List (FiveTuple × Ref)}

theorem LoadScan.Describes.idle {scan : LoadScan} (hdesc : scan.Describes coreLoad)
    (hflows : flows.Nodup) (hassigned : ∀ e ∈ flows, flowCore heap e < nbCores)
    (hcores : Exact (· ∈ flows) heap nbCores coreLoad) (hn : nbCores ≤ 255)
    (htotal : (flows.map (flowLoad heap)).sum < nbCores) :
    scan.averageLoad.toNat = 0 ∧
      (scan.biggestLoad.toNat = 0 ↔ (flows.map (flowLoad heap)).sum = 0) := by
  have hsum := hcores.sum_loads_modEq hflows hassigned
  rw [Nat.ModEq, Nat.mod_eq_of_lt (htotal.trans_le (hn.trans (by norm_num)))] at hsum
  refine ⟨?_, ?_⟩
  · rw [hdesc.average, hsum, hcores.length, Nat.div_eq_of_lt htotal]
  · constructor
    · intro hbig
      rw [← hsum, List.sum_eq_zero, Nat.zero_mod]
      simp only [List.mem_map, forall_exists_index, and_imp, forall_apply_eq_imp_iff₂]
      intro core hcore
      exact Nat.le_zero.mp (hbig ▸ hdesc.upper core hcore)
    · intro hzero
      obtain ⟨big, hbig, hload⟩ := hdesc.biggest
      have hholds := hcores.holds _ big hbig
      have hnone : (big.entries.map (flowLoad heap)).sum = 0 := by
        refine List.sum_eq_zero fun l hl => ?_
        obtain ⟨e, he, rfl⟩ := List.mem_map.mp hl
        have hmem := ((hholds.mem e).mp he).1
        exact List.sum_eq_zero_iff.mp hzero _ (List.mem_map_of_mem hmem)
      rw [← hload, hholds.cached.load, hnone, Nat.zero_mod]

theorem balanceStep_idle_iff (hpos : 1 ≤ nbCores) (hn : nbCores ≤ 255) (hflows : flows.Nodup)
    (hassigned : ∀ e ∈ flows, flowCore heap e < nbCores)
    (hcores : Exact (· ∈ flows) heap nbCores coreLoad)
    (htotal : (flows.map (flowLoad heap)).sum < nbCores) :
    balanceStep nbCores ⟨heap, coreLoad, []⟩ = .ok none ↔
      (flows.map (flowLoad heap)).sum = 0 := by
  obtain ⟨scan, hscan, hdesc⟩ := scanLoads_spec hpos hn hcores.length
  obtain ⟨haverage, hbig⟩ := hdesc.idle hflows hassigned hcores hn htotal
  have himb := scan.imbalanced_iff
  rw [haverage] at himb
  have hroom : ([] : List Migration).length < MAX_REBALANCE_ITERATIONS := by decide
  rw [← hbig]
  cases himbalanced : scan.imbalanced with
  | false =>
    have hstop : balanceStep nbCores ⟨heap, coreLoad, []⟩ = .ok none := by
      simp [balanceStep, hscan, himbalanced, bind, Except.bind, pure, Except.pure]
    have hzero : ¬(scan.imbalanced = true) := by simp [himbalanced]
    rw [himb] at hzero
    exact ⟨fun _ => by omega, fun _ => hstop⟩
  | true =>
    rw [himb] at himbalanced
    have hgoes : balanceStep nbCores ⟨heap, coreLoad, []⟩ ≠ .ok none := by
      intro hstop
      rw [balanceStep, if_pos hroom, hscan] at hstop
      obtain ⟨scan', hscan', hstop⟩ := bind_eq_ok.mp hstop
      cases hscan'
      rw [if_pos (himb.mpr himbalanced)] at hstop
      obtain ⟨r, -, hstop⟩ := bind_eq_ok.mp hstop
      cases hstop
    exact ⟨fun hstop => absurd hstop hgoes, fun hzero => by omega⟩

theorem balanceStep_ne_nil {s s' : BalanceState} (h : balanceStep nbCores s = .ok (some s')) :
    s'.migrations ≠ [] := by
  rw [balanceStep] at h
  split_ifs at h
  · obtain ⟨scan, -, h⟩ := bind_eq_ok.mp h
    split_ifs at h
    · obtain ⟨r, -, h⟩ := bind_eq_ok.mp h
      cases h
      exact List.append_ne_nil_of_right_ne_nil _ (List.cons_ne_nil _ _)
    · cases h
  · cases h

theorem balanceLoop_nil_iff {n : ℕ} {heap' : Heap RingBuffer} {coreLoad' : Repartition} :
    whileLoop .diverges (balanceStep nbCores) (n + 1) ⟨heap, coreLoad, []⟩ =
        .ok ⟨heap', coreLoad', []⟩ ↔
      balanceStep nbCores ⟨heap, coreLoad, []⟩ = .ok none ∧ heap' = heap ∧
        coreLoad' = coreLoad := by
  constructor
  · intro h
    obtain ⟨hreach, hstop⟩ := whileLoop_correct h
    rcases Relation.ReflTransGen.cases_tail hreach with hsame | ⟨s, -, hstep⟩
    · cases hsame
      exact ⟨hstop, rfl, rfl⟩
    · exact absurd rfl (balanceStep_ne_nil hstep)
  · rintro ⟨hstop, rfl, rfl⟩
    exact whileLoop_stop hstop n

end Idle

/-- Below one packet per core, nothing is moved exactly when the walk of the
repartition ends at a free slot and the flows that it visits carry no load. -/
theorem balancerBalance_idle_iff {hashmap : HashMap} {heap : Heap RingBuffer} {nbCores : ℕ}
    (previousKey : FiveTuple) (hn : nbCores ≤ 255) (hinv : hashmap.Inv)
    (hassigned : Assigned hashmap heap nbCores) (htotal : totalLoad hashmap heap < nbCores) :
    balancerBalance hashmap heap previousKey nbCores [] = .ok (heap, []) ↔
      hashmap.WalkEnds previousKey ∧ ∀ e ∈ hashmap.walk previousKey, flowLoad heap e = 0 := by
  have hsublist := hashmap.walk_sublist previousKey
  have hflows : (hashmap.walk previousKey).Nodup := hsublist.nodup hinv.entries_nodup
  have hassigned' : ∀ e ∈ hashmap.walk previousKey, flowCore heap e < nbCores :=
    fun e he => hassigned e (hsublist.subset he)
  have htotal' : ((hashmap.walk previousKey).map (flowLoad heap)).sum < nbCores :=
    ((hsublist.map _).sum_le_sum (by simp)).trans_lt htotal
  have hzero : ((hashmap.walk previousKey).map (flowLoad heap)).sum = 0 ↔
      ∀ e ∈ hashmap.walk previousKey, flowLoad heap e = 0 := by
    rw [List.sum_eq_zero_iff, List.forall_mem_map]
  rw [← hzero]
  rcases balancerComputeRepartition_walk previousKey hn hinv hassigned' with
    ⟨hnot, herror⟩ | ⟨hends, coreLoad, hok, hcores⟩
  · simp [balancerBalance, herror, hnot, bind, Except.bind]
  · rw [← balanceStep_idle_iff (Nat.one_le_of_lt htotal) hn hflows hassigned' hcores htotal']
    constructor
    · intro h
      simp only [balancerBalance, hok, bind_eq_ok] at h
      obtain ⟨coreLoad₁, hok₁, s, hloop, -, -, hret⟩ := h
      cases hok₁
      obtain ⟨heap', coreLoad', migrations⟩ := s
      simp only [pure, Except.pure, Except.ok.injEq, Prod.mk.injEq] at hret
      obtain ⟨rfl, rfl⟩ := hret
      exact ⟨hends, (balanceLoop_nil_iff.mp hloop).1⟩
    · rintro ⟨-, hstop⟩
      have hloop : whileLoop .diverges (balanceStep nbCores) (MAX_REBALANCE_ITERATIONS + 1)
          ⟨heap, coreLoad, []⟩ = .ok ⟨heap, coreLoad, []⟩ := balanceLoop_nil_iff.mpr ⟨hstop, rfl, rfl⟩
      simp only [balancerBalance, hok, hloop, balancerPrintMigrations, bind, Except.bind, pure,
        Except.pure]

theorem slowFlow_fits : (flowsOf 1).length ≤ HASHMAP_SIZE := by decide

def slowFlow : HashMap := .ofFlows (flowsOf 1) slowFlow_fits

def slowRing : Heap RingBuffer := .ofList [sampledOn 0 3]

theorem slowFlow_assigned : Assigned slowFlow slowRing NB_CORES := by
  rw [Assigned, slowFlow, HashMap.ofFlows_entries]
  decide

theorem slowFlow_totalLoad : totalLoad slowFlow slowRing = 3 := by
  rw [totalLoad, slowFlow, HashMap.ofFlows_entries]
  decide

theorem balancerBalance_idle_iff_slow :
    balancerBalance slowFlow slowRing (flowKey 1) NB_CORES [] = .ok (slowRing, []) ↔
      slowFlow.WalkEnds (flowKey 1) ∧
        ∀ e ∈ slowFlow.walk (flowKey 1), flowLoad slowRing e = 0 :=
  balancerBalance_idle_iff (flowKey 1) (by decide) (HashMap.ofFlows_inv (by decide))
    slowFlow_assigned (by rw [slowFlow_totalLoad]; decide)

/-- The only flow of the link is moved as often as there is room. -/
theorem balancerBalance_idle_migrates :
    slowFlow.IsPrefix ∧ flowKey 1 ∉ slowFlow.keys ∧ Assigned slowFlow slowRing NB_CORES ∧
      totalLoad slowFlow slowRing < NB_CORES ∧
      ∃ heap migrations,
        balancerBalance slowFlow slowRing (flowKey 1) NB_CORES [] = .ok (heap, migrations) ∧
          migrations.length = MAX_REBALANCE_ITERATIONS := by
  refine ⟨HashMap.ofFlows_isPrefix, ?_, slowFlow_assigned, ?_, ?_⟩
  · rw [HashMap.keys, slowFlow, HashMap.ofFlows_entries]
    decide
  · rw [slowFlow_totalLoad]
    decide
  · have hreturns : returns (balancerBalance slowFlow slowRing (flowKey 1) NB_CORES [])
        (fun r => r.2.length == MAX_REBALANCE_ITERATIONS) = true := by
      decide +kernel
    obtain ⟨r, hok, hlen⟩ := exists_of_returns hreturns
    exact ⟨r.1, r.2, hok, beq_iff_eq.mp hlen⟩

end OrssNic
