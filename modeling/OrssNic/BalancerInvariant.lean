import OrssNic.BalancerLoop

/-!
# The invariant of `balancer_balance`

On a map whose walk is complete and whose loads do not wrap, the cores of the
`while` loop partition the map by assigned core, their loads are exact sums,
and every call of `balancer_migrate` stays inside its arrays.
-/

namespace OrssNic
open CLoops

def totalLoad (hashmap : HashMap) (heap : Heap RingBuffer) : ℕ :=
  (hashmap.entries.map (flowLoad heap)).sum

/-- A map that the repartition visits completely, and whose loads do not wrap. -/
structure Balanceable (hashmap : HashMap) (heap : Heap RingBuffer) (nbCores : ℕ)
    (previousKey : FiveTuple) : Prop where
  inv : hashmap.Inv
  isPrefix : hashmap.IsPrefix
  room : hashmap.entries.length < HASHMAP_SIZE
  refs : (hashmap.entries.map Prod.snd).Nodup
  assigned : Assigned hashmap heap nbCores
  loads : totalLoad hashmap heap < 2 ^ 64
  fresh : previousKey ∉ hashmap.keys

structure CoresDescribe (hashmap : HashMap) (nbCores : ℕ) (s : BalanceState) : Prop where
  contents : List.Perm (s.coreLoad.flatMap CoreLoad.entries) hashmap.entries
  length : s.coreLoad.length = nbCores
  coreIdx : ∀ (c : ℕ) (core : CoreLoad), s.coreLoad[c]? = some core → core.coreIdx.toNat = c
  nbFlows : ∀ core ∈ s.coreLoad, core.entries.length = core.nbFlows
  placed : ∀ core ∈ s.coreLoad, ∀ e ∈ core.entries,
    flowCore s.heap e = core.coreIdx.toNat ∧ flowCore s.heap e < nbCores
  load : ∀ core ∈ s.coreLoad, core.load.toNat = (core.entries.map (flowLoad s.heap)).sum
  biggest : ∀ core ∈ s.coreLoad, core.entries ≠ [] →
    ∃ e, core.entries[core.biggestLoadIdx]? = some e ∧
      ∀ e' ∈ core.entries, flowLoad s.heap e' ≤ flowLoad s.heap e

structure SafeCall (s : BalanceState) (scan : LoadScan) : Prop where
  distinct : scan.biggestLoadIdx ≠ scan.smallestLoadIdx
  source : ∃ big, s.coreLoad[scan.biggestLoadIdx]? = some big ∧ 1 ≤ big.nbFlows ∧
    big.biggestLoadIdx < big.nbFlows
  target : ∃ small, s.coreLoad[scan.smallestLoadIdx]? = some small ∧ small.nbFlows < HASHMAP_SIZE
  returns : ∃ r, balancerMigrate s.heap s.coreLoad scan.biggestLoadIdx scan.smallestLoadIdx = .ok r

section Cores
variable {hashmap : HashMap} {heap : Heap RingBuffer} {nbCores : ℕ} {coreLoad : Repartition}

theorem Exact.perm {flows : List (FiveTuple × Ref)} (hflows : flows.Nodup)
    (hassigned : ∀ e ∈ flows, flowCore heap e < nbCores)
    (h : Exact (· ∈ flows) heap nbCores coreLoad) :
    List.Perm (coreLoad.flatMap CoreLoad.entries) flows := by
  have hnodup : (coreLoad.flatMap CoreLoad.entries).Nodup := by
    rw [List.nodup_flatMap]
    constructor
    · intro core hcore
      obtain ⟨c, hc⟩ := List.mem_iff_getElem?.mp hcore
      exact (h.holds c core hc).nodup
    · rw [List.pairwise_iff_getElem]
      intro i j hi hj hij e hei hej
      have hci := ((h.holds i _ (List.getElem?_eq_getElem hi)).mem e).mp hei
      have hcj := ((h.holds j _ (List.getElem?_eq_getElem hj)).mem e).mp hej
      omega
  rw [List.perm_ext_iff_of_nodup hnodup hflows]
  intro e
  rw [List.mem_flatMap]
  constructor
  · rintro ⟨core, hcore, he⟩
    obtain ⟨c, hc⟩ := List.mem_iff_getElem?.mp hcore
    exact (((h.holds c core hc).mem e).mp he).1
  · intro he
    have hlt : flowCore heap e < coreLoad.length := h.length.symm ▸ hassigned e he
    have hget := List.getElem?_eq_getElem hlt
    exact ⟨_, List.mem_of_getElem? hget, ((h.holds _ _ hget).mem e).mpr ⟨he, rfl⟩⟩

theorem Exact.contents (hinv : hashmap.Inv) (hassigned : Assigned hashmap heap nbCores)
    (h : Exact (· ∈ hashmap.entries) heap nbCores coreLoad) :
    List.Perm (coreLoad.flatMap CoreLoad.entries) hashmap.entries :=
  h.perm hinv.entries_nodup hassigned

theorem Exact.load_eq (hsum : totalLoad hashmap heap < 2 ^ 64)
    (h : Exact (· ∈ hashmap.entries) heap nbCores coreLoad) {core : CoreLoad}
    (hcore : core ∈ coreLoad) : core.load.toNat = (core.entries.map (flowLoad heap)).sum := by
  obtain ⟨c, hc⟩ := List.mem_iff_getElem?.mp hcore
  have hholds := h.holds c core hc
  have hsub : List.Subperm core.entries hashmap.entries :=
    hholds.nodup.subperm fun e he => ((hholds.mem e).mp he).1
  have hle : (core.entries.map (flowLoad heap)).sum ≤ totalLoad hashmap heap := by
    obtain ⟨l, hperm, hsublist⟩ := hsub
    rw [← (hperm.map _).sum_eq]
    exact (hsublist.map _).sum_le_sum (by simp)
  rw [hholds.cached.load, Nat.mod_eq_of_lt (by omega)]

theorem Exact.sum_loads (hinv : hashmap.Inv) (hassigned : Assigned hashmap heap nbCores)
    (hsum : totalLoad hashmap heap < 2 ^ 64)
    (h : Exact (· ∈ hashmap.entries) heap nbCores coreLoad) :
    (coreLoad.map fun core => core.load.toNat).sum = totalLoad hashmap heap := by
  rw [totalLoad, ← ((h.contents hinv hassigned).map _).sum_eq, List.map_flatMap, List.flatMap,
    List.sum_flatten, List.map_map]
  apply congrArg List.sum
  exact List.map_congr_left fun core hcore => h.load_eq hsum hcore

end Cores

section Loop
variable {hashmap : HashMap} {heap₀ : Heap RingBuffer} {nbCores : ℕ} {s : BalanceState}

theorem Balancing.totalLoad_eq {flows : List (FiveTuple × Ref)}
    (hs : Balancing hashmap flows heap₀ nbCores s) :
    totalLoad hashmap s.heap = totalLoad hashmap heap₀ := by
  rw [totalLoad, totalLoad, hs.samples.flowLoad]

theorem Balancing.assigned (hinv : hashmap.Inv) (hassigned : Assigned hashmap heap₀ nbCores)
    {flows : List (FiveTuple × Ref)} (hs : Balancing hashmap flows heap₀ nbCores s) :
    Assigned hashmap s.heap nbCores := by
  intro e he
  have hmoved : ∀ m ∈ moves s.migrations, m.2 < nbCores := by
    simp only [moves, List.mem_map, forall_exists_index, and_imp, forall_apply_eq_imp_iff₂]
    exact fun m hm => (hs.moved m hm).1
  rw [← assignment_of_mem hinv _ he, hs.replayed, Placement.replay_eq_lastMove]
  cases hl : Placement.lastMove (moves s.migrations) e.1 with
  | none => simpa [assignment_of_mem hinv _ he] using hassigned e he
  | some c => exact hmoved (e.1, c) (Placement.mem_of_lastMove hl)

theorem Balancing.coresDescribe (hinv : hashmap.Inv) (hassigned : Assigned hashmap heap₀ nbCores)
    (hsum : totalLoad hashmap heap₀ < 2 ^ 64)
    (hs : Balancing hashmap hashmap.entries heap₀ nbCores s) :
    CoresDescribe hashmap nbCores s := by
  have hsum' : totalLoad hashmap s.heap < 2 ^ 64 := hs.totalLoad_eq.symm ▸ hsum
  have hassigned' := hs.assigned hinv hassigned
  have hholds : ∀ core ∈ s.coreLoad, ∃ c : ℕ, core.Holds (· ∈ hashmap.entries) s.heap c := by
    intro core hcore
    obtain ⟨c, hc⟩ := List.mem_iff_getElem?.mp hcore
    exact ⟨c, hs.cores.holds c core hc⟩
  refine ⟨hs.cores.contents hinv hassigned', hs.cores.length, ?_, ?_, ?_, ?_, ?_⟩
  · exact fun c core hc => (hs.cores.holds c core hc).coreIdx
  · intro core hcore
    obtain ⟨c, hc⟩ := hholds core hcore
    exact hc.shape.entries_length
  · intro core hcore e he
    obtain ⟨c, hc⟩ := hholds core hcore
    obtain ⟨hmem, hassign⟩ := (hc.mem e).mp he
    exact ⟨hassign.trans hc.coreIdx.symm, hassigned' e hmem⟩
  · exact fun core hcore => hs.cores.load_eq hsum' hcore
  · intro core hcore
    obtain ⟨c, hc⟩ := hholds core hcore
    exact hc.cached.biggest

theorem Balancing.safeCall (hpos : 1 ≤ nbCores) (hn : nbCores ≤ 255) (hinv : hashmap.Inv)
    (hroom : hashmap.entries.length < HASHMAP_SIZE)
    (hrefs : (hashmap.entries.map Prod.snd).Nodup) (hassigned : Assigned hashmap heap₀ nbCores)
    (hsum : totalLoad hashmap heap₀ < 2 ^ 64)
    (hs : Balancing hashmap hashmap.entries heap₀ nbCores s) {scan : LoadScan}
    (hcount : s.migrations.length < MAX_REBALANCE_ITERATIONS)
    (hscan : scanLoads s.coreLoad nbCores = .ok scan) (himb : scan.imbalanced = true) :
    SafeCall s scan := by
  obtain ⟨scan', hscan', hdesc⟩ := scanLoads_spec hpos hn hs.cores.length
  rw [hscan, Except.ok.injEq] at hscan'
  subst hscan'
  have hloads : (s.coreLoad.map fun core => core.load.toNat).sum < 2 ^ 64 := by
    rw [hs.cores.sum_loads hinv (hs.assigned hinv hassigned) (hs.totalLoad_eq.symm ▸ hsum),
      hs.totalLoad_eq]
    exact hsum
  obtain ⟨e, s', hok, hm, -⟩ :=
    balancerMigrate_called hn hrefs hroom.le hs.cores hcount hdesc himb
  obtain ⟨big, small, hbig, hsmall, hne⟩ := hm.cores
  have hbigHolds := hs.cores.holds _ big hbig
  obtain ⟨e', he', -⟩ := hbigHolds.cached.biggest hne
  have hidx : big.biggestLoadIdx < big.nbFlows := (CoreLoad.entries_getElem?.mp he').1
  refine ⟨hdesc.indices_ne himb hloads, ⟨big, hbig, by omega, hidx⟩, ⟨small, hsmall, ?_⟩, _, hok⟩
  exact (hs.cores.holds _ small hsmall).nbFlows_le.trans_lt hroom

end Loop

def flowKey (i : UInt16) : FiveTuple := ⟨0, 0, i, 0, 6⟩

def flowsOf (n : ℕ) : List (FiveTuple × Ref) :=
  (List.range n).map fun i => (flowKey (UInt16.ofNat i), i)

def sampledOn (core : UInt8) (value : UInt64) : RingBuffer :=
  ringbufferAdd { (default : RingBuffer) with assignedCore := core } value

theorem balanceable_ofFlows {flows : List (FiveTuple × Ref)} {h : flows.length ≤ HASHMAP_SIZE}
    {heap : Heap RingBuffer} {nbCores : ℕ} {previousKey : FiveTuple}
    (hkeys : (flows.map Prod.fst).Nodup) (hroom : flows.length < HASHMAP_SIZE)
    (hrefs : (flows.map Prod.snd).Nodup) (hassigned : ∀ e ∈ flows, flowCore heap e < nbCores)
    (hsum : (flows.map (flowLoad heap)).sum < 2 ^ 64) (hkey : previousKey ∉ flows.map Prod.fst) :
    Balanceable (.ofFlows flows h) heap nbCores previousKey where
  inv := HashMap.ofFlows_inv hkeys
  isPrefix := HashMap.ofFlows_isPrefix
  room := by rwa [HashMap.ofFlows_entries]
  refs := by rwa [HashMap.ofFlows_entries]
  assigned := by rwa [Assigned, HashMap.ofFlows_entries]
  loads := by rwa [totalLoad, HashMap.ofFlows_entries]
  fresh := by rwa [HashMap.keys, HashMap.ofFlows_entries]

def threeFlows : HashMap := .ofFlows (flowsOf 3) (by decide)

def threeRings : Heap RingBuffer := .ofList [sampledOn 0 70, sampledOn 0 30, sampledOn 2 0]

theorem threeFlows_balanceable {nbCores : ℕ} (hn : 3 ≤ nbCores) :
    Balanceable threeFlows threeRings nbCores (flowKey 3) := by
  have hassigned : ∀ e ∈ flowsOf 3, flowCore threeRings e < 3 := by decide
  exact balanceable_ofFlows (by decide) (by decide) (by decide)
    (fun e he => (hassigned e he).trans_le hn) (by decide) (by decide)

/-- Every state of the loop, and every call of `balancer_migrate` in it. -/
theorem balancer_balance_invariant {hashmap : HashMap} {heap : Heap RingBuffer} {nbCores : ℕ}
    {previousKey : FiveTuple} (hpos : 1 ≤ nbCores) (hn : nbCores ≤ 255)
    (h : Balanceable hashmap heap nbCores previousKey) :
    (∃ coreLoad, balancerComputeRepartition hashmap heap previousKey (UInt8.ofNat nbCores) =
        .ok coreLoad ∧
      ∀ s, Reaches (balanceStep nbCores) ⟨heap, coreLoad, []⟩ s →
        CoresDescribe hashmap nbCores s ∧ s.migrations.length ≤ MAX_REBALANCE_ITERATIONS ∧
        ∀ scan, s.migrations.length < MAX_REBALANCE_ITERATIONS →
          scanLoads s.coreLoad nbCores = .ok scan → scan.imbalanced = true → SafeCall s scan) ∧
      ∃ heap' migrations, balancerBalance hashmap heap previousKey nbCores [] =
        .ok (heap', migrations) := by
  obtain ⟨hinv, hp, hroom, hrefs, hassigned, hsum, hkey⟩ := h
  obtain ⟨coreLoad, hok⟩ :=
    balancerComputeRepartition_total previousKey hn hinv hp hroom hassigned
  have hcores := balancerComputeRepartition_correct hn hinv hp hassigned hok
  rw [HashMap.walkIndex_absent hkey, List.drop_zero] at hcores
  refine ⟨⟨coreLoad, hok, fun s hreach => ?_⟩, ?_⟩
  · have hs := Balancing.reaches hpos hn hinv hrefs (List.Sublist.refl _) hcores hreach
    exact ⟨hs.coresDescribe hinv hassigned hsum, hs.count, fun scan hcount hscan himb =>
      hs.safeCall hpos hn hinv hroom hrefs hassigned hsum hcount hscan himb⟩
  · exact balancerBalance_total previousKey hpos hn hinv hp hroom hrefs hassigned

theorem balancer_balance_invariant_three :
    (∃ coreLoad, balancerComputeRepartition threeFlows threeRings (flowKey 3) (UInt8.ofNat 3) =
        .ok coreLoad ∧
      ∀ s, Reaches (balanceStep 3) ⟨threeRings, coreLoad, []⟩ s →
        CoresDescribe threeFlows 3 s ∧ s.migrations.length ≤ MAX_REBALANCE_ITERATIONS ∧
        ∀ scan, s.migrations.length < MAX_REBALANCE_ITERATIONS →
          scanLoads s.coreLoad 3 = .ok scan → scan.imbalanced = true → SafeCall s scan) ∧
      ∃ heap' migrations, balancerBalance threeFlows threeRings (flowKey 3) 3 [] =
        .ok (heap', migrations) :=
  balancer_balance_invariant (by decide) (by decide) (threeFlows_balanceable (by decide))

end OrssNic
