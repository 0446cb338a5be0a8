import OrssNic.BalancerRepartition
import OrssNic.BalancerScan
import OrssNic.Library.Placement

/-!
# The balancing loop

`Balancing` is the invariant of the `while` loop for a list `flows` of flows of
the map: the cores describe the ring buffers exactly, only assigned cores have
changed since the start, and the changes are the replayed migrations. It needs
no bound on the loads, and `flows` may be any tail of the content, so that it
also covers a walk that started in the middle of the map.
-/

namespace OrssNic
open CLoops Placement

/-- The core of the flow bound to a key, and 0 for an unbound one. -/
def assignment (hashmap : HashMap) (heap : Heap RingBuffer) (key : FiveTuple) : ℕ :=
  match hashmap.lookup key with
  | some r => (heap.cell r).assignedCore.toNat
  | none => 0

def weight (hashmap : HashMap) (heap : Heap RingBuffer) (key : FiveTuple) : ℕ :=
  match hashmap.lookup key with
  | some r => (ringbufferGetLast (heap.cell r)).toNat
  | none => 0

def moves (migrations : List Migration) : List (FiveTuple × ℕ) :=
  migrations.map fun m => (m.key, m.destinationCore)

theorem moves_concat (migrations : List Migration) (m : Migration) :
    moves (migrations ++ [m]) = moves migrations ++ [(m.key, m.destinationCore)] := by
  simp [moves]

theorem assignment_of_mem {hashmap : HashMap} (hinv : hashmap.Inv) (heap : Heap RingBuffer)
    {e : FiveTuple × Ref} (he : e ∈ hashmap.entries) :
    assignment hashmap heap e.1 = flowCore heap e := by
  simp only [assignment, hinv.lookup_iff.mpr he, flowCore]

theorem weight_of_mem {hashmap : HashMap} (hinv : hashmap.Inv) (heap : Heap RingBuffer)
    {e : FiveTuple × Ref} (he : e ∈ hashmap.entries) :
    weight hashmap heap e.1 = flowLoad heap e := by
  simp only [weight, hinv.lookup_iff.mpr he, flowLoad]

theorem assignment_reassign {hashmap : HashMap} (hinv : hashmap.Inv)
    (hrefs : (hashmap.entries.map Prod.snd).Nodup) (heap : Heap RingBuffer)
    {e : FiveTuple × Ref} (he : e ∈ hashmap.entries) {c : ℕ} (hc : c ≤ 255) :
    assignment hashmap (reassign heap e.2 (UInt8.ofNat c)) =
      Function.update (assignment hashmap heap) e.1 c := by
  funext key
  by_cases hkey : key = e.1
  · rw [hkey, Function.update_self, assignment_of_mem hinv _ he, flowCore_reassign_self,
      toNat_ofNat_nbCores hc]
  · rw [Function.update_of_ne hkey, assignment, assignment]
    cases hl : hashmap.lookup key with
    | none => rfl
    | some r =>
      have hmem := hinv.lookup_iff.mp hl
      have hne : r ≠ e.2 := by
        intro hr
        exact hkey (congrArg Prod.fst (List.inj_on_of_nodup_map hrefs hmem he hr))
      have hflow : flowCore (reassign heap e.2 (UInt8.ofNat c)) (key, r) = flowCore heap (key, r) :=
        flowCore_reassign_of_ne heap _ hne
      exact hflow

/-- At most the assigned cores differ. -/
structure SameSamples (heap heap' : Heap RingBuffer) : Prop where
  next : heap'.next = heap.next
  cell : ∀ r, heap'.cell r = { heap.cell r with assignedCore := (heap'.cell r).assignedCore }

namespace SameSamples
variable {heap heap' heap'' : Heap RingBuffer}

theorem refl (heap : Heap RingBuffer) : SameSamples heap heap := ⟨rfl, fun _ => rfl⟩

theorem trans (h : SameSamples heap heap') (h' : SameSamples heap' heap'') :
    SameSamples heap heap'' :=
  ⟨h'.next.trans h.next, fun r => (h'.cell r).trans (by rw [h.cell r])⟩

theorem reassign (heap : Heap RingBuffer) (r : Ref) (core : UInt8) :
    SameSamples heap (reassign heap r core) := by
  refine ⟨rfl, fun q => ?_⟩
  by_cases hq : q = r
  · simp [OrssNic.reassign, hq]
  · simp [OrssNic.reassign, Heap.write_cell_of_ne _ _ hq]

theorem isActive (h : SameSamples heap heap') (r : Ref) :
    (heap'.cell r).isActive = (heap.cell r).isActive := by
  rw [h.cell r]

theorem getLast (h : SameSamples heap heap') (r : Ref) :
    ringbufferGetLast (heap'.cell r) = ringbufferGetLast (heap.cell r) := by
  rw [h.cell r, ringbufferGetLast_assign]

theorem flowLoad (h : SameSamples heap heap') : flowLoad heap' = flowLoad heap := by
  funext e
  exact congrArg UInt64.toNat (h.getLast e.2)

theorem weight (h : SameSamples heap heap') (hashmap : HashMap) :
    weight hashmap heap' = weight hashmap heap := by
  funext key
  simp only [OrssNic.weight, h.getLast]

end SameSamples

structure Balancing (hashmap : HashMap) (flows : List (FiveTuple × Ref))
    (heap₀ : Heap RingBuffer) (nbCores : ℕ) (s : BalanceState) : Prop where
  cores : Exact (· ∈ flows) s.heap nbCores s.coreLoad
  samples : SameSamples heap₀ s.heap
  replayed : assignment hashmap s.heap = replay (assignment hashmap heap₀) (moves s.migrations)
  moved : ∀ m ∈ s.migrations, m.destinationCore < nbCores ∧
    ∃ e ∈ flows, e.1 = m.key ∧ 0 < flowLoad heap₀ e
  count : s.migrations.length ≤ MAX_REBALANCE_ITERATIONS

structure Migrates (flows : List (FiveTuple × Ref)) (scan : LoadScan) (e : FiveTuple × Ref)
    (s s' : BalanceState) : Prop where
  room : s.migrations.length < MAX_REBALANCE_ITERATIONS
  describes : scan.Describes s.coreLoad
  imbalanced : scan.imbalanced = true
  mem : e ∈ flows
  core : flowCore s.heap e = scan.biggestLoadIdx
  heaviest : ∀ e' ∈ flows, flowCore s.heap e' = scan.biggestLoadIdx →
    flowLoad s.heap e' ≤ flowLoad s.heap e
  pos : 0 < flowLoad s.heap e
  heap : s'.heap = reassign s.heap e.2 (UInt8.ofNat scan.smallestLoadIdx)
  migrations : s'.migrations = s.migrations ++ [⟨e.1, scan.smallestLoadIdx⟩]
  cores : ∃ big small, s.coreLoad[scan.biggestLoadIdx]? = some big ∧
    s.coreLoad[scan.smallestLoadIdx]? = some small ∧ big.entries ≠ []

section Step
variable {hashmap : HashMap} {flows : List (FiveTuple × Ref)} {heap₀ : Heap RingBuffer}
variable {nbCores : ℕ} {s s' : BalanceState}

/-- A call of `balancer_migrate` from the loop: its source is not empty, because
a most loaded core of an imbalanced repartition carries some load. -/
theorem balancerMigrate_called {scan : LoadScan} (hn : nbCores ≤ 255)
    (hrefs : (flows.map Prod.snd).Nodup) (hlen : flows.length ≤ HASHMAP_SIZE)
    (hcores : Exact (· ∈ flows) s.heap nbCores s.coreLoad)
    (hroom : s.migrations.length < MAX_REBALANCE_ITERATIONS) (hdesc : scan.Describes s.coreLoad)
    (himb : scan.imbalanced = true) :
    ∃ e s', balancerMigrate s.heap s.coreLoad scan.biggestLoadIdx scan.smallestLoadIdx =
        .ok (s'.heap, s'.coreLoad, ⟨e.1, scan.smallestLoadIdx⟩) ∧
      Migrates flows scan e s s' ∧ Exact (· ∈ flows) s'.heap nbCores s'.coreLoad := by
  obtain ⟨big, hbig, hbigLoad⟩ := hdesc.biggest
  obtain ⟨small, hsmall, -⟩ := hdesc.smallest
  have hcached := (hcores.holds _ big hbig).cached
  have hload : 0 < big.load.toNat := hbigLoad ▸ hdesc.biggest_pos himb
  have hne := hcached.entries_ne_nil (UInt64.lt_iff_toNat_lt.mpr hload)
  have hsmallLt : scan.smallestLoadIdx < nbCores :=
    hcores.length ▸ (List.getElem?_eq_some_iff.mp hsmall).1
  obtain ⟨e, coreLoad', he, hcore, hmax, hok, hexact⟩ :=
    balancerMigrate_spec hn hrefs hlen hcores hbig hne hsmallLt
  have hpos : 0 < flowLoad s.heap e := by
    by_contra hzero
    have hsum : (big.entries.map (flowLoad s.heap)).sum = 0 := by
      apply List.sum_eq_zero
      simp only [List.mem_map, forall_exists_index, and_imp, forall_apply_eq_imp_iff₂]
      intro e' he'
      obtain ⟨hmem, hc⟩ := ((hcores.holds _ big hbig).mem e').mp he'
      have := hmax e' hmem hc
      omega
    rw [hcached.load, hsum] at hload
    simp at hload
  exact ⟨e, ⟨reassign s.heap e.2 (UInt8.ofNat scan.smallestLoadIdx), coreLoad',
    s.migrations ++ [⟨e.1, scan.smallestLoadIdx⟩]⟩, hok,
    ⟨hroom, hdesc, himb, he, hcore, hmax, hpos, rfl, rfl, big, small, hbig, hsmall, hne⟩, hexact⟩

theorem balanceStep_cases (hpos : 1 ≤ nbCores) (hn : nbCores ≤ 255)
    (hrefs : (flows.map Prod.snd).Nodup) (hlen : flows.length ≤ HASHMAP_SIZE)
    (hcores : Exact (· ∈ flows) s.heap nbCores s.coreLoad) :
    (balanceStep nbCores s = .ok none ∧
      (MAX_REBALANCE_ITERATIONS ≤ s.migrations.length ∨
        ∃ scan : LoadScan, scan.Describes s.coreLoad ∧ scan.imbalanced = false)) ∨
    ∃ scan e s', balanceStep nbCores s = .ok (some s') ∧ Migrates flows scan e s s' ∧
      Exact (· ∈ flows) s'.heap nbCores s'.coreLoad := by
  obtain ⟨scan, hscan, hdesc⟩ := scanLoads_spec hpos hn hcores.length
  by_cases hroom : s.migrations.length < MAX_REBALANCE_ITERATIONS
  · cases himb : scan.imbalanced with
    | false =>
      refine .inl ⟨?_, .inr ⟨scan, hdesc, himb⟩⟩
      simp [balanceStep, hroom, hscan, himb, bind, Except.bind, pure, Except.pure]
    | true =>
      obtain ⟨e, s', hok, hm, hexact⟩ :=
        balancerMigrate_called hn hrefs hlen hcores hroom hdesc himb
      refine .inr ⟨scan, e, s', ?_, hm, hexact⟩
      simp [balanceStep, hroom, hscan, himb, hok, ← hm.migrations, bind, Except.bind, pure,
        Except.pure]
  · refine .inl ⟨?_, .inl (not_lt.mp hroom)⟩
    simp [balanceStep, hroom, pure, Except.pure]

theorem Migrates.target_lt {scan : LoadScan} {e : FiveTuple × Ref}
    (h : Migrates flows scan e s s') (hcores : Exact (· ∈ flows) s.heap nbCores s.coreLoad) :
    scan.smallestLoadIdx < nbCores := by
  obtain ⟨_, _, -, hsmall, -⟩ := h.cores
  exact hcores.length ▸ (List.getElem?_eq_some_iff.mp hsmall).1

theorem Balancing.step {scan : LoadScan} {e : FiveTuple × Ref} (hn : nbCores ≤ 255)
    (hinv : hashmap.Inv) (hrefs : (hashmap.entries.map Prod.snd).Nodup)
    (hsub : flows ⊆ hashmap.entries) (hs : Balancing hashmap flows heap₀ nbCores s)
    (hm : Migrates flows scan e s s') (hcores : Exact (· ∈ flows) s'.heap nbCores s'.coreLoad) :
    Balancing hashmap flows heap₀ nbCores s' := by
  have htarget := hm.target_lt hs.cores
  refine ⟨hcores, ?_, ?_, ?_, ?_⟩
  · rw [hm.heap]
    exact hs.samples.trans (.reassign _ _ _)
  · rw [hm.heap, hm.migrations, assignment_reassign hinv hrefs _ (hsub hm.mem) (by omega),
      hs.replayed, moves_concat, replay_concat]
  · rw [hm.migrations, List.forall_mem_append, List.forall_mem_singleton]
    exact ⟨hs.moved, htarget, e, hm.mem, rfl, hs.samples.flowLoad ▸ hm.pos⟩
  · rw [hm.migrations, List.length_append, List.length_singleton]
    exact hm.room

end Step

section Run
variable {hashmap : HashMap} {flows : List (FiveTuple × Ref)} {heap₀ : Heap RingBuffer}
variable {nbCores : ℕ} {coreLoad : Repartition}

theorem Balancing.start (hcores : Exact (· ∈ flows) heap₀ nbCores coreLoad) :
    Balancing hashmap flows heap₀ nbCores ⟨heap₀, coreLoad, []⟩ :=
  ⟨hcores, .refl heap₀, rfl, by simp, Nat.zero_le _⟩

theorem Balancing.length_le (hsub : flows.Sublist hashmap.entries) :
    flows.length ≤ HASHMAP_SIZE :=
  hsub.length_le.trans hashmap.entries_length_le

theorem Balancing.refs (hrefs : (hashmap.entries.map Prod.snd).Nodup)
    (hsub : flows.Sublist hashmap.entries) : (flows.map Prod.snd).Nodup :=
  hrefs.sublist (hsub.map _)

theorem Balancing.reaches {s : BalanceState} (hpos : 1 ≤ nbCores) (hn : nbCores ≤ 255)
    (hinv : hashmap.Inv) (hrefs : (hashmap.entries.map Prod.snd).Nodup)
    (hsub : flows.Sublist hashmap.entries)
    (hcores : Exact (· ∈ flows) heap₀ nbCores coreLoad)
    (hreach : Reaches (balanceStep nbCores) ⟨heap₀, coreLoad, []⟩ s) :
    Balancing hashmap flows heap₀ nbCores s := by
  refine hreach.invariant (.start hcores) fun t t' ht hstep => ?_
  rcases balanceStep_cases hpos hn (refs hrefs hsub) (length_le hsub) ht.cores with
    ⟨hstop, -⟩ | ⟨scan, e, t'', hok, hm, hexact⟩
  · rw [hstop] at hstep
    cases hstep
  · rw [hok] at hstep
    cases hstep
    exact ht.step hn hinv hrefs hsub.subset hm hexact

theorem balanceLoop_total (hpos : 1 ≤ nbCores) (hn : nbCores ≤ 255)
    (hinv : hashmap.Inv) (hrefs : (hashmap.entries.map Prod.snd).Nodup)
    (hsub : flows.Sublist hashmap.entries)
    (hcores : Exact (· ∈ flows) heap₀ nbCores coreLoad) :
    ∃ s, whileLoop Halt.diverges (balanceStep nbCores) (MAX_REBALANCE_ITERATIONS + 1)
      ⟨heap₀, coreLoad, []⟩ = .ok s ∧ Balancing hashmap flows heap₀ nbCores s := by
  refine whileLoop_total Halt.diverges
    (fun s => MAX_REBALANCE_ITERATIONS - s.migrations.length) (Balancing.start hcores)
    (by simp) fun s hs => ?_
  rcases balanceStep_cases hpos hn (Balancing.refs hrefs hsub) (Balancing.length_le hsub)
    hs.cores with ⟨hstop, -⟩ | ⟨scan, e, s', hok, hm, hexact⟩
  · exact .inl hstop
  · refine .inr ⟨s', hok, hs.step hn hinv hrefs hsub.subset hm hexact, ?_⟩
    rw [hm.migrations, List.length_append, List.length_singleton]
    have := hm.room
    omega

theorem balancerPrintMigrations_ok (hinv : hashmap.Inv) {migrations : List Migration}
    (h : ∀ m ∈ migrations, m.key ∈ hashmap.keys) :
    balancerPrintMigrations hashmap migrations = .ok () := by
  induction migrations with
  | nil => rfl
  | cons m migrations ih =>
    rw [List.forall_mem_cons] at h
    obtain ⟨value, hmem⟩ := HashMap.mem_keys.mp h.1
    simp [balancerPrintMigrations, hashmapGet_eq hinv, hinv.lookup_iff.mpr hmem, ih h.2, bind,
      Except.bind]

theorem balancerBalance_correct {previousKey : FiveTuple} {heap' : Heap RingBuffer}
    {migrations : List Migration} (hpos : 1 ≤ nbCores) (hn : nbCores ≤ 255)
    (hinv : hashmap.Inv) (hp : hashmap.IsPrefix)
    (hrefs : (hashmap.entries.map Prod.snd).Nodup) (hassigned : Assigned hashmap heap₀ nbCores)
    (h : balancerBalance hashmap heap₀ previousKey nbCores [] = .ok (heap', migrations)) :
    ∃ coreLoad s, balancerComputeRepartition hashmap heap₀ previousKey (UInt8.ofNat nbCores) =
        .ok coreLoad ∧
      Reaches (balanceStep nbCores) ⟨heap₀, coreLoad, []⟩ s ∧ balanceStep nbCores s = .ok none ∧
      s.heap = heap' ∧ s.migrations = migrations ∧
      Balancing hashmap (hashmap.entries.drop (hashmap.walkIndex previousKey)) heap₀ nbCores s := by
  simp only [balancerBalance, bind_eq_ok] at h
  obtain ⟨coreLoad, hcompute, s, hloop, -, -, hret⟩ := h
  obtain ⟨hreach, hstop⟩ := whileLoop_correct hloop
  have hcores := balancerComputeRepartition_correct hn hinv hp hassigned hcompute
  have hs := Balancing.reaches hpos hn hinv hrefs (List.drop_sublist _ _) hcores hreach
  simp only [pure, Except.pure, Except.ok.injEq, Prod.mk.injEq] at hret
  exact ⟨coreLoad, s, hcompute, hreach, hstop, hret.1, hret.2, hs⟩

theorem balancerBalance_total (previousKey : FiveTuple) (hpos : 1 ≤ nbCores) (hn : nbCores ≤ 255)
    (hinv : hashmap.Inv) (hp : hashmap.IsPrefix) (hroom : hashmap.entries.length < HASHMAP_SIZE)
    (hrefs : (hashmap.entries.map Prod.snd).Nodup) (hassigned : Assigned hashmap heap₀ nbCores) :
    ∃ heap' migrations, balancerBalance hashmap heap₀ previousKey nbCores [] =
      .ok (heap', migrations) := by
  obtain ⟨coreLoad, hcompute⟩ :=
    balancerComputeRepartition_total previousKey hn hinv hp hroom hassigned
  have hcores := balancerComputeRepartition_correct hn hinv hp hassigned hcompute
  obtain ⟨s, hloop, hs⟩ :=
    balanceLoop_total hpos hn hinv hrefs (List.drop_sublist _ _) hcores
  have hprint : balancerPrintMigrations hashmap s.migrations = .ok () := by
    apply balancerPrintMigrations_ok hinv
    intro m hm
    obtain ⟨-, e, he, hkey, -⟩ := hs.moved m hm
    exact hkey ▸ List.mem_map_of_mem (List.mem_of_mem_drop he)
  refine ⟨s.heap, s.migrations, ?_⟩
  simp [balancerBalance, hcompute, hloop, hprint, bind, Except.bind, pure, Except.pure]

end Run

end OrssNic
