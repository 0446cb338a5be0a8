import OrssNic.FullMapExit
import OrssNic.PlacementLedger

/-!
# The end of a run

No flow of the main loop is ever inactive, so that no ring buffer is freed and
no slot is given up while the loop runs. The `hashmap_destroy` behind the loop
then frees each ring buffer of the run once.
-/

namespace OrssNic
open CLoops CRuns

structure MapState.Pooled (map : MapState) : Prop where
  freed : map.heap.freed = []
  count : map.hashmap.entries.length = map.heap.next

structure SamePool (heap heap' : Heap RingBuffer) : Prop where
  next : heap'.next = heap.next
  freed : heap'.freed = heap.freed

namespace SamePool
variable {heap heap' heap'' : Heap RingBuffer}

theorem refl (heap : Heap RingBuffer) : SamePool heap heap := ⟨rfl, rfl⟩

theorem trans (h : SamePool heap heap') (h' : SamePool heap' heap'') : SamePool heap heap'' :=
  ⟨h'.next.trans h.next, h'.freed.trans h.freed⟩

theorem pooled {hashmap : HashMap} (h : SamePool heap heap')
    (hp : MapState.Pooled ⟨hashmap, heap⟩) : MapState.Pooled ⟨hashmap, heap'⟩ :=
  ⟨h.freed.trans hp.freed, hp.count.trans h.next.symm⟩

theorem balancerMigrate {coreLoad coreLoad' : Repartition} {bigCore smallCore : ℕ}
    {migration : Migration}
    (h : balancerMigrate heap coreLoad bigCore smallCore = .ok (heap', coreLoad', migration)) :
    SamePool heap heap' := by
  obtain ⟨big, -, h⟩ := bind_eq_ok.mp h
  obtain ⟨⟨key, flow, big⟩, -, h⟩ := bind_eq_ok.mp h
  obtain ⟨small, -, h⟩ := bind_eq_ok.mp h
  obtain ⟨small, -, h⟩ := bind_eq_ok.mp h
  obtain ⟨coreLoad₁, -, h⟩ := bind_eq_ok.mp h
  obtain ⟨coreLoad₂, -, h⟩ := bind_eq_ok.mp h
  cases h
  exact ⟨rfl, rfl⟩

theorem balanceStep {nbCores : ℕ} {s s' : BalanceState}
    (h : balanceStep nbCores s = .ok (some s')) : SamePool s.heap s'.heap := by
  unfold OrssNic.balanceStep at h
  split_ifs at h
  · obtain ⟨scan, -, h⟩ := bind_eq_ok.mp h
    dsimp only at h
    split_ifs at h
    · obtain ⟨⟨heap, coreLoad, migration⟩, hmigrate, h⟩ := bind_eq_ok.mp h
      cases h
      exact balancerMigrate hmigrate
    · cases h
  · cases h

theorem balancerBalance {hashmap : HashMap} {previousKey : FiveTuple} {nbCores : ℕ}
    {migrations migrations' : List Migration}
    (h : balancerBalance hashmap heap previousKey nbCores migrations =
      .ok (heap', migrations')) : SamePool heap heap' := by
  obtain ⟨coreLoad, -, h⟩ := bind_eq_ok.mp h
  obtain ⟨s, hloop, h⟩ := bind_eq_ok.mp h
  obtain ⟨_, -, h⟩ := bind_eq_ok.mp h
  cases h
  apply (whileLoop_correct hloop).1.invariant (P := fun s => SamePool heap s.heap) (refl heap)
  intro t t' ht hstep
  exact ht.trans (balanceStep hstep)

end SamePool

namespace MapState.Pooled
variable {map map' : MapState} {flows : OpenflowFlows}

theorem start : Pooled ⟨hashmapInit, Heap.empty⟩ where
  freed := rfl
  count := by simp [hashmapInit_entries, Heap.empty]

theorem getOrNew {key : FiveTuple} {r : Ref} (h : map.Pooled) (hheld : map.Held)
    (hok : getOrNew map key = .ok (r, map')) : map'.Pooled := by
  by_cases hkey : key ∈ map.hashmap.keys
  · obtain ⟨r', hmem⟩ := HashMap.mem_keys.mp hkey
    rw [getOrNew_bound hheld.inv hmem] at hok
    cases hok
    exact h
  · have hroom : map.hashmap.entries.length < HASHMAP_SIZE := by
      by_contra hfull
      rw [getOrNew_full hheld.inv hkey hfull] at hok
      cases hok
    obtain ⟨hashmap', front, slot, back, hnew, hmap, -, hslot, hmap', -⟩ :=
      hashmapNew_absent hheld hkey hroom
    have hget : hashmapGet map.hashmap key = .ok none := by
      rw [hashmapGet_eq hheld.inv, HashMap.lookup_eq_none.mpr hkey]
    obtain ⟨found, hfound, hok⟩ := bind_eq_ok.mp hok
    rw [hget, Except.ok.injEq] at hfound
    subst hfound
    obtain ⟨made, hmade, hok⟩ := bind_eq_ok.mp hok
    rw [hnew, Except.ok.injEq] at hmade
    subst hmade
    cases hok
    -- The new flow and its ring buffer are counted together.
    have hlength := (entries_perm_of_fill hmap hslot hmap' rfl).length_eq
    refine ⟨h.freed, ?_⟩
    rw [hlength, List.length_cons, h.count]
    rfl

theorem sampleStep {i : ℕ} (h : map.Pooled) (hheld : map.Held)
    (hok : sampleStep flows i map = .ok map') : map'.Pooled := by
  obtain ⟨stats, -, hok⟩ := bind_eq_ok.mp hok
  obtain ⟨⟨r, map₁⟩, hnew, hok⟩ := bind_eq_ok.mp hok
  cases hok
  have hmap₁ := h.getOrNew hheld hnew
  exact ⟨hmap₁.freed, hmap₁.count⟩

theorem sampleLoop {n : ℕ} (h : map.Pooled) (hheld : map.Held)
    (hok : forLoop (OrssNic.sampleStep flows) n map = .ok map') : map'.Pooled := by
  have hboth : map'.Held ∧ map'.Pooled := by
    apply forLoop_correct (P := fun _ (map : MapState) => map.Held ∧ map.Pooled) ⟨hheld, h⟩ ?_ hok
    intro i map₁ map₂ _ hbefore hstep
    obtain ⟨stats, -, hsampled⟩ := sampleStep_correct hbefore.1 hstep
    exact ⟨hsampled.held, hbefore.2.sampleStep hbefore.1 hstep⟩
  exact hboth.2

theorem getMigrations {previousKey : FiveTuple} {migrations migrations' : List Migration}
    (h : map.Pooled) (hheld : map.Held)
    (hok : getMigrations flows map previousKey migrations = .ok (map', migrations')) :
    map'.Pooled := by
  obtain ⟨sampled, hloop, hok⟩ := bind_eq_ok.mp hok
  obtain ⟨⟨heap, _⟩, hbalance, hok⟩ := bind_eq_ok.mp hok
  cases hok
  exact (SamePool.balancerBalance hbalance).pooled (h.sampleLoop hheld hloop)

theorem cleanup (h : map.Pooled) (hlive : map.Live) :
    Pooled ⟨(hashmapCleanupInactiveFlows map.hashmap map.heap).1,
      (hashmapCleanupInactiveFlows map.hashmap map.heap).2⟩ := by
  have hnone : (map.hashmap.entries.filter fun e => !(map.heap.cell e.2).isActive) = [] := by
    rw [List.filter_eq_nil_iff]
    intro e he
    rw [hlive.isActive he]
    decide
  have hall : (map.hashmap.entries.filter fun e => (map.heap.cell e.2).isActive) =
      map.hashmap.entries := by
    rw [List.filter_eq_self]
    exact fun e he => hlive.isActive he
  obtain ⟨hentries, -, hnext, -⟩ := hashmapCleanup_spec hlive.inv map.heap
  obtain ⟨hfreed, -⟩ := cleanupFrom_freed map.hashmap.map map.hashmap.size map.heap
  refine ⟨hfreed.trans ?_, ?_⟩
  · have hentriesOf : (entriesOf map.hashmap.map).filter
        (fun e => !(map.heap.cell e.2).isActive) = [] := hnone
    rw [hentriesOf, h.freed]
    rfl
  · rw [hentries, hall, hnext, h.count]

theorem refs_perm (h : map.Pooled) (hsound : map.Sound) :
    (map.hashmap.entries.map Prod.snd).Perm (List.range map.heap.next) := by
  have hsubset : map.hashmap.entries.map Prod.snd ⊆ List.range map.heap.next := by
    intro r hr
    obtain ⟨e, he, rfl⟩ := List.mem_map.mp hr
    exact List.mem_range.mpr (hsound.fresh e he)
  apply (List.subperm_of_subset hsound.refs hsubset).perm_of_length_le
  rw [List.length_range, List.length_map, h.count]

end MapState.Pooled

theorem iteration_pooled {s : MainState} {i : Surroundings} {r : Iteration}
    (h : iteration s i = .ok r) (hlive : s.map.Live) (hp : s.map.Pooled) :
    r.after.map.Live ∧ r.after.map.Pooled := by
  obtain ⟨-, sampled, flows, coreLoad, t, hiterates⟩ := iteration_spec hlive h
  refine ⟨hiterates.afterLive, ?_⟩
  obtain ⟨connection, r₁, r₂, map, migrations, freed, -, -, -, hget, -, rfl⟩ := iteration_ok h
  have hmapLive := getMigrations_live hlive hget
  exact (hp.getMigrations hlive.held hget).cleanup hmapLive

theorem trace_pooled {inputs : List Surroundings} {s : MainState} {rs : List Iteration}
    (h : trace iteration Iteration.after inputs s = .ok rs) (hlive : s.map.Live)
    (hp : s.map.Pooled) :
    (∀ r ∈ rs, r.after.map.Pooled) ∧ (final Iteration.after s rs).map.Pooled := by
  induction inputs generalizing s rs with
  | nil =>
    cases h
    exact ⟨by simp, hp⟩
  | cons i inputs ih =>
    obtain ⟨r, rs', hr, hrs', rfl⟩ := trace_cons_ok.mp h
    obtain ⟨hlive', hp'⟩ := iteration_pooled hr hlive hp
    obtain ⟨hall, hfinal⟩ := ih hrs' hlive' hp'
    rw [List.forall_mem_cons]
    exact ⟨⟨hp', hall⟩, hfinal⟩

theorem hashmapDestroy_live {map : MapState} (hlive : map.Live) :
    hashmapDestroy map.hashmap map.heap = .ok { map.heap with
      freed := map.heap.freed ++ map.hashmap.entries.map Prod.snd } := by
  have hsize : map.hashmap.size.toNat = map.hashmap.entries.length := by
    rw [hlive.inv.size_eq, Int.toNat_natCast]
  have hvalues : (map.hashmap.map.take map.hashmap.entries.length).map KeyValuePair.value =
      map.hashmap.entries.map Prod.snd := by
    conv_rhs => rw [hlive.isPrefix.entries_eq, List.map_map]
    rfl
  rw [hashmapDestroy_eq _ _ (hsize ▸ map.hashmap.entries_length_le), hsize, hvalues]

section Runs
variable {connection : OpenflowConnection} {transactionId : UInt32}
variable {inputs : List Surroundings} {rs : List Iteration}

/-- The loop frees no ring buffer. It has allocated one for each flow that was
ever reported, and the destructor frees each of them once. -/
theorem ring_buffers_released (h : mainLoop connection transactionId inputs = .ok rs)
    {map : MapState}
    (hmap : map = (final Iteration.after (.start connection transactionId) rs).map) :
    (∀ r ∈ rs, r.after.map.heap.freed = []) ∧ map.heap.next = (everReported rs).card ∧
      ∃ heap, hashmapDestroy map.hashmap map.heap = .ok heap ∧ heap.next = map.heap.next ∧
        heap.freed.Perm (List.range heap.next) := by
  obtain ⟨hlive, hkeys⟩ := mainLoop_final h
  obtain ⟨hall, hpooled⟩ := trace_pooled h .start .start
  rw [← hmap] at hlive hkeys hpooled
  refine ⟨fun r hr => (hall r hr).freed, ?_, _, hashmapDestroy_live hlive, rfl, ?_⟩
  · rw [← hkeys, List.toFinset_card_of_nodup hlive.inv.keys_nodup, ← hpooled.count, HashMap.keys,
      List.length_map]
  · dsimp only
    rw [hpooled.freed, List.nil_append]
    exact hpooled.refs_perm hlive.toSound

theorem ring_buffers_released_pausing : ∃ rs heap,
    mainLoop idleConnection 5 pausingFlows = .ok rs ∧ (everReported rs).card = 2 ∧
      hashmapDestroy (final Iteration.after (.start idleConnection 5) rs).map.hashmap
        (final Iteration.after (.start idleConnection 5) rs).map.heap = .ok heap ∧
      heap.freed.Perm [0, 1] := by
  have hrun : returns (mainLoop idleConnection 5 pausingFlows)
      (fun rs => decide ((everReported rs).card = 2)) = true := by
    decide +kernel
  obtain ⟨rs, hok, htest⟩ := exists_of_returns hrun
  have hcard := of_decide_eq_true htest
  obtain ⟨-, hnext, heap, hdestroy, hheap, hfreed⟩ := ring_buffers_released hok rfl
  rw [hheap, hnext, hcard] at hfreed
  exact ⟨rs, heap, hok, hcard, hdestroy, hfreed⟩

end Runs

end OrssNic
