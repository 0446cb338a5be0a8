import OrssNic.BalancerInvariant

/-!
# What the repartition covers

The walk of `balancer_compute_repartition` starts behind a local variable that
nobody sets. A key that the map does not bind starts it at the first slot, and
the repartition is complete; from a bound key, what is up to that key is left
out.
-/

namespace OrssNic
open CLoops

/-- Every entry of the map stands once on the core that it is assigned to, and
the counts and the loads of the cores add up to those of the map. -/
structure Covers (hashmap : HashMap) (heap : Heap RingBuffer) (nbCores : ℕ)
    (coreLoad : Repartition) : Prop where
  contents : List.Perm (coreLoad.flatMap CoreLoad.entries) hashmap.entries
  length : coreLoad.length = nbCores
  placed : ∀ (c : ℕ) (core : CoreLoad), coreLoad[c]? = some core →
    ∀ e ∈ core.entries, flowCore heap e = c
  used : ∀ core ∈ coreLoad, core.entries.length = core.nbFlows
  nbFlows : ((coreLoad.map CoreLoad.nbFlows).sum : ℤ) = hashmap.size
  loads : (coreLoad.map fun core => core.load.toNat).sum ≡ totalLoad hashmap heap [MOD 2 ^ 64]
  loadsExact : totalLoad hashmap heap < 2 ^ 64 →
    (coreLoad.map fun core => core.load.toNat).sum = totalLoad hashmap heap

section Coverage
variable {hashmap : HashMap} {heap : Heap RingBuffer} {nbCores : ℕ} {coreLoad : Repartition}
variable {flows : List (FiveTuple × Ref)}

theorem Exact.entries_length (h : Exact (· ∈ flows) heap nbCores coreLoad) {core : CoreLoad}
    (hcore : core ∈ coreLoad) : core.entries.length = core.nbFlows := by
  obtain ⟨c, hc⟩ := List.mem_iff_getElem?.mp hcore
  exact (h.holds c core hc).shape.entries_length

theorem Exact.sum_nbFlows (hflows : flows.Nodup)
    (hassigned : ∀ e ∈ flows, flowCore heap e < nbCores)
    (h : Exact (· ∈ flows) heap nbCores coreLoad) :
    (coreLoad.map CoreLoad.nbFlows).sum = flows.length := by
  rw [← (h.perm hflows hassigned).length_eq, List.length_flatMap]
  exact congrArg List.sum (List.map_congr_left fun core hcore => (h.entries_length hcore).symm)

theorem Exact.sum_loads_modEq (hflows : flows.Nodup)
    (hassigned : ∀ e ∈ flows, flowCore heap e < nbCores)
    (h : Exact (· ∈ flows) heap nbCores coreLoad) :
    (coreLoad.map fun core => core.load.toNat).sum ≡ (flows.map (flowLoad heap)).sum
      [MOD 2 ^ 64] := by
  have hmod : ∀ cores : Repartition, (∀ core ∈ cores, core.Cached heap) →
      (cores.map fun core => core.load.toNat).sum ≡
        ((cores.flatMap CoreLoad.entries).map (flowLoad heap)).sum [MOD 2 ^ 64] := by
    intro cores hcached
    induction cores with
    | nil => rfl
    | cons core cores ih =>
      rw [List.forall_mem_cons] at hcached
      rw [List.map_cons, List.sum_cons, List.flatMap_cons, List.map_append, List.sum_append,
        hcached.1.load]
      exact (Nat.mod_modEq _ _).add (ih hcached.2)
  have hcached : ∀ core ∈ coreLoad, core.Cached heap := by
    intro core hcore
    obtain ⟨c, hc⟩ := List.mem_iff_getElem?.mp hcore
    exact (h.holds c core hc).cached
  have hcores := hmod coreLoad hcached
  rwa [((h.perm hflows hassigned).map _).sum_eq] at hcores

theorem Exact.covers (hinv : hashmap.Inv) (hassigned : Assigned hashmap heap nbCores)
    (h : Exact (· ∈ hashmap.entries) heap nbCores coreLoad) :
    Covers hashmap heap nbCores coreLoad where
  contents := h.contents hinv hassigned
  length := h.length
  placed := fun c core hc e he => (((h.holds c core hc).mem e).mp he).2
  used := fun core hcore => h.entries_length hcore
  nbFlows := by rw [h.sum_nbFlows hinv.entries_nodup hassigned, hinv.size_eq]
  loads := h.sum_loads_modEq hinv.entries_nodup hassigned
  loadsExact := h.sum_loads hinv hassigned

end Coverage

/-- The repartition is complete exactly when the content of the uninitialised
variable is no key of the map. -/
theorem balancerComputeRepartition_covers_iff {hashmap : HashMap} {heap : Heap RingBuffer}
    {nbCores : UInt8} (previousKey : FiveTuple) (hinv : hashmap.Inv) (hp : hashmap.IsPrefix)
    (hroom : hashmap.entries.length < HASHMAP_SIZE)
    (hassigned : Assigned hashmap heap nbCores.toNat) :
    (∃ coreLoad, balancerComputeRepartition hashmap heap previousKey nbCores = .ok coreLoad ∧
        Covers hashmap heap nbCores.toNat coreLoad) ↔
      previousKey ∉ hashmap.keys := by
  have hn : nbCores.toNat ≤ 255 := Nat.le_of_lt_succ nbCores.toNat_lt
  obtain ⟨coreLoad, hok⟩ :=
    balancerComputeRepartition_total previousKey hn hinv hp hroom hassigned
  have hexact := balancerComputeRepartition_correct hn hinv hp hassigned hok
  rw [UInt8.ofNat_toNat] at hok
  constructor
  · rintro ⟨coreLoad', hok', hcovers⟩ hkey
    rw [hok] at hok'
    cases hok'
    have hdrop := List.drop_sublist (hashmap.walkIndex previousKey) hashmap.entries
    have hcount := hexact.sum_nbFlows (hdrop.nodup hinv.entries_nodup)
      fun e he => hassigned e (hdrop.subset he)
    have hsize := hcovers.nbFlows
    rw [hcount, hinv.size_eq, List.length_drop] at hsize
    obtain ⟨value, hmem⟩ := HashMap.mem_keys.mp hkey
    obtain ⟨i, hi⟩ := List.mem_iff_getElem?.mp hmem
    have hlt := (List.getElem?_eq_some_iff.mp hi).1
    rw [HashMap.walkIndex_of_getElem? hinv hp hi] at hsize
    omega
  · intro hkey
    rw [HashMap.walkIndex_absent hkey, List.drop_zero] at hexact
    exact ⟨coreLoad, hok, hexact.covers hinv hassigned⟩

/-- From the last key of the map the walk visits nothing. -/
theorem balancerComputeRepartition_drops_all :
    threeFlows.IsPrefix ∧ threeFlows.entries.length = 3 ∧ Assigned threeFlows threeRings 3 ∧
      ∃ coreLoad, balancerComputeRepartition threeFlows threeRings (flowKey 2) 3 = .ok coreLoad ∧
        (coreLoad.map CoreLoad.nbFlows).sum = 0 := by
  refine ⟨HashMap.ofFlows_isPrefix, by rw [threeFlows, HashMap.ofFlows_entries]; rfl, ?_, ?_⟩
  · rw [Assigned, threeFlows, HashMap.ofFlows_entries]
    decide
  · have hreturns : returns (balancerComputeRepartition threeFlows threeRings (flowKey 2) 3)
        (fun coreLoad => (coreLoad.map CoreLoad.nbFlows).sum == 0) = true := by
      decide +kernel
    obtain ⟨coreLoad, hok, hsum⟩ := exists_of_returns hreturns
    exact ⟨coreLoad, hok, beq_iff_eq.mp hsum⟩

theorem balancerComputeRepartition_covers_iff_three :
    (∃ coreLoad, balancerComputeRepartition threeFlows threeRings (flowKey 3) 3 = .ok coreLoad ∧
        Covers threeFlows threeRings (3 : UInt8).toNat coreLoad) ↔
      flowKey 3 ∉ threeFlows.keys := by
  have h := threeFlows_balanceable (Nat.le_refl 3)
  exact balancerComputeRepartition_covers_iff (flowKey 3) h.inv h.isPrefix h.room h.assigned

end OrssNic
