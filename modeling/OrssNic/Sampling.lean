import OrssNic.MainLoop
import OrssNic.BalancerLoop
import OrssNic.HashMapOwnership
import OrssNic.Library.FiniteMap

/-!
# The sampling loop of `get_migrations`

Through the references, a map binds five-tuples to ring buffers. One pass of
the loop adds a sample to the ring buffer of a reported flow, or to a fresh one
for a new flow, and leaves all other bindings alone.
-/

namespace OrssNic
open CLoops

/-- The ring buffers as values of the map. -/
def MapState.ring (map : MapState) : FiniteMap FiveTuple RingBuffer :=
  fun key => (map.hashmap.lookup key).map map.heap.cell

structure MapState.Sound (map : MapState) : Prop where
  inv : map.hashmap.Inv
  isPrefix : map.hashmap.IsPrefix
  refs : (map.hashmap.entries.map Prod.snd).Nodup
  fresh : ∀ e ∈ map.hashmap.entries, e.2 < map.heap.next

theorem MapState.Sound.held {map : MapState} (h : map.Sound) : map.Held :=
  ⟨h.inv, h.refs, h.fresh⟩

namespace MapState
variable {map map' : MapState} {key : FiveTuple} {r : Ref}

theorem ring_eq_some {hashmap : HashMap} {heap : Heap RingBuffer} {rb : RingBuffer}
    (hinv : hashmap.Inv) :
    ring ⟨hashmap, heap⟩ key = some rb ↔ ∃ r, (key, r) ∈ hashmap.entries ∧ heap.cell r = rb := by
  simp only [ring, Option.map_eq_some_iff, hinv.lookup_iff]

theorem ring_of_mem (hinv : map.hashmap.Inv) {e : FiveTuple × Ref}
    (he : e ∈ map.hashmap.entries) : map.ring e.1 = some (map.heap.cell e.2) :=
  (ring_eq_some hinv).mpr ⟨e.2, he, rfl⟩

theorem ring_eq_none : map.ring key = none ↔ key ∉ map.hashmap.keys := by
  rw [ring, Option.map_eq_none_iff, HashMap.lookup_eq_none]

theorem mem_keys_iff_ring : key ∈ map.hashmap.keys ↔ ∃ rb, map.ring key = some rb := by
  rw [← not_iff_not, ← ring_eq_none, Option.eq_none_iff_forall_ne_some]
  simp

theorem assignment_eq_ring (map : MapState) (key : FiveTuple) :
    assignment map.hashmap map.heap key =
      (map.ring key).elim 0 fun rb => rb.assignedCore.toNat := by
  rw [assignment, ring]
  cases map.hashmap.lookup key <;> rfl

theorem weight_eq_ring (map : MapState) (key : FiveTuple) :
    weight map.hashmap map.heap key =
      (map.ring key).elim 0 fun rb => (ringbufferGetLast rb).toNat := by
  rw [weight, ring]
  cases map.hashmap.lookup key <;> rfl

theorem Held.write (h : map.Held) (r : Ref) (rb : RingBuffer) :
    Held { map with heap := map.heap.write r rb } :=
  ⟨h.inv, h.refs, h.fresh⟩

theorem Held.ring_write (h : map.Held) (hmem : (key, r) ∈ map.hashmap.entries)
    (rb : RingBuffer) :
    ring { map with heap := map.heap.write r rb } = map.ring.insert key rb := by
  funext k
  by_cases hk : k = key
  · subst hk
    rw [FiniteMap.insert_self, ring, h.inv.lookup_iff.mpr hmem]
    simp
  · rw [FiniteMap.insert_of_ne _ _ hk, ring, ring]
    cases hl : map.hashmap.lookup k with
    | none => rfl
    | some q =>
      have hne : q ≠ r := by
        intro hq
        exact hk (congrArg Prod.fst (List.inj_on_of_nodup_map h.refs (h.inv.lookup_iff.mp hl)
          hmem hq))
      simp [Heap.write_cell_of_ne _ _ hne]

theorem Sound.start : Sound ⟨hashmapInit, Heap.empty⟩ where
  inv := hashmapInit_inv
  isPrefix := hashmapInit_isPrefix
  refs := by simp [hashmapInit_entries]
  fresh := by simp [hashmapInit_entries]

theorem ring_start : ring ⟨hashmapInit, Heap.empty⟩ = FiniteMap.empty := by
  funext key
  exact ring_eq_none.mpr (by simp [HashMap.keys, hashmapInit_entries])

end MapState

section GetOrNew
variable {map map' : MapState} {key : FiveTuple} {r : Ref}

theorem getOrNew_bound (hinv : map.hashmap.Inv) (hmem : (key, r) ∈ map.hashmap.entries) :
    getOrNew map key = .ok (r, map) := by
  simp [getOrNew, hashmapGet_eq hinv, hinv.lookup_iff.mpr hmem, bind, Except.bind, pure,
    Except.pure]

theorem getOrNew_absent (h : map.Held) (hkey : key ∉ map.hashmap.keys)
    (hroom : map.hashmap.entries.length < HASHMAP_SIZE) :
    ∃ map', getOrNew map key = .ok (map.heap.next, map') ∧ map'.Held ∧
      map.hashmap.entries ⊆ map'.hashmap.entries ∧
      (map.hashmap.IsPrefix → map'.hashmap.IsPrefix) ∧
      (key, map.heap.next) ∈ map'.hashmap.entries ∧ map'.ring = map.ring.insert key default := by
  obtain ⟨hashmap', front, slot, back, hok, hmap, hfront, hslot, hmap', hheld⟩ :=
    hashmapNew_absent h hkey hroom
  have hperm := entries_perm_of_fill hmap hslot hmap' rfl
  have hmem : (key, map.heap.next) ∈ hashmap'.entries := hperm.mem_iff.mpr List.mem_cons_self
  refine ⟨⟨hashmap', (ringbufferInit map.heap).2⟩, ?_, hheld,
    fun e he => hperm.mem_iff.mpr (List.mem_cons_of_mem _ he),
    fun hp => hp.fill hmap hfront hslot hmap' rfl, hmem, ?_⟩
  · simp [getOrNew, hashmapGet_eq h.inv, HashMap.lookup_eq_none.mpr hkey, hok, bind, Except.bind,
      pure, Except.pure]
  · funext k
    by_cases hk : k = key
    · subst hk
      rw [FiniteMap.insert_self, MapState.ring_eq_some hheld.inv]
      exact ⟨map.heap.next, hmem, ringbufferInit_cell_new _⟩
    · rw [FiniteMap.insert_of_ne _ _ hk]
      have hlookup : hashmap'.lookup k = map.hashmap.lookup k :=
        HashMap.lookup_congr h.inv hheld.inv (by simp [hperm.mem_iff, hk])
      rw [MapState.ring, MapState.ring, hlookup]
      cases hl : map.hashmap.lookup k with
      | none => rfl
      | some q =>
        have hlt := h.fresh _ (h.inv.lookup_iff.mp hl)
        simp [ringbufferInit_cell_of_lt _ hlt]

theorem getOrNew_full (hinv : map.hashmap.Inv) (hkey : key ∉ map.hashmap.keys)
    (hfull : ¬map.hashmap.entries.length < HASHMAP_SIZE) :
    getOrNew map key = .error .hashmapFull := by
  have hlen := le_antisymm map.hashmap.entries_length_le (not_lt.mp hfull)
  simp [getOrNew, hashmapGet_eq hinv, HashMap.lookup_eq_none.mpr hkey,
    hashmapNew_full hinv hkey hlen, bind, Except.bind]

end GetOrNew

def sample (ring : FiniteMap FiveTuple RingBuffer) (stats : OpenflowFlowStats) :
    FiniteMap FiveTuple RingBuffer :=
  ring.insert (fiveTupleOf stats)
    (ringbufferAdd ((ring (fiveTupleOf stats)).getD default)
      (openflowOvsbe64ToUint64 stats.packetCount))

structure SampledBy (map : MapState) (report : List OpenflowFlowStats) (map' : MapState) :
    Prop where
  held : map'.Held
  kept : map.hashmap.entries ⊆ map'.hashmap.entries
  isPrefix : map.hashmap.IsPrefix → map'.hashmap.IsPrefix
  ring : map'.ring = report.foldl sample map.ring

section Sample
variable {flows : OpenflowFlows} {map map₁ map₂ : MapState} {i : ℕ} {stats : OpenflowFlowStats}
variable {report report' : List OpenflowFlowStats}

theorem SampledBy.nil (h : map.Held) : SampledBy map [] map :=
  ⟨h, List.Subset.refl _, id, rfl⟩

theorem SampledBy.append (h : SampledBy map report map₁) (h' : SampledBy map₁ report' map₂) :
    SampledBy map (report ++ report') map₂ where
  held := h'.held
  kept := List.Subset.trans h.kept h'.kept
  isPrefix := h'.isPrefix ∘ h.isPrefix
  ring := by rw [h'.ring, h.ring, List.foldl_append]

theorem sampleStep_total (h : map.Held) (hstats : flows.flowStats[i]? = some stats)
    (hroom : fiveTupleOf stats ∈ map.hashmap.keys ∨
      map.hashmap.entries.length < HASHMAP_SIZE) :
    ∃ map', sampleStep flows i map = .ok map' ∧ SampledBy map [stats] map' := by
  have hread : readAt Halt.outOfBounds flows.flowStats i = .ok stats := readAt_of_getElem? hstats
  by_cases hkey : fiveTupleOf stats ∈ map.hashmap.keys
  · obtain ⟨r, hmem⟩ := HashMap.mem_keys.mp hkey
    have hring := h.ring_write hmem (ringbufferAdd (map.heap.cell r)
      (openflowOvsbe64ToUint64 stats.packetCount))
    refine ⟨_, ?_, h.write _ _, List.Subset.refl _, id, hring.trans ?_⟩
    · simp [sampleStep, hread, getOrNew_bound h.inv hmem, bind, Except.bind, pure, Except.pure]
    · rw [List.foldl_cons, List.foldl_nil, sample, MapState.ring_of_mem h.inv hmem,
        Option.getD_some]
  · obtain ⟨map₁, hok, hheld₁, hkept, hp₁, hmem, hring₁⟩ :=
      getOrNew_absent h hkey (hroom.resolve_left hkey)
    have hring := hheld₁.ring_write hmem (ringbufferAdd
      (map₁.heap.cell map.heap.next) (openflowOvsbe64ToUint64 stats.packetCount))
    have hcell : map₁.heap.cell map.heap.next = default := by
      have := MapState.ring_of_mem hheld₁.inv hmem
      rw [hring₁, FiniteMap.insert_self, Option.some.injEq] at this
      exact this.symm
    refine ⟨_, ?_, hheld₁.write _ _, hkept, hp₁, hring.trans ?_⟩
    · simp [sampleStep, hread, hok, bind, Except.bind, pure, Except.pure]
    · rw [hcell, hring₁, List.foldl_cons, List.foldl_nil, sample,
        MapState.ring_eq_none.mpr hkey, Option.getD_none]
      funext k
      simp only [FiniteMap.insert]
      split_ifs <;> rfl

theorem sampleStep_correct (h : map.Held) (hok : sampleStep flows i map = .ok map₁) :
    ∃ stats, flows.flowStats[i]? = some stats ∧ SampledBy map [stats] map₁ := by
  obtain ⟨stats, hread, hnew⟩ := bind_eq_ok.mp hok
  have hstats := readAt_eq_ok.mp hread
  have hroom : fiveTupleOf stats ∈ map.hashmap.keys ∨
      map.hashmap.entries.length < HASHMAP_SIZE := by
    by_contra hnot
    rw [not_or] at hnot
    rw [getOrNew_full h.inv hnot.1 hnot.2] at hnew
    cases hnew
  obtain ⟨map₂, hok', hsampled⟩ := sampleStep_total h hstats hroom
  rw [hok, Except.ok.injEq] at hok'
  subst hok'
  exact ⟨stats, hstats, hsampled⟩

end Sample

/-! ## The whole loop -/

/-- The entries of a report, and the flows that they are for. -/
def reportedStats (flows : OpenflowFlows) : List OpenflowFlowStats :=
  flows.flowStats.take flows.nbFlows.toNat

def reported (flows : OpenflowFlows) : List FiveTuple :=
  (reportedStats flows).map fiveTupleOf

section SampleLoop
variable {flows : OpenflowFlows} {map map₁ map₂ : MapState} {n : ℕ}

theorem SampledBy.next {stats : OpenflowFlowStats}
    (h : SampledBy map (flows.flowStats.take n) map₁) (hstats : flows.flowStats[n]? = some stats)
    (hstep : SampledBy map₁ [stats] map₂) : SampledBy map (flows.flowStats.take (n + 1)) map₂ := by
  rw [List.take_add_one, hstats]
  exact h.append hstep

theorem sampleLoop_sampled (h : map.Held) (hok : forLoop (sampleStep flows) n map = .ok map₂) :
    SampledBy map (flows.flowStats.take n) map₂ := by
  refine forLoop_correct (P := fun n => SampledBy map (flows.flowStats.take n)) (.nil h) ?_ hok
  intro i map₁ map₂ _ hbefore hstep
  obtain ⟨stats, hstats, hsampled⟩ := sampleStep_correct hbefore.held hstep
  exact hbefore.next hstats hsampled

theorem sampleLoop_correct (h : map.Sound) (hok : forLoop (sampleStep flows) n map = .ok map₂) :
    map₂.Sound ∧ map₂.ring = (flows.flowStats.take n).foldl sample map.ring := by
  have hsampled := sampleLoop_sampled h.held hok
  exact ⟨⟨hsampled.held.inv, hsampled.isPrefix h.isPrefix, hsampled.held.refs,
    hsampled.held.fresh⟩, hsampled.ring⟩

end SampleLoop

section Fold
variable {ring : FiniteMap FiveTuple RingBuffer} {report : List OpenflowFlowStats}
variable {key : FiveTuple}

theorem sample_of_ne {stats : OpenflowFlowStats} (h : key ≠ fiveTupleOf stats) :
    sample ring stats key = ring key :=
  FiniteMap.insert_of_ne _ _ h

theorem sample_self (stats : OpenflowFlowStats) :
    sample ring stats (fiveTupleOf stats) =
      some (ringbufferAdd ((ring (fiveTupleOf stats)).getD default)
        (openflowOvsbe64ToUint64 stats.packetCount)) :=
  FiniteMap.insert_self _ _ _

theorem foldl_sample_eq_none :
    report.foldl sample ring key = none ↔ ring key = none ∧ key ∉ report.map fiveTupleOf := by
  induction report generalizing ring with
  | nil => simp
  | cons stats report ih =>
    rw [List.foldl_cons, ih, List.map_cons, List.mem_cons, not_or]
    by_cases hk : key = fiveTupleOf stats
    · simp [hk, sample_self]
    · simp [hk, sample_of_ne hk]

theorem foldl_sample_unreported (h : key ∉ report.map fiveTupleOf) :
    report.foldl sample ring key = ring key := by
  induction report generalizing ring with
  | nil => rfl
  | cons stats report ih =>
    rw [List.map_cons, List.mem_cons, not_or] at h
    rw [List.foldl_cons, ih h.2, sample_of_ne h.1]

def coreOf (ring : FiniteMap FiveTuple RingBuffer) (key : FiveTuple) : ℕ :=
  (ring key).elim 0 fun rb => rb.assignedCore.toNat

/-- Sampling assigns no core: a new flow is on core 0. -/
theorem coreOf_foldl_sample : coreOf (report.foldl sample ring) = coreOf ring := by
  induction report generalizing ring with
  | nil => rfl
  | cons stats report ih =>
    rw [List.foldl_cons, ih]
    funext key
    by_cases hk : key = fiveTupleOf stats
    · subst hk
      rw [coreOf, coreOf, sample_self]
      cases ring (fiveTupleOf stats) <;> rfl
    · rw [coreOf, coreOf, sample_of_ne hk]

theorem foldl_sample_active (h : ∀ (key : FiveTuple) (rb : RingBuffer), ring key = some rb →
      rb.isActive = true) :
    ∀ (key : FiveTuple) (rb : RingBuffer), report.foldl sample ring key = some rb →
      rb.isActive = true := by
  induction report generalizing ring with
  | nil => exact h
  | cons stats report ih =>
    refine ih fun key rb hrb => ?_
    by_cases hk : key = fiveTupleOf stats
    · rw [hk, sample_self, Option.some.injEq] at hrb
      rw [← hrb, ringbufferAdd_isActive]
    · rw [sample_of_ne hk] at hrb
      exact h key rb hrb

end Fold

/-! ## Room for all flows -/

def MapState.demand (map : MapState) (flows : OpenflowFlows) : Finset FiveTuple :=
  map.hashmap.keys.toFinset ∪ (reported flows).toFinset

section Demand
variable {flows : OpenflowFlows} {map map' : MapState} {n : ℕ}

theorem HashMap.Inv.card_keys (hinv : map.hashmap.Inv) :
    map.hashmap.keys.toFinset.card = map.hashmap.entries.length := by
  rw [List.toFinset_card_of_nodup hinv.keys_nodup, HashMap.keys, List.length_map]

theorem keys_subset_demand (hn : n ≤ flows.nbFlows.toNat)
    (hring : map'.ring = (flows.flowStats.take n).foldl sample map.ring) :
    map'.hashmap.keys.toFinset ⊆ map.demand flows := by
  intro key hkey
  rw [MapState.demand, Finset.mem_union, List.mem_toFinset, List.mem_toFinset]
  rw [List.mem_toFinset, ← not_not (a := _ ∈ _), ← MapState.ring_eq_none, hring,
    foldl_sample_eq_none, MapState.ring_eq_none, ← not_or, not_not] at hkey
  refine hkey.imp_right fun hmem => ?_
  exact List.map_subset _ (List.take_subset_take_left _ hn) hmem

theorem length_lt_demand {key : FiveTuple} (hinv : map'.hashmap.Inv)
    (hn : n ≤ flows.nbFlows.toNat)
    (hring : map'.ring = (flows.flowStats.take n).foldl sample map.ring)
    (hkey : key ∉ map'.hashmap.keys) (hreported : key ∈ reported flows) :
    map'.hashmap.entries.length < (map.demand flows).card := by
  rw [← hinv.card_keys]
  refine Finset.card_lt_card ⟨keys_subset_demand hn hring, fun hsub => hkey ?_⟩
  refine List.mem_toFinset.mp (hsub ?_)
  exact Finset.mem_union_right _ (List.mem_toFinset.mpr hreported)

theorem keys_eq_demand
    (hring : map'.ring = (reportedStats flows).foldl sample map.ring) :
    map'.hashmap.keys.toFinset = map.demand flows := by
  refine (keys_subset_demand le_rfl hring).antisymm fun key hkey => ?_
  rw [MapState.demand, Finset.mem_union, List.mem_toFinset, List.mem_toFinset] at hkey
  rw [List.mem_toFinset, ← not_not (a := _ ∈ _), ← MapState.ring_eq_none, hring,
    foldl_sample_eq_none, MapState.ring_eq_none, ← not_or, not_not]
  exact hkey

theorem entries_length_eq_demand (hinv : map'.hashmap.Inv)
    (hring : map'.ring = (reportedStats flows).foldl sample map.ring) :
    map'.hashmap.entries.length = (map.demand flows).card := by
  rw [← hinv.card_keys, keys_eq_demand hring]

theorem mem_reported {stats : OpenflowFlowStats} {i : ℕ} (hi : i < flows.nbFlows.toNat)
    (hstats : flows.flowStats[i]? = some stats) : fiveTupleOf stats ∈ reported flows := by
  refine List.mem_map_of_mem (List.mem_of_getElem? (i := i) ?_)
  rw [reportedStats, List.getElem?_take_of_lt hi, hstats]

theorem sampleLoop_total (h : map.Held) (hnb : flows.nbFlows.toNat ≤ flows.flowStats.length)
    (hroom : (map.demand flows).card ≤ HASHMAP_SIZE) :
    ∃ map', forLoop (sampleStep flows) flows.nbFlows.toNat map = .ok map' := by
  have hstep : ∀ i map₁, i < flows.nbFlows.toNat →
      SampledBy map (flows.flowStats.take i) map₁ →
      ∃ map₂, sampleStep flows i map₁ = .ok map₂ ∧
        SampledBy map (flows.flowStats.take (i + 1)) map₂ := by
    intro i map₁ hi hbefore
    have hlt : i < flows.flowStats.length := hi.trans_le hnb
    have hstats := List.getElem?_eq_getElem hlt
    have hfree : fiveTupleOf flows.flowStats[i] ∈ map₁.hashmap.keys ∨
        map₁.hashmap.entries.length < HASHMAP_SIZE := by
      by_cases hkey : fiveTupleOf flows.flowStats[i] ∈ map₁.hashmap.keys
      · exact .inl hkey
      · have hlength := length_lt_demand hbefore.held.inv hi.le hbefore.ring hkey
          (mem_reported hi hstats)
        exact .inr (hlength.trans_le hroom)
    obtain ⟨map₂, hok, hsampled⟩ := sampleStep_total hbefore.held hstats hfree
    exact ⟨map₂, hok, hbefore.next hstats hsampled⟩
  obtain ⟨map', hok, -⟩ := forLoop_total
    (P := fun n => SampledBy map (flows.flowStats.take n)) (.nil h) hstep
  exact ⟨map', hok⟩

theorem sampleStep_error {stats : OpenflowFlowStats} {i : ℕ} {e : Halt} (h : map.Held)
    (hstats : flows.flowStats[i]? = some stats) (herror : sampleStep flows i map = .error e) :
    e = .hashmapFull := by
  by_cases hroom : fiveTupleOf stats ∈ map.hashmap.keys ∨
      map.hashmap.entries.length < HASHMAP_SIZE
  · obtain ⟨map', hok, -⟩ := sampleStep_total h hstats hroom
    rw [hok] at herror
    cases herror
  · rw [not_or] at hroom
    have hread : readAt Halt.outOfBounds flows.flowStats i = .ok stats :=
      readAt_of_getElem? hstats
    simp only [sampleStep, hread, getOrNew_full h.inv hroom.1 hroom.2, bind, Except.bind] at herror
    cases herror
    rfl

theorem sampleLoop_full_iff (h : map.Held) (hnb : flows.nbFlows.toNat ≤ flows.flowStats.length) :
    forLoop (sampleStep flows) flows.nbFlows.toNat map = .error .hashmapFull ↔
      HASHMAP_SIZE < (map.demand flows).card := by
  constructor
  · intro herror
    by_contra hroom
    obtain ⟨map', hok⟩ := sampleLoop_total h hnb (not_lt.mp hroom)
    rw [hok] at herror
    cases herror
  · intro hroom
    cases hloop : forLoop (sampleStep flows) flows.nbFlows.toNat map with
    | ok map' =>
      have hsampled := sampleLoop_sampled h hloop
      have hlength := entries_length_eq_demand hsampled.held.inv hsampled.ring
      exact absurd (hlength.symm.trans_le map'.hashmap.entries_length_le) (not_le.mpr hroom)
    | error e =>
      obtain ⟨i, map₁, hi, hbefore, herror⟩ := forLoop_error hloop
      rw [sampleStep_error (sampleLoop_sampled h hbefore).held
        (List.getElem?_eq_getElem (hi.trans_le hnb)) herror]

end Demand

end OrssNic
