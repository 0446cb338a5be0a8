import OrssNic.BalancerCore
import OrssNic.HashMapWalk

/-!
# Specifications of the repartition and of one migration

`Exact` relates the cores to a list of flows of the map: every core holds
exactly the flows assigned to it, once, with an up-to-date cache. It is what
`balancerComputeRepartition` establishes for the flows its walk visits, and
what `balancerMigrate` keeps, also when both of its cores are the same.
-/

namespace OrssNic
open CLoops CLists

/-- `flow->assigned_core = core` -/
def reassign (heap : Heap RingBuffer) (r : Ref) (core : UInt8) : Heap RingBuffer :=
  heap.write r { heap.cell r with assignedCore := core }

@[simp] theorem flowLoad_reassign (heap : Heap RingBuffer) (r : Ref) (core : UInt8) :
    flowLoad (reassign heap r core) = flowLoad heap := by
  funext e
  by_cases he : e.2 = r
  · simp [flowLoad, reassign, he]
  · simp [flowLoad, reassign, Heap.write_cell_of_ne _ _ he]

theorem flowCore_reassign_self (heap : Heap RingBuffer) (e : FiveTuple × Ref) (core : UInt8) :
    flowCore (reassign heap e.2 core) e = core.toNat := by
  simp [flowCore, reassign]

theorem flowCore_reassign_of_ne (heap : Heap RingBuffer) {e e' : FiveTuple × Ref} (core : UInt8)
    (h : e'.2 ≠ e.2) : flowCore (reassign heap e.2 core) e' = flowCore heap e' := by
  simp [flowCore, reassign, Heap.write_cell_of_ne _ _ h]

namespace CoreLoad

/-- The core holds exactly the flows with property `p` that are assigned to core `c`. -/
structure Filled (p : FiveTuple × Ref → Prop) (heap : Heap RingBuffer) (c : ℕ)
    (core : CoreLoad) : Prop where
  shape : core.Shape
  nodup : core.entries.Nodup
  mem : ∀ e, e ∈ core.entries ↔ p e ∧ flowCore heap e = c

structure Holds (p : FiveTuple × Ref → Prop) (heap : Heap RingBuffer) (c : ℕ)
    (core : CoreLoad) : Prop extends Filled p heap c core where
  coreIdx : core.coreIdx.toNat = c
  cached : core.Cached heap

theorem Filled.nbFlows_le {flows : List (FiveTuple × Ref)} {heap : Heap RingBuffer} {c : ℕ}
    {core : CoreLoad} (h : core.Filled (· ∈ flows) heap c) : core.nbFlows ≤ flows.length := by
  rw [← h.shape.entries_length]
  exact (h.nodup.subperm fun e he => ((h.mem e).mp he).1).length_le

end CoreLoad

structure Exact (p : FiveTuple × Ref → Prop) (heap : Heap RingBuffer) (nbCores : ℕ)
    (coreLoad : Repartition) : Prop where
  length : coreLoad.length = nbCores
  holds : ∀ (c : ℕ) (core : CoreLoad), coreLoad[c]? = some core → core.Holds p heap c

/-! ## Building the repartition -/

/-- The cores before their info is computed: only the two arrays count. -/
structure Filling (p : FiveTuple × Ref → Prop) (heap : Heap RingBuffer) (nbCores : ℕ)
    (coreLoad : Repartition) : Prop where
  length : coreLoad.length = nbCores
  filled : ∀ (c : ℕ) (core : CoreLoad), coreLoad[c]? = some core → core.Filled p heap c

theorem filling_zeroed (heap : Heap RingBuffer) (nbCores : ℕ) :
    Filling (· ∈ []) heap nbCores (List.replicate nbCores CoreLoad.zeroed) where
  length := List.length_replicate
  filled := by
    intro c core hcore
    rw [List.eq_of_mem_replicate (List.mem_of_getElem? hcore)]
    exact ⟨CoreLoad.zeroed_shape, by simp [CoreLoad.zeroed_entries],
      by simp [CoreLoad.zeroed_entries]⟩

theorem Filling.insert {p p' : FiveTuple × Ref → Prop} {heap heap' : Heap RingBuffer}
    {nbCores c : ℕ} {coreLoad : Repartition} {core core' : CoreLoad} {e : FiveTuple × Ref}
    (h : Filling p heap nbCores coreLoad) (hcore : coreLoad[c]? = some core)
    (hshape : core'.Shape) (hentries : core'.entries = core.entries ++ [e]) (hnew : ¬ p e)
    (hp : ∀ e', p' e' ↔ p e' ∨ e' = e) (hself : flowCore heap' e = c)
    (hother : ∀ e', p e' → flowCore heap' e' = flowCore heap e') :
    Filling p' heap' nbCores (coreLoad.set c core') where
  length := by rw [List.length_set, h.length]
  filled := by
    have hf := h.filled c core hcore
    apply forall_set
    · refine ⟨hshape, ?_, fun e' => ?_⟩
      · have hnot : e ∉ core.entries := fun hmem => hnew ((hf.mem e).mp hmem).1
        rw [hentries, ← List.concat_eq_append, List.nodup_concat]
        exact ⟨hnot, hf.nodup⟩
      · rw [hentries, List.mem_append, List.mem_singleton, hf.mem e', hp e']
        constructor
        · intro hmem
          rcases hmem with ⟨hv, hc⟩ | hsame
          · exact ⟨.inl hv, (hother e' hv).trans hc⟩
          · exact ⟨.inr hsame, hsame ▸ hself⟩
        · intro hmem
          rcases hmem with ⟨hv | hsame, hc⟩
          · exact .inl ⟨hv, (hother e' hv).symm.trans hc⟩
          · exact .inr hsame
    · intro d core₁ hne hd
      have hfd := h.filled d core₁ hd
      refine ⟨hfd.shape, hfd.nodup, fun e' => ?_⟩
      rw [hfd.mem e', hp e']
      constructor
      · intro hmem
        exact ⟨.inl hmem.1, (hother e' hmem.1).trans hmem.2⟩
      · intro hmem
        rcases hmem with ⟨hv | hsame, hd'⟩
        · exact ⟨hv, (hother e' hv).symm.trans hd'⟩
        · rw [hsame, hself] at hd'
          exact absurd hd'.symm hne

theorem coreInfoStep_spec {p : FiveTuple × Ref → Prop} {heap : Heap RingBuffer} {nbCores i : ℕ}
    {coreLoad : Repartition} (hi : i < nbCores) (hn : nbCores ≤ 255)
    (hfill : Filling p heap nbCores coreLoad)
    (hdone : ∀ (c : ℕ) (core : CoreLoad), c < i → coreLoad[c]? = some core → core.Holds p heap c) :
    ∃ coreLoad', coreInfoStep heap i coreLoad = .ok coreLoad' ∧
      Filling p heap nbCores coreLoad' ∧
      ∀ (c : ℕ) (core : CoreLoad), c < i + 1 → coreLoad'[c]? = some core → core.Holds p heap c := by
  obtain ⟨core, hcore⟩ : ∃ core, coreLoad[i]? = some core :=
    ⟨_, List.getElem?_eq_getElem (hfill.length.symm ▸ hi)⟩
  have hf := hfill.filled i core hcore
  have hshape : ({ core with coreIdx := UInt8.ofNat i } : CoreLoad).Shape :=
    ⟨hf.shape.flows, hf.shape.flowKeys, hf.shape.nbFlows⟩
  obtain ⟨core', hok, hidx, hentries, hshape', hcached⟩ :=
    balancerUpdateCoreInfo_spec heap hshape
  have hentries' : core'.entries = core.entries := hentries
  have hf' : core'.Filled p heap i :=
    ⟨hshape', hentries' ▸ hf.nodup, fun e => by rw [hentries']; exact hf.mem e⟩
  have hidx' : core'.coreIdx.toNat = i := by
    rw [hidx]
    simp
    omega
  refine ⟨coreLoad.set i core', ?_, ⟨by simp [hfill.length], ?_⟩, ?_⟩
  · simp [coreInfoStep, readAt_of_getElem? hcore, hok, bind, Except.bind, pure, Except.pure]
  · exact forall_set hf' fun c core _ hc => hfill.filled c core hc
  · intro c d hc hd
    refine forall_set (P := fun c core => c < i + 1 → core.Holds p heap c)
      (fun _ => ⟨hf', hidx', hcached⟩) ?_ c d hd hc
    intro j b hj hb hlt
    exact hdone j b (by omega) hb

theorem coreInfo_spec {p : FiveTuple × Ref → Prop} {heap : Heap RingBuffer} {nbCores : ℕ}
    {coreLoad : Repartition} (hn : nbCores ≤ 255) (hfill : Filling p heap nbCores coreLoad) :
    ∃ coreLoad', forLoop (coreInfoStep heap) nbCores coreLoad = .ok coreLoad' ∧
      Exact p heap nbCores coreLoad' := by
  obtain ⟨coreLoad', hok, hfill', hdone⟩ := forLoop_total (n := nbCores)
    (P := fun i cl => Filling p heap nbCores cl ∧
      ∀ (c : ℕ) (core : CoreLoad), c < i → cl[c]? = some core → core.Holds p heap c)
    ⟨hfill, by omega⟩ fun i t hi ht => coreInfoStep_spec hi hn ht.1 ht.2
  refine ⟨coreLoad', hok, hfill'.length, fun c core hc => hdone c core ?_ hc⟩
  rw [← hfill'.length]
  exact (List.getElem?_eq_some_iff.mp hc).1

theorem HashMap.Inv.entries_nodup {hashmap : HashMap} (hinv : hashmap.Inv) :
    hashmap.entries.Nodup :=
  List.Nodup.of_map _ hinv.keys_nodup

theorem repartitionStep_valid {hashmap : HashMap} {heap : Heap RingBuffer} {nbCores : ℕ}
    {done : List (FiveTuple × Ref)} {s : FiveTuple × Repartition} {slot : KeyValuePair}
    (hinv : hashmap.Inv) (hslot : hashmap.map[hashmap.walkIndex s.1]? = some slot)
    (hv : slot.valid = true) (hfill : Filling (· ∈ done) heap nbCores s.2)
    (hc : flowCore heap (slot.key, slot.value) < nbCores)
    (hnew : (slot.key, slot.value) ∉ done) (hroom : done.length < HASHMAP_SIZE) :
    ∃ coreLoad, repartitionStep hashmap heap s = .ok (some (slot.key, coreLoad)) ∧
      Filling (· ∈ done ++ [(slot.key, slot.value)]) heap nbCores coreLoad := by
  obtain ⟨core, hcore⟩ : ∃ core, s.2[flowCore heap (slot.key, slot.value)]? = some core :=
    ⟨_, List.getElem?_eq_getElem (hfill.length.symm ▸ hc)⟩
  have hf := hfill.filled _ core hcore
  have hfree : core.nbFlows < HASHMAP_SIZE := hf.nbFlows_le.trans_lt hroom
  obtain ⟨core', hadd, -, hentries, hshape'⟩ := addFlow_spec hf.shape slot.key slot.value hfree
  refine ⟨s.2.set (flowCore heap (slot.key, slot.value)) core', ?_, ?_⟩
  · have hcore' : s.2[(heap.cell slot.value).assignedCore.toNat]? = some core := hcore
    simp [repartitionStep, hashmapGetNext_slot hinv, hslot, hv, readAt_of_getElem? hcore',
      hfree.le, hadd, flowCore, bind, Except.bind, pure, Except.pure]
  · refine hfill.insert hcore hshape' hentries hnew (fun e' => ?_) rfl fun _ _ => rfl
    rw [List.mem_append, List.mem_singleton]

/-- The walk puts the valid slots `todo` that follow the current key on their
cores, and the first slot of `rest` decides its last call. -/
theorem repartitionLoop_eq {hashmap : HashMap} {heap : Heap RingBuffer} {nbCores : ℕ}
    (hinv : hashmap.Inv) {rest : List KeyValuePair}
    (hrest : ∀ slot ∈ rest.head?, slot.valid = false) (todo : List KeyValuePair) {n : ℕ}
    {s : FiveTuple × Repartition} {done : List (FiveTuple × Ref)}
    (htodo : ∀ slot ∈ todo, slot.valid = true) (hn : todo.length < n)
    (hassigned : ∀ e ∈ entriesOf todo, flowCore heap e < nbCores)
    (passed : List KeyValuePair) (hmap : hashmap.map = passed ++ (todo ++ rest))
    (hkey : hashmap.walkIndex s.1 = passed.length)
    (hdone : (done ++ entriesOf todo).Sublist hashmap.entries)
    (hfill : Filling (· ∈ done) heap nbCores s.2) :
    (rest = [] ∧ whileLoop .diverges (repartitionStep hashmap heap) n s = .error .missingReturn) ∨
      rest ≠ [] ∧ ∃ s', whileLoop .diverges (repartitionStep hashmap heap) n s = .ok s' ∧
        Filling (· ∈ done ++ entriesOf todo) heap nbCores s'.2 := by
  induction todo generalizing n s passed done with
  | nil =>
    obtain ⟨n, rfl⟩ := Nat.exists_eq_succ_of_ne_zero (Nat.ne_zero_of_lt hn)
    cases rest with
    | nil =>
      have hslot : hashmap.map[hashmap.walkIndex s.1]? = none := by simp [hmap, hkey]
      left
      simp [whileLoop, repartitionStep, hashmapGetNext_slot hinv, hslot, bind, Except.bind]
    | cons slot rest =>
      have hslot : hashmap.map[hashmap.walkIndex s.1]? = some slot := by simp [hmap, hkey]
      have hstop : repartitionStep hashmap heap s = .ok none := by
        simp [repartitionStep, hashmapGetNext_slot hinv, hslot, hrest slot rfl, bind, Except.bind,
          pure, Except.pure]
      right
      exact ⟨List.cons_ne_nil _ _, s, whileLoop_stop hstop n, by simpa using hfill⟩
  | cons slot todo ih =>
    obtain ⟨n, rfl⟩ := Nat.exists_eq_succ_of_ne_zero (Nat.ne_zero_of_lt hn)
    rw [List.forall_mem_cons] at htodo
    rw [entriesOf_cons_valid htodo.1, List.forall_mem_cons] at hassigned
    rw [entriesOf_cons_valid htodo.1] at hdone ⊢
    have hslot : hashmap.map[passed.length]? = some slot := by simp [hmap]
    have hnodup := hdone.nodup hinv.entries_nodup
    have hlen := hdone.length_le.trans hashmap.entries_length_le
    rw [List.length_append, List.length_cons] at hlen
    have hnew : (slot.key, slot.value) ∉ done := by
      intro hmem
      exact (List.nodup_append.mp hnodup).2.2 _ hmem _ List.mem_cons_self rfl
    obtain ⟨coreLoad, hstep, hfill'⟩ := repartitionStep_valid hinv (hkey ▸ hslot) htodo.1 hfill
      hassigned.1 hnew (by omega)
    have hkey' : hashmap.walkIndex slot.key = (passed ++ [slot]).length := by
      rw [HashMap.walkIndex_slot hinv hslot htodo.1, List.length_append, List.length_singleton]
    rw [whileLoop_step hstep]
    have hloop := ih (n := n) (s := (slot.key, coreLoad)) htodo.2 (by simpa using hn) hassigned.2
      (passed ++ [slot]) (by simp [hmap]) hkey' (by simpa using hdone) hfill'
    simpa using hloop

theorem toNat_ofNat_nbCores {nbCores : ℕ} (hn : nbCores ≤ 255) :
    (UInt8.ofNat nbCores).toNat = nbCores := by
  simp
  omega

theorem balancerComputeRepartition_walk {hashmap : HashMap} {heap : Heap RingBuffer}
    {nbCores : ℕ} (previousKey : FiveTuple) (hn : nbCores ≤ 255) (hinv : hashmap.Inv)
    (hassigned : ∀ e ∈ hashmap.walk previousKey, flowCore heap e < nbCores) :
    (¬hashmap.WalkEnds previousKey ∧
      balancerComputeRepartition hashmap heap previousKey (UInt8.ofNat nbCores) =
        .error .missingReturn) ∨
    (hashmap.WalkEnds previousKey ∧ ∃ coreLoad,
      balancerComputeRepartition hashmap heap previousKey (UInt8.ofNat nbCores) = .ok coreLoad ∧
        Exact (· ∈ hashmap.walk previousKey) heap nbCores coreLoad) := by
  obtain ⟨passed, todo, rest, hmap, hindex, htodo, hrest, hwalk, hends⟩ :=
    hashmap.walk_split previousKey
  have hsublist := hashmap.walk_sublist previousKey
  rw [hwalk] at hassigned hsublist ⊢
  rw [hends, not_not]
  have hbudget : todo.length < nbCores * HASHMAP_SIZE + 1 := by
    cases todo with
    | nil => exact Nat.succ_pos _
    | cons slot todo =>
      rw [entriesOf_cons_valid (htodo slot List.mem_cons_self), List.forall_mem_cons] at hassigned
      have hpos := Nat.zero_lt_of_lt hassigned.1
      have hlen := congrArg List.length hmap
      rw [hashmap.allocated, List.length_append, List.length_append] at hlen
      nlinarith
  have hdone : ([] ++ entriesOf todo).Sublist hashmap.entries := hsublist
  have hloop := repartitionLoop_eq (s := (previousKey, List.replicate nbCores CoreLoad.zeroed))
    hinv hrest todo htodo hbudget hassigned passed hmap hindex hdone (filling_zeroed heap nbCores)
  rcases hloop with ⟨hnil, hloop⟩ | ⟨hne, s, hloop, hfill⟩
  · refine .inl ⟨hnil, ?_⟩
    simp only [balancerComputeRepartition, toNat_ofNat_nbCores hn, hloop, bind, Except.bind]
  · obtain ⟨coreLoad, hinfo, hexact⟩ := coreInfo_spec hn hfill
    refine .inr ⟨hne, coreLoad, ?_, hexact⟩
    simp only [balancerComputeRepartition, toNat_ofNat_nbCores hn, hloop, hinfo, bind, Except.bind]

def Assigned (hashmap : HashMap) (heap : Heap RingBuffer) (nbCores : ℕ) : Prop :=
  ∀ e ∈ hashmap.entries, flowCore heap e < nbCores

theorem balancerComputeRepartition_correct {hashmap : HashMap} {heap : Heap RingBuffer}
    {nbCores : ℕ} {previousKey : FiveTuple} {coreLoad : Repartition} (hn : nbCores ≤ 255)
    (hinv : hashmap.Inv) (hp : hashmap.IsPrefix) (hassigned : Assigned hashmap heap nbCores)
    (h : balancerComputeRepartition hashmap heap previousKey (UInt8.ofNat nbCores) =
      .ok coreLoad) :
    Exact (· ∈ hashmap.entries.drop (hashmap.walkIndex previousKey)) heap nbCores coreLoad := by
  rw [← hp.walk_eq hinv]
  rcases balancerComputeRepartition_walk previousKey hn hinv fun e he =>
    hassigned e ((hashmap.walk_sublist previousKey).subset he) with
    ⟨-, herror⟩ | ⟨-, coreLoad', hok, hexact⟩
  · rw [herror] at h
    cases h
  · rw [hok] at h
    cases h
    exact hexact

theorem balancerComputeRepartition_total {hashmap : HashMap} {heap : Heap RingBuffer}
    {nbCores : ℕ} (previousKey : FiveTuple) (hn : nbCores ≤ 255)
    (hinv : hashmap.Inv) (hp : hashmap.IsPrefix) (hroom : hashmap.entries.length < HASHMAP_SIZE)
    (hassigned : Assigned hashmap heap nbCores) :
    ∃ coreLoad, balancerComputeRepartition hashmap heap previousKey (UInt8.ofNat nbCores) =
      .ok coreLoad := by
  rcases balancerComputeRepartition_walk previousKey hn hinv fun e he =>
    hassigned e ((hashmap.walk_sublist previousKey).subset he) with
    ⟨hnot, -⟩ | ⟨-, coreLoad, hok, -⟩
  · exact absurd (hp.walkEnds hinv hroom previousKey) hnot
  · exact ⟨coreLoad, hok⟩

/-! ## One migration -/

theorem updateCoreAt_spec {coreLoad : Repartition} {i : ℕ} {core : CoreLoad}
    (heap : Heap RingBuffer) (hcore : coreLoad[i]? = some core) (hshape : core.Shape) :
    ∃ core', updateCoreAt heap coreLoad i = .ok (coreLoad.set i core') ∧
      core'.coreIdx = core.coreIdx ∧ core'.entries = core.entries ∧ core'.Shape ∧
      core'.Cached heap := by
  obtain ⟨core', hok, hrest⟩ := balancerUpdateCoreInfo_spec heap hshape
  refine ⟨core', ?_, hrest⟩
  simp [updateCoreAt, readAt_of_getElem? hcore, hok, bind, Except.bind, pure, Except.pure]

theorem CoreLoad.Filled.update {p : FiveTuple × Ref → Prop} {heap : Heap RingBuffer} {c : ℕ}
    {core core' : CoreLoad} (h : core.Filled p heap c) (hentries : core'.entries = core.entries)
    (hshape : core'.Shape) : core'.Filled p heap c :=
  ⟨hshape, hentries ▸ h.nodup, fun e => by rw [hentries]; exact h.mem e⟩

theorem CoreLoad.Cached.congr {heap heap' : Heap RingBuffer} {core : CoreLoad}
    (h : core.Cached heap) (hload : flowLoad heap' = flowLoad heap) : core.Cached heap' :=
  ⟨by rw [hload]; exact h.load, by rw [hload]; exact h.biggest⟩

theorem removeBiggest_filling {flows : List (FiveTuple × Ref)} {heap : Heap RingBuffer}
    {nbCores big : ℕ} {coreLoad : Repartition} {core : CoreLoad} (hflows : flows.Nodup)
    (hexact : Exact (· ∈ flows) heap nbCores coreLoad) (hcore : coreLoad[big]? = some core)
    (hne : core.entries ≠ []) :
    ∃ e core', e ∈ flows ∧ flowCore heap e = big ∧
      (∀ e' ∈ flows, flowCore heap e' = big → flowLoad heap e' ≤ flowLoad heap e) ∧
      removeBiggest core = .ok (e.1, e.2, core') ∧ core'.coreIdx = core.coreIdx ∧
      Filling (· ∈ flows.erase e) heap nbCores (coreLoad.set big core') := by
  have hholds := hexact.holds big core hcore
  obtain ⟨e, he, hmax⟩ := hholds.cached.biggest hne
  obtain ⟨core', hok, hidx, hentries, hshape'⟩ := removeBiggest_spec hholds.shape he
  have hperm : List.Perm (e :: core'.entries) core.entries := by
    rw [hentries]
    exact swapRemove_perm he
  have hnodup : (e :: core'.entries).Nodup := hperm.nodup_iff.mpr hholds.nodup
  obtain ⟨hv, hcoreE⟩ := (hholds.mem e).mp (List.mem_of_getElem? he)
  refine ⟨e, core', hv, hcoreE, fun e' he' hc' => hmax e' ((hholds.mem e').mpr ⟨he', hc'⟩), hok,
    hidx, by simp [hexact.length], ?_⟩
  apply forall_set
  · refine ⟨hshape', (List.nodup_cons.mp hnodup).2, fun e' => ?_⟩
    rw [hflows.mem_erase_iff]
    have hmem : e' ∈ core.entries ↔ e' = e ∨ e' ∈ core'.entries := by
      rw [← hperm.mem_iff, List.mem_cons]
    constructor
    · intro h
      obtain ⟨hv', hc'⟩ := (hholds.mem e').mp (hmem.mpr (.inr h))
      refine ⟨⟨?_, hv'⟩, hc'⟩
      rintro rfl
      exact (List.nodup_cons.mp hnodup).1 h
    · rintro ⟨⟨hne', hv'⟩, hc'⟩
      exact (hmem.mp ((hholds.mem e').mpr ⟨hv', hc'⟩)).resolve_left hne'
  · intro c d hcne hd
    have hd' := hexact.holds c d hd
    refine ⟨hd'.shape, hd'.nodup, fun e' => ?_⟩
    rw [hd'.mem e', hflows.mem_erase_iff]
    constructor
    · rintro ⟨hv', hc'⟩
      refine ⟨⟨?_, hv'⟩, hc'⟩
      rintro rfl
      exact hcne (hc'.symm.trans hcoreE)
    · rintro ⟨⟨-, hv'⟩, hc'⟩
      exact ⟨hv', hc'⟩

theorem addFlow_filling {flows : List (FiveTuple × Ref)} {heap : Heap RingBuffer}
    {nbCores small : ℕ} {coreLoad : Repartition} {core : CoreLoad} {e : FiveTuple × Ref}
    (hrefs : (flows.map Prod.snd).Nodup) (hlen : flows.length ≤ HASHMAP_SIZE) (he : e ∈ flows)
    (hsmall : small ≤ 255) (hfill : Filling (· ∈ flows.erase e) heap nbCores coreLoad)
    (hcore : coreLoad[small]? = some core) :
    ∃ core', addFlow core e.1 e.2 = .ok core' ∧ core'.coreIdx = core.coreIdx ∧
      Filling (· ∈ flows) (reassign heap e.2 (UInt8.ofNat small)) nbCores
        (coreLoad.set small core') := by
  have hflows : flows.Nodup := List.Nodup.of_map _ hrefs
  have hf := hfill.filled small core hcore
  have hroom : core.nbFlows < HASHMAP_SIZE := by
    have h := hf.nbFlows_le
    rw [List.length_erase_of_mem he] at h
    have := List.length_pos_of_mem he
    omega
  obtain ⟨core', hadd, hidx, hentries, hshape'⟩ := addFlow_spec hf.shape e.1 e.2 hroom
  have hself : flowCore (reassign heap e.2 (UInt8.ofNat small)) e = small := by
    rw [flowCore_reassign_self, toNat_ofNat_nbCores hsmall]
  have hother : ∀ e' ∈ flows.erase e,
      flowCore (reassign heap e.2 (UInt8.ofNat small)) e' = flowCore heap e' := by
    intro e' he'
    obtain ⟨hne, hmem⟩ := hflows.mem_erase_iff.mp he'
    apply flowCore_reassign_of_ne
    exact fun hr => hne (List.inj_on_of_nodup_map hrefs hmem he hr)
  have hmem : ∀ e', e' ∈ flows ↔ e' ∈ flows.erase e ∨ e' = e := by
    intro e'
    rw [(List.perm_cons_erase he).mem_iff, List.mem_cons, or_comm]
  exact ⟨core', hadd, hidx,
    hfill.insert hcore hshape' hentries hflows.not_mem_erase hmem hself hother⟩

theorem balancerMigrate_spec {flows : List (FiveTuple × Ref)} {heap : Heap RingBuffer}
    {nbCores big small : ℕ} {coreLoad : Repartition} {core : CoreLoad} (hn : nbCores ≤ 255)
    (hrefs : (flows.map Prod.snd).Nodup) (hlen : flows.length ≤ HASHMAP_SIZE)
    (hexact : Exact (· ∈ flows) heap nbCores coreLoad) (hcore : coreLoad[big]? = some core)
    (hne : core.entries ≠ []) (hsmall : small < nbCores) :
    ∃ e coreLoad', e ∈ flows ∧ flowCore heap e = big ∧
      (∀ e' ∈ flows, flowCore heap e' = big → flowLoad heap e' ≤ flowLoad heap e) ∧
      balancerMigrate heap coreLoad big small =
        .ok (reassign heap e.2 (UInt8.ofNat small), coreLoad', ⟨e.1, small⟩) ∧
      Exact (· ∈ flows) (reassign heap e.2 (UInt8.ofNat small)) nbCores coreLoad' := by
  have hflows : flows.Nodup := List.Nodup.of_map _ hrefs
  have hbig : big < nbCores := hexact.length ▸ (List.getElem?_eq_some_iff.mp hcore).1
  obtain ⟨e, core₁, he, hcoreE, hmax, hremove, hidx₁, hfill₁⟩ :=
    removeBiggest_filling hflows hexact hcore hne
  -- Every cell of the array keeps its index through all the updates below.
  have hindex₁ : ∀ (c : ℕ) (d : CoreLoad), (coreLoad.set big core₁)[c]? = some d →
      d.coreIdx.toNat = c :=
    forall_set (hidx₁ ▸ (hexact.holds big core hcore).coreIdx)
      fun c d _ hd => (hexact.holds c d hd).coreIdx
  obtain ⟨small₁, hsmall₁⟩ : ∃ d, (coreLoad.set big core₁)[small]? = some d :=
    ⟨_, List.getElem?_eq_getElem (hfill₁.length.symm ▸ hsmall)⟩
  obtain ⟨core₂, hadd, hidx₂, hfill₂⟩ :=
    addFlow_filling hrefs hlen he (by omega) hfill₁ hsmall₁
  have hidx : core₂.coreIdx = UInt8.ofNat small := by
    apply UInt8.toNat_inj.mp
    rw [hidx₂, hindex₁ small small₁ hsmall₁, toNat_ofNat_nbCores (by omega)]
  have hindex₂ : ∀ (c : ℕ) (d : CoreLoad), ((coreLoad.set big core₁).set small core₂)[c]? =
      some d → d.coreIdx.toNat = c :=
    forall_set (hidx₂ ▸ hindex₁ small small₁ hsmall₁) fun c d _ hd => hindex₁ c d hd
  have hcached₂ : ∀ (c : ℕ) (d : CoreLoad), c ≠ big → c ≠ small →
      ((coreLoad.set big core₁).set small core₂)[c]? = some d →
      d.Cached (reassign heap e.2 (UInt8.ofNat small)) := by
    intro c d hcb hcs hd
    rw [List.getElem?_set_ne hcs.symm, List.getElem?_set_ne hcb.symm] at hd
    exact (hexact.holds c d hd).cached.congr (flowLoad_reassign heap e.2 _)
  -- Both cores refresh their info, the source first.
  obtain ⟨big₂, hbig₂⟩ : ∃ d, ((coreLoad.set big core₁).set small core₂)[big]? = some d :=
    ⟨_, List.getElem?_eq_getElem (hfill₂.length.symm ▸ hbig)⟩
  obtain ⟨core₃, hupdate₃, hidx₃, hentries₃, hshape₃, hcached₃⟩ :=
    updateCoreAt_spec (reassign heap e.2 (UInt8.ofNat small)) hbig₂
      (hfill₂.filled big big₂ hbig₂).shape
  have hfill₃ : Filling (· ∈ flows) (reassign heap e.2 (UInt8.ofNat small)) nbCores
      (((coreLoad.set big core₁).set small core₂).set big core₃) :=
    ⟨by rw [List.length_set, hfill₂.length],
      forall_set ((hfill₂.filled big big₂ hbig₂).update hentries₃ hshape₃)
        fun c d _ hd => hfill₂.filled c d hd⟩
  have hindex₃ : ∀ (c : ℕ) (d : CoreLoad),
      (((coreLoad.set big core₁).set small core₂).set big core₃)[c]? = some d →
      d.coreIdx.toNat = c :=
    forall_set (hidx₃ ▸ hindex₂ big big₂ hbig₂) fun c d _ hd => hindex₂ c d hd
  obtain ⟨small₃, hsmall₃⟩ :
      ∃ d, (((coreLoad.set big core₁).set small core₂).set big core₃)[small]? = some d :=
    ⟨_, List.getElem?_eq_getElem (hfill₃.length.symm ▸ hsmall)⟩
  obtain ⟨core₄, hupdate₄, hidx₄, hentries₄, hshape₄, hcached₄⟩ :=
    updateCoreAt_spec (reassign heap e.2 (UInt8.ofNat small)) hsmall₃
      (hfill₃.filled small small₃ hsmall₃).shape
  refine ⟨e, (((coreLoad.set big core₁).set small core₂).set big core₃).set small core₄, he,
    hcoreE, hmax, ?_, by rw [List.length_set, hfill₃.length], ?_⟩
  · simp only [reassign] at hupdate₃ hupdate₄
    simp only [balancerMigrate, readAt_of_getElem? hcore, hremove, readAt_of_getElem? hsmall₁,
      hadd, bind, Except.bind, pure, Except.pure, hidx, hupdate₃, hupdate₄, reassign,
      toNat_ofNat_nbCores (show small ≤ 255 by omega)]
  · apply forall_set
    · exact ⟨(hfill₃.filled small small₃ hsmall₃).update hentries₄ hshape₄,
        hidx₄ ▸ hindex₃ small small₃ hsmall₃, hcached₄⟩
    · intro c d hcs hd
      refine ⟨hfill₃.filled c d hd, hindex₃ c d hd, ?_⟩
      by_cases hcb : c = big
      · rw [hcb, List.getElem?_set_self (by rw [hfill₂.length]; exact hbig),
          Option.some.injEq] at hd
        exact hd ▸ hcached₃
      · rw [List.getElem?_set_ne (Ne.symm hcb)] at hd
        exact hcached₂ c d hcb hcs hd

end OrssNic
