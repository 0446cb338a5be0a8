import OrssNic.HashMapSpec
import OrssNic.Library.FiniteMap
import OrssNic.Library.Runs

/-!
# The flow table is a finite map

The abstract table is a partial map from five-tuples to ring-buffer names,
with the supply of names and the activity flags. A run of table operations on
the slot array, with any writes to ring buffers in between, is simulated step
by step by the abstract table.
-/

namespace OrssNic
open CLists CRuns

/-- An operation on the table, or a write of the surrounding program to a ring buffer. -/
inductive MapOp
  | insert (key : FiveTuple) (value : Ref)
  | new (key : FiveTuple)
  | remove (key : FiveTuple)
  | cleanup
  | store (value : Ref) (rb : RingBuffer)

def MapState.init : MapState := ⟨hashmapInit, Heap.empty⟩

def MapState.exec (s : MapState) : MapOp → Except Halt MapState
  | .insert key value => do
    let hashmap ← hashmapInsert s.hashmap key value
    return ⟨hashmap, s.heap⟩
  | .new key => do
    let (_, hashmap, heap) ← hashmapNew s.hashmap s.heap key
    return ⟨hashmap, heap⟩
  | .remove key => do
    let (hashmap, heap) ← hashmapRemove s.hashmap s.heap key
    return ⟨hashmap, heap⟩
  | .cleanup =>
    let r := hashmapCleanupInactiveFlows s.hashmap s.heap
    .ok ⟨r.1, r.2⟩
  | .store value rb => .ok ⟨s.hashmap, s.heap.write value rb⟩

structure FlowTable where
  binding : FiniteMap FiveTuple Ref
  next : Ref
  active : Ref → Bool

namespace FlowTable

def init : FlowTable := ⟨FiniteMap.empty, 0, fun _ => false⟩

def exec (t : FlowTable) : MapOp → FlowTable
  | .insert key value => { t with binding := t.binding.insert key value }
  | .new key =>
    { binding := t.binding.insert key t.next
      next := t.next + 1
      active := Function.update t.active t.next false }
  | .remove key => { t with binding := t.binding.erase key }
  | .cleanup => { t with binding := t.binding.keep t.active }
  | .store value rb => { t with active := Function.update t.active value rb.isActive }

/-- Every slot is needed: the operation binds a new key while the table is full. -/
def Exhausted (t : FlowTable) (op : MapOp) : Prop :=
  ∃ key, (op = .new key ∨ ∃ value, op = .insert key value) ∧ t.binding key = none ∧
    t.binding.dom.ncard = HASHMAP_SIZE

end FlowTable

/-- The abstraction relation, with the representation invariant of the array. -/
structure MapState.Refines (s : MapState) (t : FlowTable) : Prop where
  inv : s.hashmap.Inv
  lookup : ∀ key, s.hashmap.lookup key = t.binding key
  next : s.heap.next = t.next
  active : ∀ r, (s.heap.cell r).isActive = t.active r

theorem MapState.init_refines : MapState.init.Refines FlowTable.init where
  inv := hashmapInit_inv
  lookup := by
    intro key
    rw [HashMap.lookup_eq_none.mpr]
    · rfl
    · simp [MapState.init, HashMap.keys, hashmapInit_entries]
  next := rfl
  active := fun _ => rfl

namespace MapState.Refines
variable {s s' : MapState} {t : FlowTable} {key : FiveTuple}

theorem binding_eq_none (h : s.Refines t) : t.binding key = none ↔ key ∉ s.hashmap.keys := by
  rw [← h.lookup, HashMap.lookup_eq_none]

theorem ncard_dom (h : s.Refines t) : t.binding.dom.ncard = s.hashmap.entries.length := by
  rw [FiniteMap.ncard_dom_of_nodup h.inv.keys_nodup fun k => h.binding_eq_none]
  simp [HashMap.keys]

theorem insert_cases (h : s.Refines t) (key : FiveTuple) (value : Ref) :
    (t.binding key = none ∧ t.binding.dom.ncard = HASHMAP_SIZE ∧
      hashmapInsert s.hashmap key value = .error .hashmapFull) ∨
    (¬(t.binding key = none ∧ t.binding.dom.ncard = HASHMAP_SIZE) ∧
      ∃ hashmap', hashmapInsert s.hashmap key value = .ok hashmap' ∧ hashmap'.Inv ∧
        ∀ k, hashmap'.lookup k = t.binding.insert key value k) := by
  by_cases hfull : t.binding key = none ∧ t.binding.dom.ncard = HASHMAP_SIZE
  · left
    have hkey := h.binding_eq_none.mp hfull.1
    have hlen := hfull.2
    rw [h.ncard_dom] at hlen
    exact ⟨hfull.1, hfull.2, hashmapInsert_full h.inv value hkey hlen⟩
  · right
    have hroom : key ∉ s.hashmap.keys → s.hashmap.entries.length < HASHMAP_SIZE := by
      intro hkey
      apply lt_of_le_of_ne s.hashmap.entries_length_le
      intro hlen
      exact hfull ⟨h.binding_eq_none.mpr hkey, h.ncard_dom.trans hlen⟩
    obtain ⟨hashmap', hok, hinv', hlookup⟩ := hashmapInsert_spec h.inv key value hroom
    refine ⟨hfull, hashmap', hok, hinv', fun k => ?_⟩
    rw [hlookup, FiniteMap.insert, h.lookup]

theorem exec_cases (h : s.Refines t) (op : MapOp) :
    (t.Exhausted op ∧ s.exec op = .error .hashmapFull) ∨
    (¬t.Exhausted op ∧ ∃ s', s.exec op = .ok s' ∧ s'.Refines (t.exec op)) := by
  cases op with
  | insert key value =>
    rcases h.insert_cases key value with ⟨hn, hc, herr⟩ | ⟨hne, hashmap', hok, hinv', hl⟩
    · left
      exact ⟨⟨key, .inr ⟨value, rfl⟩, hn, hc⟩, by simp [MapState.exec, herr, bind, Except.bind]⟩
    · right
      refine ⟨?_, ⟨hashmap', s.heap⟩, by simp [MapState.exec, hok, bind, Except.bind, pure,
        Except.pure], hinv', hl, h.next, h.active⟩
      rintro ⟨k, hop | ⟨v, hop⟩, hn, hc⟩
      · cases hop
      · cases hop
        exact hne ⟨hn, hc⟩
  | new key =>
    rcases h.insert_cases key s.heap.next with ⟨hn, hc, herr⟩ | ⟨hne, hashmap', hok, hinv', hl⟩
    · left
      exact ⟨⟨key, .inl rfl, hn, hc⟩,
        by simp [MapState.exec, hashmapNew, herr, bind, Except.bind]⟩
    · right
      refine ⟨?_, ⟨hashmap', (ringbufferInit s.heap).2⟩, ?_, hinv', ?_, ?_, ?_⟩
      · rintro ⟨k, hop | ⟨v, hop⟩, hn, hc⟩
        · cases hop
          exact hne ⟨hn, hc⟩
        · cases hop
      · simp [MapState.exec, hashmapNew, hok, bind, Except.bind, pure, Except.pure]
      · intro k
        rw [hl, h.next]
        rfl
      · simp [FlowTable.exec, h.next]
      · intro r
        simp only [FlowTable.exec]
        by_cases hr : r = s.heap.next
        · rw [hr, ringbufferInit_cell_new, h.next, Function.update_self]
          rfl
        · rw [Function.update_of_ne (by rwa [← h.next]), ← h.active]
          simp [ringbufferInit, Heap.alloc_cell, Function.update_of_ne hr]
  | remove key =>
    right
    obtain ⟨hashmap', heap', hok, hinv', hcell, hnext, hl⟩ := hashmapRemove_spec h.inv s.heap key
    refine ⟨?_, ⟨hashmap', heap'⟩, by simp [MapState.exec, hok, bind, Except.bind, pure,
      Except.pure], hinv', ?_, hnext.trans h.next, ?_⟩
    · rintro ⟨k, hop | ⟨v, hop⟩, -⟩ <;> cases hop
    · intro k
      rw [hl, h.lookup]
      rfl
    · intro r
      rw [hcell]
      exact h.active r
  | cleanup =>
    right
    obtain ⟨-, hcell, hnext, hinv'⟩ := hashmapCleanup_spec h.inv s.heap
    refine ⟨?_, _, rfl, hinv', ?_, hnext.trans h.next, ?_⟩
    · rintro ⟨k, hop | ⟨v, hop⟩, -⟩ <;> cases hop
    · intro k
      rw [hashmapCleanup_lookup h.inv, h.lookup]
      simp only [FlowTable.exec, FiniteMap.keep, h.active]
    · intro r
      rw [hcell]
      exact h.active r
  | store value rb =>
    right
    refine ⟨?_, _, rfl, h.inv, h.lookup, h.next, ?_⟩
    · rintro ⟨k, hop | ⟨v, hop⟩, -⟩ <;> cases hop
    · intro r
      simp only [FlowTable.exec, Heap.write_cell, Function.update_apply]
      split_ifs
      · rfl
      · exact h.active r

theorem exec_ok (h : s.Refines t) {op : MapOp} (hok : s.exec op = .ok s') :
    s'.Refines (t.exec op) := by
  rcases h.exec_cases op with ⟨-, herr⟩ | ⟨-, s'', hs, href⟩
  · rw [herr] at hok
    cases hok
  · rw [hs] at hok
    cases hok
    exact href

theorem run_ok (h : s.Refines t) {ops : List MapOp} (hrun : run MapState.exec ops s = .ok s') :
    s'.Refines (ops.foldl FlowTable.exec t) := by
  refine run_simulates h ?_ hrun
  intro op r r' b hr hi
  exact hr.exec_ok hi

end MapState.Refines

namespace HashMap.Inv
variable {hashmap : HashMap}

theorem contains_exact (hinv : hashmap.Inv) (key : FiveTuple) :
    ∃ index : ℤ, hashmapContains hashmap key = .ok index ∧
      (∀ i : ℕ, index = i ↔
        ∃ slot, hashmap.map[i]? = some slot ∧ slot.valid = true ∧ slot.key = key) ∧
      ((∀ i : ℕ, index ≠ i) → index = -1) := by
  refine ⟨_, hashmapContains_eq hinv key, fun i => ?_, ?_⟩
  · cases hf : hashmap.map.findIdx? (holds key) with
    | none =>
      rw [List.findIdx?_eq_none_iff] at hf
      constructor
      · intro h
        dsimp only at h
        omega
      · rintro ⟨slot, hslot, hv, hk⟩
        have := hf slot (List.mem_of_getElem? hslot)
        rw [holds_iff.mpr ⟨hv, hk⟩] at this
        cases this
    | some j =>
      obtain ⟨front, slot, back, hmap, rfl, hslot, -⟩ := split_of_findIdx? hf
      obtain ⟨hv, hk⟩ := holds_iff.mp hslot
      have hget : hashmap.map[front.length]? = some slot := by rw [hmap, getElem?_split]
      constructor
      · intro h
        have hi : front.length = i := by simpa using h
        exact ⟨slot, hi ▸ hget, hv, hk⟩
      · rintro ⟨slot', hget', hv', hk'⟩
        exact congrArg Nat.cast (hinv.slot_unique hget hget' hv hv' (hk.trans hk'.symm))
  · intro h
    cases hf : hashmap.map.findIdx? (holds key) with
    | none => rfl
    | some j =>
      rw [hf] at h
      exact absurd rfl (h j)

end HashMap.Inv

/-- Whatever operations are run from `hashmap_init`, the slot array is a finite
map: the count is exact, keys are unique, the scan is safe and exact, lookups
agree with the abstract table, and the only way to stop is a full table. -/
theorem hashmap_is_finite_map (ops : List MapOp) (s : MapState)
    (hrun : run MapState.exec ops MapState.init = .ok s) :
    (s.hashmap.size = s.hashmap.map.countP KeyValuePair.valid ∧
      s.hashmap.map.countP KeyValuePair.valid ≤ HASHMAP_SIZE) ∧
    (∀ (i j : ℕ) (a b : KeyValuePair), s.hashmap.map[i]? = some a →
      s.hashmap.map[j]? = some b → a.valid = true → b.valid = true → a.key = b.key → i = j) ∧
    (∀ key, ∃ index : ℤ, hashmapContains s.hashmap key = .ok index ∧
      (∀ i : ℕ, index = i ↔
        ∃ slot, s.hashmap.map[i]? = some slot ∧ slot.valid = true ∧ slot.key = key) ∧
      ((∀ i : ℕ, index ≠ i) → index = -1)) ∧
    (∀ key, hashmapGet s.hashmap key = .ok ((ops.foldl FlowTable.exec .init).binding key)) ∧
    (∀ op, (s.exec op = .error .hashmapFull ↔
        (ops.foldl FlowTable.exec .init).Exhausted op) ∧
      (s.exec op ≠ .error .hashmapFull → ∃ s', s.exec op = .ok s')) := by
  have href := MapState.init_refines.run_ok hrun
  have hcount : (s.hashmap.entries.length : ℤ) = s.hashmap.map.countP KeyValuePair.valid := by
    rw [HashMap.entries, entriesOf_length]
  refine ⟨⟨href.inv.size_eq.trans hcount, ?_⟩, ?_, href.inv.contains_exact, ?_, ?_⟩
  · rw [← entriesOf_length]
    exact s.hashmap.entries_length_le
  · intro i j a b ha hb hva hvb hk
    exact href.inv.slot_unique ha hb hva hvb hk
  · intro key
    rw [hashmapGet_eq href.inv, href.lookup]
  · intro op
    rcases href.exec_cases op with ⟨hex, herr⟩ | ⟨hnex, s', hok, -⟩
    · exact ⟨⟨fun _ => hex, fun _ => herr⟩, fun h => absurd herr h⟩
    · refine ⟨⟨fun h => ?_, fun h => absurd h hnex⟩, fun _ => ⟨s', hok⟩⟩
      rw [hok] at h
      cases h

/-- A slot freed by a removal is reused by the next new flow. -/
theorem hashmap_is_finite_map_reuse :
    ∃ s, run MapState.exec [.new ⟨1, 2, 3, 4, 6⟩, .remove ⟨1, 2, 3, 4, 6⟩,
        .new ⟨5, 6, 7, 8, 17⟩] MapState.init = .ok s ∧
      hashmapGet s.hashmap ⟨1, 2, 3, 4, 6⟩ = .ok none ∧
      hashmapGet s.hashmap ⟨5, 6, 7, 8, 17⟩ = .ok (some 1) := by
  refine ⟨_, rfl, ?_⟩
  have h := hashmap_is_finite_map [.new ⟨1, 2, 3, 4, 6⟩, .remove ⟨1, 2, 3, 4, 6⟩,
    .new ⟨5, 6, 7, 8, 17⟩] _ rfl
  obtain ⟨-, -, -, hget, -⟩ := h
  exact ⟨hget _, hget _⟩

end OrssNic
