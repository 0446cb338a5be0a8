import OrssNic.HashMapSpec

/-!
# Walking a map

`hashmap_get_next` looks at one slot only, the one after the current key.
Repeated calls walk the valid slots from there up to the first free one, and
the last call is undefined when there is none. On a map whose valid slots are
the first ones the walk visits all that is behind its start.
-/

namespace OrssNic
open CLoops CLists

namespace HashMap

def walkIndex (hashmap : HashMap) (key : FiveTuple) : ℕ :=
  match hashmap.map.findIdx? (holds key) with
  | some i => i + 1
  | none => 0

variable {hashmap : HashMap}

theorem IsPrefix.entries_eq (hp : hashmap.IsPrefix) :
    hashmap.entries =
      (hashmap.map.take hashmap.entries.length).map fun slot => (slot.key, slot.value) := by
  have hfront : ∀ slot ∈ hashmap.map.take hashmap.entries.length, slot.valid = true := by
    intro slot hslot
    obtain ⟨i, hi, rfl⟩ := List.mem_iff_getElem.mp hslot
    have hlt : i < hashmap.entries.length := by
      rw [List.length_take] at hi
      omega
    exact (hp i _ (by rw [List.getElem_take, List.getElem?_eq_getElem])).mpr hlt
  have hback : ∀ slot ∈ hashmap.map.drop hashmap.entries.length, slot.valid = false := by
    intro slot hslot
    obtain ⟨i, hi, rfl⟩ := List.mem_iff_getElem.mp hslot
    rw [Bool.eq_false_iff]
    intro hv
    have := (hp (hashmap.entries.length + i) _
      (by rw [List.getElem_drop, List.getElem?_eq_getElem])).mp hv
    omega
  rw [← entriesOf_of_valid hfront]
  conv_lhs => rw [entries, ← List.take_append_drop hashmap.entries.length hashmap.map,
    entriesOf_append, entriesOf_eq_nil_of_invalid hback, List.append_nil]

theorem IsPrefix.getElem?_eq (hp : hashmap.IsPrefix) {i : ℕ} {slot : KeyValuePair}
    (h : hashmap.map[i]? = some slot) :
    hashmap.entries[i]? = if slot.valid then some (slot.key, slot.value) else none := by
  by_cases hi : i < hashmap.entries.length
  · rw [if_pos ((hp i slot h).mpr hi), hp.entries_eq, List.getElem?_map, List.getElem?_take,
      if_pos hi, h]
    rfl
  · rw [if_neg fun hv => hi ((hp i slot h).mp hv), List.getElem?_eq_none (by omega)]

theorem IsPrefix.exists_slot (hp : hashmap.IsPrefix) {i : ℕ} {e : FiveTuple × Ref}
    (h : hashmap.entries[i]? = some e) :
    ∃ slot, hashmap.map[i]? = some slot ∧ slot.valid = true ∧ e = (slot.key, slot.value) := by
  have hi := (List.getElem?_eq_some_iff.mp h).1
  have hlt : i < hashmap.map.length := by
    rw [hashmap.allocated]
    exact hi.trans_le hashmap.entries_length_le
  have hslot := List.getElem?_eq_getElem hlt
  have he := hp.getElem?_eq hslot
  have hv : hashmap.map[i].valid = true := (hp i _ hslot).mpr hi
  rw [h, if_pos hv, Option.some.injEq] at he
  exact ⟨_, hslot, hv, he⟩

theorem walkIndex_absent {key : FiveTuple} (h : key ∉ hashmap.keys) :
    hashmap.walkIndex key = 0 := by
  rw [walkIndex, not_mem_keys_iff.mp h]

theorem walkIndex_slot (hinv : hashmap.Inv) {i : ℕ} {slot : KeyValuePair}
    (hslot : hashmap.map[i]? = some slot) (hv : slot.valid = true) :
    hashmap.walkIndex slot.key = i + 1 := by
  have hmem : slot.key ∈ hashmap.keys :=
    mem_keys.mpr ⟨slot.value, mem_entriesOf.mpr ⟨slot, List.mem_of_getElem? hslot, hv, rfl, rfl⟩⟩
  obtain ⟨j, hj⟩ := mem_keys_iff.mp hmem
  obtain ⟨front, slot', back, hmap, rfl, hslot', -⟩ := split_of_findIdx? hj
  obtain ⟨hv', hk'⟩ := holds_iff.mp hslot'
  have hget : hashmap.map[front.length]? = some slot' := by rw [hmap, getElem?_split]
  have hij := hinv.slot_unique hget hslot hv' hv hk'
  simp only [walkIndex, hj, hij]

theorem walkIndex_of_getElem? (hinv : hashmap.Inv) (hp : hashmap.IsPrefix) {i : ℕ}
    {e : FiveTuple × Ref} (h : hashmap.entries[i]? = some e) :
    hashmap.walkIndex e.1 = i + 1 := by
  obtain ⟨slot, hslot, hv, rfl⟩ := hp.exists_slot h
  exact walkIndex_slot hinv hslot hv

theorem walkIndex_le (hinv : hashmap.Inv) (hp : hashmap.IsPrefix) (key : FiveTuple) :
    hashmap.walkIndex key ≤ hashmap.entries.length := by
  by_cases h : key ∈ hashmap.keys
  · obtain ⟨value, hmem⟩ := mem_keys.mp h
    obtain ⟨i, hi⟩ := List.mem_iff_getElem?.mp hmem
    rw [walkIndex_of_getElem? hinv hp hi]
    exact (List.getElem?_eq_some_iff.mp hi).1
  · rw [walkIndex_absent h]
    omega

theorem isPrefix_of_back {front back : List KeyValuePair} (hmap : hashmap.map = front ++ back)
    (hfront : ∀ slot ∈ front, slot.valid = true) (hback : ∀ slot ∈ back, slot.valid = false) :
    hashmap.IsPrefix ∧ hashmap.entries.length = front.length := by
  have he : hashmap.entries.length = front.length := by
    rw [entries, hmap, entriesOf_append, entriesOf_eq_nil_of_invalid hback, List.append_nil,
      entriesOf_of_valid hfront, List.length_map]
  refine ⟨?_, he⟩
  intro i slot hslot
  rw [he]
  by_cases hi : i < front.length
  · rw [hmap, List.getElem?_append_left hi] at hslot
    simp [hfront slot (List.mem_of_getElem? hslot), hi]
  · rw [hmap, List.getElem?_append_right (by omega)] at hslot
    simp [hback slot (List.mem_of_getElem? hslot), hi]

theorem IsPrefix.back_invalid (hp : hashmap.IsPrefix) {front back : List KeyValuePair}
    (hmap : hashmap.map = front ++ back) (hhead : ∀ slot ∈ back.head?, slot.valid = false) :
    ∀ slot ∈ back, slot.valid = false := by
  cases back with
  | nil => simp
  | cons first back =>
    have hfirst : hashmap.map[front.length]? = some first := by rw [hmap, getElem?_split]
    have hle : hashmap.entries.length ≤ front.length := by
      by_contra hlt
      have hv := (hp _ _ hfirst).mpr (by omega)
      rw [hhead first rfl] at hv
      cases hv
    intro slot hslot
    obtain ⟨i, hi⟩ := List.mem_iff_getElem?.mp hslot
    have hget : hashmap.map[front.length + i]? = some slot := by
      rw [hmap, List.getElem?_append_right (by omega), Nat.add_sub_cancel_left, hi]
    rw [Bool.eq_false_iff]
    intro hv
    have := (hp _ _ hget).mp hv
    omega

theorem IsPrefix.fill {hashmap' : HashMap} (hp : hashmap.IsPrefix) {front back : List KeyValuePair}
    {slot slot' : KeyValuePair} (hmap : hashmap.map = front ++ slot :: back)
    (hfront : ∀ a ∈ front, a.valid = true) (hslot : slot.valid = false)
    (hmap' : hashmap'.map = front ++ slot' :: back) (hslot' : slot'.valid = true) :
    hashmap'.IsPrefix := by
  have hback := hp.back_invalid hmap (by simpa using hslot)
  rw [List.append_cons] at hmap'
  refine (isPrefix_of_back hmap' (fun a ha => ?_) fun a ha => hback a (by simp [ha])).1
  rcases List.mem_append.mp ha with ha | ha
  · exact hfront a ha
  · rw [List.mem_singleton.mp ha, hslot']

/-- What a walk from `key` visits: the valid slots behind it, up to the first
free one. -/
def walk (hashmap : HashMap) (key : FiveTuple) : List (FiveTuple × Ref) :=
  entriesOf ((hashmap.map.drop (hashmap.walkIndex key)).takeWhile KeyValuePair.valid)

/-- A walk from `key` meets a free slot in front of the end of the block. -/
def WalkEnds (hashmap : HashMap) (key : FiveTuple) : Prop :=
  ∃ slot ∈ hashmap.map.drop (hashmap.walkIndex key), slot.valid = false

theorem walk_split (hashmap : HashMap) (key : FiveTuple) :
    ∃ passed todo rest, hashmap.map = passed ++ (todo ++ rest) ∧
      hashmap.walkIndex key = passed.length ∧ (∀ slot ∈ todo, slot.valid = true) ∧
      (∀ slot ∈ rest.head?, slot.valid = false) ∧ hashmap.walk key = entriesOf todo ∧
      (hashmap.WalkEnds key ↔ rest ≠ []) := by
  have hle : hashmap.walkIndex key ≤ hashmap.map.length := by
    rw [walkIndex]
    cases hi : hashmap.map.findIdx? (holds key) with
    | none => exact Nat.zero_le _
    | some i => exact (List.findIdx?_eq_some_iff_getElem.mp hi).1
  obtain ⟨back, hback⟩ : ∃ back, back = hashmap.map.drop (hashmap.walkIndex key) := ⟨_, rfl⟩
  have hrest : ∀ slot ∈ (back.dropWhile KeyValuePair.valid).head?, slot.valid = false := by
    intro slot hslot
    have hnot := List.head?_dropWhile_not KeyValuePair.valid back
    rw [hslot] at hnot
    simpa using hnot
  refine ⟨hashmap.map.take (hashmap.walkIndex key), back.takeWhile KeyValuePair.valid,
    back.dropWhile KeyValuePair.valid, ?_, ?_, ?_, hrest, ?_, ?_⟩
  · rw [List.takeWhile_append_dropWhile, hback, List.take_append_drop]
  · rw [List.length_take, Nat.min_eq_left hle]
  · exact fun slot hslot => List.mem_takeWhile_imp hslot
  · rw [walk, hback]
  · rw [WalkEnds, ← hback, ne_eq, List.dropWhile_eq_nil_iff]
    simp only [not_forall, Bool.not_eq_true, exists_prop]

theorem walk_sublist (hashmap : HashMap) (key : FiveTuple) :
    (hashmap.walk key).Sublist hashmap.entries :=
  ((List.takeWhile_sublist _).trans (List.drop_sublist _ _)).filterMap _

theorem IsPrefix.walk_eq (hinv : hashmap.Inv) (hp : hashmap.IsPrefix) (key : FiveTuple) :
    hashmap.walk key = hashmap.entries.drop (hashmap.walkIndex key) := by
  obtain ⟨passed, todo, rest, hmap, hindex, htodo, hrest, hwalk, -⟩ := hashmap.walk_split key
  have hle := walkIndex_le hinv hp key
  have hpassed : ∀ slot ∈ passed, slot.valid = true := by
    intro slot hslot
    obtain ⟨i, hi⟩ := List.mem_iff_getElem?.mp hslot
    have hlt := (List.getElem?_eq_some_iff.mp hi).1
    refine (hp i slot ?_).mpr (by omega)
    rw [hmap, List.getElem?_append_left hlt, hi]
  have hback : ∀ slot ∈ rest, slot.valid = false := by
    rw [← List.append_assoc] at hmap
    exact hp.back_invalid hmap hrest
  rw [hwalk, hindex, entries, hmap, entriesOf_append, entriesOf_append,
    entriesOf_eq_nil_of_invalid hback, List.append_nil, entriesOf_of_valid hpassed]
  exact (List.drop_left' (List.length_map _)).symm

theorem IsPrefix.walkEnds (hinv : hashmap.Inv) (hp : hashmap.IsPrefix)
    (hroom : hashmap.entries.length < HASHMAP_SIZE) (key : FiveTuple) : hashmap.WalkEnds key := by
  have hle := walkIndex_le hinv hp key
  have hlt : hashmap.entries.length < hashmap.map.length := hashmap.allocated.symm ▸ hroom
  have hslot := List.getElem?_eq_getElem hlt
  refine ⟨hashmap.map[hashmap.entries.length], ?_, ?_⟩
  · refine List.mem_of_getElem? (i := hashmap.entries.length - hashmap.walkIndex key) ?_
    rw [List.getElem?_drop, Nat.add_sub_cancel' hle, hslot]
  · rw [Bool.eq_false_iff]
    intro hv
    exact lt_irrefl _ ((hp _ _ hslot).mp hv)

end HashMap

/-- The one slot that is looked at decides the call, whatever holes the map has. -/
theorem hashmapGetNext_slot {hashmap : HashMap} (hinv : hashmap.Inv) (key : FiveTuple) :
    hashmapGetNext hashmap key =
      match hashmap.map[hashmap.walkIndex key]? with
      | some slot => .ok (if slot.valid then some (slot.key, slot.value) else none)
      | none => .error .missingReturn := by
  obtain ⟨index, hcontains, hindex⟩ : ∃ index : ℤ, hashmapContains hashmap key = .ok index ∧
      (index + 1).toNat = hashmap.walkIndex key := by
    refine ⟨_, hashmapContains_eq hinv key, ?_⟩
    rw [HashMap.walkIndex]
    cases hashmap.map.findIdx? (holds key) with
    | none => rfl
    | some i => exact Int.toNat_natCast (i + 1)
  simp only [hashmapGetNext, hcontains, hindex, bind, Except.bind, pure, Except.pure, throw,
    throwThe, MonadExceptOf.throw]
  split_ifs with hlt
  · obtain ⟨slot, hslot⟩ : ∃ slot, hashmap.map[hashmap.walkIndex key]? = some slot :=
      ⟨_, List.getElem?_eq_getElem (hashmap.allocated.symm ▸ hlt)⟩
    rw [readAt_of_getElem? hslot, hslot]
    cases h : slot.valid <;> simp [h]
  · rw [List.getElem?_eq_none (by rw [hashmap.allocated]; omega)]

theorem hashmapInit_isPrefix : hashmapInit.IsPrefix := by
  intro i slot h
  have hslot := List.eq_of_mem_replicate (List.mem_of_getElem? h)
  rw [hashmapInit_entries, hslot]
  simp [default]
  rfl

theorem cleanupFrom_active {slots : List KeyValuePair} {heap : Heap RingBuffer} (size : ℤ)
    (h : ∀ e ∈ entriesOf slots, (heap.cell e.2).isActive = true) :
    cleanupFrom slots size heap = (slots, size, heap) := by
  induction slots with
  | nil => rfl
  | cons slot slots ih =>
    cases hv : slot.valid with
    | false =>
      rw [entriesOf_cons_invalid hv] at h
      simp [cleanupFrom, hv, ih h]
    | true =>
      rw [entriesOf_cons_valid hv, List.forall_mem_cons] at h
      simp [cleanupFrom, hv, h.1, ih h.2]

theorem hashmapCleanup_active {hashmap : HashMap} {heap : Heap RingBuffer}
    (h : ∀ e ∈ hashmap.entries, (heap.cell e.2).isActive = true) :
    hashmapCleanupInactiveFlows hashmap heap = (hashmap, heap) := by
  cases hashmap with
  | mk map size allocated =>
    simp only [hashmapCleanupInactiveFlows, cleanupFrom_active size h]

namespace HashMap

def ofFlows (flows : List (FiveTuple × Ref)) (h : flows.length ≤ HASHMAP_SIZE) : HashMap where
  map := flows.map (fun e => ⟨true, e.1, e.2⟩) ++
    List.replicate (HASHMAP_SIZE - flows.length) default
  size := flows.length
  allocated := by
    rw [List.length_append, List.length_map, List.length_replicate]
    omega

variable {flows : List (FiveTuple × Ref)} {h : flows.length ≤ HASHMAP_SIZE}

@[simp] theorem ofFlows_entries : (ofFlows flows h).entries = flows := by
  have hback : entriesOf (List.replicate (HASHMAP_SIZE - flows.length) default) = [] := by
    apply entriesOf_eq_nil_of_invalid
    intro slot hslot
    rw [List.eq_of_mem_replicate hslot]
    rfl
  have hvalid : ∀ slot ∈ flows.map (fun e => (⟨true, e.1, e.2⟩ : KeyValuePair)),
      slot.valid = true := by
    simp only [List.mem_map, forall_exists_index, and_imp, forall_apply_eq_imp_iff₂, implies_true]
  rw [entries, ofFlows, entriesOf_append, hback, List.append_nil, entriesOf_of_valid hvalid,
    List.map_map]
  exact List.map_id flows

theorem ofFlows_inv (hkeys : (flows.map Prod.fst).Nodup) : (ofFlows flows h).Inv := by
  constructor
  · rw [ofFlows_entries]
    rfl
  · rw [keys, ofFlows_entries]
    exact hkeys

theorem ofFlows_isPrefix : (ofFlows flows h).IsPrefix := by
  intro i slot hslot
  rw [ofFlows_entries]
  by_cases hi : i < flows.length
  · rw [ofFlows, List.getElem?_append_left (by simpa using hi), List.getElem?_map,
      Option.map_eq_some_iff] at hslot
    obtain ⟨e, -, rfl⟩ := hslot
    simp [hi]
  · rw [ofFlows, List.getElem?_append_right (by simpa using hi)] at hslot
    rw [List.eq_of_mem_replicate (List.mem_of_getElem? hslot)]
    exact ⟨fun hv => (by cases hv), fun hlt => absurd hlt hi⟩

end HashMap

end OrssNic
