import OrssNic.HashMap
import OrssNic.Library.Lists

/-!
# Representation invariant and operation specifications of the flow table

The content of a map is the list of its valid slots in slot order. The
invariant says that `size` is the length of that list and that no key occurs
in it twice. Under the invariant the scan of `hashmapContains` stops inside
the block, and every operation is described by its effect on the content.
-/

namespace OrssNic
open CLoops CLists

def entriesOf (slots : List KeyValuePair) : List (FiveTuple × Ref) :=
  slots.filterMap fun slot => if slot.valid then some (slot.key, slot.value) else none

namespace HashMap

def entries (hashmap : HashMap) : List (FiveTuple × Ref) := entriesOf hashmap.map

def keys (hashmap : HashMap) : List FiveTuple := hashmap.entries.map Prod.fst

structure Inv (hashmap : HashMap) : Prop where
  size_eq : hashmap.size = hashmap.entries.length
  keys_nodup : hashmap.keys.Nodup

/-- The valid slots are the first ones: the map has no holes. -/
def IsPrefix (hashmap : HashMap) : Prop :=
  ∀ i slot, hashmap.map[i]? = some slot → (slot.valid = true ↔ i < hashmap.entries.length)

end HashMap

def holds (key : FiveTuple) (slot : KeyValuePair) : Bool :=
  slot.valid && fiveTupleEquals slot.key key

namespace HashMap

def lookup (hashmap : HashMap) (key : FiveTuple) : Option Ref :=
  (hashmap.map.find? (holds key)).map KeyValuePair.value

end HashMap

@[simp] theorem fiveTupleEquals_iff (a b : FiveTuple) : fiveTupleEquals a b = true ↔ a = b := by
  cases a
  cases b
  simp [fiveTupleEquals, and_assoc]

theorem holds_iff {key : FiveTuple} {slot : KeyValuePair} :
    holds key slot = true ↔ slot.valid = true ∧ slot.key = key := by
  simp [holds]

@[simp] theorem entriesOf_nil : entriesOf [] = [] := rfl

theorem entriesOf_cons_valid {slot : KeyValuePair} (h : slot.valid = true)
    (slots : List KeyValuePair) :
    entriesOf (slot :: slots) = (slot.key, slot.value) :: entriesOf slots := by
  simp [entriesOf, h]

theorem entriesOf_cons_invalid {slot : KeyValuePair} (h : slot.valid = false)
    (slots : List KeyValuePair) : entriesOf (slot :: slots) = entriesOf slots := by
  simp [entriesOf, h]

theorem entriesOf_append (slots slots' : List KeyValuePair) :
    entriesOf (slots ++ slots') = entriesOf slots ++ entriesOf slots' :=
  List.filterMap_append

theorem entriesOf_length_le (slots : List KeyValuePair) :
    (entriesOf slots).length ≤ slots.length :=
  List.length_filterMap_le _ _

theorem entriesOf_length (slots : List KeyValuePair) :
    (entriesOf slots).length = slots.countP KeyValuePair.valid := by
  induction slots with
  | nil => rfl
  | cons slot slots ih =>
    cases h : slot.valid with
    | false => rw [entriesOf_cons_invalid h, ih, List.countP_cons_of_neg (by simp [h])]
    | true =>
      rw [entriesOf_cons_valid h, List.length_cons, ih, List.countP_cons_of_pos h]

theorem mem_entriesOf {slots : List KeyValuePair} {key : FiveTuple} {value : Ref} :
    (key, value) ∈ entriesOf slots ↔
      ∃ slot ∈ slots, slot.valid = true ∧ slot.key = key ∧ slot.value = value := by
  simp only [entriesOf, List.mem_filterMap]
  constructor
  · rintro ⟨slot, hmem, h⟩
    split_ifs at h with hv
    simp only [Option.some.injEq, Prod.mk.injEq] at h
    exact ⟨slot, hmem, hv, h⟩
  · rintro ⟨slot, hmem, hv, rfl, rfl⟩
    exact ⟨slot, hmem, by simp [hv]⟩

theorem entriesOf_eq_nil_of_invalid {slots : List KeyValuePair}
    (h : ∀ slot ∈ slots, slot.valid = false) : entriesOf slots = [] := by
  induction slots with
  | nil => rfl
  | cons slot slots ih =>
    rw [entriesOf_cons_invalid (h slot (by simp)), ih fun s hs => h s (by simp [hs])]

theorem entriesOf_of_valid {slots : List KeyValuePair} (h : ∀ slot ∈ slots, slot.valid = true) :
    entriesOf slots = slots.map fun slot => (slot.key, slot.value) := by
  induction slots with
  | nil => rfl
  | cons slot slots ih =>
    rw [entriesOf_cons_valid (h slot (by simp)), ih fun s hs => h s (by simp [hs]), List.map_cons]

/-- The scan finds the first slot that holds the key, as long as `size` counts
the valid slots that are still ahead of it. -/
theorem containsFrom_eq (size : ℤ) (key : FiveTuple) (slots : List KeyValuePair)
    (iterator itemCount : ℕ) (h : size = itemCount + (entriesOf slots).length) :
    containsFrom size key slots iterator itemCount =
      .ok (match slots.findIdx? (holds key) with
        | some j => (iterator + j : ℕ)
        | none => -1) := by
  induction slots generalizing iterator itemCount with
  | nil => simp [containsFrom, h]
  | cons slot slots ih =>
    rw [List.findIdx?_cons]
    cases hv : slot.valid with
    | false =>
      rw [entriesOf_cons_invalid hv] at h
      have hh : holds key slot = false := by simp [holds, hv]
      simp only [containsFrom, hv, hh, Bool.false_eq_true, ↓reduceIte]
      split_ifs with hc
      · rw [ih (iterator + 1) itemCount h]
        cases slots.findIdx? (holds key) <;> simp [Nat.add_assoc, Nat.add_comm 1]
      · have hnil : entriesOf slots = [] := List.length_eq_zero_iff.mp (by omega)
        have hnone : slots.findIdx? (holds key) = none := by
          rw [List.findIdx?_eq_none_iff]
          intro s hs
          by_contra hholds
          have hs' := holds_iff.mp (by simpa using hholds)
          have := mem_entriesOf.mpr ⟨s, hs, hs'.1, hs'.2, rfl⟩
          simp [hnil] at this
        simp [hnone]
    | true =>
      rw [entriesOf_cons_valid hv, List.length_cons] at h
      have hc : (itemCount : ℤ) < size := by omega
      by_cases hk : slot.key = key
      · have hh : holds key slot = true := holds_iff.mpr ⟨hv, hk⟩
        simp [containsFrom, hv, hc, hk, hh]
      · have hh : holds key slot = false := by
          rw [Bool.eq_false_iff]
          exact fun hh => hk (holds_iff.mp hh).2
        have hne : fiveTupleEquals slot.key key = false := by
          rw [Bool.eq_false_iff]
          exact fun he => hk ((fiveTupleEquals_iff _ _).mp he)
        simp only [containsFrom, hv, hc, hne, hh, Bool.false_eq_true, ↓reduceIte]
        rw [ih (iterator + 1) (itemCount + 1) (by push_cast; omega)]
        cases slots.findIdx? (holds key) <;> simp [Nat.add_assoc, Nat.add_comm 1]

theorem hashmapContains_eq {hashmap : HashMap} (hinv : hashmap.Inv) (key : FiveTuple) :
    hashmapContains hashmap key =
      .ok (match hashmap.map.findIdx? (holds key) with
        | some i => (i : ℤ)
        | none => -1) := by
  rw [hashmapContains, containsFrom_eq _ _ _ _ _ (by simpa [HashMap.entries] using hinv.size_eq)]
  cases hashmap.map.findIdx? (holds key) <;> simp

theorem hashmapContains_of_split {hashmap : HashMap} (hinv : hashmap.Inv) {key : FiveTuple}
    {i : ℕ} (h : hashmap.map.findIdx? (holds key) = some i) :
    hashmapContains hashmap key = .ok (i : ℤ) := by
  rw [hashmapContains_eq hinv, h]

namespace HashMap
variable {hashmap : HashMap} {key : FiveTuple} {value : Ref}

theorem mem_keys : key ∈ hashmap.keys ↔ ∃ value, (key, value) ∈ hashmap.entries := by
  simp [keys]

theorem entries_length_le (hashmap : HashMap) : hashmap.entries.length ≤ HASHMAP_SIZE :=
  (entriesOf_length_le _).trans_eq hashmap.allocated

theorem Inv.unique (hinv : hashmap.Inv) {v v' : Ref} (h : (key, v) ∈ hashmap.entries)
    (h' : (key, v') ∈ hashmap.entries) : v = v' := by
  have := List.inj_on_of_nodup_map hinv.keys_nodup h h' rfl
  exact congrArg Prod.snd this

theorem not_mem_keys_iff :
    key ∉ hashmap.keys ↔ hashmap.map.findIdx? (holds key) = none := by
  rw [List.findIdx?_eq_none_iff, mem_keys]
  constructor
  · intro h slot hslot
    rw [Bool.eq_false_iff]
    intro hh
    obtain ⟨hv, hk⟩ := holds_iff.mp hh
    exact h ⟨slot.value, mem_entriesOf.mpr ⟨slot, hslot, hv, hk, rfl⟩⟩
  · rintro h ⟨value, hmem⟩
    obtain ⟨slot, hslot, hv, hk, -⟩ := mem_entriesOf.mp hmem
    simpa [holds_iff.mpr ⟨hv, hk⟩] using h slot hslot

theorem mem_keys_iff :
    key ∈ hashmap.keys ↔ ∃ i, hashmap.map.findIdx? (holds key) = some i := by
  rw [← not_iff_not, not_mem_keys_iff, ← Option.isSome_iff_exists, Option.not_isSome_iff_eq_none]

theorem lookup_eq_none : hashmap.lookup key = none ↔ key ∉ hashmap.keys := by
  rw [not_mem_keys_iff, lookup, Option.map_eq_none_iff, List.find?_eq_none,
    List.findIdx?_eq_none_iff]
  simp

theorem mem_entries_of_lookup (h : hashmap.lookup key = some value) :
    (key, value) ∈ hashmap.entries := by
  obtain ⟨slot, hslot, rfl⟩ := Option.map_eq_some_iff.mp h
  obtain ⟨hv, hk⟩ := holds_iff.mp (List.find?_some hslot)
  exact mem_entriesOf.mpr ⟨slot, List.mem_of_find?_eq_some hslot, hv, hk, rfl⟩

theorem Inv.lookup_iff (hinv : hashmap.Inv) :
    hashmap.lookup key = some value ↔ (key, value) ∈ hashmap.entries := by
  refine ⟨mem_entries_of_lookup, fun h => ?_⟩
  cases hl : hashmap.lookup key with
  | none => exact absurd (mem_keys.mpr ⟨value, h⟩) (lookup_eq_none.mp hl)
  | some v => rw [hinv.unique (mem_entries_of_lookup hl) h]

theorem Inv.slot_unique (hinv : hashmap.Inv) {i j : ℕ} {a b : KeyValuePair}
    (ha : hashmap.map[i]? = some a) (hb : hashmap.map[j]? = some b) (hva : a.valid = true)
    (hvb : b.valid = true) (hkey : a.key = b.key) : i = j := by
  have hpw : hashmap.map.Pairwise fun x y => x.valid = true → y.valid = true → x.key ≠ y.key := by
    have hn := hinv.keys_nodup
    rw [HashMap.keys, HashMap.entries, entriesOf, List.Nodup, List.pairwise_map,
      List.pairwise_filterMap] at hn
    refine hn.imp ?_
    intro x y h hx hy
    exact h (x.key, x.value) (by simp [hx]) (y.key, y.value) (by simp [hy])
  have hlt : ∀ {m n : ℕ} {x y : KeyValuePair}, hashmap.map[m]? = some x →
      hashmap.map[n]? = some y → x.valid = true → y.valid = true → x.key = y.key → ¬m < n := by
    intro m n x y hx hy hvx hvy hxy hmn
    obtain ⟨hm, rfl⟩ := List.getElem?_eq_some_iff.mp hx
    obtain ⟨hn, rfl⟩ := List.getElem?_eq_some_iff.mp hy
    exact List.pairwise_iff_getElem.mp hpw m n hm hn hmn hvx hvy hxy
  have h1 := hlt ha hb hva hvb hkey
  have h2 := hlt hb ha hvb hva hkey.symm
  omega

end HashMap

theorem hashmapGet_eq {hashmap : HashMap} (hinv : hashmap.Inv) (key : FiveTuple) :
    hashmapGet hashmap key = .ok (hashmap.lookup key) := by
  cases hi : hashmap.map.findIdx? (holds key) with
  | none =>
    have hl := HashMap.lookup_eq_none.mpr (HashMap.not_mem_keys_iff.mpr hi)
    simp [hashmapGet, hashmapContains_eq hinv, hi, hl, bind, Except.bind, pure, Except.pure]
  | some i =>
    obtain ⟨front, slot, back, hmap, rfl, hslot, hfront⟩ := split_of_findIdx? hi
    have hnone : front.find? (holds key) = none :=
      List.find?_eq_none.mpr fun s hs => by simp [hfront s hs]
    have hl : hashmap.lookup key = some slot.value := by
      rw [HashMap.lookup, hmap, List.find?_append, hnone, List.find?_cons_of_pos hslot]
      rfl
    have hread : readAt Halt.outOfBounds hashmap.map front.length = .ok slot :=
      readAt_of_getElem? (by rw [hmap, getElem?_split])
    simp [hashmapGet, hashmapContains_eq hinv, hi, hl, hread, bind, Except.bind, pure,
      Except.pure]

theorem hashmapInit_entries : hashmapInit.entries = [] := by
  apply entriesOf_eq_nil_of_invalid
  intro slot hslot
  rw [List.eq_of_mem_replicate hslot]
  rfl

theorem hashmapInit_inv : hashmapInit.Inv := by
  constructor
  · rw [hashmapInit_entries]
    rfl
  · rw [HashMap.keys, hashmapInit_entries]
    exact List.nodup_nil

theorem hashmapInsert_bound {hashmap : HashMap} (hinv : hashmap.Inv) {key : FiveTuple}
    (value : Ref) (hkey : key ∈ hashmap.keys) :
    ∃ hashmap' front old back, hashmapInsert hashmap key value = .ok hashmap' ∧
      hashmap.entries = front ++ (key, old) :: back ∧
      hashmap'.entries = front ++ (key, value) :: back ∧ hashmap'.Inv := by
  obtain ⟨i, hi⟩ := HashMap.mem_keys_iff.mp hkey
  obtain ⟨front, slot, back, hmap, rfl, hslot, -⟩ := split_of_findIdx? hi
  obtain ⟨hv, rfl⟩ := holds_iff.mp hslot
  have he : hashmap.entries = entriesOf front ++ (slot.key, slot.value) :: entriesOf back := by
    rw [HashMap.entries, hmap, entriesOf_append, entriesOf_cons_valid hv]
  have he' : (hashmapInsertAtIndex hashmap front.length value slot.key).entries =
      entriesOf front ++ (slot.key, value) :: entriesOf back := by
    simp only [HashMap.entries, hashmapInsertAtIndex]
    rw [hmap, set_split, entriesOf_append, entriesOf_cons_valid rfl]
  refine ⟨_, _, _, _, ?_, he, he', ?_, ?_⟩
  · simp [hashmapInsert, hashmapContains_of_split hinv hi, bind, Except.bind, pure, Except.pure]
  · have hs := hinv.size_eq
    rw [he] at hs
    rw [he']
    simpa [hashmapInsertAtIndex] using hs
  · have hn := hinv.keys_nodup
    rw [HashMap.keys, he] at hn
    rw [HashMap.keys, he']
    simpa using hn

theorem firstFreeFrom_eq (slots : List KeyValuePair) (i : ℕ) :
    firstFreeFrom slots i =
      match slots.findIdx? (fun slot => !slot.valid) with
      | some j => ((i + j : ℕ) : ℤ)
      | none => -1 := by
  induction slots generalizing i with
  | nil => rfl
  | cons slot slots ih =>
    rw [List.findIdx?_cons, firstFreeFrom]
    cases slot.valid with
    | false => simp
    | true =>
      simp only [Bool.not_true, Bool.false_eq_true, ↓reduceIte, ih]
      cases slots.findIdx? (fun slot => !slot.valid) <;> simp [Nat.add_assoc, Nat.add_comm 1]

theorem freeSlot_eq_none_iff (hashmap : HashMap) :
    hashmap.map.findIdx? (fun slot => !slot.valid) = none ↔
      hashmap.entries.length = HASHMAP_SIZE := by
  rw [List.findIdx?_eq_none_iff, HashMap.entries, entriesOf_length, ← hashmap.allocated,
    List.countP_eq_length]
  simp

theorem hashmapInsert_absent {hashmap : HashMap} (hinv : hashmap.Inv) {key : FiveTuple}
    (value : Ref) (hkey : key ∉ hashmap.keys) (hroom : hashmap.entries.length < HASHMAP_SIZE) :
    ∃ hashmap' front slot back, hashmapInsert hashmap key value = .ok hashmap' ∧
      hashmap.map = front ++ slot :: back ∧ (∀ s ∈ front, s.valid = true) ∧
      slot.valid = false ∧ hashmap'.map = front ++ ⟨true, key, value⟩ :: back ∧
      hashmap'.Inv := by
  cases hi : hashmap.map.findIdx? (fun slot => !slot.valid) with
  | none => exact absurd ((freeSlot_eq_none_iff hashmap).mp hi) hroom.ne
  | some i =>
    obtain ⟨front, slot, back, hmap, rfl, hslot, hfront⟩ := split_of_findIdx? hi
    have hv : slot.valid = false := by simpa using hslot
    have he : hashmap.entries = entriesOf front ++ entriesOf back := by
      rw [HashMap.entries, hmap, entriesOf_append, entriesOf_cons_invalid hv]
    refine ⟨⟨_, hashmap.size + 1, (hashmapInsertAtIndex hashmap front.length value key).allocated⟩,
      front, slot, back, ?_, hmap, fun s hs => by simpa using hfront s hs, hv, ?_, ?_⟩
    · simp [hashmapInsert, hashmapContains_eq hinv, HashMap.not_mem_keys_iff.mp hkey,
        hashmapFirstFreeSlot, firstFreeFrom_eq, hi, hashmapInsertAtIndex, bind, Except.bind, pure,
        Except.pure]
    · simp only [hashmapInsertAtIndex]
      rw [hmap, set_split]
    · have he' : entriesOf (hashmapInsertAtIndex hashmap front.length value key).map =
          entriesOf front ++ (key, value) :: entriesOf back := by
        simp only [hashmapInsertAtIndex]
        rw [hmap, set_split, entriesOf_append, entriesOf_cons_valid rfl]
      have hs := hinv.size_eq
      have hn := hinv.keys_nodup
      rw [HashMap.keys, he] at hn hkey
      rw [he] at hs
      constructor
      · simp only [HashMap.entries, he', hs]
        simp
        ring
      · simp only [HashMap.keys, HashMap.entries, he']
        rw [List.map_append, List.map_cons, List.nodup_middle, ← List.map_append,
          List.nodup_cons]
        exact ⟨hkey, hn⟩

theorem hashmapInsert_full {hashmap : HashMap} (hinv : hashmap.Inv) {key : FiveTuple}
    (value : Ref) (hkey : key ∉ hashmap.keys) (hfull : hashmap.entries.length = HASHMAP_SIZE) :
    hashmapInsert hashmap key value = .error .hashmapFull := by
  simp [hashmapInsert, hashmapContains_eq hinv, HashMap.not_mem_keys_iff.mp hkey,
    hashmapFirstFreeSlot, firstFreeFrom_eq, (freeSlot_eq_none_iff hashmap).mpr hfull, bind,
    Except.bind, throw, throwThe, MonadExceptOf.throw]

theorem hashmapRemove_absent {hashmap : HashMap} (hinv : hashmap.Inv) (heap : Heap RingBuffer)
    {key : FiveTuple} (hkey : key ∉ hashmap.keys) :
    hashmapRemove hashmap heap key = .ok (hashmap, heap) := by
  simp [hashmapRemove, hashmapContains_eq hinv, HashMap.not_mem_keys_iff.mp hkey, bind,
    Except.bind, pure, Except.pure]

theorem hashmapRemove_slot {hashmap : HashMap} (hinv : hashmap.Inv) (heap : Heap RingBuffer)
    {key : FiveTuple} (hkey : key ∈ hashmap.keys) :
    ∃ hashmap' front slot back,
      hashmapRemove hashmap heap key = .ok (hashmap', ringbufferDestroy heap slot.value) ∧
      hashmap.map = front ++ slot :: back ∧ slot.valid = true ∧ slot.key = key ∧
      hashmap'.map = front ++ { slot with valid := false } :: back ∧ hashmap'.Inv := by
  obtain ⟨i, hi⟩ := HashMap.mem_keys_iff.mp hkey
  obtain ⟨front, slot, back, hmap, rfl, hslot, -⟩ := split_of_findIdx? hi
  obtain ⟨hv, rfl⟩ := holds_iff.mp hslot
  have hread : readAt Halt.outOfBounds hashmap.map front.length = .ok slot :=
    readAt_of_getElem? (by rw [hmap, getElem?_split])
  have he : hashmap.entries = entriesOf front ++ (slot.key, slot.value) :: entriesOf back := by
    rw [HashMap.entries, hmap, entriesOf_append, entriesOf_cons_valid hv]
  have hset : hashmap.map.set front.length { slot with valid := false } =
      front ++ { slot with valid := false } :: back := by rw [hmap, set_split]
  have he' : entriesOf (front ++ { slot with valid := false } :: back) =
      entriesOf front ++ entriesOf back := by
    rw [entriesOf_append, entriesOf_cons_invalid rfl]
  have hlen : (front ++ { slot with valid := false } :: back).length = HASHMAP_SIZE := by
    rw [← hset, List.length_set, hashmap.allocated]
  refine ⟨⟨_, hashmap.size - 1, hlen⟩, front, slot, back, ?_, hmap, hv, rfl, rfl, ?_, ?_⟩
  · simp [hashmapRemove, hashmapContains_of_split hinv hi, hread, hset, bind, Except.bind, pure,
      Except.pure]
  · have hs := hinv.size_eq
    rw [he] at hs
    simp only [HashMap.entries, he', hs]
    simp
    ring
  · have hn := hinv.keys_nodup
    rw [HashMap.keys, he, List.map_append, List.map_cons, List.nodup_middle,
      ← List.map_append, List.nodup_cons] at hn
    simpa only [HashMap.keys, HashMap.entries, he'] using hn.2

theorem hashmapRemove_bound {hashmap : HashMap} (hinv : hashmap.Inv) (heap : Heap RingBuffer)
    {key : FiveTuple} (hkey : key ∈ hashmap.keys) :
    ∃ hashmap' front old back,
      hashmapRemove hashmap heap key = .ok (hashmap', ringbufferDestroy heap old) ∧
      hashmap.entries = front ++ (key, old) :: back ∧ hashmap'.entries = front ++ back ∧
      hashmap'.Inv := by
  obtain ⟨hashmap', front, slot, back, hok, hmap, hv, rfl, hmap', hinv'⟩ :=
    hashmapRemove_slot hinv heap hkey
  refine ⟨hashmap', entriesOf front, slot.value, entriesOf back, hok, ?_, ?_, hinv'⟩
  · rw [HashMap.entries, hmap, entriesOf_append, entriesOf_cons_valid hv]
  · rw [HashMap.entries, hmap', entriesOf_append, entriesOf_cons_invalid rfl]

theorem cleanupFrom_spec (slots : List KeyValuePair) (size : ℤ) (heap : Heap RingBuffer) :
    let r := cleanupFrom slots size heap
    let kept := (entriesOf slots).filter fun e => (heap.cell e.2).isActive
    entriesOf r.1 = kept ∧ r.2.1 = size - (entriesOf slots).length + kept.length ∧
      r.2.2.cell = heap.cell ∧ r.2.2.next = heap.next := by
  induction slots generalizing size heap with
  | nil => simp [cleanupFrom]
  | cons slot slots ih =>
    cases hv : slot.valid with
    | false =>
      have h := ih size heap
      simpa [cleanupFrom, hv, entriesOf_cons_invalid hv] using h
    | true =>
      cases ha : (heap.cell slot.value).isActive with
      | false =>
        obtain ⟨h1, h2, h3, h4⟩ := ih (size - 1) (ringbufferDestroy heap slot.value)
        refine ⟨?_, ?_, ?_, ?_⟩
        · have hdead : entriesOf ({ slot with valid := false } ::
              (cleanupFrom slots (size - 1) (ringbufferDestroy heap slot.value)).1) = _ :=
            entriesOf_cons_invalid rfl _
          simpa [cleanupFrom, hv, ha, entriesOf_cons_valid hv, hdead] using h1
        · simp only [cleanupFrom, hv, ha, Bool.not_false, Bool.and_self, ↓reduceIte, h2,
            entriesOf_cons_valid hv, ringbufferDestroy_cell]
          simp [ha]
          ring
        · simpa [cleanupFrom, hv, ha] using h3
        · simpa [cleanupFrom, hv, ha] using h4
      | true =>
        obtain ⟨h1, h2, h3, h4⟩ := ih size heap
        refine ⟨?_, ?_, ?_, ?_⟩
        · simpa [cleanupFrom, hv, ha, entriesOf_cons_valid hv] using h1
        · simp only [cleanupFrom, hv, ha, Bool.not_true, Bool.and_false, Bool.false_eq_true,
            ↓reduceIte, h2, entriesOf_cons_valid hv]
          simp [ha]
          ring
        · simpa [cleanupFrom, hv, ha] using h3
        · simpa [cleanupFrom, hv, ha] using h4

theorem hashmapCleanup_spec {hashmap : HashMap} (hinv : hashmap.Inv) (heap : Heap RingBuffer) :
    let r := hashmapCleanupInactiveFlows hashmap heap
    r.1.entries = hashmap.entries.filter (fun e => (heap.cell e.2).isActive) ∧
      r.2.cell = heap.cell ∧ r.2.next = heap.next ∧ r.1.Inv := by
  obtain ⟨h1, h2, h3, h4⟩ := cleanupFrom_spec hashmap.map hashmap.size heap
  refine ⟨h1, h3, h4, ?_, ?_⟩
  · change (cleanupFrom _ _ _).2.1 = ((entriesOf (cleanupFrom _ _ _).1).length : ℤ)
    have hs : hashmap.size = (entriesOf hashmap.map).length := hinv.size_eq
    rw [h1, h2, hs]
    ring
  · change (List.map _ (entriesOf (cleanupFrom _ _ _).1)).Nodup
    rw [h1]
    exact hinv.keys_nodup.sublist (List.filter_sublist.map _)

namespace HashMap
variable {hashmap hashmap' : HashMap}

theorem lookup_congr (hinv : hashmap.Inv) (hinv' : hashmap'.Inv) {key : FiveTuple}
    (h : ∀ v, (key, v) ∈ hashmap'.entries ↔ (key, v) ∈ hashmap.entries) :
    hashmap'.lookup key = hashmap.lookup key := by
  ext v
  rw [hinv'.lookup_iff, hinv.lookup_iff, h]

end HashMap

theorem hashmapInsert_spec {hashmap : HashMap} (hinv : hashmap.Inv) (key : FiveTuple)
    (value : Ref) (hroom : key ∉ hashmap.keys → hashmap.entries.length < HASHMAP_SIZE) :
    ∃ hashmap', hashmapInsert hashmap key value = .ok hashmap' ∧ hashmap'.Inv ∧
      ∀ k, hashmap'.lookup k = if k = key then some value else hashmap.lookup k := by
  by_cases hkey : key ∈ hashmap.keys
  · obtain ⟨hashmap', front, old, back, hok, he, he', hinv'⟩ :=
      hashmapInsert_bound hinv value hkey
    refine ⟨hashmap', hok, hinv', fun k => ?_⟩
    split_ifs with hk
    · rw [hk, hinv'.lookup_iff, he']
      simp
    · apply HashMap.lookup_congr hinv hinv'
      simp [he, he', hk]
  · obtain ⟨hashmap', front, slot, back, hok, hmap, -, hslot, hmap', hinv'⟩ :=
      hashmapInsert_absent hinv value hkey (hroom hkey)
    have he : hashmap.entries = entriesOf front ++ entriesOf back := by
      rw [HashMap.entries, hmap, entriesOf_append, entriesOf_cons_invalid hslot]
    have he' : hashmap'.entries = entriesOf front ++ (key, value) :: entriesOf back := by
      rw [HashMap.entries, hmap', entriesOf_append, entriesOf_cons_valid rfl]
    refine ⟨hashmap', hok, hinv', fun k => ?_⟩
    split_ifs with hk
    · rw [hk, hinv'.lookup_iff, he']
      simp
    · apply HashMap.lookup_congr hinv hinv'
      simp [he, he', hk]

theorem hashmapRemove_spec {hashmap : HashMap} (hinv : hashmap.Inv) (heap : Heap RingBuffer)
    (key : FiveTuple) :
    ∃ hashmap' heap', hashmapRemove hashmap heap key = .ok (hashmap', heap') ∧ hashmap'.Inv ∧
      heap'.cell = heap.cell ∧ heap'.next = heap.next ∧
      ∀ k, hashmap'.lookup k = if k = key then none else hashmap.lookup k := by
  by_cases hkey : key ∈ hashmap.keys
  · obtain ⟨hashmap', front, old, back, hok, he, he', hinv'⟩ :=
      hashmapRemove_bound hinv heap hkey
    refine ⟨hashmap', _, hok, hinv', rfl, rfl, fun k => ?_⟩
    split_ifs with hk
    · have hn := hinv.keys_nodup
      rw [HashMap.keys, he, List.map_append, List.map_cons, List.nodup_middle,
        ← List.map_append, List.nodup_cons] at hn
      rw [hk, HashMap.lookup_eq_none, HashMap.keys, he']
      exact hn.1
    · apply HashMap.lookup_congr hinv hinv'
      simp [he, he', hk]
  · refine ⟨hashmap, heap, hashmapRemove_absent hinv heap hkey, hinv, rfl, rfl, fun k => ?_⟩
    split_ifs with hk
    · rw [hk, HashMap.lookup_eq_none]
      exact hkey
    · rfl

theorem hashmapCleanup_lookup {hashmap : HashMap} (hinv : hashmap.Inv) (heap : Heap RingBuffer)
    (key : FiveTuple) :
    (hashmapCleanupInactiveFlows hashmap heap).1.lookup key =
      (hashmap.lookup key).filter fun r => (heap.cell r).isActive := by
  obtain ⟨he, -, -, hinv'⟩ := hashmapCleanup_spec hinv heap
  ext v
  rw [hinv'.lookup_iff, he, List.mem_filter, ← hinv.lookup_iff,
    Option.filter_eq_some_iff]

end OrssNic
