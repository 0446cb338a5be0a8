import OrssNic.HashMapWalk

/-!
# The ring buffers that a map owns

A ring buffer is allocated by `hashmap_new` and freed by `hashmap_remove`, by
the cleanup or, at the end, by `hashmap_destroy`. A slot that was given up
keeps its pointer, and the destructor looks at the first `size` slots without
asking whether they are valid: it frees what the map owns exactly when these
are the valid ones.
-/

namespace OrssNic
open CLoops CLists

def destroyStep (hashmap : HashMap) (i : ℕ) (heap : Heap RingBuffer) :
    Except Halt (Heap RingBuffer) := do
  let slot ← readAt .outOfBounds hashmap.map i
  return ringbufferDestroy heap slot.value

/-- The blocks of the table itself are not ring buffers and are not recorded. -/
def hashmapDestroy (hashmap : HashMap) (heap : Heap RingBuffer) : Except Halt (Heap RingBuffer) :=
  forLoop (destroyStep hashmap) hashmap.size.toNat heap

theorem hashmapDestroy_eq (hashmap : HashMap) (heap : Heap RingBuffer)
    (hsize : hashmap.size.toNat ≤ HASHMAP_SIZE) :
    hashmapDestroy hashmap heap =
      .ok { heap with
        freed := heap.freed ++ (hashmap.map.take hashmap.size.toNat).map KeyValuePair.value } := by
  have hstep : ∀ i heap', i < hashmap.size.toNat →
      heap' = { heap with freed := heap.freed ++ (hashmap.map.take i).map KeyValuePair.value } →
      ∃ heap'', destroyStep hashmap i heap' = .ok heap'' ∧ heap'' =
        { heap with freed := heap.freed ++ (hashmap.map.take (i + 1)).map KeyValuePair.value } := by
    rintro i heap' hi rfl
    have hlt : i < hashmap.map.length := by
      rw [hashmap.allocated]
      exact hi.trans_le hsize
    have hslot := List.getElem?_eq_getElem hlt
    refine ⟨_, bind_eq_ok.mpr ⟨_, readAt_of_getElem? hslot, rfl⟩, ?_⟩
    rw [ringbufferDestroy, Heap.free, List.take_add_one, hslot, Option.toList_some,
      List.map_append, ← List.append_assoc]
    rfl
  have hstart : heap =
      { heap with freed := heap.freed ++ (hashmap.map.take 0).map KeyValuePair.value } := by
    rw [List.take_zero, List.map_nil, List.append_nil]
  obtain ⟨heap', hok, rfl⟩ := forLoop_total (P := fun n heap' => heap' =
    { heap with freed := heap.freed ++ (hashmap.map.take n).map KeyValuePair.value }) hstart hstep
  exact hok

/-- The maps of a program that makes a new flow only for a key without one, and
writes to ring buffers in between. -/
inductive MapState.Reached : MapState → Prop
  | init : Reached ⟨hashmapInit, Heap.empty⟩
  | new {s : MapState} {key : FiveTuple} {value : Ref} {hashmap : HashMap}
      {heap : Heap RingBuffer} : s.Reached → key ∉ s.hashmap.keys →
      hashmapNew s.hashmap s.heap key = .ok (value, hashmap, heap) → Reached ⟨hashmap, heap⟩
  | remove {s : MapState} {key : FiveTuple} {hashmap : HashMap} {heap : Heap RingBuffer} :
      s.Reached → hashmapRemove s.hashmap s.heap key = .ok (hashmap, heap) →
      Reached ⟨hashmap, heap⟩
  | cleanup {s : MapState} {hashmap : HashMap} {heap : Heap RingBuffer} :
      s.Reached → hashmapCleanupInactiveFlows s.hashmap s.heap = (hashmap, heap) →
      Reached ⟨hashmap, heap⟩
  | store {s : MapState} (value : Ref) (rb : RingBuffer) :
      s.Reached → Reached { s with heap := s.heap.write value rb }

structure MapState.Held (s : MapState) : Prop where
  inv : s.hashmap.Inv
  refs : (s.hashmap.entries.map Prod.snd).Nodup
  fresh : ∀ e ∈ s.hashmap.entries, e.2 < s.heap.next

/-- A free slot in front of a valid one was given up: its ring buffer is freed. -/
def GivenUp (freed : List Ref) (slots : List KeyValuePair) : Prop :=
  slots.Pairwise fun a b => a.valid = false → b.valid = true → a.value ∈ freed

structure MapState.Owned (s : MapState) : Prop extends s.Held where
  live : ∀ e ∈ s.hashmap.entries, e.2 ∉ s.heap.freed
  released : ∀ r ∈ s.heap.freed, r < s.heap.next
  givenUp : GivenUp s.heap.freed s.hashmap.map

section Slots
variable {freed : List Ref} {front back : List KeyValuePair} {slot : KeyValuePair}

/-- Only the pairs with the changed slot have to be looked at again. -/
theorem GivenUp.replace {freed' : List Ref} (h : GivenUp freed (front ++ slot :: back))
    (hfreed : ∀ r ∈ freed, r ∈ freed') {slot' : KeyValuePair}
    (hfront : ∀ a ∈ front, a.valid = false → slot'.valid = true → a.value ∈ freed')
    (hback : slot'.valid = false → slot'.value ∈ freed') :
    GivenUp freed' (front ++ slot' :: back) := by
  rw [GivenUp, List.pairwise_append, List.pairwise_cons] at h ⊢
  obtain ⟨hpre, ⟨-, hpost⟩, hcross⟩ := h
  refine ⟨hpre.imp fun h ha hb => hfreed _ (h ha hb), ⟨fun b _ ha _ => hback ha,
    hpost.imp fun h ha hb => hfreed _ (h ha hb)⟩, fun a ha b hb => ?_⟩
  rcases List.mem_cons.mp hb with rfl | hb
  · exact hfront a ha
  · exact fun hva hvb => hfreed _ (hcross a ha b (List.mem_cons_of_mem _ hb) hva hvb)

end Slots

theorem cleanupFrom_freed (slots : List KeyValuePair) (size : ℤ) (heap : Heap RingBuffer) :
    let r := cleanupFrom slots size heap
    r.2.2.freed = heap.freed ++
        ((entriesOf slots).filter fun e => !(heap.cell e.2).isActive).map Prod.snd ∧
      (∀ slot ∈ r.1, slot.valid = true → slot ∈ slots) ∧
      (GivenUp heap.freed slots → GivenUp r.2.2.freed r.1) := by
  induction slots generalizing size heap with
  | nil => simp [cleanupFrom, GivenUp]
  | cons slot slots ih =>
    by_cases hdead : (slot.valid && !(heap.cell slot.value).isActive) = true
    · obtain ⟨hfreed, hvalid, hgiven⟩ := ih (size - 1) (ringbufferDestroy heap slot.value)
      rw [Bool.and_eq_true, Bool.not_eq_true'] at hdead
      have hfreed' : (cleanupFrom (slot :: slots) size heap).2.2.freed = heap.freed ++
          ((entriesOf (slot :: slots)).filter fun e => !(heap.cell e.2).isActive).map
            Prod.snd := by
        simp only [cleanupFrom, hdead, Bool.not_false, Bool.and_self, if_true, hfreed,
          entriesOf_cons_valid hdead.1]
        simp [ringbufferDestroy, Heap.free, hdead.2]
      refine ⟨hfreed', ?_, fun h => ?_⟩
      · intro slot' hslot' hv
        simp only [cleanupFrom, hdead, Bool.not_false, Bool.and_self, if_true] at hslot'
        rcases List.mem_cons.mp hslot' with rfl | hslot'
        · cases hv
        · exact List.mem_cons_of_mem _ (hvalid slot' hslot' hv)
      · have hmem : slot.value ∈ (cleanupFrom (slot :: slots) size heap).2.2.freed := by
          rw [hfreed', entriesOf_cons_valid hdead.1]
          simp [hdead.2]
        simp only [cleanupFrom, hdead, Bool.not_false, Bool.and_self, if_true] at hmem ⊢
        rw [GivenUp, List.pairwise_cons] at h ⊢
        refine ⟨fun _ _ _ _ => hmem, hgiven (h.2.imp fun h ha hb => ?_)⟩
        exact List.mem_append_left _ (h ha hb)
    · obtain ⟨hfreed, hvalid, hgiven⟩ := ih size heap
      rw [Bool.not_eq_true] at hdead
      have hkept : (entriesOf (slot :: slots)).filter (fun e => !(heap.cell e.2).isActive) =
          (entriesOf slots).filter fun e => !(heap.cell e.2).isActive := by
        cases hv : slot.valid with
        | false => rw [entriesOf_cons_invalid hv]
        | true =>
          rw [hv, Bool.true_and] at hdead
          rw [entriesOf_cons_valid hv, List.filter_cons_of_neg (by simp [hdead])]
      simp only [cleanupFrom, hdead, Bool.false_eq_true, if_false, hkept]
      refine ⟨hfreed, ?_, fun h => ?_⟩
      · intro slot' hslot' hv
        rcases List.mem_cons.mp hslot' with rfl | hslot'
        · exact List.mem_cons_self
        · exact List.mem_cons_of_mem _ (hvalid slot' hslot' hv)
      · rw [GivenUp, List.pairwise_cons] at h ⊢
        refine ⟨fun b hb ha hvb => ?_, hgiven h.2⟩
        rw [hfreed]
        exact List.mem_append_left _ (h.1 b (hvalid b hb hvb) ha hvb)

theorem entries_perm_of_fill {hashmap hashmap' : HashMap} {front back : List KeyValuePair}
    {slot slot' : KeyValuePair} (hmap : hashmap.map = front ++ slot :: back)
    (hslot : slot.valid = false) (hmap' : hashmap'.map = front ++ slot' :: back)
    (hslot' : slot'.valid = true) :
    hashmap'.entries.Perm ((slot'.key, slot'.value) :: hashmap.entries) := by
  rw [HashMap.entries, HashMap.entries, hmap, hmap', entriesOf_append, entriesOf_append,
    entriesOf_cons_valid hslot', entriesOf_cons_invalid hslot]
  exact List.perm_middle

section Invariant
variable {s : MapState} {key : FiveTuple} {value : Ref} {hashmap : HashMap}
variable {heap : Heap RingBuffer}

theorem MapState.Owned.init : Owned ⟨hashmapInit, Heap.empty⟩ where
  inv := hashmapInit_inv
  refs := by simp [hashmapInit_entries]
  fresh := by simp [hashmapInit_entries]
  live := by simp [hashmapInit_entries]
  released := by simp [Heap.empty]
  givenUp := by
    refine List.pairwise_iff_forall_sublist.mpr fun {a b} hsub _ hb => ?_
    have hmem : b ∈ List.replicate HASHMAP_SIZE default := hsub.subset (by simp)
    rw [List.eq_of_mem_replicate hmem] at hb
    cases hb

theorem hashmapNew_absent (h : s.Held) (hkey : key ∉ s.hashmap.keys)
    (hroom : s.hashmap.entries.length < HASHMAP_SIZE) :
    ∃ hashmap front slot back,
      hashmapNew s.hashmap s.heap key = .ok (s.heap.next, hashmap, (ringbufferInit s.heap).2) ∧
      s.hashmap.map = front ++ slot :: back ∧ (∀ a ∈ front, a.valid = true) ∧
      slot.valid = false ∧ hashmap.map = front ++ ⟨true, key, s.heap.next⟩ :: back ∧
      MapState.Held ⟨hashmap, (ringbufferInit s.heap).2⟩ := by
  obtain ⟨hashmap, front, slot, back, hok, hmap, hfront, hslot, hmap', hinv'⟩ :=
    hashmapInsert_absent h.inv s.heap.next hkey hroom
  have hperm := entries_perm_of_fill hmap hslot hmap' rfl
  refine ⟨hashmap, front, slot, back, ?_, hmap, hfront, hslot, hmap', hinv', ?_, ?_⟩
  · simp [hashmapNew, hok, bind, Except.bind, pure, Except.pure]
  · rw [(hperm.map _).nodup_iff, List.map_cons, List.nodup_cons]
    refine ⟨fun hmem => ?_, h.refs⟩
    obtain ⟨e, he, hnext⟩ := List.mem_map.mp hmem
    exact (h.fresh e he).ne hnext
  · intro e he
    rw [ringbufferInit_next]
    rcases List.mem_cons.mp (hperm.mem_iff.mp he) with rfl | he
    · exact Nat.lt_succ_self _
    · exact Nat.lt_succ_of_lt (h.fresh e he)

theorem hashmapNew_full (hinv : s.hashmap.Inv) (hkey : key ∉ s.hashmap.keys)
    (hfull : s.hashmap.entries.length = HASHMAP_SIZE) :
    hashmapNew s.hashmap s.heap key = .error .hashmapFull := by
  simp [hashmapNew, hashmapInsert_full hinv _ hkey hfull, bind, Except.bind]

theorem MapState.Owned.new (h : s.Owned) (hkey : key ∉ s.hashmap.keys)
    (hok : hashmapNew s.hashmap s.heap key = .ok (value, hashmap, heap)) :
    Owned ⟨hashmap, heap⟩ := by
  have hroom : s.hashmap.entries.length < HASHMAP_SIZE := by
    refine lt_of_le_of_ne s.hashmap.entries_length_le fun hfull => ?_
    rw [hashmapNew_full h.inv hkey hfull] at hok
    cases hok
  obtain ⟨hashmap', front, slot, back, hok', hmap, hfront, hslot, hmap', hheld⟩ :=
    hashmapNew_absent h.toHeld hkey hroom
  rw [hok, Except.ok.injEq, Prod.mk.injEq, Prod.mk.injEq] at hok'
  obtain ⟨-, rfl, rfl⟩ := hok'
  have hperm := entries_perm_of_fill hmap hslot hmap' rfl
  refine ⟨hheld, ?_, fun r hr => Nat.lt_succ_of_lt (h.released r hr), ?_⟩
  · intro e he hfreed
    rcases List.mem_cons.mp (hperm.mem_iff.mp he) with rfl | he
    · exact lt_irrefl _ (h.released _ hfreed)
    · exact h.live e he hfreed
  · have hgiven := h.givenUp
    rw [hmap] at hgiven
    dsimp only
    rw [hmap']
    refine hgiven.replace (fun _ hr => hr) (fun a ha hva => ?_) fun hv => by cases hv
    rw [hfront a ha] at hva
    cases hva

theorem MapState.Owned.remove (h : s.Owned)
    (hok : hashmapRemove s.hashmap s.heap key = .ok (hashmap, heap)) : Owned ⟨hashmap, heap⟩ := by
  by_cases hkey : key ∈ s.hashmap.keys
  · obtain ⟨hashmap', front, slot, back, hok', hmap, hv, -, hmap', hinv'⟩ :=
      hashmapRemove_slot h.inv s.heap hkey
    rw [hok, Except.ok.injEq, Prod.mk.injEq] at hok'
    obtain ⟨rfl, rfl⟩ := hok'
    have hperm := entries_perm_of_fill hmap' rfl hmap hv
    have hmem : ∀ e ∈ hashmap.entries, e ∈ s.hashmap.entries :=
      fun e he => hperm.mem_iff.mpr (List.mem_cons_of_mem _ he)
    have hrefs := h.refs
    rw [(hperm.map _).nodup_iff, List.map_cons, List.nodup_cons] at hrefs
    refine ⟨⟨hinv', hrefs.2, fun e he => h.fresh e (hmem e he)⟩, ?_, ?_, ?_⟩
    · intro e he hfreed
      rcases List.mem_append.mp hfreed with hfreed | hfreed
      · exact h.live e (hmem e he) hfreed
      · rw [List.mem_singleton] at hfreed
        have hmem' := List.mem_map_of_mem (f := Prod.snd) he
        rw [hfreed] at hmem'
        exact hrefs.1 hmem'
    · intro r hr
      rcases List.mem_append.mp hr with hr | hr
      · exact h.released r hr
      · rw [List.mem_singleton.mp hr]
        exact h.fresh _ (hperm.mem_iff.mpr List.mem_cons_self)
    · have hgiven := h.givenUp
      rw [hmap] at hgiven
      dsimp only
      rw [hmap']
      refine hgiven.replace (fun r hr => List.mem_append_left _ hr) (fun _ _ _ hv' => ?_)
        fun _ => List.mem_append_right _ (List.mem_singleton_self _)
      cases hv'
  · rw [hashmapRemove_absent h.inv s.heap hkey] at hok
    cases hok
    exact h

theorem MapState.Owned.cleanup (h : s.Owned)
    (hok : hashmapCleanupInactiveFlows s.hashmap s.heap = (hashmap, heap)) :
    Owned ⟨hashmap, heap⟩ := by
  obtain ⟨hentries, -, hnext, hinv'⟩ := hashmapCleanup_spec h.inv s.heap
  obtain ⟨hfreed, -, hgiven⟩ := cleanupFrom_freed s.hashmap.map s.hashmap.size s.heap
  have hfreed' : heap.freed = _ := (congrArg (fun r => r.2.freed) hok).symm.trans hfreed
  rw [hok] at hentries hnext hinv'
  dsimp only at hentries hnext hinv'
  have hsub : ∀ e ∈ hashmap.entries, e ∈ s.hashmap.entries := by
    intro e he
    rw [hentries] at he
    exact List.mem_of_mem_filter he
  refine ⟨⟨hinv', ?_, fun e he => ?_⟩, ?_, ?_, ?_⟩
  · rw [hentries]
    exact h.refs.sublist (List.filter_sublist.map _)
  · dsimp only
    rw [hnext]
    exact h.fresh e (hsub e he)
  · intro e he hmem
    dsimp only at he hmem
    rw [hfreed', List.mem_append] at hmem
    rcases hmem with hmem | hmem
    · exact h.live e (hsub e he) hmem
    · -- A freed ring buffer is that of an inactive flow, and no other flow has it.
      obtain ⟨e', he', href⟩ := List.mem_map.mp hmem
      obtain ⟨hmem', hdead⟩ := List.mem_filter.mp he'
      rw [hentries, List.mem_filter] at he
      rw [List.inj_on_of_nodup_map h.refs hmem' he.1 href, he.2] at hdead
      cases hdead
  · intro r hr
    dsimp only at hr ⊢
    rw [hfreed', List.mem_append] at hr
    rw [hnext]
    rcases hr with hr | hr
    · exact h.released r hr
    · obtain ⟨e, he, rfl⟩ := List.mem_map.mp hr
      exact h.fresh e (List.mem_of_mem_filter he)
  · have hslots := hgiven h.givenUp
    rw [hfreed] at hslots
    rw [hfreed']
    exact (congrArg (fun r => r.1.map) hok) ▸ hslots

theorem MapState.Reached.owned (h : s.Reached) : s.Owned := by
  induction h with
  | init => exact .init
  | new h hkey hok ih => exact ih.new hkey hok
  | remove h hok ih => exact ih.remove hok
  | cleanup h hok ih => exact ih.cleanup hok
  | store value rb h ih =>
    exact ⟨⟨ih.inv, ih.refs, ih.fresh⟩, ih.live, ih.released, ih.givenUp⟩

end Invariant

/-- Up to `heap`, the ring buffers of the flows have been freed, each once and none
of them a second time. -/
def MapState.FreesOnce (s : MapState) (heap : Heap RingBuffer) : Prop :=
  ∃ destroyed, heap.freed = s.heap.freed ++ destroyed ∧
    destroyed.Perm (s.hashmap.entries.map Prod.snd) ∧ destroyed.Nodup ∧
    ∀ r ∈ destroyed, r ∉ s.heap.freed

theorem take_size_valid_iff {hashmap : HashMap} :
    (∀ slot ∈ hashmap.map.take hashmap.entries.length, slot.valid = true) ↔ hashmap.IsPrefix := by
  constructor
  · intro hvalid
    have hsplit := List.take_append_drop hashmap.entries.length hashmap.map
    have hlen : (hashmap.map.take hashmap.entries.length).length = hashmap.entries.length :=
      List.length_take_of_le (hashmap.allocated.symm ▸ hashmap.entries_length_le)
    have hrest : (entriesOf (hashmap.map.drop hashmap.entries.length)).length = 0 := by
      have hcount : (entriesOf hashmap.map).length = hashmap.entries.length := rfl
      rw [← hsplit, entriesOf_append, List.length_append, entriesOf_of_valid hvalid,
        List.length_map, hlen] at hcount
      omega
    rw [entriesOf_length, List.countP_eq_zero] at hrest
    exact (HashMap.isPrefix_of_back hsplit.symm hvalid fun slot hslot => by
      simpa using hrest slot hslot).1
  · intro hp slot hslot
    obtain ⟨i, hi⟩ := List.mem_iff_getElem?.mp hslot
    rw [List.getElem?_take] at hi
    split_ifs at hi with hlt
    exact (hp i slot hi).mpr hlt

theorem exists_valid_behind {hashmap : HashMap} {slot : KeyValuePair}
    (hslot : slot ∈ hashmap.map.take hashmap.entries.length) (hv : slot.valid = false) :
    ∃ b ∈ hashmap.map.drop hashmap.entries.length, b.valid = true := by
  by_contra hnone
  push Not at hnone
  have hback : (hashmap.map.drop hashmap.entries.length).countP KeyValuePair.valid = 0 :=
    List.countP_eq_zero.mpr hnone
  have hfront : (hashmap.map.take hashmap.entries.length).countP KeyValuePair.valid <
      (hashmap.map.take hashmap.entries.length).length := by
    refine lt_of_le_of_ne List.countP_le_length fun hall => ?_
    rw [List.countP_eq_length.mp hall slot hslot] at hv
    cases hv
  have hcount : hashmap.map.countP KeyValuePair.valid = hashmap.entries.length :=
    (entriesOf_length _).symm
  have hle := List.length_take_le hashmap.entries.length hashmap.map
  rw [← List.take_append_drop hashmap.entries.length hashmap.map, List.countP_append,
    hback] at hcount
  omega

/-- The ring buffers of the flows are freed, each once and none of them before,
exactly when no free slot lies in front of a valid one. -/
theorem hashmapDestroy_once_iff {s : MapState} (h : s.Reached) :
    (∃ heap, hashmapDestroy s.hashmap s.heap = .ok heap ∧ s.FreesOnce heap) ↔
      s.hashmap.IsPrefix := by
  have howned := h.owned
  have hsize : s.hashmap.size.toNat = s.hashmap.entries.length := by
    rw [howned.inv.size_eq, Int.toNat_natCast]
  have hdestroy := hashmapDestroy_eq s.hashmap s.heap (hsize ▸ s.hashmap.entries_length_le)
  rw [hsize] at hdestroy
  constructor
  · rintro ⟨heap, hok, destroyed, hfreed, -, -, hlive⟩
    rw [hdestroy, Except.ok.injEq] at hok
    rw [← hok, List.append_cancel_left_eq] at hfreed
    refine take_size_valid_iff.mp fun slot hslot => ?_
    by_contra hv
    rw [Bool.not_eq_true] at hv
    obtain ⟨b, hb, hvb⟩ := exists_valid_behind hslot hv
    have hgiven := howned.givenUp
    rw [← List.take_append_drop s.hashmap.entries.length s.hashmap.map, GivenUp,
      List.pairwise_append] at hgiven
    refine hlive slot.value ?_ (hgiven.2.2 slot hslot b hb hv hvb)
    rw [← hfreed]
    exact List.mem_map_of_mem hslot
  · intro hp
    have hvalues : (s.hashmap.map.take s.hashmap.entries.length).map KeyValuePair.value =
        s.hashmap.entries.map Prod.snd := by
      conv_rhs => rw [hp.entries_eq, List.map_map]
      rfl
    refine ⟨_, hdestroy, _, rfl, ?_, ?_, ?_⟩
    · rw [hvalues]
    · rw [hvalues]
      exact howned.refs
    · intro r hr
      rw [hvalues] at hr
      obtain ⟨e, he, rfl⟩ := List.mem_map.mp hr
      exact howned.live e he

def firstFlow : FiveTuple := ⟨1, 2, 3, 4, 6⟩

def secondFlow : FiveTuple := ⟨5, 6, 7, 8, 17⟩

def thirdFlow : FiveTuple := ⟨9, 10, 11, 12, 6⟩

/-- The last of three flows is removed, and the slots stay without a hole. -/
theorem hashmapDestroy_once_iff_removed :
    ∃ s : MapState, s.Reached ∧ s.hashmap.entries = [(firstFlow, 0), (secondFlow, 1)] ∧
      s.heap.freed = [2] ∧
      ((∃ heap, hashmapDestroy s.hashmap s.heap = .ok heap ∧ s.FreesOnce heap) ↔
        s.hashmap.IsPrefix) := by
  have hrun : returns (do
      let r₁ ← hashmapNew hashmapInit .empty firstFlow
      let r₂ ← hashmapNew r₁.2.1 r₁.2.2 secondFlow
      let r₃ ← hashmapNew r₂.2.1 r₂.2.2 thirdFlow
      let r₄ ← hashmapRemove r₃.2.1 r₃.2.2 thirdFlow
      return (r₁.2.1, r₂.2.1, r₄)) (fun r => decide (secondFlow ∉ r.1.keys ∧
        thirdFlow ∉ r.2.1.keys ∧ r.2.2.1.entries = [(firstFlow, 0), (secondFlow, 1)] ∧
        r.2.2.2.freed = [2])) = true := by
    decide +kernel
  obtain ⟨r, hok, htest⟩ := exists_of_returns hrun
  obtain ⟨hkey₂, hkey₃, hentries, hfreed⟩ := of_decide_eq_true htest
  obtain ⟨r₁, hnew₁, hok⟩ := bind_eq_ok.mp hok
  obtain ⟨r₂, hnew₂, hok⟩ := bind_eq_ok.mp hok
  obtain ⟨r₃, hnew₃, hok⟩ := bind_eq_ok.mp hok
  obtain ⟨r₄, hremove, hret⟩ := bind_eq_ok.mp hok
  cases hret
  have hkey₁ : firstFlow ∉ hashmapInit.keys := by simp [HashMap.keys, hashmapInit_entries]
  have hs := (((MapState.Reached.init.new hkey₁ hnew₁).new hkey₂ hnew₂).new hkey₃ hnew₃).remove
    hremove
  exact ⟨_, hs, hentries, hfreed, hashmapDestroy_once_iff hs⟩

/-- The first of two flows is removed: its ring buffer is freed again, and that
of the second flow is not freed. -/
theorem hashmapDestroy_frees_twice :
    ∃ (s : MapState) (heap : Heap RingBuffer), s.Reached ∧
      s.hashmap.entries = [(secondFlow, 1)] ∧ hashmapDestroy s.hashmap s.heap = .ok heap ∧
      heap.freed = [0, 0] := by
  have hrun : returns (do
      let r₁ ← hashmapNew hashmapInit .empty firstFlow
      let r₂ ← hashmapNew r₁.2.1 r₁.2.2 secondFlow
      let r₃ ← hashmapRemove r₂.2.1 r₂.2.2 firstFlow
      let heap₄ ← hashmapDestroy r₃.1 r₃.2
      return (r₁.2.1, r₃.1, heap₄)) (fun r => decide (secondFlow ∉ r.1.keys ∧
        r.2.1.entries = [(secondFlow, 1)] ∧ r.2.2.freed = [0, 0])) = true := by
    decide +kernel
  obtain ⟨r, hok, htest⟩ := exists_of_returns hrun
  obtain ⟨hkey₂, hentries, hfreed⟩ := of_decide_eq_true htest
  obtain ⟨r₁, hnew₁, hok⟩ := bind_eq_ok.mp hok
  obtain ⟨r₂, hnew₂, hok⟩ := bind_eq_ok.mp hok
  obtain ⟨r₃, hremove, hok⟩ := bind_eq_ok.mp hok
  obtain ⟨heap₄, hdestroy, hret⟩ := bind_eq_ok.mp hok
  cases hret
  have hkey₁ : firstFlow ∉ hashmapInit.keys := by simp [HashMap.keys, hashmapInit_entries]
  have hs := ((MapState.Reached.init.new hkey₁ hnew₁).new hkey₂ hnew₂).remove hremove
  exact ⟨_, heap₄, hs, hentries, hdestroy, hfreed⟩

end OrssNic
