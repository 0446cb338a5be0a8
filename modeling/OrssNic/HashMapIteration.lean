import OrssNic.HashMapRefinement
import OrssNic.HashMapWalk

/-!
# Iterating over the flow table

The iteration of `hashmap.h`: `hashmap_get_next` is called from a key and then
from every key that it returned, until it returns 0. It yields the valid slots
in front of the first free one; on a table without a free slot the last call
runs off the end of the function.
-/

namespace OrssNic
open CLoops CLists CRuns

/-- One call of `hashmap_get_next`; the state is the key and the entries that
the calls before returned. -/
def iterateStep (hashmap : HashMap) (s : FiveTuple × List (FiveTuple × Ref)) :
    Except Halt (Option (FiveTuple × List (FiveTuple × Ref))) := do
  match ← hashmapGetNext hashmap s.1 with
  | some entry => return some (entry.1, s.2 ++ [entry])
  | none => return none

def hashmapIterate (hashmap : HashMap) (key : FiveTuple) :
    Except Halt (List (FiveTuple × Ref)) := do
  let s ← whileLoop .diverges (iterateStep hashmap) (HASHMAP_SIZE + 1) (key, [])
  return s.2

variable {hashmap : HashMap} {key : FiveTuple}

theorem iterateStep_valid (hinv : hashmap.Inv) {slot : KeyValuePair}
    (hslot : hashmap.map[hashmap.walkIndex key]? = some slot) (hv : slot.valid = true)
    (entries : List (FiveTuple × Ref)) :
    iterateStep hashmap (key, entries) =
      .ok (some (slot.key, entries ++ [(slot.key, slot.value)])) := by
  simp only [iterateStep, hashmapGetNext_slot hinv, hslot, hv, if_true, bind, Except.bind, pure,
    Except.pure]

theorem iterateStep_free (hinv : hashmap.Inv) {slot : KeyValuePair}
    (hslot : hashmap.map[hashmap.walkIndex key]? = some slot) (hv : slot.valid = false)
    (entries : List (FiveTuple × Ref)) :
    iterateStep hashmap (key, entries) = .ok none := by
  simp only [iterateStep, hashmapGetNext_slot hinv, hslot, hv, Bool.false_eq_true, if_false, bind,
    Except.bind, pure, Except.pure]

theorem iterateStep_end (hinv : hashmap.Inv)
    (hslot : hashmap.map[hashmap.walkIndex key]? = none) (entries : List (FiveTuple × Ref)) :
    iterateStep hashmap (key, entries) = .error .missingReturn := by
  simp only [iterateStep, hashmapGetNext_slot hinv, hslot, bind, Except.bind]

/-- The calls walk over the valid slots `todo` that follow the current key, and
the first slot of `rest` decides the last call. -/
theorem iterateLoop_eq (hinv : hashmap.Inv) {rest : List KeyValuePair}
    (hrest : ∀ slot ∈ rest.head?, slot.valid = false) (todo : List KeyValuePair) {n : ℕ}
    (htodo : ∀ slot ∈ todo, slot.valid = true) (hn : todo.length < n)
    (passed : List KeyValuePair) (hmap : hashmap.map = passed ++ (todo ++ rest))
    (hkey : hashmap.walkIndex key = passed.length) (entries : List (FiveTuple × Ref)) :
    (whileLoop .diverges (iterateStep hashmap) n (key, entries)).map Prod.snd =
      if rest = [] then .error .missingReturn else .ok (entries ++ entriesOf todo) := by
  induction todo generalizing n key passed entries with
  | nil =>
    obtain ⟨n, rfl⟩ : ∃ m, n = m + 1 := ⟨n - 1, by omega⟩
    cases rest with
    | nil =>
      have hslot : hashmap.map[hashmap.walkIndex key]? = none := by simp [hmap, hkey]
      simp [whileLoop, iterateStep_end hinv hslot, Except.map]
    | cons slot rest =>
      have hslot : hashmap.map[hashmap.walkIndex key]? = some slot := by simp [hmap, hkey]
      have hstep := iterateStep_free hinv hslot (hrest slot rfl) entries
      simp [whileLoop_stop hstep, Except.map]
  | cons slot todo ih =>
    obtain ⟨n, rfl⟩ : ∃ m, n = m + 1 := ⟨n - 1, by omega⟩
    have hslot : hashmap.map[passed.length]? = some slot := by simp [hmap]
    have hv := htodo slot (by simp)
    have hstep := iterateStep_valid hinv (hkey ▸ hslot) hv entries
    have hkey' : hashmap.walkIndex slot.key = (passed ++ [slot]).length := by
      rw [HashMap.walkIndex_slot hinv hslot hv, List.length_append, List.length_singleton]
    have hrun := ih (n := n) (fun s hs => htodo s (by simp [hs])) (by simpa using hn)
      (passed ++ [slot]) (by simp [hmap]) hkey' (entries ++ [(slot.key, slot.value)])
    rw [whileLoop_step hstep, hrun, entriesOf_cons_valid hv, List.append_assoc,
      List.singleton_append]

theorem hashmapIterate_eq (hinv : hashmap.Inv) (hkey : key ∉ hashmap.keys)
    {front rest : List KeyValuePair} (hmap : hashmap.map = front ++ rest)
    (hfront : ∀ slot ∈ front, slot.valid = true)
    (hrest : ∀ slot ∈ rest.head?, slot.valid = false) :
    hashmapIterate hashmap key =
      if rest = [] then .error .missingReturn else .ok (entriesOf front) := by
  have hlen : front.length < HASHMAP_SIZE + 1 := by
    have := congrArg List.length hmap
    rw [hashmap.allocated, List.length_append] at this
    omega
  have hrun := iterateLoop_eq hinv hrest front hfront hlen [] hmap
    (HashMap.walkIndex_absent hkey) []
  rw [List.nil_append] at hrun
  rw [← hrun, hashmapIterate]
  cases whileLoop .diverges (iterateStep hashmap) (HASHMAP_SIZE + 1) (key, []) <;> rfl

namespace HashMap

theorem exists_front (hashmap : HashMap) :
    ∃ front rest, hashmap.map = front ++ rest ∧ (∀ slot ∈ front, slot.valid = true) ∧
      ∀ slot ∈ rest.head?, slot.valid = false := by
  cases hi : hashmap.map.findIdx? (fun slot => !slot.valid) with
  | none =>
    rw [List.findIdx?_eq_none_iff] at hi
    exact ⟨hashmap.map, [], by simp, fun slot hs => by simpa using hi slot hs, by simp⟩
  | some i =>
    obtain ⟨front, slot, back, hmap, -, hslot, hfront⟩ := split_of_findIdx? hi
    exact ⟨front, slot :: back, hmap, fun s hs => by simpa using hfront s hs,
      by simpa using hslot⟩

end HashMap

theorem hashmapIterate_perm_iff (hinv : hashmap.Inv) (hkey : key ∉ hashmap.keys) :
    (∃ yielded, hashmapIterate hashmap key = .ok yielded ∧ yielded.Perm hashmap.entries) ↔
      hashmap.IsPrefix ∧ hashmap.entries.length < HASHMAP_SIZE := by
  obtain ⟨front, rest, hmap, hfront, hrest⟩ := hashmap.exists_front
  have hlen := congrArg List.length hmap
  rw [hashmap.allocated, List.length_append] at hlen
  rw [hashmapIterate_eq hinv hkey hmap hfront hrest]
  constructor
  · intro h
    obtain ⟨yielded, hok, hperm⟩ := h
    split_ifs at hok with hnil
    have hall : (entriesOf rest).length = 0 := by
      have := hperm.length_eq
      rw [← Except.ok.inj hok, HashMap.entries, hmap, entriesOf_append, List.length_append] at this
      omega
    have hback : ∀ slot ∈ rest, slot.valid = false := by
      rw [entriesOf_length, List.countP_eq_zero] at hall
      simpa using hall
    obtain ⟨hp, he⟩ := HashMap.isPrefix_of_back hmap hfront hback
    have := List.length_pos_iff.mpr hnil
    exact ⟨hp, by omega⟩
  · intro h
    obtain ⟨hp, hroom⟩ := h
    have hback := hp.back_invalid hmap hrest
    obtain ⟨-, he⟩ := HashMap.isPrefix_of_back hmap hfront hback
    have hnil : rest ≠ [] := by
      intro hnil
      rw [hnil, List.length_nil] at hlen
      omega
    refine ⟨entriesOf front, if_neg hnil, ?_⟩
    rw [HashMap.entries, hmap, entriesOf_append, entriesOf_eq_nil_of_invalid hback,
      List.append_nil]

/-- On a table that any operations have built, the iteration from an unbound
key is complete exactly when the valid slots come first and one slot is free. -/
theorem hashmapIterate_complete_iff (ops : List MapOp) (s : MapState) (key : FiveTuple)
    (hrun : run MapState.exec ops MapState.init = .ok s) (hkey : key ∉ s.hashmap.keys) :
    (∃ yielded, hashmapIterate s.hashmap key = .ok yielded ∧ yielded.Perm s.hashmap.entries) ↔
      s.hashmap.IsPrefix ∧ s.hashmap.entries.length < HASHMAP_SIZE :=
  hashmapIterate_perm_iff (MapState.init_refines.run_ok hrun).inv hkey

/-- The hole that a removal leaves in the first slot ends the iteration. -/
theorem hashmapIterate_stops_at_hole :
    ∃ s, run MapState.exec [.new ⟨1, 2, 3, 4, 6⟩, .new ⟨5, 6, 7, 8, 17⟩,
        .remove ⟨1, 2, 3, 4, 6⟩] MapState.init = .ok s ∧
      (⟨1, 2, 3, 4, 6⟩ : FiveTuple) ∉ s.hashmap.keys ∧
      hashmapIterate s.hashmap ⟨1, 2, 3, 4, 6⟩ = .ok [] ∧
      s.hashmap.entries = [(⟨5, 6, 7, 8, 17⟩, 1)] := by
  refine ⟨_, rfl, ?_, ?_, ?_⟩
  · decide +kernel
  · rfl
  · decide +kernel

/-- A third flow fills the hole. -/
theorem hashmapIterate_complete_refilled :
    ∃ s, run MapState.exec [.new ⟨1, 2, 3, 4, 6⟩, .new ⟨5, 6, 7, 8, 17⟩,
        .remove ⟨1, 2, 3, 4, 6⟩, .new ⟨9, 10, 11, 12, 6⟩] MapState.init = .ok s ∧
      s.hashmap.keys = [⟨9, 10, 11, 12, 6⟩, ⟨5, 6, 7, 8, 17⟩] ∧
      ((∃ yielded, hashmapIterate s.hashmap ⟨1, 2, 3, 4, 6⟩ = .ok yielded ∧
        yielded.Perm s.hashmap.entries) ↔
        s.hashmap.IsPrefix ∧ s.hashmap.entries.length < HASHMAP_SIZE) := by
  refine ⟨_, rfl, ?_, ?_⟩
  · decide +kernel
  · exact hashmapIterate_complete_iff [.new ⟨1, 2, 3, 4, 6⟩, .new ⟨5, 6, 7, 8, 17⟩,
      .remove ⟨1, 2, 3, 4, 6⟩, .new ⟨9, 10, 11, 12, 6⟩] _ _ rfl (by decide +kernel)

end OrssNic
