import OrssNic.Library.Heap

/-!
# Pointers kept in slots

A table keeps the blocks of a heap in slots. A slot in use owns the block that
it points to; the pointer of any other slot, if there is one, is stale, and its
block has been freed. Releasing some slots frees what they point to, whether it
is stale or not.
-/

universe u

namespace Heap
variable {α : Type u}

def freeAll (h : Heap α) (refs : List Ref) : Heap α := { h with freed := h.freed ++ refs }

theorem freeAll_nil (h : Heap α) : h.freeAll [] = h := by
  rw [freeAll, List.append_nil]

theorem freeAll_append (h : Heap α) (refs refs' : List Ref) :
    h.freeAll (refs ++ refs') = (h.freeAll refs).freeAll refs' := by
  simp only [freeAll, List.append_assoc]

/-- Every block has been freed, and none of them twice. -/
structure ReleasedOnce (h : Heap α) : Prop where
  once : ∀ r < h.next, h.freed.count r = 1
  nodup : h.freed.Nodup

end Heap

namespace CSlots

variable {κ : Type*} {α : Type u} {slot : κ → Option Ref} {used : Set κ} {heap : Heap α}

structure Owns (slot : κ → Option Ref) (used : Set κ) (heap : Heap α) : Prop where
  distinct : ∀ k k' r, slot k = some r → slot k' = some r → k = k'
  allocated : ∀ k r, slot k = some r → r < heap.next
  kept : ∀ r < heap.next, r ∈ heap.freed ∨ ∃ k, slot k = some r
  freed : ∀ r ∈ heap.freed, r < heap.next
  live : ∀ k ∈ used, ∃ r, slot k = some r ∧ r ∉ heap.freed
  stale : ∀ k ∉ used, ∀ r, slot k = some r → r ∈ heap.freed

namespace Owns

theorem empty [Inhabited α] : Owns (fun _ : κ => none) ∅ (Heap.empty : Heap α) where
  distinct := by
    intro k k' r h
    cases h
  allocated := by
    intro k r h
    cases h
  kept := fun r hr => absurd hr (Nat.not_lt_zero r)
  freed := by
    intro r hr
    cases hr
  live := fun k hk => absurd hk (Set.notMem_empty k)
  stale := by
    intro k _ r h
    cases h

theorem put [DecidableEq κ] (h : Owns slot used heap) {k : κ} (hk : k ∉ used) (a : α) :
    Owns (Function.update slot k (some heap.next)) (insert k used) (heap.alloc a).2 := by
  have hother : ∀ k' r, k' ≠ k → Function.update slot k (some heap.next) k' = some r →
      slot k' = some r := fun k' r hne hr => by rwa [Function.update_of_ne hne] at hr
  have hself : ∀ r, Function.update slot k (some heap.next) k = some r → r = heap.next := by
    intro r hr
    rw [Function.update_self, Option.some.injEq] at hr
    exact hr.symm
  refine ⟨?_, ?_, ?_, ?_, ?_, ?_⟩
  · intro k₁ k₂ r h₁ h₂
    by_cases hk₁ : k₁ = k
    · by_cases hk₂ : k₂ = k
      · rw [hk₁, hk₂]
      · subst hk₁
        have hlt := h.allocated k₂ r (hother k₂ r hk₂ h₂)
        exact absurd (hself r h₁) hlt.ne
    · by_cases hk₂ : k₂ = k
      · subst hk₂
        have hlt := h.allocated k₁ r (hother k₁ r hk₁ h₁)
        exact absurd (hself r h₂) hlt.ne
      · exact h.distinct k₁ k₂ r (hother k₁ r hk₁ h₁) (hother k₂ r hk₂ h₂)
  · intro k' r hr
    rw [Heap.alloc_next]
    by_cases hk' : k' = k
    · subst hk'
      rw [hself r hr]
      exact Nat.lt_succ_self _
    · exact Nat.lt_succ_of_lt (h.allocated k' r (hother k' r hk' hr))
  · intro r hr
    rcases Nat.lt_succ_iff_lt_or_eq.mp hr with hlt | rfl
    · rcases h.kept r hlt with hfreed | ⟨k', hk'⟩
      · exact .inl hfreed
      · by_cases hkk : k' = k
        · exact .inl (h.stale k' (hkk ▸ hk) r hk')
        · exact .inr ⟨k', by rwa [Function.update_of_ne hkk]⟩
    · exact .inr ⟨k, Function.update_self ..⟩
  · exact fun r hr => Nat.lt_succ_of_lt (h.freed r hr)
  · intro k' hk'
    by_cases hkk : k' = k
    · subst hkk
      exact ⟨heap.next, Function.update_self .., fun hr => lt_irrefl _ (h.freed _ hr)⟩
    · rw [Function.update_of_ne hkk]
      exact h.live k' (Set.mem_of_mem_insert_of_ne hk' hkk)
  · intro k' hk' r hr
    rw [Set.mem_insert_iff, not_or] at hk'
    exact h.stale k' hk'.2 r (hother k' r hk'.1 hr)

theorem release (h : Owns slot used heap) (ks : List κ) :
    Owns slot {k | k ∈ used ∧ k ∉ ks} (heap.freeAll (ks.filterMap slot)) := by
  refine ⟨h.distinct, h.allocated, ?_, ?_, ?_, ?_⟩
  · intro r hr
    rcases h.kept r hr with hfreed | hslot
    · exact .inl (List.mem_append_left _ hfreed)
    · exact .inr hslot
  · intro r hr
    rcases List.mem_append.mp hr with hr | hr
    · exact h.freed r hr
    · obtain ⟨k, -, hk⟩ := List.mem_filterMap.mp hr
      exact h.allocated k r hk
  · rintro k ⟨hk, hks⟩
    obtain ⟨r, hr, hlive⟩ := h.live k hk
    refine ⟨r, hr, fun hmem => ?_⟩
    rcases List.mem_append.mp hmem with hmem | hmem
    · exact hlive hmem
    · obtain ⟨k', hk', hr'⟩ := List.mem_filterMap.mp hmem
      exact hks (h.distinct k k' r hr hr' ▸ hk')
  · intro k hk r hr
    by_cases hused : k ∈ used
    · have hks : k ∈ ks := by
        by_contra hks
        exact hk ⟨hused, hks⟩
      exact List.mem_append_right _ (List.mem_filterMap.mpr ⟨k, hks, hr⟩)
    · exact List.mem_append_left _ (h.stale k hused r hr)

/-- Only a stale pointer among those released frees a block again. -/
theorem release_nodup_iff (h : Owns slot used heap) {ks : List κ} (hks : ks.Nodup) :
    (heap.freeAll (ks.filterMap slot)).freed.Nodup ↔
      heap.freed.Nodup ∧ ∀ k ∈ ks, k ∉ used → slot k = none := by
  have hreleased : (ks.filterMap slot).Nodup :=
    hks.filterMap fun k k' r hr hr' => h.distinct k k' r hr hr'
  rw [Heap.freeAll, List.nodup_append]
  constructor
  · rintro ⟨hfreed, -, hdisjoint⟩
    refine ⟨hfreed, fun k hk hused => Option.eq_none_iff_forall_ne_some.mpr fun r hr => ?_⟩
    exact hdisjoint r (h.stale k hused r hr) r (List.mem_filterMap.mpr ⟨k, hk, hr⟩) rfl
  · rintro ⟨hfreed, hnull⟩
    refine ⟨hfreed, hreleased, ?_⟩
    rintro r hr r' hr' rfl
    obtain ⟨k, hk, hslot⟩ := List.mem_filterMap.mp hr'
    by_cases hused : k ∈ used
    · obtain ⟨r', hr', hlive⟩ := h.live k hused
      rw [hslot, Option.some.injEq] at hr'
      exact hlive (hr' ▸ hr)
    · rw [hnull k hk hused] at hslot
      cases hslot

theorem releasedOnce_iff (h : Owns slot used heap) :
    heap.ReleasedOnce ↔ heap.freed.Nodup ∧ ∀ k, k ∉ used := by
  constructor
  · intro hreleased
    refine ⟨hreleased.nodup, fun k hk => ?_⟩
    obtain ⟨r, hr, hlive⟩ := h.live k hk
    have hcount := hreleased.once r (h.allocated k r hr)
    rw [List.count_eq_zero_of_not_mem hlive] at hcount
    exact absurd hcount Nat.zero_ne_one
  · rintro ⟨hnodup, hunused⟩
    refine ⟨fun r hr => List.count_eq_one_of_mem hnodup ?_, hnodup⟩
    rcases h.kept r hr with hfreed | ⟨k, hk⟩
    · exact hfreed
    · exact h.stale k (hunused k) r hk

end Owns

end CSlots
