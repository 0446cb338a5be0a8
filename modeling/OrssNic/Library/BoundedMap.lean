import OrssNic.Library.FiniteMap

/-!
# Finite maps with a bounded number of entries

A map that refuses a new key once it has `limit` entries, and lets a bound key
be updated at any time. As long as the count is below the limit, an update is
that of the finite map.
-/

universe u v

structure BoundedMap (K : Type u) (V : Type v) where
  binding : FiniteMap K V
  count : ℕ

namespace BoundedMap
variable {K : Type u} {V : Type v} [DecidableEq K] {m : BoundedMap K V} {k : K} {limit : ℕ}

def empty : BoundedMap K V := ⟨FiniteMap.empty, 0⟩

def lookup (m : BoundedMap K V) (k : K) : Option V := m.binding k

def update (limit : ℕ) (m : BoundedMap K V) (k : K) (v : V) : BoundedMap K V :=
  match m.binding k with
  | some _ => { m with binding := m.binding.insert k v }
  | none => if m.count < limit then ⟨m.binding.insert k v, m.count + 1⟩ else m

structure Counted (m : BoundedMap K V) : Prop where
  finite : m.binding.dom.Finite
  count_eq : m.count = m.binding.dom.ncard

omit [DecidableEq K] in
theorem empty_counted : (empty : BoundedMap K V).Counted := by
  have hdom : (FiniteMap.empty : FiniteMap K V).dom = ∅ := by
    ext k
    simp [FiniteMap.dom, FiniteMap.empty]
  constructor
  · rw [empty, hdom]
    exact Set.finite_empty
  · rw [empty, hdom, Set.ncard_empty]

theorem count_le_update (v : V) : m.count ≤ (m.update limit k v).count := by
  rw [update]
  split
  · exact le_rfl
  · split_ifs
    · exact Nat.le_succ _
    · exact le_rfl

theorem update_binding (hroom : m.count < limit) (v : V) :
    (m.update limit k v).binding = m.binding.insert k v := by
  rw [update]
  split
  · rfl
  · rw [if_pos hroom]

theorem lookup_update_of_ne {k' : K} (v : V) (h : k' ≠ k) :
    (m.update limit k v).lookup k' = m.lookup k' := by
  rw [update]
  split
  · exact FiniteMap.insert_of_ne _ v h
  · split_ifs
    · exact FiniteMap.insert_of_ne _ v h
    · rfl

theorem lookup_update_of_lookup {w : V} (h : m.lookup k = some w) (v : V) :
    (m.update limit k v).lookup k = some v := by
  have hbinding : m.binding k = some w := h
  rw [update, hbinding]
  exact FiniteMap.insert_self _ _ _

theorem update_eq_self_iff {v : V} :
    m.update limit k v = m ↔ m.lookup k = some v ∨ m.lookup k = none ∧ limit ≤ m.count := by
  cases hk : m.lookup k with
  | some w =>
    constructor
    · intro h
      have hself : (m.update limit k v).lookup k = some v := lookup_update_of_lookup hk v
      rw [h, hk] at hself
      exact .inl hself
    · rintro (hw | ⟨hnone, -⟩)
      · have hbinding : m.binding k = some v := hk.trans hw
        have hinsert : m.binding.insert k v = m.binding := by
          funext k'
          by_cases hk' : k' = k
          · rw [hk', FiniteMap.insert_self, hbinding]
          · rw [FiniteMap.insert_of_ne _ _ hk']
        simp only [update, hbinding, hinsert]
      · cases hnone
  | none =>
    have hbinding : m.binding k = none := hk
    simp only [update, hbinding]
    constructor
    · intro h
      right
      refine ⟨trivial, ?_⟩
      by_contra hlt
      rw [if_pos (Nat.lt_of_not_le hlt)] at h
      exact absurd (congrArg BoundedMap.count h) (Nat.succ_ne_self _)
    · rintro (hsome | ⟨-, hfull⟩)
      · cases hsome
      · rw [if_neg (Nat.not_lt_of_le hfull)]

theorem update_eq_self_of_ne {k' : K} {v v' : V} (hne : k ≠ k')
    (h : m.update limit k v = m.update limit k' v') : m.update limit k v = m := by
  have hkeep : (m.update limit k v).lookup k = m.lookup k := by
    rw [h, lookup_update_of_ne v' hne]
  cases hk : m.lookup k with
  | some w =>
    rw [hk, lookup_update_of_lookup hk] at hkeep
    exact update_eq_self_iff.mpr (.inl (hk.trans hkeep.symm))
  | none =>
    have hbinding : m.binding k = none := hk
    by_cases hlt : m.count < limit
    · have hbound : (m.update limit k v).lookup k = some v := by
        simp only [update, hbinding, if_pos hlt]
        exact FiniteMap.insert_self _ _ _
      rw [hkeep, hk] at hbound
      cases hbound
    · exact update_eq_self_iff.mpr (.inr ⟨hk, Nat.le_of_not_lt hlt⟩)

theorem Counted.update (h : m.Counted) (limit : ℕ) (k : K) (v : V) :
    (m.update limit k v).Counted := by
  rw [BoundedMap.update]
  split
  · next w hw =>
    have hdom : (m.binding.insert k v).dom = m.binding.dom :=
      FiniteMap.dom_insert_of_mem (by simp [FiniteMap.dom, hw])
    exact ⟨hdom ▸ h.finite, hdom ▸ h.count_eq⟩
  · next hn =>
    have hdom : (m.binding.insert k v).dom = insert k m.binding.dom := FiniteMap.dom_insert
    split_ifs
    · refine ⟨hdom ▸ h.finite.insert k, ?_⟩
      rw [hdom, Set.ncard_insert_of_notMem (by simp [FiniteMap.dom, hn]) h.finite, h.count_eq]
    · exact h

end BoundedMap
