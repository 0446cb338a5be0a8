import Mathlib

/-!
# Finite partial maps

The meaning of a lookup table: a partial function, with the operations that
bind a key, unbind it, and keep the bindings whose value passes a test.
-/

universe u v

abbrev FiniteMap (K : Type u) (V : Type v) := K → Option V

namespace FiniteMap
variable {K : Type u} {V : Type v} [DecidableEq K]

def empty : FiniteMap K V := fun _ => none

def insert (m : FiniteMap K V) (k : K) (v : V) : FiniteMap K V :=
  fun k' => if k' = k then some v else m k'

def erase (m : FiniteMap K V) (k : K) : FiniteMap K V :=
  fun k' => if k' = k then none else m k'

def keep (m : FiniteMap K V) (p : V → Bool) : FiniteMap K V :=
  fun k => (m k).filter p

def dom (m : FiniteMap K V) : Set K := { k | m k ≠ none }

@[simp] theorem insert_self (m : FiniteMap K V) (k : K) (v : V) : m.insert k v k = some v := by
  simp [insert]

theorem insert_of_ne (m : FiniteMap K V) {k k' : K} (v : V) (h : k' ≠ k) :
    m.insert k v k' = m k' := by
  simp [insert, h]

theorem dom_insert {m : FiniteMap K V} {k : K} {v : V} :
    (m.insert k v).dom = Insert.insert k m.dom := by
  ext k'
  by_cases h : k' = k <;> simp [dom, insert, h]

theorem dom_insert_of_mem {m : FiniteMap K V} {k : K} {v : V} (h : k ∈ m.dom) :
    (m.insert k v).dom = m.dom := by
  rw [dom_insert, Set.insert_eq_of_mem h]

omit [DecidableEq K] in
theorem ncard_dom_of_nodup {m : FiniteMap K V} {keys : List K} (hn : keys.Nodup)
    (h : ∀ k, m k = none ↔ k ∉ keys) : m.dom.ncard = keys.length := by
  classical
  have hdom : m.dom = (keys.toFinset : Set K) := by
    ext k
    simp [dom, h]
  rw [hdom, Set.ncard_coe_finset, List.toFinset_card_of_nodup hn]

end FiniteMap
