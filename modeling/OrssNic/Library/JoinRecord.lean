import OrssNic.Library.FiniteMap

/-!
# Recording contributions in a map of joins

An event contributes a value to a key; the map keeps for every key the join of
what the events contributed to it. The value under a key is the least upper
bound of the contributions, so that it does not depend on their order.
-/

universe u v

namespace FiniteMap
variable {K : Type u} {V : Type v} [DecidableEq K] [SemilatticeSup V]

def record (m : FiniteMap K V) (event : K × V) : FiniteMap K V :=
  m.insert event.1 (match m event.1 with
    | some v => v ⊔ event.2
    | none => event.2)

def recordAll (events : List (K × V)) : FiniteMap K V := events.foldl record empty

theorem recordAll_concat (events : List (K × V)) (event : K × V) :
    recordAll (events ++ [event]) = (recordAll events).record event := by
  simp [recordAll]

/-- A key is bound to the least upper bound of its contributions, and to
nothing when there are none. -/
def Joins (m : FiniteMap K V) (events : List (K × V)) : Prop :=
  ∀ k, match m k with
    | some v => (∃ c, (k, c) ∈ events) ∧ IsLUB { c | (k, c) ∈ events } v
    | none => ∀ c, (k, c) ∉ events

variable {m : FiniteMap K V} {events events' : List (K × V)} {k : K}

theorem Joins.record (h : m.Joins events) (event : K × V) :
    (m.record event).Joins (events ++ [event]) := by
  intro k
  have hk := h k
  by_cases he : k = event.1
  · subst he
    have hset : { c | (event.1, c) ∈ events ++ [event] } =
        Insert.insert event.2 { c | (event.1, c) ∈ events } := by
      ext c
      simp only [List.mem_append, List.mem_singleton, Set.mem_ofPred_eq, Set.mem_insert_iff]
      rw [or_comm, Prod.ext_iff]
      simp
    have hmem : ∃ c, (event.1, c) ∈ events ++ [event] := ⟨event.2, by simp⟩
    simp only [FiniteMap.record, insert_self]
    refine ⟨hmem, ?_⟩
    rw [hset]
    split at hk
    · next v hv =>
      rw [sup_comm]
      exact hk.2.insert event.2
    · next hn =>
      have hempty : { c | (event.1, c) ∈ events } = ∅ := by
        ext c
        simpa using hk c
      rw [hempty, insert_empty_eq]
      exact isLUB_singleton
  · have hother : ∀ c, (k, c) ∈ events ++ [event] ↔ (k, c) ∈ events := by
      intro c
      rw [List.mem_append, List.mem_singleton, or_iff_left]
      exact fun hc => he (congrArg Prod.fst hc)
    rw [FiniteMap.record, insert_of_ne _ _ he]
    simpa only [hother] using hk

theorem recordAll_joins (events : List (K × V)) : (recordAll events).Joins events := by
  induction events using List.reverseRecOn with
  | nil =>
    intro k
    simp [recordAll, empty]
  | append_singleton events event ih =>
    rw [recordAll_concat]
    exact ih.record event

theorem mem_dom_recordAll : k ∈ (recordAll events).dom ↔ ∃ c, (k, c) ∈ events := by
  have h := recordAll_joins events k
  rw [dom, Set.mem_ofPred_eq]
  cases hk : recordAll events k with
  | none =>
    rw [hk] at h
    simpa using h
  | some v =>
    rw [hk] at h
    simpa using h.1

theorem isLUB_of_recordAll {v : V} (h : recordAll events k = some v) :
    IsLUB { c | (k, c) ∈ events } v := by
  have hj := recordAll_joins events k
  rw [h] at hj
  exact hj.2

theorem recordAll_perm (h : events.Perm events') : recordAll events = recordAll events' := by
  funext k
  have hset : { c | (k, c) ∈ events } = { c | (k, c) ∈ events' } := by
    ext c
    exact h.mem_iff
  have hdom : k ∈ (recordAll events).dom ↔ k ∈ (recordAll events').dom := by
    simp only [mem_dom_recordAll, h.mem_iff]
  cases hv : recordAll events k with
  | none =>
    cases hv' : recordAll events' k with
    | none => rfl
    | some v' => simp [dom, hv, hv'] at hdom
  | some v =>
    cases hv' : recordAll events' k with
    | none => simp [dom, hv, hv'] at hdom
    | some v' =>
      rw [(isLUB_of_recordAll hv).unique (hset ▸ isLUB_of_recordAll hv')]

end FiniteMap
