import OrssNic.Library.BoundedMap
import OrssNic.Library.JoinRecord

/-!
# Recording in a bounded map

A map that refuses new keys once it is full keeps the keys that come first, and
records everything that is contributed to these: nothing is lost but the keys
that found no room.
-/

universe u v w

namespace FiniteMap
variable {K : Type u} {V : Type v} [DecidableEq K] [SemilatticeSup V]

theorem recordAll_iff {P : V → Prop} (hsup : ∀ a b, P (a ⊔ b) ↔ P a ∨ P b)
    {events : List (K × V)} {k : K} {v : V} (h : recordAll events k = some v) :
    P v ↔ ∃ c, (k, c) ∈ events ∧ P c := by
  induction events using List.reverseRecOn generalizing v with
  | nil => cases h
  | append_singleton events e ih =>
    rw [recordAll_concat, record] at h
    simp only [List.mem_append, List.mem_singleton, or_and_right, exists_or]
    by_cases hk : k = e.1
    · subst hk
      have hlast : (∃ c, (e.1, c) = e ∧ P c) ↔ P e.2 := by
        constructor
        · rintro ⟨c, hc, hpc⟩
          rwa [← hc]
        · exact fun hp => ⟨e.2, rfl, hp⟩
      rw [insert_self, Option.some.injEq] at h
      rw [hlast, ← h]
      cases hbefore : recordAll events e.1 with
      | some w => rw [hsup, ih hbefore]
      | none =>
        refine (or_iff_right ?_).symm
        rintro ⟨c, hc, -⟩
        exact mem_dom_recordAll.mpr ⟨c, hc⟩ hbefore
    · rw [insert_of_ne _ _ hk] at h
      rw [ih h]
      refine (or_iff_left ?_).symm
      rintro ⟨c, hc, -⟩
      exact hk (congrArg Prod.fst hc)

end FiniteMap

namespace BoundedMap
variable {K : Type u} {V : Type v} [DecidableEq K]

/-- The values seen through a function. -/
def mapValues {W : Type w} (g : V → W) (m : BoundedMap K V) : BoundedMap K W :=
  ⟨fun k => (m.binding k).map g, m.count⟩

omit [DecidableEq K] in
theorem lookup_mapValues {W : Type w} (g : V → W) (m : BoundedMap K V) (k : K) :
    (m.mapValues g).lookup k = (m.lookup k).map g := rfl

theorem update_mapValues {W : Type w} (g : V → W) (limit : ℕ) (m : BoundedMap K V) (k : K)
    (v : V) : (m.mapValues g).update limit k (g v) = (m.update limit k v).mapValues g := by
  have hinsert : ((m.mapValues g).binding.insert k (g v)) =
      fun k' => (m.binding.insert k v k').map g := by
    funext k'
    by_cases hk : k' = k
    · rw [hk, FiniteMap.insert_self, FiniteMap.insert_self, Option.map_some]
    · rw [FiniteMap.insert_of_ne _ _ hk, FiniteMap.insert_of_ne _ _ hk]
      rfl
  have hbinding : (m.mapValues g).binding k = (m.binding k).map g := rfl
  rw [update, update, hbinding, hinsert]
  cases m.binding k with
  | some w => rfl
  | none =>
    change (if m.count < limit then _ else _) = _
    split_ifs <;> rfl

def keysOf (events : List (K × V)) : Finset K := (events.map Prod.fst).toFinset

def keysBefore (events : List (K × V)) (k : K) : Finset K :=
  keysOf (events.takeWhile fun e => e.1 ≠ k)

/-- The key finds room. -/
def Admitted (limit : ℕ) (events : List (K × V)) (k : K) : Prop :=
  k ∈ keysOf events ∧ (keysBefore events k).card < limit

instance (limit : ℕ) (events : List (K × V)) (k : K) : Decidable (Admitted limit events k) :=
  inferInstanceAs (Decidable (_ ∧ _))

section Keys
variable {events : List (K × V)} {e : K × V} {k : K} {limit : ℕ}

theorem mem_keysOf : k ∈ keysOf events ↔ ∃ c, (k, c) ∈ events := by
  rw [keysOf, List.mem_toFinset, List.mem_map]
  constructor
  · rintro ⟨⟨_, c⟩, hc, rfl⟩
    exact ⟨c, hc⟩
  · rintro ⟨c, hc⟩
    exact ⟨(k, c), hc, rfl⟩

theorem keysOf_concat (events : List (K × V)) (e : K × V) :
    keysOf (events ++ [e]) = insert e.1 (keysOf events) := by
  ext k
  simp only [keysOf, List.map_append, List.toFinset_append, List.map_singleton, Finset.mem_union,
    List.mem_toFinset, List.mem_singleton, Finset.mem_insert]
  exact or_comm

theorem keysBefore_subset (events : List (K × V)) (k : K) :
    keysBefore events k ⊆ keysOf events := by
  intro k' hk'
  obtain ⟨c, hc⟩ := mem_keysOf.mp hk'
  exact mem_keysOf.mpr ⟨c, (List.takeWhile_sublist _).subset hc⟩

theorem keysBefore_concat_of_mem (h : k ∈ keysOf events) :
    keysBefore (events ++ [e]) k = keysBefore events k := by
  have hshort : (events.takeWhile fun e => e.1 ≠ k).length ≠ events.length := by
    intro hlength
    have hwhole := (List.takeWhile_prefix fun e : K × V => decide (e.1 ≠ k)).eq_of_length hlength
    obtain ⟨c, hc⟩ := mem_keysOf.mp h
    have hne := List.mem_takeWhile_imp (hwhole ▸ hc)
    exact of_decide_eq_true hne rfl
  rw [keysBefore, List.takeWhile_append, if_neg hshort, keysBefore]

theorem keysBefore_concat_self (h : e.1 ∉ keysOf events) :
    keysBefore (events ++ [e]) e.1 = keysOf events := by
  have hall : ∀ e' ∈ events, decide (e'.1 ≠ e.1) = true := by
    intro e' he'
    rw [decide_eq_true_eq]
    intro heq
    exact h (mem_keysOf.mpr ⟨e'.2, heq ▸ he'⟩)
  rw [keysBefore, List.takeWhile_append_of_pos hall, List.takeWhile_cons_of_neg (by simp),
    List.append_nil]

theorem admitted_concat_of_ne (h : k ≠ e.1) :
    Admitted limit (events ++ [e]) k ↔ Admitted limit events k := by
  rw [Admitted, Admitted, keysOf_concat, Finset.mem_insert, or_iff_right h]
  refine and_congr_right fun hk => ?_
  rw [keysBefore_concat_of_mem hk]

theorem admitted_concat_self :
    Admitted limit (events ++ [e]) e.1 ↔
      Admitted limit events e.1 ∨ e.1 ∉ keysOf events ∧ (keysOf events).card < limit := by
  rw [Admitted, Admitted, keysOf_concat]
  by_cases hk : e.1 ∈ keysOf events
  · rw [keysBefore_concat_of_mem hk]
    simp only [Finset.mem_insert_self, hk, true_and, not_true, false_and, or_false]
  · rw [keysBefore_concat_self hk]
    simp only [Finset.mem_insert_self, hk, true_and, not_false_eq_true, false_and, false_or]

theorem keysBefore_eq (events : List (K × V)) (k : K) :
    keysBefore events k =
      ((events.map Prod.fst).takeWhile fun k' => k' ≠ k).toFinset := by
  rw [keysBefore, keysOf, List.takeWhile_map]
  rfl

/-- Which keys are admitted does not depend on what they contribute. -/
theorem admitted_congr {W : Type w} {events' : List (K × W)}
    (h : events.map Prod.fst = events'.map Prod.fst) :
    Admitted limit events k ↔ Admitted limit events' k := by
  rw [Admitted, Admitted, keysBefore_eq, keysBefore_eq, keysOf, keysOf, h]

end Keys

variable [SemilatticeSup V] {limit : ℕ} {m : BoundedMap K V} {events : List (K × V)} {e : K × V}

def record (limit : ℕ) (m : BoundedMap K V) (event : K × V) : BoundedMap K V :=
  match m.lookup event.1 with
  | some v => m.update limit event.1 (v ⊔ event.2)
  | none => m.update limit event.1 event.2

def recordAll (limit : ℕ) (events : List (K × V)) : BoundedMap K V :=
  events.foldl (record limit) empty

theorem recordAll_concat (limit : ℕ) (events : List (K × V)) (e : K × V) :
    recordAll limit (events ++ [e]) = record limit (recordAll limit events) e :=
  List.foldl_concat ..

structure Recorded (limit : ℕ) (m : BoundedMap K V) (events : List (K × V)) : Prop where
  count : m.count = min limit (keysOf events).card
  lookup : ∀ k, m.lookup k =
    if Admitted limit events k then FiniteMap.recordAll events k else none

theorem Recorded.lookup_concat_of_ne (h : Recorded limit m events) {k : K} (hk : k ≠ e.1) :
    m.lookup k = if Admitted limit (events ++ [e]) k
      then FiniteMap.recordAll (events ++ [e]) k else none := by
  rw [h.lookup k, FiniteMap.recordAll_concat, FiniteMap.record, FiniteMap.insert_of_ne _ _ hk]
  exact (if_congr (admitted_concat_of_ne hk) rfl rfl).symm

theorem Recorded.record_admitted (h : Recorded limit m events)
    (hadmitted : Admitted limit events e.1) :
    Recorded limit (m.record limit e) (events ++ [e]) := by
  obtain ⟨v, hv⟩ : ∃ v, FiniteMap.recordAll events e.1 = some v :=
    Option.ne_none_iff_exists'.mp (FiniteMap.mem_dom_recordAll.mpr (mem_keysOf.mp hadmitted.1))
  have hlookup : m.lookup e.1 = some v := by rw [h.lookup, if_pos hadmitted, hv]
  have hbinding : m.binding e.1 = some v := hlookup
  have hrecord : m.record limit e = { m with binding := m.binding.insert e.1 (v ⊔ e.2) } := by
    rw [record, hlookup]
    dsimp only
    rw [update, hbinding]
  rw [hrecord]
  constructor
  · rw [keysOf_concat, Finset.insert_eq_of_mem hadmitted.1]
    exact h.count
  · intro k
    by_cases hk : k = e.1
    · rw [hk, if_pos (admitted_concat_self.mpr (.inl hadmitted)), FiniteMap.recordAll_concat,
        FiniteMap.record, hv, FiniteMap.insert_self]
      exact FiniteMap.insert_self _ _ _
    · exact (FiniteMap.insert_of_ne _ _ hk).trans (h.lookup_concat_of_ne hk)

theorem Recorded.record_new (h : Recorded limit m events) (hnew : e.1 ∉ keysOf events)
    (hroom : (keysOf events).card < limit) :
    Recorded limit (m.record limit e) (events ++ [e]) := by
  have hnone : FiniteMap.recordAll events e.1 = none := by
    by_contra hsome
    exact hnew (mem_keysOf.mpr (FiniteMap.mem_dom_recordAll.mp hsome))
  have hlookup : m.lookup e.1 = none := by
    rw [h.lookup, if_neg fun hadmitted => hnew hadmitted.1]
  have hbinding : m.binding e.1 = none := hlookup
  have hcount : m.count = (keysOf events).card := h.count.trans (min_eq_right hroom.le)
  have hrecord : m.record limit e = ⟨m.binding.insert e.1 e.2, m.count + 1⟩ := by
    rw [record, hlookup]
    dsimp only
    rw [update, hbinding]
    dsimp only
    rw [if_pos (hcount ▸ hroom)]
  rw [hrecord]
  constructor
  · rw [keysOf_concat, Finset.card_insert_of_notMem hnew, min_eq_right hroom]
    exact congrArg (· + 1) hcount
  · intro k
    by_cases hk : k = e.1
    · rw [hk, if_pos (admitted_concat_self.mpr (.inr ⟨hnew, hroom⟩)),
        FiniteMap.recordAll_concat, FiniteMap.record, hnone, FiniteMap.insert_self]
      exact FiniteMap.insert_self _ _ _
    · exact (FiniteMap.insert_of_ne _ _ hk).trans (h.lookup_concat_of_ne hk)

theorem Recorded.record_refused (h : Recorded limit m events)
    (hnot : ¬Admitted limit events e.1) (hfull : limit ≤ (keysOf events).card) :
    Recorded limit (m.record limit e) (events ++ [e]) := by
  have hlookup : m.lookup e.1 = none := by rw [h.lookup, if_neg hnot]
  have hbinding : m.binding e.1 = none := hlookup
  have hcount : m.count = limit := h.count.trans (min_eq_left hfull)
  have hrecord : m.record limit e = m := by
    rw [record, hlookup]
    dsimp only
    rw [update, hbinding]
    dsimp only
    rw [if_neg hcount.not_lt]
  have hnot' : ¬Admitted limit (events ++ [e]) e.1 := by
    rw [admitted_concat_self]
    exact fun hor => hor.elim hnot fun hnew => (Nat.not_lt.mpr hfull) hnew.2
  rw [hrecord]
  constructor
  · have hsubset : (keysOf events).card ≤ (keysOf (events ++ [e])).card :=
      Finset.card_le_card (keysOf_concat events e ▸ Finset.subset_insert _ _)
    rw [hcount, min_eq_left (hfull.trans hsubset)]
  · intro k
    by_cases hk : k = e.1
    · rw [hk, if_neg hnot', hlookup]
    · exact h.lookup_concat_of_ne hk

theorem Recorded.record (h : Recorded limit m events) (e : K × V) :
    Recorded limit (m.record limit e) (events ++ [e]) := by
  by_cases hadmitted : Admitted limit events e.1
  · exact h.record_admitted hadmitted
  by_cases hroom : (keysOf events).card < limit
  · refine h.record_new (fun hk => hadmitted ⟨hk, ?_⟩) hroom
    exact (Finset.card_le_card (keysBefore_subset events e.1)).trans_lt hroom
  · exact h.record_refused hadmitted (Nat.not_lt.mp hroom)

theorem recordAll_recorded (limit : ℕ) (events : List (K × V)) :
    Recorded limit (recordAll limit events) events := by
  induction events using List.reverseRecOn with
  | nil =>
    refine ⟨(Nat.min_zero limit).symm, fun k => ?_⟩
    rw [if_neg fun h => List.not_mem_nil (List.mem_toFinset.mp h.1)]
    rfl
  | append_singleton events e ih =>
    rw [recordAll_concat]
    exact ih.record e

end BoundedMap
