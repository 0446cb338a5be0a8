import Mathlib

/-!
# Arrays as lists: splitting at a cell, and removal by the last cell

An array that is used up to a count is `take n`. Removing cell `b` by moving
the last used cell into it keeps the other used cells, in another order.
-/

namespace CLists

universe u
variable {α β : Type u}

theorem split_of_findIdx? {p : α → Bool} {l : List α} {i : ℕ} (h : l.findIdx? p = some i) :
    ∃ front a back, l = front ++ a :: back ∧ front.length = i ∧ p a = true ∧
      ∀ b ∈ front, p b = false := by
  induction l generalizing i with
  | nil => simp at h
  | cons a l ih =>
    rw [List.findIdx?_cons] at h
    cases hp : p a with
    | true =>
      simp only [hp, ↓reduceIte, Option.some.injEq] at h
      exact ⟨[], a, l, rfl, h, hp, by simp⟩
    | false =>
      simp only [hp, Bool.false_eq_true, ↓reduceIte, Option.map_eq_some_iff] at h
      obtain ⟨j, hj, rfl⟩ := h
      obtain ⟨front, c, back, rfl, rfl, hc, hfront⟩ := ih hj
      refine ⟨a :: front, c, back, rfl, rfl, hc, ?_⟩
      simpa [hp] using hfront

/-- The places of an element in a list that is one longer. -/
theorem forall_split_concat {P : List α → Prop} {l : List α} {a b : α} :
    (∀ before after, l ++ [b] = before ++ a :: after → P before) ↔
      (∀ before after, l = before ++ a :: after → P before) ∧ (b = a → P l) := by
  constructor
  · intro h
    refine ⟨fun before after hl => h before (after ++ [b]) (by rw [hl]; simp), ?_⟩
    rintro rfl
    exact h l [] rfl
  · rintro ⟨hlater, hlast⟩ before after heq
    rcases List.eq_nil_or_concat after with rfl | ⟨after, c, rfl⟩
    · obtain ⟨rfl, hb⟩ := List.append_inj' heq rfl
      exact hlast (List.singleton_inj.mp hb)
    · rw [List.concat_eq_append, ← List.cons_append, ← List.append_assoc] at heq
      exact hlater before after (List.append_inj' heq rfl).1

theorem set_split (front back : List α) (a b : α) :
    (front ++ a :: back).set front.length b = front ++ b :: back := by
  simp

theorem forall_set {P : ℕ → α → Prop} {l : List α} {i : ℕ} {a : α} (ha : P i a)
    (hl : ∀ j b, j ≠ i → l[j]? = some b → P j b) :
    ∀ j b, (l.set i a)[j]? = some b → P j b := by
  intro j b hb
  rw [List.getElem?_set] at hb
  split_ifs at hb with hij hlt
  · rw [← hij, ← Option.some.inj hb]
    exact ha
  · exact hl j b (Ne.symm hij) hb

theorem getElem?_set_congr {l l' : List α} {i : ℕ} (hlen : l.length = l'.length)
    (h : l[i]? = l'[i]?) (j : ℕ) (a : α) : (l.set j a)[i]? = (l'.set j a)[i]? := by
  rw [List.getElem?_set, List.getElem?_set, hlen, h]

/-! The first `n` cells set to one value. -/

theorem getElem?_replicate_append_of_lt {l : List α} {n i : ℕ} {a : α} (hi : i < n) :
    (List.replicate n a ++ l.drop n)[i]? = some a := by
  rw [List.getElem?_append_left (by rwa [List.length_replicate]),
    List.getElem?_replicate_of_lt hi]

theorem getElem?_replicate_append_of_ge {l : List α} {n i : ℕ} {a : α} (hi : n ≤ i) :
    (List.replicate n a ++ l.drop n)[i]? = l[i]? := by
  rw [List.getElem?_append_right (by rwa [List.length_replicate]), List.length_replicate,
    List.getElem?_drop, Nat.add_sub_cancel' hi]

theorem set_replicate_append {l : List α} {n : ℕ} {a : α} (hn : n < l.length) :
    (List.replicate n a ++ l.drop n).set n a = List.replicate (n + 1) a ++ l.drop (n + 1) := by
  rw [List.set_append_right _ _ (by rw [List.length_replicate]), List.length_replicate,
    Nat.sub_self, List.drop_eq_getElem_cons hn, List.set_cons_zero, List.replicate_succ',
    List.append_assoc]
  rfl

theorem getElem?_split (front back : List α) (a : α) :
    (front ++ a :: back)[front.length]? = some a := by
  simp

/-- The first `n` cells after cell `b` of them received cell `n - 1`, without
that last cell. -/
def swapRemove (l : List α) (b : ℕ) : List α :=
  match l.getLast? with
  | some a => (l.set b a).dropLast
  | none => []

theorem swapRemove_append_singleton (l : List α) (a : α) (b : ℕ) :
    swapRemove (l ++ [a]) b = if b < l.length then l.set b a else l := by
  simp only [swapRemove, List.getLast?_append, List.getLast?_singleton, Option.some_or]
  split_ifs with hb
  · rw [List.set_append_left _ _ hb, List.dropLast_concat]
  · rw [List.set_append_right _ _ (by omega)]
    cases h : b - l.length with
    | zero => simp
    | succ n => simp

theorem swapRemove_perm {l : List α} {b : ℕ} {a : α} (h : l[b]? = some a) :
    List.Perm (a :: swapRemove l b) l := by
  induction l using List.reverseRecOn with
  | nil => simp at h
  | append_singleton l c _ =>
    rw [swapRemove_append_singleton]
    split_ifs with hb
    · rw [List.getElem?_append_left hb] at h
      obtain ⟨front, back, rfl, rfl⟩ : ∃ front back, l = front ++ a :: back ∧ front.length = b := by
        have hab : l[b] = a := by simpa [List.getElem?_eq_getElem hb] using h
        refine ⟨l.take b, l.drop (b + 1), ?_, by simp; omega⟩
        rw [← hab, List.getElem_cons_drop, List.take_append_drop]
      rw [set_split]
      refine (List.Perm.cons a (List.perm_middle)).trans ?_
      refine (List.Perm.swap c a _).trans ?_
      refine (List.Perm.cons c List.perm_middle.symm).trans ?_
      exact (List.perm_append_singleton c _).symm
    · have hbl : b = l.length := by
        have := (List.getElem?_eq_some_iff.mp h).1
        simp at this
        omega
      subst hbl
      simp only [getElem?_split, Option.some.injEq] at h
      subst h
      exact (List.perm_append_singleton c l).symm

theorem set_take_pred {l : List α} {n b : ℕ} {a : α} (hn : 0 < n) (hl : n ≤ l.length)
    (ha : l[n - 1]? = some a) : (l.set b a).take (n - 1) = swapRemove (l.take n) b := by
  have hlen : (l.take n).length = n := by simp; omega
  have hlast : (l.take n).getLast? = some a := by
    rw [List.getLast?_eq_getElem?, hlen, List.getElem?_take, if_pos (by omega), ha]
  simp only [swapRemove, hlast]
  rw [List.dropLast_eq_take, List.length_set, hlen, List.take_set, List.take_set, List.take_take,
    Nat.min_eq_left (by omega)]

theorem take_succ_set {l : List α} {n : ℕ} {a : α} (hl : n < l.length) :
    (l.set n a).take (n + 1) = l.take n ++ [a] := by
  rw [List.take_succ_eq_append_getElem (by simpa using hl), List.getElem_set_self,
    List.take_set_of_le (Nat.le_refl n)]

theorem zip_set (l : List α) (m : List β) (i : ℕ) (a : α) (b : β) :
    (l.set i a).zip (m.set i b) = (l.zip m).set i (a, b) := by
  induction l generalizing m i with
  | nil => simp
  | cons x l ih =>
    cases m with
    | nil => simp
    | cons y m =>
      cases i with
      | zero => simp
      | succ i => simp [ih]

theorem exists_of_forall₂ {R : α → β → Prop} {l : List α} {m : List β} (h : List.Forall₂ R l m)
    {j : ℕ} {b : β} (hb : m[j]? = some b) : ∃ a, l[j]? = some a ∧ R a b := by
  induction h generalizing j with
  | nil => simp at hb
  | cons hab _ ih =>
    cases j with
    | zero =>
      rw [List.getElem?_cons_zero, Option.some.injEq] at hb
      exact ⟨_, List.getElem?_cons_zero, hb ▸ hab⟩
    | succ j => exact ih hb

theorem forall₂_set {R : α → β → Prop} {l : List α} {m : List β} (h : List.Forall₂ R l m)
    {a : α} {b : β} (hab : R a b) (i : ℕ) : List.Forall₂ R (l.set i a) (m.set i b) := by
  induction h generalizing i with
  | nil => exact .nil
  | cons hxy hrest ih =>
    cases i with
    | zero => exact .cons hab hrest
    | succ i => exact .cons hxy (ih i)

theorem forall₂_and {R S : α → β → Prop} {l : List α} {m : List β} (h : List.Forall₂ R l m)
    (h' : List.Forall₂ S l m) : List.Forall₂ (fun a b => R a b ∧ S a b) l m := by
  induction h with
  | nil => exact .nil
  | cons hab _ ih =>
    cases h' with
    | cons hab' hrest' => exact .cons ⟨hab, hab'⟩ (ih hrest')

end CLists
