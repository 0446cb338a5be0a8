import OrssNic.Library.Loops

/-!
# Errors that a computation cannot end in

`Avoids e x` says that `x` does not end in the error `e`. It holds of a
composition when it holds of the parts.
-/

namespace CLoops

universe u
variable {ε : Type*} {α β σ : Type u} {e fault : ε}

def Avoids (e : ε) (x : Except ε α) : Prop := x ≠ .error e

theorem avoids_ok (a : α) : Avoids e (.ok a : Except ε α) := by
  intro h
  cases h

theorem avoids_error (h : fault ≠ e) : Avoids e (.error fault : Except ε α) := by
  intro heq
  cases heq
  exact h rfl

theorem avoids_bind {x : Except ε α} {f : α → Except ε β} (hx : Avoids e x)
    (hf : ∀ a, x = .ok a → Avoids e (f a)) : Avoids e (x >>= f) := by
  cases x with
  | error e' =>
    intro h
    cases h
    exact hx rfl
  | ok a => exact hf a rfl

theorem Avoids.bind_error_iff {x : Except ε α} {f : α → Except ε β} (hx : Avoids e x) :
    (x >>= f) = .error e ↔ ∃ a, x = .ok a ∧ f a = .error e := by
  cases x with
  | error e' =>
    have hne : e' ≠ e := by
      intro heq
      exact hx (congrArg Except.error heq)
    simp [bind, Except.bind, hne]
  | ok a => simp [bind, Except.bind]

theorem bind_error_iff_of_avoids {x : Except ε α} {f : α → Except ε β}
    (hf : ∀ a, Avoids e (f a)) : (x >>= f) = .error e ↔ x = .error e := by
  cases x with
  | error e' => simp [bind, Except.bind]
  | ok a =>
    constructor
    · intro h
      exact absurd h (hf a)
    · intro h
      cases h

theorem readAt_avoids (h : fault ≠ e) (l : List α) (i : ℕ) : Avoids e (readAt fault l i) := by
  unfold readAt
  split
  · exact avoids_ok _
  · exact avoids_error h

theorem writeAt_avoids (h : fault ≠ e) (l : List α) (i : ℕ) (a : α) :
    Avoids e (writeAt fault l i a) := by
  unfold writeAt
  split_ifs
  · exact avoids_ok _
  · exact avoids_error h

theorem forLoop_avoids {body : ℕ → σ → Except ε σ} (h : ∀ i s, Avoids e (body i s)) (n : ℕ)
    (s : σ) : Avoids e (forLoop body n s) := by
  induction n with
  | zero => exact avoids_ok s
  | succ n ih => exact avoids_bind ih fun t _ => h n t

theorem whileLoop_avoids {body : σ → Except ε (Option σ)} (hstuck : fault ≠ e)
    (h : ∀ s, Avoids e (body s)) (n : ℕ) (s : σ) : Avoids e (whileLoop fault body n s) := by
  intro herror
  rcases whileLoop_error herror with heq | ⟨t, -, ht⟩
  · exact hstuck heq.symm
  · exact h t ht

end CLoops
