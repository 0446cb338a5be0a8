import OrssNic.Library.Runs

/-!
# Computations that agree

Two computations agree when they stop with the same error, or both return and
the results are related. The rules go through two programs of the same shape
side by side: one of them may keep more in its state than the other.
-/

namespace CLoops
open CRuns

universe u v
variable {ε : Type*} {α β σ : Type u} {α' β' σ' : Type v}

inductive Agree (R : α → α' → Prop) : Except ε α → Except ε α' → Prop
  | ok {a : α} {a' : α'} (h : R a a') : Agree R (.ok a) (.ok a')
  | error (e : ε) : Agree R (.error e) (.error e)

namespace Agree
variable {R : α → α' → Prop} {S : β → β' → Prop}

theorem bind {x : Except ε α} {x' : Except ε α'} {f : α → Except ε β} {f' : α' → Except ε β'}
    (hx : Agree R x x') (hf : ∀ a a', R a a' → Agree S (f a) (f' a')) :
    Agree S (x >>= f) (x' >>= f') := by
  cases hx with
  | ok h => exact hf _ _ h
  | error e => exact .error e

theorem mono {R' : α → α' → Prop} {x : Except ε α} {x' : Except ε α'} (hx : Agree R x x')
    (h : ∀ a a', R a a' → R' a a') : Agree R' x x' := by
  cases hx with
  | ok hr => exact .ok (h _ _ hr)
  | error e => exact .error e

theorem ok_left {x : Except ε α} {x' : Except ε α'} (hx : Agree R x x') {a : α}
    (h : x = .ok a) : ∃ a', x' = .ok a' ∧ R a a' := by
  cases hx with
  | ok hr =>
    cases h
    exact ⟨_, rfl, hr⟩
  | error e => cases h

theorem eq {x x' : Except ε α} (hx : Agree Eq x x') : x = x' := by
  cases hx with
  | ok hr => rw [hr]
  | error e => rfl

theorem with_left {x : Except ε α} {x' : Except ε α'} (hx : Agree R x x') :
    Agree (fun a a' => x = .ok a ∧ R a a') x x' := by
  cases hx with
  | ok hr => exact .ok ⟨rfl, hr⟩
  | error e => exact .error e

end Agree

theorem agree_self {x : Except ε α} {R : α → α → Prop} (h : ∀ a, x = .ok a → R a a) :
    Agree R x x := by
  cases x with
  | ok a => exact .ok (h a rfl)
  | error e => exact .error e

theorem forLoop_agree {body : ℕ → σ → Except ε σ} {body' : ℕ → σ' → Except ε σ'}
    {R : ℕ → σ → σ' → Prop} {n : ℕ} {s : σ} {s' : σ'} (h0 : R 0 s s')
    (step : ∀ i t t', i < n → R i t t' → Agree (R (i + 1)) (body i t) (body' i t')) :
    Agree (R n) (forLoop body n s) (forLoop body' n s') := by
  induction n with
  | zero => exact .ok h0
  | succ n ih =>
    refine (ih fun i t t' hi => step i t t' (Nat.lt_succ_of_lt hi)).bind fun t t' ht => ?_
    exact step n t t' (Nat.lt_succ_self n) ht

theorem whileLoop_agree {stuck : ε} {body : σ → Except ε (Option σ)}
    {body' : σ' → Except ε (Option σ')} {R : σ → σ' → Prop}
    (step : ∀ t t', R t t' → Agree (Option.Rel R) (body t) (body' t')) (n : ℕ) {s : σ} {s' : σ'}
    (h : R s s') : Agree (fun t t' => R t t' ∧ body t = .ok none) (whileLoop stuck body n s)
      (whileLoop stuck body' n s') := by
  induction n generalizing s s' with
  | zero => exact .error stuck
  | succ n ih =>
    rw [whileLoop, whileLoop]
    generalize hb : body s = b, hb' : body' s' = b'
    have hstep := step s s' h
    rw [hb, hb'] at hstep
    cases hstep with
    | error e => exact .error e
    | ok hnext =>
      cases hnext with
      | none => exact .ok ⟨h, hb⟩
      | some hr => exact ih hr

theorem trace_agree {ι ι' : Type*} {ω : Type u} {ω' : Type v} {record : σ → ι → Except ε ω}
    {next : ω → σ} {record' : σ' → ι' → Except ε ω'} {next' : ω' → σ'} {f : ι → ι'}
    {R : σ → σ' → Prop} {Q : ω → ω' → Prop}
    (step : ∀ s s' i, R s s' → Agree (fun r r' => Q r r' ∧ R (next r) (next' r')) (record s i)
      (record' s' (f i))) (inputs : List ι) {s : σ} {s' : σ'} (h : R s s') :
    Agree (List.Forall₂ Q) (trace record next inputs s)
      (trace record' next' (inputs.map f) s') := by
  induction inputs generalizing s s' with
  | nil => exact .ok .nil
  | cons i inputs ih =>
    rw [List.map_cons, trace, trace]
    refine (step s s' i h).bind ?_
    rintro r r' ⟨hq, hr⟩
    refine (ih hr).bind ?_
    intro rs rs' hrs
    exact .ok (.cons hq hrs)

/-- Two traces that go along with each other, as long as what both meet at a
step is alike. -/
theorem trace_lockstep {ι ι' : Type*} {ω : Type u} {ω' : Type v} {record : σ → ι → Except ε ω}
    {next : ω → σ} {record' : σ' → ι' → Except ε ω'} {next' : ω' → σ'}
    {Met : ι × ω → ι' × ω' → Prop} {R : σ → σ' → Prop} {Q : ω → ω' → Prop}
    (step : ∀ s s' i i' r r', R s s' → record s i = .ok r → record' s' i' = .ok r' →
      Met (i, r) (i', r') → Q r r' ∧ R (next r) (next' r'))
    {inputs : List ι} {inputs' : List ι'} {s : σ} {s' : σ'} {rs : List ω} {rs' : List ω'}
    (h : R s s') (hrun : trace record next inputs s = .ok rs)
    (hrun' : trace record' next' inputs' s' = .ok rs')
    (hmet : List.Forall₂ Met (inputs.zip rs) (inputs'.zip rs')) : List.Forall₂ Q rs rs' := by
  induction inputs generalizing inputs' s s' rs rs' with
  | nil =>
    cases hrun
    cases inputs' with
    | nil =>
      cases hrun'
      exact .nil
    | cons i' inputs' =>
      obtain ⟨r', later', -, -, rfl⟩ := trace_cons_ok.mp hrun'
      cases hmet
  | cons i inputs ih =>
    obtain ⟨r, later, hr, hlater, rfl⟩ := trace_cons_ok.mp hrun
    cases inputs' with
    | nil =>
      cases hrun'
      cases hmet
    | cons i' inputs' =>
      obtain ⟨r', later', hr', hlater', rfl⟩ := trace_cons_ok.mp hrun'
      rw [List.zip_cons_cons, List.zip_cons_cons, List.forall₂_cons] at hmet
      obtain ⟨hq, hnext⟩ := step s s' i i' r r' h hr hr' hmet.1
      exact .cons hq (ih hnext hlater hlater' hmet.2)

end CLoops
