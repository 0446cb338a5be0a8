import OrssNic.Library.Loops

/-!
# Runs of a partial step function

A run feeds a list of inputs to a step function that may stop. What one step
preserves, a run preserves; and a step-wise simulation by a total abstract
machine is a simulation of whole runs. A trace keeps the records of all the
steps, from each of which the next step goes on.
-/

namespace CRuns
open CLoops

universe u
variable {ε ι α : Type*} {σ ω : Type u} {step : σ → ι → Except ε σ}

def run (step : σ → ι → Except ε σ) (inputs : List ι) (s : σ) : Except ε σ :=
  inputs.foldlM step s

theorem run_cons (step : σ → ι → Except ε σ) (i : ι) (inputs : List ι) (s : σ) :
    run step (i :: inputs) s = (step s i >>= run step inputs) :=
  List.foldlM_cons

theorem run_cons_ok {inputs : List ι} {i : ι} {s t : σ} :
    run step (i :: inputs) s = .ok t ↔ ∃ r, step s i = .ok r ∧ run step inputs r = .ok t := by
  simp only [run, List.foldlM_cons, bind_eq_ok]

theorem run_append (step : σ → ι → Except ε σ) (inputs inputs' : List ι) (s : σ) :
    run step (inputs ++ inputs') s = (run step inputs s >>= run step inputs') :=
  List.foldlM_append

theorem run_append_ok {inputs inputs' : List ι} {s t : σ} :
    run step (inputs ++ inputs') s = .ok t ↔
      ∃ r, run step inputs s = .ok r ∧ run step inputs' r = .ok t := by
  simp only [run, List.foldlM_append, bind_eq_ok]

theorem run_concat_ok {inputs : List ι} {i : ι} {s t : σ} :
    run step (inputs ++ [i]) s = .ok t ↔ ∃ r, run step inputs s = .ok r ∧ step r i = .ok t := by
  simp only [run, List.foldlM_append, bind_eq_ok, List.foldlM_cons, List.foldlM_nil]
  simp [pure, Except.pure]

theorem run_error_iff {inputs : List ι} {s : σ} {e : ε} :
    run step inputs s = .error e ↔ ∃ before i after r, inputs = before ++ i :: after ∧
      run step before s = .ok r ∧ step r i = .error e := by
  induction inputs generalizing s with
  | nil =>
    constructor
    · intro h
      cases h
    · rintro ⟨before, i, after, r, hsplit, -⟩
      cases before <;> cases hsplit
  | cons i inputs ih =>
    rw [run_cons]
    constructor
    · intro h
      cases hstep : step s i with
      | error e' =>
        rw [hstep] at h
        cases h
        exact ⟨[], i, inputs, s, rfl, rfl, hstep⟩
      | ok r =>
        rw [hstep] at h
        obtain ⟨before, j, after, t, hsplit, hbefore, hfail⟩ := ih.mp h
        refine ⟨i :: before, j, after, t, by rw [hsplit, List.cons_append], ?_, hfail⟩
        exact run_cons_ok.mpr ⟨r, hstep, hbefore⟩
    · rintro ⟨before, j, after, t, hsplit, hbefore, hfail⟩
      cases before with
      | nil =>
        cases hsplit
        cases hbefore
        rw [hfail]
        rfl
      | cons k before =>
        rw [List.cons_append, List.cons.injEq] at hsplit
        obtain ⟨rfl, rfl⟩ := hsplit
        obtain ⟨r, hstep, hbefore⟩ := run_cons_ok.mp hbefore
        rw [hstep]
        exact ih.mpr ⟨before, j, after, t, rfl, hbefore, hfail⟩

theorem run_invariant {P : List ι → σ → Prop} {s : σ} (h0 : P [] s)
    (hstep : ∀ inputs i r t, P inputs r → step r i = .ok t → P (inputs ++ [i]) t)
    {inputs : List ι} {t : σ} (h : run step inputs s = .ok t) : P inputs t := by
  induction inputs using List.reverseRecOn generalizing t with
  | nil => cases h; exact h0
  | append_singleton inputs i ih =>
    obtain ⟨r, hr, hi⟩ := run_concat_ok.mp h
    exact hstep inputs i r t (ih hr) hi

theorem run_simulates {R : σ → α → Prop} {astep : α → ι → α} {s : σ} {a : α} (h0 : R s a)
    (hstep : ∀ i r t b, R r b → step r i = .ok t → R t (astep b i))
    {inputs : List ι} {t : σ} (h : run step inputs s = .ok t) : R t (inputs.foldl astep a) := by
  refine run_invariant (P := fun inputs t => R t (inputs.foldl astep a)) h0 ?_ h
  intro inputs i r t hr hi
  rw [List.foldl_append]
  exact hstep i r t _ hr hi

/-- A run of one machine is matched by the other one, as long as the relation,
which knows the inputs to come, is kept by every step. -/
theorem run_matched {τ : Type u} {step' : τ → ι → Except ε τ} {R : List ι → σ → τ → Prop}
    (hstep : ∀ i inputs s t t', R (i :: inputs) s t → step' t i = .ok t' →
      ∃ s', step s i = .ok s' ∧ R inputs s' t')
    {inputs : List ι} {s : σ} {t t' : τ} (h : R inputs s t) (hrun : run step' inputs t = .ok t') :
    ∃ s', run step inputs s = .ok s' ∧ R [] s' t' := by
  induction inputs generalizing s t with
  | nil =>
    cases hrun
    exact ⟨s, rfl, h⟩
  | cons i inputs ih =>
    obtain ⟨t₁, hstep', hrun'⟩ := run_cons_ok.mp hrun
    obtain ⟨s₁, hs₁, h₁⟩ := hstep i inputs s t t₁ h hstep'
    obtain ⟨s', hrun₁, h'⟩ := ih h₁ hrun'
    exact ⟨s', run_cons_ok.mpr ⟨s₁, hs₁, hrun₁⟩, h'⟩

section Trace
variable {record : σ → ι → Except ε ω} {next : ω → σ}

def trace (record : σ → ι → Except ε ω) (next : ω → σ) : List ι → σ → Except ε (List ω)
  | [], _ => .ok []
  | i :: inputs, s => do
    let r ← record s i
    let rs ← trace record next inputs (next r)
    return r :: rs

theorem trace_cons_ok {i : ι} {inputs : List ι} {s : σ} {rs : List ω} :
    trace record next (i :: inputs) s = .ok rs ↔
      ∃ r rs', record s i = .ok r ∧ trace record next inputs (next r) = .ok rs' ∧
        rs = r :: rs' := by
  simp only [trace, bind_eq_ok, pure, Except.pure, Except.ok.injEq]
  constructor
  · rintro ⟨r, hr, rs', hrs', rfl⟩
    exact ⟨r, rs', hr, hrs', rfl⟩
  · rintro ⟨r, rs', hr, hrs', rfl⟩
    exact ⟨r, hr, rs', hrs', rfl⟩

theorem trace_length {inputs : List ι} {s : σ} {rs : List ω}
    (h : trace record next inputs s = .ok rs) : rs.length = inputs.length := by
  induction inputs generalizing s rs with
  | nil =>
    cases h
    rfl
  | cons i inputs ih =>
    obtain ⟨r, rs', -, hrs', rfl⟩ := trace_cons_ok.mp h
    rw [List.length_cons, List.length_cons, ih hrs']

theorem trace_forall {P : σ → Prop} {Q : ω → Prop}
    (hstep : ∀ s i r, P s → record s i = .ok r → Q r ∧ P (next r))
    {inputs : List ι} {s : σ} {rs : List ω} (hs : P s)
    (h : trace record next inputs s = .ok rs) : ∀ r ∈ rs, Q r := by
  induction inputs generalizing s rs with
  | nil =>
    cases h
    simp
  | cons i inputs ih =>
    obtain ⟨r, rs', hr, hrs', rfl⟩ := trace_cons_ok.mp h
    obtain ⟨hq, hp⟩ := hstep s i r hs hr
    rw [List.forall_mem_cons]
    exact ⟨hq, ih hp hrs'⟩

theorem trace_history {P : List ω → σ → Prop} {Q : List ω → ι → ω → Prop}
    (hstep : ∀ history s i r, P history s → record s i = .ok r →
      Q history i r ∧ P (history ++ [r]) (next r))
    {inputs : List ι} {s : σ} {rs history : List ω} (hs : P history s)
    (h : trace record next inputs s = .ok rs) {n : ℕ} {i : ι} {r : ω}
    (hi : inputs[n]? = some i) (hr : rs[n]? = some r) : Q (history ++ rs.take n) i r := by
  induction inputs generalizing s rs history n with
  | nil => cases hi
  | cons i' inputs ih =>
    obtain ⟨r', rs', hrecord, hrs', rfl⟩ := trace_cons_ok.mp h
    obtain ⟨hq, hp⟩ := hstep history s i' r' hs hrecord
    cases n with
    | zero =>
      cases hi
      cases hr
      rw [List.take_zero, List.append_nil]
      exact hq
    | succ n =>
      have := ih hp hrs' hi hr
      rwa [List.append_assoc] at this

theorem trace_head {inputs : List ι} {s : σ} {rs : List ω} {r : ω}
    (h : trace record next inputs s = .ok rs) (hr : rs[0]? = some r) :
    ∃ i, inputs[0]? = some i ∧ record s i = .ok r := by
  cases inputs with
  | nil =>
    cases h
    cases hr
  | cons i inputs =>
    obtain ⟨r₀, rs', hrecord, -, rfl⟩ := trace_cons_ok.mp h
    cases hr
    exact ⟨i, rfl, hrecord⟩

theorem trace_input {inputs : List ι} {s : σ} {rs : List ω} {n : ℕ} {r : ω}
    (h : trace record next inputs s = .ok rs) (hr : rs[n]? = some r) :
    ∃ i, inputs[n]? = some i := by
  induction inputs generalizing s rs n with
  | nil =>
    cases h
    cases hr
  | cons i inputs ih =>
    obtain ⟨r₀, rs', -, hrest, rfl⟩ := trace_cons_ok.mp h
    cases n with
    | zero => exact ⟨i, rfl⟩
    | succ n => exact ih hrest hr

theorem trace_next {inputs : List ι} {s : σ} {rs : List ω} {n : ℕ} {r r' : ω}
    (h : trace record next inputs s = .ok rs) (hr : rs[n]? = some r)
    (hr' : rs[n + 1]? = some r') :
    ∃ i, inputs[n + 1]? = some i ∧ record (next r) i = .ok r' := by
  induction inputs generalizing s rs n with
  | nil =>
    cases h
    cases hr
  | cons i inputs ih =>
    obtain ⟨r₀, rs', -, hrest, rfl⟩ := trace_cons_ok.mp h
    rw [List.getElem?_cons_succ] at hr'
    rw [List.getElem?_cons_succ]
    cases n with
    | zero =>
      cases hr
      exact trace_head hrest hr'
    | succ n => exact ih hrest hr hr'

def final (next : ω → σ) (s : σ) (rs : List ω) : σ := rs.foldl (fun _ r => next r) s

theorem trace_final {P : List ω → σ → Prop}
    (hstep : ∀ history s i r, P history s → record s i = .ok r → P (history ++ [r]) (next r))
    {inputs : List ι} {s : σ} {rs history : List ω} (hs : P history s)
    (h : trace record next inputs s = .ok rs) : P (history ++ rs) (final next s rs) := by
  induction inputs generalizing s rs history with
  | nil =>
    cases h
    rwa [List.append_nil]
  | cons i inputs ih =>
    obtain ⟨r, rs', hrecord, hrs', rfl⟩ := trace_cons_ok.mp h
    have := ih (hstep history s i r hs hrecord) hrs'
    rwa [List.append_assoc] at this

theorem trace_error_iff {inputs : List ι} {s : σ} {e : ε} :
    trace record next inputs s = .error e ↔ ∃ before i after rs, inputs = before ++ i :: after ∧
      trace record next before s = .ok rs ∧ record (final next s rs) i = .error e := by
  induction inputs generalizing s with
  | nil =>
    constructor
    · intro h
      cases h
    · rintro ⟨before, i, after, rs, hsplit, -⟩
      cases before <;> cases hsplit
  | cons i inputs ih =>
    rw [trace]
    constructor
    · intro h
      cases hrecord : record s i with
      | error e' =>
        rw [hrecord] at h
        cases h
        exact ⟨[], i, inputs, [], rfl, rfl, hrecord⟩
      | ok r =>
        rw [hrecord] at h
        cases htrace : trace record next inputs (next r) with
        | ok rs =>
          simp only [htrace, bind, Except.bind] at h
          cases h
        | error e' =>
          simp only [htrace, bind, Except.bind] at h
          cases h
          obtain ⟨before, j, after, rs, hsplit, hbefore, hfail⟩ := ih.mp htrace
          refine ⟨i :: before, j, after, r :: rs, by rw [hsplit, List.cons_append], ?_, hfail⟩
          exact trace_cons_ok.mpr ⟨r, rs, hrecord, hbefore, rfl⟩
    · rintro ⟨before, j, after, rs, hsplit, hbefore, hfail⟩
      cases before with
      | nil =>
        cases hsplit
        cases hbefore
        have hfail' : record s i = .error e := hfail
        rw [hfail']
        rfl
      | cons k before =>
        rw [List.cons_append, List.cons.injEq] at hsplit
        obtain ⟨rfl, rfl⟩ := hsplit
        obtain ⟨r, rs', hrecord, hrest, rfl⟩ := trace_cons_ok.mp hbefore
        have hlater := ih.mpr ⟨before, j, after, rs', rfl, hrest, hfail⟩
        rw [hrecord]
        simp only [bind, Except.bind, hlater]

end Trace

end CRuns
