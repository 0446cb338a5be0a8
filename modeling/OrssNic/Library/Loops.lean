import Mathlib

/-!
# Bounded loops, checked array accesses and their rules

A piece of C code is a function into `Except ε`: the error says why the code
does not return normally. `forLoop` is `for (i = 0; i < n; i++)`, `whileLoop`
is a `while` with a budget of iterations, whose `none` is the failed guard or
the `break`. Every loop has a total rule, which also shows that the loop
returns, and a partial rule for loops that are known to have returned.
-/

namespace CLoops

universe u
variable {ε : Type*} {α β σ : Type u}

theorem bind_eq_ok {x : Except ε α} {f : α → Except ε β} {b : β} :
    (x >>= f) = .ok b ↔ ∃ a, x = .ok a ∧ f a = .ok b := by
  cases x <;> simp [bind, Except.bind]

def returns (x : Except ε α) (test : α → Bool) : Bool :=
  match x with
  | .ok a => test a
  | .error _ => false

theorem exists_of_returns {x : Except ε α} {test : α → Bool} (h : returns x test = true) :
    ∃ a, x = .ok a ∧ test a = true := by
  cases x with
  | ok a => exact ⟨a, rfl, h⟩
  | error e => cases h

def raises [DecidableEq ε] (x : Except ε α) (e : ε) : Bool :=
  match x with
  | .ok _ => false
  | .error e' => e' = e

theorem eq_error_of_raises [DecidableEq ε] {x : Except ε α} {e : ε} (h : raises x e = true) :
    x = .error e := by
  cases x with
  | ok a => cases h
  | error e' => rw [of_decide_eq_true h]

/-- Read cell `i` of an array, or stop with `fault` when there is no such cell. -/
def readAt (fault : ε) (l : List α) (i : ℕ) : Except ε α :=
  match l[i]? with
  | some a => .ok a
  | none => .error fault

def writeAt (fault : ε) (l : List α) (i : ℕ) (a : α) : Except ε (List α) :=
  if i < l.length then .ok (l.set i a) else .error fault

theorem readAt_of_getElem? {fault : ε} {l : List α} {i : ℕ} {a : α} (h : l[i]? = some a) :
    readAt fault l i = .ok a := by
  simp [readAt, h]

theorem readAt_of_getElem?_none {fault : ε} {l : List α} {i : ℕ} (h : l[i]? = none) :
    readAt fault l i = .error fault := by
  simp [readAt, h]

theorem readAt_eq_ok {fault : ε} {l : List α} {i : ℕ} {a : α} :
    readAt fault l i = .ok a ↔ l[i]? = some a := by
  unfold readAt
  cases l[i]? <;> simp

theorem writeAt_of_lt {fault : ε} {l : List α} {i : ℕ} {a : α} (h : i < l.length) :
    writeAt fault l i a = .ok (l.set i a) := by
  simp [writeAt, h]

theorem writeAt_of_ge {fault : ε} {l : List α} {i : ℕ} {a : α} (h : l.length ≤ i) :
    writeAt fault l i a = .error fault := by
  simp [writeAt, h]

def forLoop (body : ℕ → σ → Except ε σ) : ℕ → σ → Except ε σ
  | 0, s => .ok s
  | n + 1, s => forLoop body n s >>= body n

theorem forLoop_total {body : ℕ → σ → Except ε σ} {P : ℕ → σ → Prop} {n : ℕ} {s : σ}
    (h0 : P 0 s)
    (step : ∀ i t, i < n → P i t → ∃ t', body i t = .ok t' ∧ P (i + 1) t') :
    ∃ t, forLoop body n s = .ok t ∧ P n t := by
  induction n with
  | zero => exact ⟨s, rfl, h0⟩
  | succ n ih =>
    obtain ⟨t, ht, hP⟩ := ih fun i t hi => step i t (by omega)
    obtain ⟨t', hb, hP'⟩ := step n t (by omega) hP
    exact ⟨t', bind_eq_ok.mpr ⟨t, ht, hb⟩, hP'⟩

theorem forLoop_correct {body : ℕ → σ → Except ε σ} {P : ℕ → σ → Prop} {n : ℕ} {s t : σ}
    (h0 : P 0 s)
    (step : ∀ i t t', i < n → P i t → body i t = .ok t' → P (i + 1) t')
    (h : forLoop body n s = .ok t) : P n t := by
  induction n generalizing t with
  | zero => cases h; exact h0
  | succ n ih =>
    obtain ⟨r, hr, hb⟩ := bind_eq_ok.mp h
    exact step n r t (by omega) (ih (fun i t t' hi => step i t t' (by omega)) hr) hb

theorem forLoop_error {body : ℕ → σ → Except ε σ} {n : ℕ} {s : σ} {e : ε}
    (h : forLoop body n s = .error e) :
    ∃ i t, i < n ∧ forLoop body i s = .ok t ∧ body i t = .error e := by
  induction n with
  | zero => cases h
  | succ n ih =>
    rw [forLoop] at h
    cases hloop : forLoop body n s with
    | error e' =>
      rw [hloop] at h
      cases h
      obtain ⟨i, t, hi, ht, hstep⟩ := ih hloop
      exact ⟨i, t, Nat.lt_succ_of_lt hi, ht, hstep⟩
    | ok t =>
      rw [hloop] at h
      exact ⟨n, t, Nat.lt_succ_self n, hloop, h⟩

/-- A loop that writes one cell in every pass fills the array. -/
theorem forLoop_fill {body : ℕ → List α → Except ε (List α)} {f : ℕ → α} {l : List α}
    (step : ∀ i l', i < l.length → l'.length = l.length → body i l' = .ok (l'.set i (f i))) :
    forLoop body l.length l = .ok ((List.range l.length).map f) := by
  obtain ⟨t, hloop, hlength, hcells⟩ : ∃ t, forLoop body l.length l = .ok t ∧
      t.length = l.length ∧ ∀ j < l.length, t[j]? = some (f j) := by
    apply forLoop_total (P := fun i (t : List α) =>
      t.length = l.length ∧ ∀ j < i, t[j]? = some (f j))
    · exact ⟨rfl, fun j hj => absurd hj (Nat.not_lt_zero j)⟩
    · intro i t hi ht
      refine ⟨t.set i (f i), step i t hi ht.1, by rw [List.length_set, ht.1], ?_⟩
      intro j hj
      rcases Nat.lt_succ_iff_lt_or_eq.mp hj with hlt | rfl
      · rw [List.getElem?_set_ne (Nat.ne_of_gt hlt)]
        exact ht.2 j hlt
      · rw [List.getElem?_set_self (ht.1 ▸ hi)]
  rw [hloop]
  congr 1
  apply List.ext_getElem?
  intro j
  rcases Nat.lt_or_ge j l.length with hj | hj
  · rw [hcells j hj, List.getElem?_map, List.getElem?_range hj, Option.map_some]
  · rw [List.getElem?_eq_none (by omega), List.getElem?_eq_none (by simpa using hj)]

/-- `while`: `body` returns `none` on a failed guard or a `break`, and `stuck`
is the outcome when the budget of iterations does not suffice. -/
def whileLoop (stuck : ε) (body : σ → Except ε (Option σ)) : ℕ → σ → Except ε σ
  | 0, _ => .error stuck
  | n + 1, s =>
    match body s with
    | .error e => .error e
    | .ok none => .ok s
    | .ok (some s') => whileLoop stuck body n s'

theorem whileLoop_stop {stuck : ε} {body : σ → Except ε (Option σ)} {s : σ}
    (h : body s = .ok none) (n : ℕ) : whileLoop stuck body (n + 1) s = .ok s := by
  simp [whileLoop, h]

theorem whileLoop_step {stuck : ε} {body : σ → Except ε (Option σ)} {s s' : σ}
    (h : body s = .ok (some s')) (n : ℕ) :
    whileLoop stuck body (n + 1) s = whileLoop stuck body n s' := by
  simp [whileLoop, h]

/-- The states in which the guard of the loop is evaluated. -/
def Reaches (body : σ → Except ε (Option σ)) : σ → σ → Prop :=
  Relation.ReflTransGen fun s s' => body s = .ok (some s')

theorem Reaches.invariant {body : σ → Except ε (Option σ)} {P : σ → Prop} {s t : σ}
    (h : Reaches body s t) (h0 : P s)
    (step : ∀ t t', P t → body t = .ok (some t') → P t') : P t := by
  induction h with
  | refl => exact h0
  | tail _ hb ih => exact step _ _ ih hb

theorem Reaches.to_last {body : σ → Except ε (Option σ)} {s c t : σ} (hc : Reaches body s c)
    (ht : Reaches body s t) (hstop : body t = .ok none) : Reaches body c t := by
  have hunique : Relator.RightUnique fun s s' => body s = .ok (some s') := by
    intro s a b ha hb
    rw [ha] at hb
    cases hb
    rfl
  rcases Relation.ReflTransGen.total_of_right_unique hunique hc ht with h | h
  · exact h
  · rcases h.cases_head with rfl | ⟨t', hstep, -⟩
    · exact .refl
    · rw [hstop] at hstep
      cases hstep

theorem whileLoop_correct {stuck : ε} {body : σ → Except ε (Option σ)} {n : ℕ} {s t : σ}
    (h : whileLoop stuck body n s = .ok t) : Reaches body s t ∧ body t = .ok none := by
  induction n generalizing s with
  | zero => cases h
  | succ n ih =>
    simp only [whileLoop] at h
    split at h
    · cases h
    · next hb => cases h; exact ⟨.refl, hb⟩
    · next s' hb =>
      obtain ⟨hr, hn⟩ := ih h
      exact ⟨.head hb hr, hn⟩

theorem whileLoop_error {stuck : ε} {body : σ → Except ε (Option σ)} {n : ℕ} {s : σ} {e : ε}
    (h : whileLoop stuck body n s = .error e) :
    e = stuck ∨ ∃ t, Reaches body s t ∧ body t = .error e := by
  induction n generalizing s with
  | zero =>
    cases h
    exact .inl rfl
  | succ n ih =>
    rw [whileLoop] at h
    split at h
    · next hb =>
      cases h
      exact .inr ⟨s, .refl, hb⟩
    · cases h
    · next s' hb =>
      refine (ih h).imp_right fun hlater => ?_
      obtain ⟨t, hr, ht⟩ := hlater
      exact ⟨t, .head hb hr, ht⟩

theorem whileLoop_total (stuck : ε) {body : σ → Except ε (Option σ)} {P : σ → Prop}
    (measure : σ → ℕ) {n : ℕ} {s : σ} (hs : P s) (hn : measure s < n)
    (step : ∀ t, P t → body t = .ok none ∨
      ∃ t', body t = .ok (some t') ∧ P t' ∧ measure t' < measure t) :
    ∃ t, whileLoop stuck body n s = .ok t ∧ P t := by
  induction n generalizing s with
  | zero => omega
  | succ n ih =>
    rcases step s hs with hb | ⟨s', hb, hs', hm⟩
    · exact ⟨s, by simp [whileLoop, hb], hs⟩
    · obtain ⟨t, ht, hP⟩ := ih hs' (by omega)
      exact ⟨t, by simp [whileLoop, hb, ht], hP⟩

/-! ## Loops with a record

A loop whose state carries a record computes what the loop without it does. -/

section Erase
variable {τ : Type u} {erase : σ → τ}

theorem map_bind {x : Except ε α} {f : α → Except ε σ} (erase : σ → τ) :
    (x >>= f).map erase = x >>= fun a => (f a).map erase := by
  cases x <;> rfl

theorem forLoop_map {body : ℕ → σ → Except ε σ} {body' : ℕ → τ → Except ε τ}
    (step : ∀ i s, (body i s).map erase = body' i (erase s)) (n : ℕ) (s : σ) :
    (forLoop body n s).map erase = forLoop body' n (erase s) := by
  induction n with
  | zero => rfl
  | succ n ih =>
    rw [forLoop, forLoop, ← ih, map_bind]
    cases forLoop body n s with
    | error e => rfl
    | ok t => exact step n t

theorem whileLoop_map {stuck : ε} {body : σ → Except ε (Option σ)}
    {body' : τ → Except ε (Option τ)}
    (step : ∀ s, (body s).map (Option.map erase) = body' (erase s)) (n : ℕ) (s : σ) :
    (whileLoop stuck body n s).map erase = whileLoop stuck body' n (erase s) := by
  induction n generalizing s with
  | zero => rfl
  | succ n ih =>
    have hstep := step s
    rw [whileLoop, whileLoop, ← hstep]
    cases body s with
    | error e => rfl
    | ok o =>
      cases o with
      | none => rfl
      | some s' => exact ih s'

/-- The loop with a record of the states in which its body is entered and goes on. -/
def recording (record : σ → τ) (body : σ → Except ε (Option σ)) (s : σ × List τ) :
    Except ε (Option (σ × List τ)) :=
  (body s.1).map (Option.map fun t => (t, s.2 ++ [record s.1]))

theorem recording_step {record : σ → τ} {body : σ → Except ε (Option σ)} {s t : σ}
    (h : body s = .ok (some t)) (l : List τ) :
    recording record body (s, l) = .ok (some (t, l ++ [record s])) := by
  simp only [recording, h, Except.map, Option.map_some]

theorem recording_stop {record : σ → τ} {body : σ → Except ε (Option σ)} {s : σ}
    (h : body s = .ok none) (l : List τ) : recording record body (s, l) = .ok none := by
  simp only [recording, h, Except.map, Option.map_none]

theorem whileLoop_recording {stuck : ε} (record : σ → τ) (body : σ → Except ε (Option σ)) (n : ℕ)
    (s : σ × List τ) :
    (whileLoop stuck (recording record body) n s).map Prod.fst = whileLoop stuck body n s.1 := by
  apply whileLoop_map
  intro s
  rw [recording]
  cases body s.1 with
  | error e => rfl
  | ok next => cases next <;> rfl

end Erase

end CLoops
