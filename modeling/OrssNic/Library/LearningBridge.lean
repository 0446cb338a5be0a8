import OrssNic.Library.FiniteMap

/-!
# Learning bridges

A bridge learns the port of each sender, and sends a frame to the port that it
has learned for the receiver, or everywhere. A bridge with a cache keeps the
decisions that named a port, and no longer learns from the frames that it has a
decision for. While every sender keeps its port, nobody can tell the two apart.
-/

namespace LearningBridge

universe u v

structure Frame (μ : Type u) (π : Type v) where
  src : μ
  dst : μ
  port : π
  deriving DecidableEq

variable {μ : Type u} {π : Type v} [DecidableEq μ] [DecidableEq π]

def learn (learned : FiniteMap μ π) (f : Frame μ π) : FiniteMap μ π :=
  learned.insert f.src f.port

/-- The port for the frame; without one it is sent everywhere. -/
def decision (learned : FiniteMap μ π) (f : Frame μ π) : Option π := learn learned f f.dst

structure Cached (μ : Type u) (π : Type v) where
  learned : FiniteMap μ π
  cache : FiniteMap (Frame μ π) π

namespace Cached

def empty : Cached μ π := ⟨.empty, .empty⟩

def step (s : Cached μ π) (f : Frame μ π) : Cached μ π × Option π :=
  match s.cache f with
  | some port => (s, some port)
  | none =>
    (⟨learn s.learned f,
      match decision s.learned f with
      | some port => s.cache.insert f port
      | none => s.cache⟩, decision s.learned f)

def after (s : Cached μ π) (frames : List (Frame μ π)) : Cached μ π :=
  frames.foldl (fun s f => (s.step f).1) s

section Step
variable {s : Cached μ π} {f f' : Frame μ π} {port : π}

theorem step_hit (h : s.cache f = some port) : s.step f = (s, some port) := by
  rw [step, h]

theorem step_known (h : s.cache f = none) (hport : decision s.learned f = some port) :
    s.step f = (⟨learn s.learned f, s.cache.insert f port⟩, some port) := by
  rw [step, h, hport]

theorem step_unknown (h : s.cache f = none) (hnone : decision s.learned f = none) :
    s.step f = (⟨learn s.learned f, s.cache⟩, none) := by
  rw [step, h, hnone]

theorem step_cases (s : Cached μ π) (f : Frame μ π) :
    (∃ port, s.cache f = some port ∧ s.step f = (s, some port)) ∨
    (∃ port, s.cache f = none ∧ decision s.learned f = some port ∧
      s.step f = (⟨learn s.learned f, s.cache.insert f port⟩, some port)) ∨
    (s.cache f = none ∧ decision s.learned f = none ∧
      s.step f = (⟨learn s.learned f, s.cache⟩, none)) := by
  cases hcache : s.cache f with
  | some port => exact .inl ⟨port, rfl, step_hit hcache⟩
  | none =>
    cases hdecision : decision s.learned f with
    | some port => exact .inr (.inl ⟨port, rfl, rfl, step_known hcache hdecision⟩)
    | none => exact .inr (.inr ⟨rfl, rfl, step_unknown hcache hdecision⟩)

theorem step_learned (h : s.cache f = none) : (s.step f).1.learned = learn s.learned f := by
  rw [step, h]

theorem step_decision (h : s.cache f = none) : (s.step f).2 = decision s.learned f := by
  rw [step, h]

theorem step_cache_eq_some (h : s.cache f = none) :
    (s.step f).1.cache f' = some port ↔
      s.cache f' = some port ∨ f' = f ∧ decision s.learned f = some port := by
  cases hdecision : decision s.learned f with
  | none =>
    rw [step_unknown h hdecision]
    exact (or_iff_left fun hf => Option.some_ne_none _ hf.2.symm).symm
  | some port' =>
    rw [step_known h hdecision]
    by_cases hf' : f' = f
    · rw [hf', h]
      simp only [FiniteMap.insert_self, reduceCtorEq, true_and, false_or]
    · rw [or_iff_left fun hf => hf' hf.1]
      exact iff_of_eq (congrArg (· = some port) (FiniteMap.insert_of_ne _ _ hf'))

theorem step_cache (h : s.cache f' = some port) : (s.step f).1.cache f' = some port := by
  obtain ⟨_, -, hstep⟩ | ⟨port', hnone, -, hstep⟩ | ⟨-, -, hstep⟩ := step_cases s f
  · rw [hstep]
    exact h
  · have hne : f' ≠ f := by
      rintro rfl
      rw [hnone] at h
      cases h
    rw [hstep]
    exact (FiniteMap.insert_of_ne _ _ hne).trans h
  · rw [hstep]
    exact h

/-- A decision stays, whatever is learned behind it. -/
theorem after_cache (frames : List (Frame μ π)) (h : s.cache f = some port) :
    (s.after frames).cache f = some port := by
  induction frames generalizing s with
  | nil => exact h
  | cons f' frames ih => exact ih (step_cache h)

theorem step_cache_self (h : (s.step f).2 = some port) : (s.step f).1.cache f = some port := by
  obtain ⟨port', hcache, hstep⟩ | ⟨port', -, -, hstep⟩ | ⟨-, -, hstep⟩ := step_cases s f
  · rw [hstep] at h ⊢
    exact hcache.trans h
  · rw [hstep] at h ⊢
    exact (FiniteMap.insert_self _ _ _).trans h
  · rw [hstep] at h
    cases h

end Step

end Cached

/-! ## Senders that keep their ports -/

def senders (frames : List (Frame μ π)) : List μ := frames.map Frame.src

omit [DecidableEq μ] [DecidableEq π] in
theorem mem_senders_concat {frames : List (Frame μ π)} {f : Frame μ π} {a : μ} :
    a ∈ senders (frames ++ [f]) ↔ a ∈ senders frames ∨ a = f.src := by
  rw [senders, List.map_append, List.mem_append, List.map_singleton, List.mem_singleton]
  rfl

/-- The port of an address that has sent. -/
def homeOf (home : μ → π) (frames : List (Frame μ π)) (a : μ) : Option π :=
  if a ∈ senders frames then some (home a) else none

section Stable
variable {home : μ → π} {frames : List (Frame μ π)} {f : Frame μ π} {learned : FiniteMap μ π}

omit [DecidableEq π] in
theorem learn_homeOf (h : ∀ a, learned a = homeOf home frames a) (hf : f.port = home f.src)
    (a : μ) : learn learned f a = homeOf home (frames ++ [f]) a := by
  rw [learn, homeOf]
  by_cases ha : a = f.src
  · rw [ha, FiniteMap.insert_self, hf, if_pos (mem_senders_concat.mpr (.inr rfl))]
  · rw [FiniteMap.insert_of_ne _ _ ha, h a, homeOf]
    exact if_congr (mem_senders_concat.trans (or_iff_left ha)).symm rfl rfl

omit [DecidableEq π] in
theorem foldl_learn (h : ∀ f ∈ frames, f.port = home f.src) (a : μ) :
    frames.foldl learn .empty a = homeOf home frames a := by
  induction frames using List.reverseRecOn generalizing a with
  | nil => rfl
  | append_singleton frames f ih =>
    rw [List.forall_mem_append, List.forall_mem_singleton] at h
    rw [List.foldl_append]
    exact learn_homeOf (ih h.1) h.2 a

/-- The bridge with a cache has learned what the bridge without it has, and its
decisions are for addresses that both have sent. -/
structure Cached.Settled (home : μ → π) (frames : List (Frame μ π)) (s : Cached μ π) : Prop where
  learned : ∀ a, s.learned a = homeOf home frames a
  cache : ∀ f port, s.cache f = some port →
    port = home f.dst ∧ f.dst ∈ senders frames ∧ f.src ∈ senders frames

theorem Cached.Settled.step {s : Cached μ π} (h : s.Settled home frames)
    (hf : f.port = home f.src) :
    (s.step f).1.Settled home (frames ++ [f]) ∧
      (s.step f).2 = homeOf home (frames ++ [f]) f.dst := by
  have hlearn := learn_homeOf h.learned hf
  have hold : ∀ f' port, s.cache f' = some port → port = home f'.dst ∧
      f'.dst ∈ senders (frames ++ [f]) ∧ f'.src ∈ senders (frames ++ [f]) := by
    intro f' port hcache
    obtain ⟨hport, hdst, hsrc⟩ := h.cache f' port hcache
    exact ⟨hport, mem_senders_concat.mpr (.inl hdst), mem_senders_concat.mpr (.inl hsrc)⟩
  obtain ⟨port, hcache, hstep⟩ | ⟨port, -, hport, hstep⟩ | ⟨-, hnone, hstep⟩ := step_cases s f
  · obtain ⟨hport, hdst, hsrc⟩ := h.cache f port hcache
    rw [hstep]
    refine ⟨⟨fun a => ?_, hold⟩, ?_⟩
    · -- The sender is known, so that nothing is missed by not learning.
      rw [h.learned a, homeOf, homeOf]
      refine if_congr ?_ rfl rfl
      rw [mem_senders_concat]
      exact (or_iff_left_of_imp fun ha => ha ▸ hsrc).symm
    · rw [homeOf, if_pos (mem_senders_concat.mpr (.inl hdst)), hport]
  · have hhome : homeOf home (frames ++ [f]) f.dst = some port := (hlearn f.dst).symm.trans hport
    rw [hstep]
    refine ⟨⟨hlearn, fun f' port' hcache => ?_⟩, hhome.symm⟩
    by_cases hf' : f' = f
    · rw [hf'] at hcache ⊢
      have hport' : port = port' :=
        Option.some.inj ((FiniteMap.insert_self _ _ _).symm.trans hcache)
      rw [homeOf, Option.ite_none_right_eq_some, Option.some.injEq] at hhome
      exact ⟨hport'.symm.trans hhome.2.symm, hhome.1, mem_senders_concat.mpr (.inr rfl)⟩
    · exact hold f' port' ((FiniteMap.insert_of_ne _ _ hf').symm.trans hcache)
  · rw [hstep]
    exact ⟨⟨hlearn, hold⟩, hnone.symm.trans (hlearn f.dst)⟩

theorem Cached.settled_after (h : ∀ f ∈ frames, f.port = home f.src) :
    (Cached.empty.after frames).Settled home frames := by
  induction frames using List.reverseRecOn with
  | nil =>
    refine ⟨fun a => rfl, fun f port hcache => ?_⟩
    cases hcache
  | append_singleton frames f ih =>
    rw [List.forall_mem_append, List.forall_mem_singleton] at h
    rw [Cached.after, List.foldl_append]
    exact ((ih h.1).step h.2).1

omit [DecidableEq π] in
theorem decision_homeOf (h : ∀ f' ∈ frames ++ [f], f'.port = home f'.src) :
    decision (frames.foldl learn .empty) f = homeOf home (frames ++ [f]) f.dst := by
  rw [List.forall_mem_append, List.forall_mem_singleton] at h
  exact learn_homeOf (foldl_learn h.1) h.2 f.dst

/-- The cache does not change the decisions. -/
theorem Cached.step_eq_decision (h : ∀ f' ∈ frames ++ [f], f'.port = home f'.src) :
    ((Cached.empty.after frames).step f).2 = decision (frames.foldl learn .empty) f := by
  rw [decision_homeOf h]
  rw [List.forall_mem_append, List.forall_mem_singleton] at h
  exact ((settled_after h.1).step h.2).2

end Stable

end LearningBridge
