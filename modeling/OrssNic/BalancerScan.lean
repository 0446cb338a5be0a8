import OrssNic.Balancer
import OrssNic.Library.Lists

/-!
# The scan of the core loads and its verdict

The scan finds a most and a least loaded core and the integer average of the
(wrapping) sum. The test on the two `long double` quotients is a comparison of
natural numbers; its corner cases are the quotients by a zero average.
-/

namespace OrssNic
open CLoops CLists

structure LoadScan.After (loads : List UInt64) (s : LoadScan) : Prop where
  sum : s.averageLoad.toNat = (loads.map UInt64.toNat).sum % 2 ^ 64
  upper : ∀ l ∈ loads, l.toNat ≤ s.biggestLoad.toNat
  lower : ∀ l ∈ loads, s.smallestLoad.toNat ≤ l.toNat
  biggest : loads ≠ [] → loads[s.biggestLoadIdx]? = some s.biggestLoad
  smallest : loads ≠ [] → loads[s.smallestLoadIdx]? = some s.smallestLoad
  start : loads = [] → s.biggestLoad.toNat = 0 ∧ s.smallestLoad.toNat = 2 ^ 64 - 1 ∧
    s.biggestLoadIdx = 0 ∧ s.smallestLoadIdx = 0

theorem LoadScan.after_start :
    (⟨0, 0, UInt64.ofNat (2 ^ 64 - 1), 0, 0⟩ : LoadScan).After [] := by
  constructor <;> simp

/-- The first core is recorded even when its load is no improvement on the
initial value, because then it is that value. -/
theorem LoadScan.visit_spec {loads : List UInt64} {s : LoadScan} (hs : s.After loads)
    (load : UInt64) : (s.visit loads.length load).After (loads ++ [load]) := by
  have hlast : (loads ++ [load])[loads.length]? = some load := getElem?_split loads [] load
  have hfirst : loads = [] → s.biggestLoad ≥ load → s.biggestLoad = load := by
    intro hnil hge
    apply UInt64.toNat_inj.mp
    have h := (hs.start hnil).1
    have hge' := UInt64.le_iff_toNat_le.mp hge
    omega
  have hfirst' : loads = [] → s.smallestLoad ≤ load → s.smallestLoad = load := by
    intro hnil hle
    apply UInt64.toNat_inj.mp
    have h := (hs.start hnil).2.1
    have hle' := UInt64.le_iff_toNat_le.mp hle
    have := load.toNat_lt
    omega
  constructor
  · simp [visit, UInt64.toNat_add, hs.sum]
  · rw [List.forall_mem_append, List.forall_mem_singleton]
    simp only [visit]
    split_ifs with h
    · exact ⟨fun l hl => (hs.upper l hl).trans (UInt64.lt_iff_toNat_lt.mp h).le, le_rfl⟩
    · rw [UInt64.lt_iff_toNat_lt] at h
      exact ⟨hs.upper, not_lt.mp h⟩
  · rw [List.forall_mem_append, List.forall_mem_singleton]
    simp only [visit]
    split_ifs with h
    · exact ⟨fun l hl => (UInt64.lt_iff_toNat_lt.mp h).le.trans (hs.lower l hl), le_rfl⟩
    · rw [UInt64.lt_iff_toNat_lt] at h
      exact ⟨hs.lower, not_lt.mp h⟩
  · intro _
    simp only [visit]
    split_ifs with h
    · exact hlast
    · by_cases hnil : loads = []
      · rw [hfirst hnil (UInt64.not_lt.mp h), (hs.start hnil).2.2.1]
        simp [hnil]
      · rw [List.getElem?_append_left (List.getElem?_eq_some_iff.mp (hs.biggest hnil)).1]
        exact hs.biggest hnil
  · intro _
    simp only [visit]
    split_ifs with h
    · exact hlast
    · by_cases hnil : loads = []
      · rw [hfirst' hnil (UInt64.not_lt.mp h), (hs.start hnil).2.2.2]
        simp [hnil]
      · rw [List.getElem?_append_left (List.getElem?_eq_some_iff.mp (hs.smallest hnil)).1]
        exact hs.smallest hnil
  · simp

structure LoadScan.Describes (s : LoadScan) (coreLoad : Repartition) : Prop where
  average : s.averageLoad.toNat =
    (coreLoad.map fun core => core.load.toNat).sum % 2 ^ 64 / coreLoad.length
  upper : ∀ core ∈ coreLoad, core.load.toNat ≤ s.biggestLoad.toNat
  lower : ∀ core ∈ coreLoad, s.smallestLoad.toNat ≤ core.load.toNat
  biggest : ∃ core, coreLoad[s.biggestLoadIdx]? = some core ∧ core.load = s.biggestLoad
  smallest : ∃ core, coreLoad[s.smallestLoadIdx]? = some core ∧ core.load = s.smallestLoad

theorem scanStep_spec {coreLoad : Repartition} {i : ℕ} {s : LoadScan} (hi : i < coreLoad.length)
    (hs : s.After ((coreLoad.map CoreLoad.load).take i)) :
    ∃ s', scanStep coreLoad i s = .ok s' ∧
      s'.After ((coreLoad.map CoreLoad.load).take (i + 1)) := by
  have hcore := List.getElem?_eq_getElem hi
  refine ⟨s.visit i coreLoad[i].load, ?_, ?_⟩
  · simp [scanStep, readAt_of_getElem? hcore, bind, Except.bind, pure, Except.pure]
  · have hvisit := LoadScan.visit_spec hs coreLoad[i].load
    rw [List.length_take, List.length_map, Nat.min_eq_left hi.le] at hvisit
    rw [List.take_add_one, List.getElem?_map, hcore]
    exact hvisit

theorem scanLoop_spec {coreLoad : Repartition} {nbCores : ℕ} (hlen : coreLoad.length = nbCores) :
    ∃ s, forLoop (scanStep coreLoad) nbCores ⟨0, 0, UInt64.ofNat (2 ^ 64 - 1), 0, 0⟩ = .ok s ∧
      s.After (coreLoad.map CoreLoad.load) := by
  obtain ⟨s, hloop, hs⟩ := forLoop_total (n := nbCores)
    (P := fun i (s : LoadScan) => s.After ((coreLoad.map CoreLoad.load).take i))
    LoadScan.after_start fun i t hi ht => scanStep_spec (hlen.symm ▸ hi) ht
  rw [List.take_of_length_le (by simp [hlen])] at hs
  exact ⟨s, hloop, hs⟩

theorem scanLoads_spec {coreLoad : Repartition} {nbCores : ℕ} (hpos : 1 ≤ nbCores)
    (hn : nbCores ≤ 255) (hlen : coreLoad.length = nbCores) :
    ∃ scan, scanLoads coreLoad nbCores = .ok scan ∧ scan.Describes coreLoad := by
  obtain ⟨s, hloop, hs⟩ := scanLoop_spec hlen
  have hne : coreLoad.map CoreLoad.load ≠ [] := by
    rw [← List.length_pos_iff, List.length_map, hlen]
    exact hpos
  have hcores : (UInt64.ofNat nbCores).toNat = nbCores := by
    simp
    omega
  refine ⟨{ s with averageLoad := s.averageLoad / UInt64.ofNat nbCores }, ?_, ?_, ?_, ?_, ?_, ?_⟩
  · simp only [scanLoads, hloop, bind, Except.bind, pure, Except.pure]
  · simp only [UInt64.toNat_div, hs.sum, hcores, hlen, List.map_map]
    rfl
  · exact fun core hcore => hs.upper _ (List.mem_map_of_mem hcore)
  · exact fun core hcore => hs.lower _ (List.mem_map_of_mem hcore)
  · simpa using hs.biggest hne
  · simpa using hs.smallest hne

/-! ## The verdict -/

theorem LongDouble.gt_div (x y : UInt64) :
    (LongDouble.div x y).gt (1 + IMBALANCE_THRESHOLD) = decide (11 * y.toNat < 10 * x.toNat) := by
  have hy : y = 0 ↔ y.toNat = 0 := by rw [← UInt64.toNat_inj]; rfl
  have hx : x = 0 ↔ x.toNat = 0 := by rw [← UInt64.toNat_inj]; rfl
  simp only [div, hx, hy]
  by_cases hy0 : y.toNat = 0
  · by_cases hx0 : x.toNat = 0
    · simp [hx0, hy0, gt]
    · simp [hx0, hy0, gt, Nat.pos_of_ne_zero]
  · have hpos : (0 : ℚ) < y.toNat := by exact_mod_cast Nat.pos_of_ne_zero hy0
    rw [if_neg hy0, gt, decide_eq_decide, lt_div_iff₀ hpos, IMBALANCE_THRESHOLD,
      ← Nat.cast_lt (α := ℚ)]
    push_cast
    constructor <;> intro h <;> linarith

theorem LongDouble.lt_div (x y : UInt64) :
    (LongDouble.div x y).lt (1 - IMBALANCE_THRESHOLD) = decide (10 * x.toNat < 9 * y.toNat) := by
  have hy : y = 0 ↔ y.toNat = 0 := by rw [← UInt64.toNat_inj]; rfl
  simp only [div, hy]
  by_cases hy0 : y.toNat = 0
  · split_ifs <;> simp [hy0, lt]
  · have hpos : (0 : ℚ) < y.toNat := by exact_mod_cast Nat.pos_of_ne_zero hy0
    rw [if_neg hy0, lt, decide_eq_decide, div_lt_iff₀ hpos, IMBALANCE_THRESHOLD,
      ← Nat.cast_lt (α := ℚ)]
    push_cast
    constructor <;> intro h <;> linarith

/-- Over a zero average the first quotient is infinite or not a number, and the
second never counts. -/
theorem LoadScan.imbalanced_iff (s : LoadScan) :
    s.imbalanced = true ↔ 11 * s.averageLoad.toNat < 10 * s.biggestLoad.toNat ∨
      10 * s.smallestLoad.toNat < 9 * s.averageLoad.toNat := by
  rw [imbalanced, LongDouble.gt_div, LongDouble.lt_div, Bool.or_eq_true, Bool.and_eq_true,
    decide_eq_true_eq, decide_eq_true_eq, decide_eq_true_eq, UInt64.lt_iff_toNat_lt]
  change _ ∨ _ ∧ 0 < s.averageLoad.toNat ↔ _
  omega

namespace LoadScan.Describes
variable {s : LoadScan} {coreLoad : Repartition}

/-- A wrapped sum only makes the average smaller. -/
theorem average_le_biggest (h : s.Describes coreLoad) :
    s.averageLoad.toNat ≤ s.biggestLoad.toNat := by
  have hsum : (coreLoad.map fun core => core.load.toNat).sum ≤
      coreLoad.length * s.biggestLoad.toNat := by
    have := List.sum_le_card_nsmul (coreLoad.map fun core => core.load.toNat)
      s.biggestLoad.toNat (by simpa using h.upper)
    simpa using this
  rw [h.average]
  apply Nat.div_le_of_le_mul
  exact (Nat.mod_le _ _).trans hsum

theorem biggest_pos (h : s.Describes coreLoad) (himb : s.imbalanced = true) :
    0 < s.biggestLoad.toNat := by
  have hle := h.average_le_biggest
  rcases s.imbalanced_iff.mp himb with h' | h' <;> omega

/-- Were the most and the least loaded core the same, all loads would equal the
average, unless their sum wraps. -/
theorem indices_ne (h : s.Describes coreLoad) (himb : s.imbalanced = true)
    (hsum : (coreLoad.map fun core => core.load.toNat).sum < 2 ^ 64) :
    s.biggestLoadIdx ≠ s.smallestLoadIdx := by
  intro hidx
  obtain ⟨big, hbig, hbigLoad⟩ := h.biggest
  obtain ⟨small, hsmall, hsmallLoad⟩ := h.smallest
  have hsame : s.biggestLoad = s.smallestLoad := by
    rw [← hbigLoad, ← hsmallLoad]
    rw [hidx, hsmall, Option.some.injEq] at hbig
    rw [hbig]
  have hall : ∀ n ∈ coreLoad.map (fun core => core.load.toNat), n = s.biggestLoad.toNat := by
    simp only [List.mem_map, forall_exists_index, and_imp, forall_apply_eq_imp_iff₂]
    intro core hcore
    exact le_antisymm (h.upper core hcore) (hsame ▸ h.lower core hcore)
  have hlen : 0 < coreLoad.length := List.length_pos_of_mem (List.mem_of_getElem? hbig)
  have haverage : s.averageLoad.toNat = s.biggestLoad.toNat := by
    rw [h.average, Nat.mod_eq_of_lt hsum, List.eq_replicate_of_mem hall, List.sum_replicate,
      List.length_map, smul_eq_mul, Nat.mul_div_cancel_left _ hlen]
  rcases s.imbalanced_iff.mp himb with h' | h' <;> rw [hsame] at * <;> omega

end LoadScan.Describes

end OrssNic
