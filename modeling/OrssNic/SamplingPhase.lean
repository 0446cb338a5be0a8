import OrssNic.LoadArithmetic

/-!
# The sampling phase of an iteration

The loop of `get_migrations` over a report, from any map that the program can
have, with holes or without: what it leaves behind is described flow by flow.
-/

namespace OrssNic
open CLoops

section Phase
variable {flows : OpenflowFlows} {map map' : MapState} {n : ℕ}
variable {report : List OpenflowFlowStats} {ring : FiniteMap FiveTuple RingBuffer}

theorem MapState.Reached.sampleStep (h : map.Reached) (hok : sampleStep flows n map = .ok map') :
    map'.Reached := by
  obtain ⟨stats, -, hok⟩ := bind_eq_ok.mp hok
  obtain ⟨r, hget, hret⟩ := bind_eq_ok.mp hok
  cases hret
  refine .store _ _ ?_
  obtain ⟨value, hlookup, hget⟩ := bind_eq_ok.mp hget
  cases value with
  | some ringBuffer =>
    cases hget
    exact h
  | none =>
    obtain ⟨r, hnew, hret⟩ := bind_eq_ok.mp hget
    cases hret
    rw [hashmapGet_eq h.owned.inv, Except.ok.injEq, HashMap.lookup_eq_none] at hlookup
    exact h.new hlookup hnew

theorem MapState.Reached.sampleLoop (h : map.Reached)
    (hok : forLoop (OrssNic.sampleStep flows) n map = .ok map') : map'.Reached :=
  forLoop_correct (P := fun _ => MapState.Reached) h
    (fun _ _ _ _ hreached hstep => hreached.sampleStep hstep) hok

theorem foldl_sample_apply (key : FiveTuple) (hkey : key ∈ report.map fiveTupleOf ∨
      ring key ≠ none) :
    report.foldl sample ring key =
      some ((countersOf key report).foldl ringbufferAdd ((ring key).getD default)) := by
  induction report generalizing ring with
  | nil =>
    obtain ⟨rb, hrb⟩ := Option.ne_none_iff_exists'.mp (hkey.resolve_left List.not_mem_nil)
    simp [hrb, countersOf]
  | cons stats report ih =>
    have hcons : countersOf key (stats :: report) =
        countersOf key [stats] ++ countersOf key report := countersOf_append key [stats] report
    rw [List.foldl_cons, hcons, countersOf_singleton]
    by_cases hk : fiveTupleOf stats = key
    · subst hk
      rw [ih (.inr (by simp [sample_self])), sample_self, if_pos rfl]
      rfl
    · rw [ih, sample_of_ne (Ne.symm hk), if_neg hk, List.nil_append]
      rw [sample_of_ne (Ne.symm hk)]
      exact hkey.imp_left fun hmem => (List.mem_cons.mp hmem).resolve_left (Ne.symm hk)

theorem SampledBy.mem_keys (h : SampledBy map report map') (key : FiveTuple) :
    key ∈ map'.hashmap.keys ↔ key ∈ map.hashmap.keys ∨ key ∈ report.map fiveTupleOf := by
  rw [← not_iff_not, not_or, ← MapState.ring_eq_none, ← MapState.ring_eq_none, h.ring,
    foldl_sample_eq_none]

theorem SampledBy.cell (h : SampledBy map report map') {e : FiveTuple × Ref}
    (he : e ∈ map'.hashmap.entries) :
    map'.heap.cell e.2 =
      (countersOf e.1 report).foldl ringbufferAdd ((map.ring e.1).getD default) := by
  have hring := MapState.ring_of_mem h.held.inv he
  rw [h.ring, foldl_sample_apply e.1, Option.some.injEq] at hring
  · exact hring.symm
  · have hkey := (h.mem_keys e.1).mp (HashMap.mem_keys.mpr ⟨e.2, he⟩)
    rw [ne_eq, MapState.ring_eq_none, not_not]
    exact hkey.symm

@[simp] theorem foldl_ringbufferAdd_assignedCore (counters : List UInt64) (rb : RingBuffer) :
    (counters.foldl ringbufferAdd rb).assignedCore = rb.assignedCore := by
  induction counters generalizing rb with
  | nil => rfl
  | cons value counters ih => rw [List.foldl_cons, ih, ringbufferAdd]

theorem countersOf_eq_nil {key : FiveTuple} (h : key ∉ report.map fiveTupleOf) :
    countersOf key report = [] := by
  rw [countersOf, List.map_eq_nil_iff, List.filter_eq_nil_iff]
  intro stats hstats hkey
  exact h (of_decide_eq_true hkey ▸ List.mem_map_of_mem hstats)

end Phase

def freshRing : RingBuffer := (ringbufferInit .empty).2.cell (ringbufferInit .empty).1

theorem freshRing_eq : freshRing = default := ringbufferInit_cell_new _

/-- What the loop of `get_migrations` leaves behind, for every map of the
program and every report for which the map has room. -/
theorem sampling_phase {flows : OpenflowFlows} {map : MapState} (h : map.Reached)
    (hnb : flows.nbFlows.toNat ≤ flows.flowStats.length)
    (hroom : (map.demand flows).card ≤ HASHMAP_SIZE) :
    ∃ map', forLoop (sampleStep flows) flows.nbFlows.toNat map = .ok map' ∧ map'.Reached ∧
      (∀ key, key ∈ map'.hashmap.keys ↔ key ∈ map.hashmap.keys ∨ key ∈ reported flows) ∧
      (∀ e ∈ map.hashmap.entries, e ∈ map'.hashmap.entries ∧
        map'.heap.cell e.2 =
          (countersOf e.1 (reportedStats flows)).foldl ringbufferAdd (map.heap.cell e.2) ∧
        (map'.heap.cell e.2).assignedCore = (map.heap.cell e.2).assignedCore ∧
        (e.1 ∉ reported flows → map'.heap.cell e.2 = map.heap.cell e.2)) ∧
      (∀ e ∈ map'.hashmap.entries, e.1 ∉ map.hashmap.keys →
        map'.heap.cell e.2 =
          (countersOf e.1 (reportedStats flows)).foldl ringbufferAdd freshRing ∧
        (map'.heap.cell e.2).assignedCore = 0) ∧
      (∀ e ∈ map'.hashmap.entries, ∀ e' ∈ map'.hashmap.entries, e.2 = e'.2 → e = e') := by
  have hheld := h.owned.toHeld
  obtain ⟨map', hok⟩ := sampleLoop_total hheld hnb hroom
  have hsampled : SampledBy map (reportedStats flows) map' := sampleLoop_sampled hheld hok
  refine ⟨map', hok, h.sampleLoop hok, hsampled.mem_keys, ?_, ?_, ?_⟩
  · intro e he
    have hcell := hsampled.cell (hsampled.kept he)
    rw [MapState.ring_of_mem hheld.inv he, Option.getD_some] at hcell
    refine ⟨hsampled.kept he, hcell, ?_, fun hkey => ?_⟩
    · rw [hcell, foldl_ringbufferAdd_assignedCore]
    · rw [hcell, countersOf_eq_nil hkey, List.foldl_nil]
  · intro e he hkey
    have hcell := hsampled.cell he
    rw [MapState.ring_eq_none.mpr hkey, Option.getD_none, ← freshRing_eq] at hcell
    refine ⟨hcell, ?_⟩
    rw [hcell, foldl_ringbufferAdd_assignedCore, freshRing_eq]
    rfl
  · exact fun e he e' he' href => List.inj_on_of_nodup_map hsampled.held.refs he he' href

def reportOfThree (first second third : FlowEntry) : OpenflowFlows :=
  { OpenflowFlows.zeroed with
    nbFlows := 3
    flowStats := [first.decoded, second.decoded, third.decoded] }

def earlierReport : OpenflowFlows :=
  reportOfThree (taggedEntry 80 7) (taggedEntry 443 5) (taggedEntry 22 1)

/-- A flow of the earlier report twice, and a new one. -/
def repeatedReport : OpenflowFlows :=
  reportOfThree (taggedEntry 443 9) (taggedEntry 8080 3) (taggedEntry 443 12)

/-- The first flow of the earlier report is removed, and the new one takes its slot. -/
theorem sampling_phase_repeated :
    ∃ sampled map map', forLoop (sampleStep earlierReport) 3 ⟨hashmapInit, .empty⟩ = .ok sampled ∧
      hashmapRemove sampled.hashmap sampled.heap (fiveTupleOf (taggedEntry 80 7).decoded) =
        .ok (map.hashmap, map.heap) ∧
      forLoop (sampleStep repeatedReport) 3 map = .ok map' ∧
      (∀ key, key ∈ map'.hashmap.keys ↔
        key ∈ map.hashmap.keys ∨ key ∈ reported repeatedReport) ∧
      (∀ e ∈ map.hashmap.entries, e ∈ map'.hashmap.entries ∧
        map'.heap.cell e.2 =
          (countersOf e.1 (reportedStats repeatedReport)).foldl ringbufferAdd
            (map.heap.cell e.2)) ∧
      ∀ e ∈ map'.hashmap.entries, e.1 ∉ map.hashmap.keys → map'.heap.cell e.2 =
        (countersOf e.1 (reportedStats repeatedReport)).foldl ringbufferAdd freshRing := by
  have hrun : returns (do
      let sampled ← forLoop (sampleStep earlierReport) 3 ⟨hashmapInit, .empty⟩
      let removed ← hashmapRemove sampled.hashmap sampled.heap
        (fiveTupleOf (taggedEntry 80 7).decoded)
      return (sampled, (⟨removed.1, removed.2⟩ : MapState))) (fun r =>
        decide ((r.2.demand repeatedReport).card ≤ HASHMAP_SIZE)) = true := by
    decide +kernel
  obtain ⟨r, hok, htest⟩ := exists_of_returns hrun
  obtain ⟨sampled, hsampled, hok⟩ := bind_eq_ok.mp hok
  obtain ⟨removed, hremove, hret⟩ := bind_eq_ok.mp hok
  cases hret
  have hreached : (⟨removed.1, removed.2⟩ : MapState).Reached :=
    (MapState.Reached.init.sampleLoop hsampled).remove hremove
  obtain ⟨map', hok', -, hmem, hold, hnew, -⟩ :=
    sampling_phase hreached (by decide) (of_decide_eq_true htest)
  exact ⟨sampled, ⟨removed.1, removed.2⟩, map', hsampled, hremove, hok', hmem,
    fun e he => ⟨(hold e he).1, (hold e he).2.1⟩, fun e he hkey => (hnew e he hkey).1⟩

end OrssNic
