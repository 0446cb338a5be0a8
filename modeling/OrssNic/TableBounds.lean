import OrssNic.OpenflowReply

/-!
# The bounds of the tables

An answer may have any number of parts, of entries and of actions. The call
stays in its tables just when there is a cell for each part, a row for each
entry, and in that row a cell for each action behind those counted there when
the call began: `nb_actions` is not reset.
-/

namespace OrssNic
open CLoops CRuns

/-- The answer stays within the sizes of the tables whose rows hold these counts. -/
structure Answer.InTables (answer : Answer) (nbActions : List UInt8) : Prop where
  parts : answer.length ≤ MAX_STATS_REPLY
  rows : InRows nbActions 0 answer.entries

section Query
variable {connection : OpenflowConnection} {transactionId : UInt32} {flows : OpenflowFlows}
variable {answer : Answer}

theorem openflowGetFlows_classified (stack : ℕ → OpenflowMessage)
    (payloads : Heap ActionPayload) (hsizes : TableSizes flows)
    (h : answer.Arrives connection transactionId) :
    (answer.InTables flows.nbActions ∧
      ∃ r, openflowGetFlows connection transactionId stack flows payloads = .ok r) ∨
    (¬answer.InTables flows.nbActions ∧
      openflowGetFlows connection transactionId stack flows payloads = .error .outOfBounds) := by
  rcases Nat.lt_or_ge MAX_STATS_REPLY answer.length with hover | hparts
  · refine .inr ⟨fun hin => Nat.not_le.mpr hover hin.parts, ?_⟩
    obtain ⟨rest, hrest⟩ := h.stream
    exact openflowGetFlows_overflow (n := 0) stack flows payloads h.write h.wellFormed.wellCut
      (by simpa [Answer.parts] using hover) h.wellFormed.isPart h.room hrest.symm h.delivers
  · obtain ⟨connection', hcall⟩ := openflowGetFlows_store stack payloads hsizes h hparts
    rw [hcall]
    rcases storeEntries_cases (s := ({ flows with nbFlows := 0 }, payloads)) answer.entries
      (hsizes.counted 0) (Nat.zero_le _) with ⟨hrows, s, hrun, -⟩ | ⟨hrows, herror⟩
    · rw [hrun]
      exact .inl ⟨⟨hparts, hrows⟩, _, rfl⟩
    · rw [herror]
      exact .inr ⟨fun hin => hrows hin.rows, rfl⟩

/-- A call whose answer stays within the tables returns; any other answer makes
it write past one of them. -/
theorem openflowGetFlows_in_tables_iff {stack : ℕ → OpenflowMessage}
    {payloads : Heap ActionPayload} (hsizes : TableSizes flows)
    (h : answer.Arrives connection transactionId) :
    ((∃ r, openflowGetFlows connection transactionId stack flows payloads = .ok r) ↔
        answer.InTables flows.nbActions) ∧
      (openflowGetFlows connection transactionId stack flows payloads = .error .outOfBounds ↔
        ¬answer.InTables flows.nbActions) := by
  rcases openflowGetFlows_classified stack payloads hsizes h with ⟨hin, r, hok⟩ | ⟨hin, herror⟩
  · rw [hok]
    refine ⟨⟨fun _ => hin, fun _ => ⟨r, rfl⟩⟩, ⟨fun herror => ?_, fun hnot => absurd hin hnot⟩⟩
    cases herror
  · rw [herror]
    refine ⟨⟨?_, fun hin' => absurd hin' hin⟩, ⟨fun _ => hin, fun _ => rfl⟩⟩
    rintro ⟨r, hr⟩
    cases hr

end Query

/-! ## Answers of one part -/

def onePartAnswer (entries : List WireEntry) : Answer := [([], ⟨1, OFPST_FLOW, 0, entries⟩)]

def answeredConnection (entries : List WireEntry) : OpenflowConnection :=
  .ofSocket ⟨((onePartAnswer entries).parts 5).bytes, List.replicate 300 (some 64), [], [], []⟩

theorem onePartAnswer_delivered {entries : List WireEntry} {xid : UInt32}
    (hlength : ((onePartAnswer entries).parts xid).bytes.length ≤ 300) :
    (onePartAnswer entries).Arrives
      (.ofSocket ⟨((onePartAnswer entries).parts xid).bytes, List.replicate 300 (some 64), [], [],
        []⟩) xid where
  write := by
    intro h
    cases h
  wellFormed := by
    have hlast : (0 : UInt16) &&& OFPSF_REPLY_MORE = 0 := by decide
    refine ⟨by simp [onePartAnswer], ⟨([], ⟨1, OFPST_FLOW, 0, entries⟩), rfl, hlast⟩, ?_, ?_⟩
    · intro part hpart
      rw [onePartAnswer, List.mem_singleton] at hpart
      subst hpart
      have hsize : ((onePartAnswer entries).parts xid).bytes.length =
          ((⟨1, OFPST_FLOW, 0, entries⟩ : WireReply).message xid).size := by
        rw [← WireMessage.bytes_length]
        simp [onePartAnswer, Answer.parts, Parts.bytes, wireBytes]
      rw [WireMessage.Fits, ← hsize]
      omega
    · intro part hpart m hm
      rw [onePartAnswer, List.mem_singleton] at hpart
      subst hpart
      cases hm
  room := by
    change (0 : UInt8).toNat + 0 ≤ MSG_BUFFER_SIZE
    decide
  stream := List.prefix_rfl
  delivers := by
    refine ⟨fun k hk => ?_, ?_⟩
    · rw [OpenflowConnection.ofSocket, List.mem_replicate] at hk
      cases hk.2
      decide
    · rw [OpenflowConnection.ofSocket, List.countP_replicate]
      exact hlength

theorem onePartAnswer_arrives {entries : List WireEntry}
    (hlength : ((onePartAnswer entries).parts 5).bytes.length ≤ 300) :
    (onePartAnswer entries).Arrives (answeredConnection entries) 5 :=
  onePartAnswer_delivered hlength

def outputEntry (actions : List WireAction) : WireEntry where
  stats := (taggedEntry 80 7).fixedBytes.drop 2
  sized := by rw [List.length_drop, FlowEntry.fixedBytes_length]
  actions := actions

def outputs (count : ℕ) : List WireEntry :=
  [outputEntry (List.replicate count (.known (.output 2 65535)))]

theorem openflowGetFlows_in_tables_iff_output :
    ((∃ r, openflowGetFlows (answeredConnection (outputs 1)) 5 (fun _ => default) .zeroed
        Heap.empty = .ok r) ↔
        (onePartAnswer (outputs 1)).InTables OpenflowFlows.zeroed.nbActions) ∧
      (openflowGetFlows (answeredConnection (outputs 1)) 5 (fun _ => default) .zeroed
        Heap.empty = .error .outOfBounds ↔
        ¬(onePartAnswer (outputs 1)).InTables OpenflowFlows.zeroed.nbActions) :=
  openflowGetFlows_in_tables_iff (zeroed_stored Heap.empty).sizes
    (onePartAnswer_arrives (by decide +kernel))

/-- The fifth action of an entry finds no cell in its row. -/
theorem openflowGetFlows_five_outputs :
    (onePartAnswer (outputs 5)).Arrives (answeredConnection (outputs 5)) 5 ∧
      openflowGetFlows (answeredConnection (outputs 5)) 5 (fun _ => default) .zeroed Heap.empty =
        .error .outOfBounds :=
  ⟨onePartAnswer_arrives (by decide +kernel), eq_error_of_raises (by decide +kernel)⟩

end OrssNic
