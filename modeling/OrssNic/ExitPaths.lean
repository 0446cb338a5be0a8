import OrssNic.MainLoop
import OrssNic.Library.Faults

/-!
# The exit of the full map

`hashmap_insert` is the only function that ends the program with the message
that the map is full: all others `Spares` the program that exit.
-/

namespace OrssNic
open CLoops

abbrev Spares {α : Type} (x : Except Halt α) : Prop := Avoids .hashmapFull x

/-! ## The connection -/

theorem read_spares (fd : Socket) (count : ℕ) : Spares (read fd count) := by
  unfold read
  split
  · exact avoids_error (by decide)
  · exact avoids_ok _
  · exact avoids_ok _

theorem storeBytes_spares (block : List UInt8) (offset : ℕ) (bytes : List UInt8) :
    Spares (storeBytes block offset bytes) := by
  unfold storeBytes
  split_ifs
  · exact avoids_ok _
  · exact avoids_error (by decide)

theorem safeRead_spares (fd : Socket) (buf : List UInt8) (count : UInt16) :
    Spares (safeRead fd buf count) := by
  refine whileLoop_avoids (by decide) (fun s => ?_) _ _
  unfold safeReadStep
  split_ifs
  · refine avoids_bind (read_spares _ _) fun r _ => ?_
    obtain ⟨valread, fd'⟩ := r
    cases valread with
    | none => exact avoids_ok _
    | some bytes => exact avoids_bind (storeBytes_spares _ _ _) fun _ _ => avoids_ok _
  · exact avoids_ok _

theorem readOpenflowMessage_spares (fd : Socket) (message : OpenflowMessage) :
    Spares (readOpenflowMessage fd message) := by
  refine avoids_bind (read_spares _ _) fun r _ => ?_
  refine avoids_bind (storeBytes_spares _ _ _) fun bytes _ => ?_
  dsimp only
  split_ifs
  · exact avoids_bind (safeRead_spares _ _ _) fun _ _ => avoids_ok _
  · exact avoids_ok _
  · exact avoids_ok _

theorem bufferMessage_spares (connection : OpenflowConnection) (msg : OpenflowMessage) :
    Spares (bufferMessage connection msg) := by
  unfold bufferMessage
  split_ifs
  · exact avoids_ok _
  · exact avoids_error (by decide)

theorem openflowWaitForMessage_spares (connection : OpenflowConnection) (type : UInt8)
    (msg : OpenflowMessage) (xid : UInt32) :
    Spares (openflowWaitForMessage connection type msg xid) := by
  refine avoids_bind (whileLoop_avoids (by decide) (fun s => ?_) _ _) fun _ _ => avoids_ok _
  unfold waitStep
  split_ifs
  · exact avoids_ok _
  · refine avoids_bind (readOpenflowMessage_spares _ _) fun r _ => ?_
    dsimp only
    split_ifs
    · exact avoids_ok _
    · exact avoids_bind (bufferMessage_spares _ _) fun _ _ => avoids_ok _
    · exact avoids_ok _

theorem openflowControl_spares (connection : OpenflowConnection) :
    Spares (openflowControl connection) := by
  refine avoids_bind (forLoop_avoids (fun i fd => ?_) _ _) fun fd _ =>
    avoids_bind (whileLoop_avoids (by decide) (fun s => ?_) _ _) fun _ _ => avoids_ok _
  · exact avoids_bind (readAt_avoids (by decide) _ _) fun _ _ => avoids_ok _
  · unfold controlSocketStep
    split_ifs
    · exact avoids_ok _
    · refine avoids_bind (readOpenflowMessage_spares _ _) fun r _ => ?_
      dsimp only
      split_ifs
      · exact avoids_ok _
      · exact avoids_ok _

theorem loadBytes_spares (block : List UInt8) (offset count : ℕ) :
    Spares (loadBytes block offset count) := by
  unfold loadBytes
  split_ifs
  · exact avoids_ok _
  · exact avoids_error (by decide)

theorem messageData_spares (message : OpenflowMessage) : Spares (messageData message) := by
  unfold messageData
  split
  · exact avoids_ok _
  · exact avoids_error (by decide)

theorem collectStep_spares (currentXid : UInt32) (s : Collecting) :
    Spares (collectStep currentXid s) := by
  unfold collectStep
  split_ifs
  · exact avoids_ok _
  · refine avoids_bind (readAt_avoids (by decide) _ _) fun msg _ => ?_
    refine avoids_bind (openflowWaitForMessage_spares _ _ _ _) fun r _ => ?_
    refine avoids_bind (writeAt_avoids (by decide) _ _ _) fun messages _ => ?_
    refine avoids_bind (messageData_spares _) fun data _ => ?_
    exact avoids_bind (loadBytes_spares _ _ _) fun flags _ => avoids_ok _

theorem readAction_spares (data : List UInt8) (actionsEnd : ℕ) (payloads : Heap ActionPayload)
    (descriptor : ActionDescriptor) (responseHead : ℕ) :
    Spares (readAction data actionsEnd payloads descriptor responseHead) := by
  refine avoids_bind (loadBytes_spares _ _ _) fun type _ => ?_
  dsimp only
  split_ifs
  · exact avoids_bind (loadBytes_spares _ _ _) fun bytes _ => avoids_ok _
  · exact avoids_bind (loadBytes_spares _ _ _) fun bytes _ => avoids_ok _
  · exact avoids_ok _

theorem actionStep_spares (data : List UInt8) (actionsEnd : ℕ) (s : Parsing) :
    Spares (actionStep data actionsEnd s) := by
  unfold actionStep
  split_ifs
  · refine avoids_bind (readAt_avoids (by decide) _ _) fun nbActions _ => ?_
    refine avoids_bind (readAt_avoids (by decide) _ _) fun row _ => ?_
    refine avoids_bind (readAt_avoids (by decide) _ _) fun descriptor _ => ?_
    exact avoids_bind (readAction_spares _ _ _ _ _) fun r _ => avoids_ok _
  · exact avoids_ok _

theorem parseReply_spares (message : OpenflowMessage) (flows : OpenflowFlows)
    (payloads : Heap ActionPayload) : Spares (parseReply message flows payloads) := by
  refine avoids_bind (messageData_spares _) fun data _ => ?_
  refine avoids_bind (whileLoop_avoids (by decide) (fun s => ?_) _ _) fun _ _ => avoids_ok _
  unfold flowStep
  split_ifs
  · refine avoids_bind (loadBytes_spares _ _ _) fun bytes _ => ?_
    refine avoids_bind (writeAt_avoids (by decide) _ _ _) fun flowStats _ => ?_
    exact avoids_bind (whileLoop_avoids (by decide) (actionStep_spares _ _) _ _)
      fun _ _ => avoids_ok _
  · exact avoids_ok _

theorem parseReplies_spares (messages : List OpenflowMessage) (flows : OpenflowFlows)
    (payloads : Heap ActionPayload) : Spares (parseReplies messages flows payloads) := by
  induction messages generalizing flows payloads with
  | nil => exact avoids_ok _
  | cons message messages ih =>
    exact avoids_bind (parseReply_spares _ _ _) fun r _ => ih r.1 r.2

theorem openflowGetFlows_spares (connection : OpenflowConnection) (transactionId : UInt32)
    (stack : ℕ → OpenflowMessage) (flows : OpenflowFlows) (payloads : Heap ActionPayload) :
    Spares (openflowGetFlows connection transactionId stack flows payloads) := by
  unfold openflowGetFlows
  dsimp only
  split_ifs
  · exact avoids_ok _
  · refine avoids_bind (whileLoop_avoids (by decide) (collectStep_spares _) _ _) fun s _ => ?_
    exact avoids_bind (parseReplies_spares _ _ _) fun r _ => avoids_ok _

theorem openflowFreeFlows_spares (flows : OpenflowFlows) (payloads : Heap ActionPayload) :
    Spares (openflowFreeFlows flows payloads) := by
  refine avoids_bind (forLoop_avoids (fun i s => ?_) _ _) fun _ _ => avoids_ok _
  refine avoids_bind (readAt_avoids (by decide) _ _) fun nbActions _ => ?_
  refine avoids_bind (forLoop_avoids (fun j payloads => ?_) _ _) fun _ _ => avoids_ok _
  refine avoids_bind (readAt_avoids (by decide) _ _) fun row _ => ?_
  refine avoids_bind (readAt_avoids (by decide) _ _) fun descriptor _ => ?_
  split
  · exact avoids_ok _
  · exact avoids_ok _

/-! ## The balancer -/

theorem containsFrom_spares (size : ℤ) (key : FiveTuple) (slots : List KeyValuePair)
    (iterator itemCount : ℕ) : Spares (containsFrom size key slots iterator itemCount) := by
  induction slots generalizing iterator itemCount with
  | nil =>
    rw [containsFrom]
    split_ifs
    · exact avoids_error (by decide)
    · exact avoids_ok _
  | cons slot slots ih =>
    rw [containsFrom]
    split_ifs
    · exact avoids_ok _
    · exact ih _ _
    · exact ih _ _
    · exact avoids_ok _

theorem hashmapGet_spares (hashmap : HashMap) (key : FiveTuple) :
    Spares (hashmapGet hashmap key) := by
  refine avoids_bind (containsFrom_spares _ _ _ _ _) fun index _ => ?_
  split_ifs
  · exact avoids_bind (readAt_avoids (by decide) _ _) fun _ _ => avoids_ok _
  · exact avoids_ok _

theorem hashmapGetNext_spares (hashmap : HashMap) (key : FiveTuple) :
    Spares (hashmapGetNext hashmap key) := by
  refine avoids_bind (containsFrom_spares _ _ _ _ _) fun index _ => ?_
  dsimp only
  split_ifs
  · refine avoids_bind (readAt_avoids (by decide) _ _) fun slot _ => ?_
    split_ifs
    · exact avoids_ok _
    · exact avoids_ok _
  · exact avoids_error (by decide)

theorem balancerUpdateCoreInfo_spares (heap : Heap RingBuffer) (core : CoreLoad) :
    Spares (balancerUpdateCoreInfo heap core) := by
  refine avoids_bind (forLoop_avoids (fun j s => ?_) _ _) fun _ _ => avoids_ok _
  refine avoids_bind (readAt_avoids (by decide) _ _) fun flow _ => ?_
  dsimp only
  split_ifs
  · exact avoids_ok _
  · exact avoids_ok _

theorem addFlow_spares (core : CoreLoad) (key : FiveTuple) (flow : Ref) :
    Spares (addFlow core key flow) := by
  refine avoids_bind (writeAt_avoids (by decide) _ _ _) fun flowKeys _ => ?_
  exact avoids_bind (writeAt_avoids (by decide) _ _ _) fun flows _ => avoids_ok _

theorem balancerComputeRepartition_spares (hashmap : HashMap) (heap : Heap RingBuffer)
    (previousKey : FiveTuple) (nbCores : UInt8) :
    Spares (balancerComputeRepartition hashmap heap previousKey nbCores) := by
  refine avoids_bind (whileLoop_avoids (by decide) (fun s => ?_) _ _) fun r _ => ?_
  · refine avoids_bind (hashmapGetNext_spares _ _) fun next _ => ?_
    split
    · exact avoids_ok _
    · refine avoids_bind (readAt_avoids (by decide) _ _) fun core _ => ?_
      split_ifs
      · exact avoids_error (by decide)
      · exact avoids_bind (addFlow_spares _ _ _) fun _ _ => avoids_ok _
  · refine forLoop_avoids (fun i coreLoad => ?_) _ _
    refine avoids_bind (readAt_avoids (by decide) _ _) fun core _ => ?_
    exact avoids_bind (balancerUpdateCoreInfo_spares _ _) fun _ _ => avoids_ok _

theorem removeBiggest_spares (core : CoreLoad) : Spares (removeBiggest core) := by
  refine avoids_bind (readAt_avoids (by decide) _ _) fun flow _ => ?_
  refine avoids_bind (readAt_avoids (by decide) _ _) fun key _ => ?_
  split_ifs
  · exact avoids_error (by decide)
  · refine avoids_bind (readAt_avoids (by decide) _ _) fun lastFlow _ => ?_
    refine avoids_bind (writeAt_avoids (by decide) _ _ _) fun flows _ => ?_
    refine avoids_bind (readAt_avoids (by decide) _ _) fun lastKey _ => ?_
    exact avoids_bind (writeAt_avoids (by decide) _ _ _) fun flowKeys _ => avoids_ok _

theorem updateCoreAt_spares (heap : Heap RingBuffer) (coreLoad : Repartition) (i : ℕ) :
    Spares (updateCoreAt heap coreLoad i) := by
  refine avoids_bind (readAt_avoids (by decide) _ _) fun core _ => ?_
  exact avoids_bind (balancerUpdateCoreInfo_spares _ _) fun _ _ => avoids_ok _

theorem balancerMigrate_spares (heap : Heap RingBuffer) (coreLoad : Repartition)
    (bigCore smallCore : ℕ) : Spares (balancerMigrate heap coreLoad bigCore smallCore) := by
  refine avoids_bind (readAt_avoids (by decide) _ _) fun big _ => ?_
  refine avoids_bind (removeBiggest_spares _) fun r _ => ?_
  refine avoids_bind (readAt_avoids (by decide) _ _) fun small _ => ?_
  refine avoids_bind (addFlow_spares _ _ _) fun small _ => ?_
  refine avoids_bind (updateCoreAt_spares _ _ _) fun coreLoad _ => ?_
  exact avoids_bind (updateCoreAt_spares _ _ _) fun coreLoad _ => avoids_ok _

theorem balanceStep_spares (nbCores : ℕ) (s : BalanceState) : Spares (balanceStep nbCores s) := by
  unfold balanceStep
  split_ifs
  · refine avoids_bind ?_ fun scan _ => ?_
    · refine avoids_bind (forLoop_avoids (fun i s => ?_) _ _) fun _ _ => avoids_ok _
      exact avoids_bind (readAt_avoids (by decide) _ _) fun _ _ => avoids_ok _
    · split_ifs
      · exact avoids_bind (balancerMigrate_spares _ _ _ _) fun _ _ => avoids_ok _
      · exact avoids_ok _
  · exact avoids_ok _

theorem balancerPrintMigrations_spares (hashmap : HashMap) (migrations : List Migration) :
    Spares (balancerPrintMigrations hashmap migrations) := by
  induction migrations with
  | nil => exact avoids_ok _
  | cons migration migrations ih =>
    refine avoids_bind (hashmapGet_spares _ _) fun found _ => ?_
    split
    · exact avoids_error (by decide)
    · exact ih

theorem balancerBalance_spares (hashmap : HashMap) (heap : Heap RingBuffer)
    (previousKey : FiveTuple) (nbCores : ℕ) (migrations : List Migration) :
    Spares (balancerBalance hashmap heap previousKey nbCores migrations) := by
  refine avoids_bind (balancerComputeRepartition_spares _ _ _ _) fun coreLoad _ => ?_
  refine avoids_bind (whileLoop_avoids (by decide) (balanceStep_spares _) _ _) fun s _ => ?_
  exact avoids_bind (balancerPrintMigrations_spares _ _) fun _ _ => avoids_ok _

end OrssNic
