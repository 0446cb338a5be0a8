import OrssNic.MessageBodies
import OrssNic.MessageConservation
import OrssNic.Library.Agreement
import OrssNic.Library.Lists

/-!
# The bodies on the heap refine the bodies as values

A message with a pointer shows a message with the bytes. The two programs go
through the same calls; the block of a message is owned by the slot of the side
buffer, or by the local, that holds the message.
-/

namespace OrssNic.Bodies
open CLoops CRuns

/-- The block that freeing the message gives back. -/
def OpenflowMessage.owns (m : OpenflowMessage) : List Ref :=
  if OFP_HEADER_LEN < m.header.length.toNat then m.data.toList else []

def OpenflowConnection.buffered (connection : OpenflowConnection) : List OpenflowMessage :=
  connection.msgBuffer.take connection.nbMsgBuffered.toNat

def OpenflowConnection.owners (connection : OpenflowConnection) : List Ref :=
  connection.buffered.flatMap OpenflowMessage.owns

/-- What was allocated before still holds the same bytes. -/
structure Extends (bodies bodies' : BodyHeap) : Prop where
  next : bodies.next ≤ bodies'.next
  cell : ∀ r < bodies.next, bodies'.cell r = bodies.cell r

namespace Extends
variable {bodies bodies' bodies'' : BodyHeap}

theorem refl (bodies : BodyHeap) : Extends bodies bodies := ⟨le_rfl, fun _ _ => rfl⟩

theorem trans (h : Extends bodies bodies') (h' : Extends bodies' bodies'') :
    Extends bodies bodies'' :=
  ⟨h.next.trans h'.next, fun r hr => (h'.cell r (hr.trans_le h.next)).trans (h.cell r hr)⟩

theorem alloc (bodies : BodyHeap) (body : List UInt8) : Extends bodies (bodies.alloc body).2 :=
  ⟨Nat.le_succ _, fun _ hr => bodies.alloc_cell_of_lt body hr⟩

theorem free (bodies : BodyHeap) (r : Ref) : Extends bodies (bodies.free r) :=
  ⟨le_rfl, fun _ _ => rfl⟩

end Extends

structure Shows (bodies : BodyHeap) (m : OpenflowMessage) (v : OrssNic.OpenflowMessage) :
    Prop where
  header : m.header = v.header
  body : OFP_HEADER_LEN < m.header.length.toNat →
    ∃ r < bodies.next, m.data = some r ∧ v.data = some (bodies.cell r)

/-- The pointer leads to a block of one of the owners, even where the message
itself owns no block. -/
structure Follows (bodies : BodyHeap) (owners : List Ref) (m : OpenflowMessage)
    (v : OrssNic.OpenflowMessage) : Prop where
  header : m.header = v.header
  data : v.data = m.data.map bodies.cell
  held : ∀ r, m.data = some r → r ∈ owners

section Messages
variable {bodies bodies' : BodyHeap} {m : OpenflowMessage} {v : OrssNic.OpenflowMessage}

theorem Shows.extends (h : Shows bodies m v) (he : Extends bodies bodies') :
    Shows bodies' m v := by
  refine ⟨h.header, fun hlen => ?_⟩
  obtain ⟨r, hr, hm, hv⟩ := h.body hlen
  exact ⟨r, hr.trans_le he.next, hm, by rw [he.cell r hr, hv]⟩

theorem Shows.owns (h : Shows bodies m v) (hlen : OFP_HEADER_LEN < m.header.length.toNat) :
    ∃ r, m.data = some r ∧ m.owns = [r] := by
  obtain ⟨r, -, hm, -⟩ := h.body hlen
  exact ⟨r, hm, by rw [OpenflowMessage.owns, if_pos hlen, hm, Option.toList_some]⟩

theorem owns_of_short (hlen : ¬OFP_HEADER_LEN < m.header.length.toNat) : m.owns = [] :=
  if_neg hlen

theorem Follows.extends {owners all : List Ref} (h : Follows bodies owners m v)
    (ho : bodies.OwnedBy all) (hall : owners ⊆ all) (he : Extends bodies bodies') :
    Follows bodies' owners m v := by
  refine ⟨h.header, ?_, h.held⟩
  rw [h.data]
  cases hm : m.data with
  | none => rfl
  | some r =>
    rw [Option.map_some, Option.map_some, he.cell r (ho.lt_next (hall (h.held r hm)))]

theorem Follows.mono {owners owners' : List Ref} (h : Follows bodies owners m v)
    (hsub : owners ⊆ owners') : Follows bodies owners' m v :=
  ⟨h.header, h.data, fun r hr => hsub (h.held r hr)⟩

theorem messageData_agree {owners all : List Ref} (h : Follows bodies owners m v)
    (ho : bodies.OwnedBy all) (hall : owners ⊆ all) :
    messageData bodies m = OrssNic.messageData v := by
  rw [messageData, OrssNic.messageData, h.data]
  cases hm : m.data with
  | none => rfl
  | some r => exact Heap.load_of_alive (ho.alive (hall (h.held r hm)))

/-- A message gives its own block back, and a short one nothing. -/
theorem freeOpenflowMessageBody_owned {owners : List Ref} (h : Shows bodies m v)
    (ho : bodies.OwnedBy (m.owns ++ owners)) :
    ∃ bodies', freeOpenflowMessageBody bodies m = .ok bodies' ∧ bodies'.OwnedBy owners ∧
      Extends bodies bodies' := by
  rw [freeOpenflowMessageBody]
  split_ifs with hlen
  · obtain ⟨r, hm, howns⟩ := h.owns hlen
    rw [howns] at ho
    rw [hm]
    refine ⟨bodies.free r, Heap.release_of_alive (ho.alive ?_), ho.free, .free bodies r⟩
    exact List.mem_append_left _ (List.mem_singleton_self r)
  · rw [owns_of_short hlen] at ho
    exact ⟨bodies, rfl, ho, .refl bodies⟩

end Messages

/-! ## Reading a message -/

/-- A message with a body has allocated it; otherwise the pointer is the old one. -/
structure ReadAgrees (bodies : BodyHeap) (m : OpenflowMessage) (v : OrssNic.OpenflowMessage)
    (r : ℤ × Socket × BodyHeap × OpenflowMessage) (r' : ℤ × Socket × OrssNic.OpenflowMessage) :
    Prop where
  received : r.1 = r'.1
  fd : r.2.1 = r'.2.1
  header : r.2.2.2.header = r'.2.2.header
  data : (0 < r.1 ∧ OFP_HEADER_LEN < r.2.2.2.header.length.toNat ∧
      ∃ body, r.2.2.1 = (bodies.alloc body).2 ∧ r.2.2.2.data = some bodies.next ∧
        r'.2.2.data = some body) ∨
    (¬(0 < r.1 ∧ OFP_HEADER_LEN < r.2.2.2.header.length.toNat) ∧ r.2.2.1 = bodies ∧
      r.2.2.2.data = m.data ∧ r'.2.2.data = v.data)

theorem readOpenflowMessage_agree (fd : Socket) (bodies : BodyHeap) {m : OpenflowMessage}
    {v : OrssNic.OpenflowMessage} (h : m.header = v.header) :
    Agree (ReadAgrees bodies m v) (readOpenflowMessage fd bodies m)
      (OrssNic.readOpenflowMessage fd v) := by
  rw [readOpenflowMessage, OrssNic.readOpenflowMessage, h]
  refine (agree_self (R := Eq) fun _ _ => rfl).bind ?_
  rintro ⟨valread, fd⟩ _ rfl
  refine (agree_self (R := Eq) fun _ _ => rfl).bind ?_
  rintro bytes _ rfl
  dsimp only
  split_ifs with hreceived hlen
  · rw [Heap.alloc_ref, Heap.alloc_cell_new]
    refine (agree_self (R := Eq) fun _ _ => rfl).bind ?_
    rintro s _ rfl
    refine .ok ⟨rfl, rfl, rfl, .inl ⟨Int.one_pos, hlen, s.buf, ?_, rfl, rfl⟩⟩
    exact bodies.alloc_write _ _
  · exact .ok ⟨rfl, rfl, rfl, .inr ⟨fun hboth => hlen hboth.2, rfl, rfl, rfl⟩⟩
  · exact .ok ⟨rfl, rfl, rfl, .inr ⟨fun hboth => lt_irrefl _ hboth.1, rfl, rfl, rfl⟩⟩

section Read
variable {bodies : BodyHeap} {m : OpenflowMessage} {v : OrssNic.OpenflowMessage}
variable {r : ℤ × Socket × BodyHeap × OpenflowMessage} {r' : ℤ × Socket × OrssNic.OpenflowMessage}

theorem ReadAgrees.extends (h : ReadAgrees bodies m v r r') : Extends bodies r.2.2.1 := by
  rcases h.data with ⟨-, -, body, hbodies, -⟩ | ⟨-, hbodies, -⟩
  · rw [hbodies]
    exact .alloc bodies body
  · rw [hbodies]
    exact .refl bodies

theorem ReadAgrees.shows (h : ReadAgrees bodies m v r r') (hreceived : 0 < r.1) :
    Shows r.2.2.1 r.2.2.2 r'.2.2 := by
  refine ⟨h.header, fun hlen => ?_⟩
  rcases h.data with ⟨-, -, body, hbodies, hm, hv⟩ | ⟨hnot, -⟩
  · rw [hbodies, hm, hv]
    exact ⟨bodies.next, Nat.lt_succ_self _, rfl, by rw [Heap.alloc_cell_new]⟩
  · exact absurd ⟨hreceived, hlen⟩ hnot

theorem ReadAgrees.owned (h : ReadAgrees bodies m v r r') {owners : List Ref}
    (ho : bodies.OwnedBy owners) :
    r.2.2.1.OwnedBy (owners ++ if 0 < r.1 then r.2.2.2.owns else []) := by
  rcases h.data with ⟨hreceived, hlen, body, hbodies, hm, -⟩ | ⟨hnot, hbodies, -⟩
  · rw [if_pos hreceived, OpenflowMessage.owns, if_pos hlen, hm, hbodies]
    exact ho.alloc body
  · have hnone : (if 0 < r.1 then r.2.2.2.owns else []) = [] := by
      split_ifs with hreceived
      · exact owns_of_short fun hlen => hnot ⟨hreceived, hlen⟩
      · rfl
    rw [hnone, List.append_nil, hbodies]
    exact ho

theorem ReadAgrees.follows (h : ReadAgrees bodies m v r r') {owners : List Ref}
    (hf : Follows bodies owners m v) :
    Follows r.2.2.1 (owners ++ if 0 < r.1 then r.2.2.2.owns else []) r.2.2.2 r'.2.2 := by
  rcases h.data with ⟨hreceived, hlen, body, hbodies, hm, hv⟩ | ⟨-, hbodies, hm, hv⟩
  · refine ⟨h.header, ?_, fun ref href => ?_⟩
    · rw [hm, hv, hbodies, Option.map_some, Heap.alloc_cell_new]
    · rw [if_pos hreceived, OpenflowMessage.owns, if_pos hlen, href]
      exact List.mem_append_right _ (List.mem_singleton_self ref)
  · refine ⟨h.header, ?_, fun ref href => ?_⟩
    · rw [hv, hm, hbodies, hf.data]
    · exact List.mem_append_left _ (hf.held ref (hm ▸ href))

end Read

/-! ## Waiting for a message -/

structure Mirrors (bodies : BodyHeap) (connection : OpenflowConnection)
    (connection' : OrssNic.OpenflowConnection) : Prop where
  fd : connection.fd = connection'.fd
  count : connection.nbMsgBuffered = connection'.nbMsgBuffered
  buffered : List.Forall₂ (Shows bodies) connection.buffered connection'.buffered

theorem Mirrors.extends {bodies bodies' : BodyHeap} {connection : OpenflowConnection}
    {connection' : OrssNic.OpenflowConnection} (h : Mirrors bodies connection connection')
    (he : Extends bodies bodies') : Mirrors bodies' connection connection' :=
  ⟨h.fd, h.count, h.buffered.imp fun _ _ hshows => hshows.extends he⟩

theorem bufferMessage_buffered {connection connection' : OpenflowConnection}
    {msg : OpenflowMessage} (h : bufferMessage connection msg = .ok connection') :
    connection'.fd = connection.fd ∧ connection'.buffered = connection.buffered ++ [msg] := by
  rw [bufferMessage] at h
  split_ifs at h with hroom
  cases h
  refine ⟨rfl, ?_⟩
  have hnext : (connection.nbMsgBuffered + 1).toNat = connection.nbMsgBuffered.toNat + 1 := by
    rw [MSG_BUFFER_SIZE] at hroom
    simp only [UInt8.toNat_add, UInt8.reduceToNat]
    omega
  rw [OpenflowConnection.buffered, hnext, CLists.take_succ_set (connection.allocated ▸ hroom)]
  rfl

theorem bufferMessage_agree {bodies : BodyHeap} {connection : OpenflowConnection}
    {connection' : OrssNic.OpenflowConnection} {msg : OpenflowMessage}
    {msg' : OrssNic.OpenflowMessage} (h : Mirrors bodies connection connection')
    (hmsg : Shows bodies msg msg') :
    Agree (fun c c' => Mirrors bodies c c' ∧ c.owners = connection.owners ++ msg.owns)
      (bufferMessage connection msg) (OrssNic.bufferMessage connection' msg') := by
  cases hbuffer : bufferMessage connection msg with
  | error e =>
    rw [bufferMessage] at hbuffer
    split_ifs at hbuffer with hroom
    cases hbuffer
    have hroom' : ¬connection'.nbMsgBuffered.toNat < MSG_BUFFER_SIZE := h.count ▸ hroom
    rw [OrssNic.bufferMessage, if_neg hroom']
    exact .error _
  | ok c =>
    obtain ⟨hfd, hbuffered⟩ := bufferMessage_buffered hbuffer
    rw [bufferMessage] at hbuffer
    split_ifs at hbuffer with hroom
    cases hbuffer
    have hbuffer' : OrssNic.bufferMessage connection' msg' = .ok _ := if_pos (h.count ▸ hroom)
    obtain ⟨hfd', hbuffered'⟩ := OrssNic.bufferMessage_buffered hbuffer'
    rw [hbuffer']
    refine .ok ⟨⟨hfd.trans (h.fd.trans hfd'.symm), ?_, ?_⟩, ?_⟩
    · exact congrArg (· + 1) h.count
    · rw [hbuffered, hbuffered']
      exact List.rel_append h.buffered (.cons hmsg .nil)
    · rw [OpenflowConnection.owners, hbuffered, List.flatMap_append, List.flatMap_singleton]
      rfl

structure WaitAgrees (start : BodyHeap) (before : OpenflowConnection) (base others : List Ref)
    (s : Waiting) (s' : OrssNic.Waiting) : Prop where
  extended : Extends start s.bodies
  grown : before.owners ⊆ s.connection.owners
  connection : Mirrors s.bodies s.connection s'.connection
  msg : Follows s.bodies
    (base ++ s.connection.owners ++ if s.msgReceived then s.msg.owns else []) s.msg s'.msg
  msgReceived : s.msgReceived = s'.msgReceived
  shows : s.msgReceived = true → Shows s.bodies s.msg s'.msg
  owned : s.bodies.OwnedBy (others ++ s.connection.owners ++
    if s.msgReceived then s.msg.owns else [])

theorem waitStep_agree (type : UInt8) (xid : UInt32) {start : BodyHeap}
    {before : OpenflowConnection} {base others : List Ref} {s : Waiting} {s' : OrssNic.Waiting}
    (h : WaitAgrees start before base others s s') :
    Agree (Option.Rel (WaitAgrees start before base others)) (waitStep type xid s)
      (OrssNic.waitStep type xid s') := by
  rw [waitStep, OrssNic.waitStep, ← h.msgReceived]
  split_ifs with hflag
  · exact .ok .none
  have howned := h.owned
  have hmsg := h.msg
  rw [if_neg hflag, List.append_nil] at howned hmsg
  rw [← h.connection.fd]
  refine (readOpenflowMessage_agree s.connection.fd s.bodies hmsg.header).bind ?_
  rintro ⟨received, fd, bodies, msg⟩ ⟨received', fd', msg'⟩ hread
  have hshows := hread.shows
  have hnew := hread.owned howned
  have hfollows := hread.follows hmsg
  have hextends := h.extended.trans hread.extends
  have hconnection : Mirrors bodies { s.connection with fd := fd }
      { s'.connection with fd := fd' } :=
    ⟨hread.fd, h.connection.count, (h.connection.extends hread.extends).buffered⟩
  obtain rfl : received = received' := hread.received
  dsimp only at hshows hnew hfollows hextends ⊢
  rw [← hfollows.header]
  split_ifs with hreceived hawaited
  · rw [if_pos hreceived] at hnew hfollows
    exact .ok (.some ⟨hextends, h.grown, hconnection, hfollows, rfl, fun _ => hshows hreceived,
      hnew⟩)
  · rw [if_pos hreceived, List.append_assoc] at hnew hfollows
    refine (bufferMessage_agree hconnection (hshows hreceived)).bind ?_
    rintro c c' ⟨hmirrors, howners⟩
    have howners : c.owners = s.connection.owners ++ msg.owns := howners
    refine .ok (.some ⟨hextends, ?_, hmirrors, ?_, rfl,
      fun hfalse => absurd hfalse Bool.false_ne_true, ?_⟩)
    · rw [howners]
      exact List.subset_append_of_subset_left _ h.grown
    · rw [howners, if_neg Bool.false_ne_true, List.append_nil]
      exact hfollows
    · rw [howners, if_neg Bool.false_ne_true, List.append_nil]
      exact hnew
  · rw [if_neg hreceived] at hnew hfollows
    exact .ok (.some ⟨hextends, h.grown, hconnection, hfollows, rfl,
      fun hfalse => absurd hfalse Bool.false_ne_true, hnew⟩)

theorem waitStep_stop {type : UInt8} {xid : UInt32} {s : Waiting}
    (h : waitStep type xid s = .ok none) : s.msgReceived = true := by
  rw [waitStep] at h
  split_ifs at h with hflag
  · exact hflag
  · obtain ⟨r, -, h⟩ := bind_eq_ok.mp h
    dsimp only at h
    split_ifs at h
    · cases h
    · obtain ⟨c, -, h⟩ := bind_eq_ok.mp h
      cases h
    · cases h

structure WaitResult (start : BodyHeap) (before : OpenflowConnection) (base others : List Ref)
    (r : OpenflowConnection × BodyHeap × OpenflowMessage)
    (r' : OrssNic.OpenflowConnection × OrssNic.OpenflowMessage) : Prop where
  extended : Extends start r.2.1
  grown : before.owners ⊆ r.1.owners
  connection : Mirrors r.2.1 r.1 r'.1
  msg : Follows r.2.1 (base ++ r.1.owners ++ r.2.2.owns) r.2.2 r'.2
  shows : Shows r.2.1 r.2.2 r'.2
  owned : r.2.1.OwnedBy (others ++ r.1.owners ++ r.2.2.owns)

theorem openflowWaitForMessage_agree (type : UInt8) (xid : UInt32) {bodies : BodyHeap}
    {base others : List Ref} {connection : OpenflowConnection}
    {connection' : OrssNic.OpenflowConnection} {msg : OpenflowMessage}
    {msg' : OrssNic.OpenflowMessage} (h : Mirrors bodies connection connection')
    (hmsg : Follows bodies (base ++ connection.owners) msg msg')
    (ho : bodies.OwnedBy (others ++ connection.owners)) :
    Agree (WaitResult bodies connection base others)
      (openflowWaitForMessage connection bodies type msg xid)
      (OrssNic.openflowWaitForMessage connection' type msg' xid) := by
  have hstart : WaitAgrees bodies connection base others ⟨connection, bodies, msg, false⟩
      ⟨connection', msg', false⟩ := by
    refine ⟨.refl bodies, List.Subset.refl _, h, ?_, rfl,
      fun hfalse => absurd hfalse Bool.false_ne_true, ?_⟩
    · rw [if_neg Bool.false_ne_true, List.append_nil]
      exact hmsg
    · rw [if_neg Bool.false_ne_true, List.append_nil]
      exact ho
  rw [openflowWaitForMessage, OrssNic.openflowWaitForMessage, h.fd]
  refine (whileLoop_agree (fun t t' ht => waitStep_agree type xid ht) _ hstart).bind ?_
  rintro t t' ⟨ht, hstop⟩
  have hflag := waitStep_stop hstop
  have howned := ht.owned
  have hfollows := ht.msg
  rw [if_pos hflag] at howned hfollows
  exact .ok ⟨ht.extended, ht.grown, ht.connection, hfollows, ht.shows hflag, howned⟩

end OrssNic.Bodies
