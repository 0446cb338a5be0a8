import Mathlib

/-!
# Selective receive

The messages of a party that receives in two ways. A selective receive returns
the first unread message with some property and sets the ones in front of it
aside; a drain handles those set aside and then unread ones. Whatever the order
of the two, every message that arrived is in one place, and the messages that
no receive returned are handled in the order of their arrival.
-/

namespace CMailbox

variable {α : Type*}

structure Mailbox (α : Type*) where
  returned : List α
  handled : List α
  aside : List α
  unread : List α

namespace Mailbox
variable {box : Mailbox α} {arrived skipped drained rest : List α} {m : α}

def start (unread : List α) : Mailbox α := ⟨[], [], [], unread⟩

def arrive (box : Mailbox α) (batch : List α) : Mailbox α :=
  { box with unread := box.unread ++ batch }

def select (box : Mailbox α) (skipped : List α) (m : α) (rest : List α) : Mailbox α :=
  ⟨box.returned ++ [m], box.handled, box.aside ++ skipped, rest⟩

def drain (box : Mailbox α) (drained rest : List α) : Mailbox α :=
  ⟨box.returned, box.handled ++ box.aside ++ drained, [], rest⟩

/-- Neither loss nor duplication, and no overtaking. -/
structure Conserves (box : Mailbox α) (arrived : List α) : Prop where
  perm : arrived.Perm (box.returned ++ (box.handled ++ box.aside) ++ box.unread)
  returned : (box.returned ++ box.unread).Sublist arrived
  deferred : (box.handled ++ box.aside ++ box.unread).Sublist arrived

theorem Conserves.start (unread : List α) : (start unread).Conserves unread :=
  ⟨by simp [Mailbox.start], by simp [Mailbox.start], by simp [Mailbox.start]⟩

theorem Conserves.arrive (h : box.Conserves arrived) (batch : List α) :
    (box.arrive batch).Conserves (arrived ++ batch) where
  perm := by
    rw [Mailbox.arrive, ← List.append_assoc]
    exact h.perm.append_right batch
  returned := by
    rw [Mailbox.arrive, ← List.append_assoc]
    exact h.returned.append_right batch
  deferred := by
    rw [Mailbox.arrive, ← List.append_assoc]
    exact h.deferred.append_right batch

theorem Conserves.select (h : box.Conserves arrived) (hunread : box.unread = skipped ++ m :: rest) :
    (box.select skipped m rest).Conserves arrived where
  perm := by
    have hperm := h.perm
    rw [hunread] at hperm
    refine hperm.trans ?_
    simp only [Mailbox.select, List.append_assoc, List.cons_append, List.nil_append]
    refine List.Perm.append_left _ ?_
    have hmiddle : (box.handled ++ (box.aside ++ skipped) ++ m :: rest).Perm
        (m :: (box.handled ++ (box.aside ++ skipped) ++ rest)) := List.perm_middle
    simpa only [List.append_assoc] using hmiddle
  returned := by
    refine List.Sublist.trans ?_ h.returned
    rw [hunread, Mailbox.select, List.append_assoc, List.singleton_append]
    exact (List.sublist_append_right skipped (m :: rest)).append_left _
  deferred := by
    refine List.Sublist.trans ?_ h.deferred
    simp only [hunread, Mailbox.select, List.append_assoc]
    exact (((List.sublist_cons_self m rest).append_left _).append_left _).append_left _

theorem Conserves.drain (h : box.Conserves arrived) (hunread : box.unread = drained ++ rest) :
    (box.drain drained rest).Conserves arrived where
  perm := by
    simpa only [hunread, Mailbox.drain, List.append_assoc, List.nil_append] using h.perm
  returned := by
    refine List.Sublist.trans ?_ h.returned
    rw [hunread, Mailbox.drain]
    exact (List.sublist_append_right drained rest).append_left _
  deferred := by
    simpa only [hunread, Mailbox.drain, List.append_assoc, List.nil_append] using h.deferred

/-- Messages of a kind that no receive returns are all deferred. -/
theorem Conserves.countP_eq {p : α → Bool} (h : box.Conserves arrived)
    (hreturned : ∀ m ∈ box.returned, p m = false) :
    arrived.countP p = box.handled.countP p + box.aside.countP p + box.unread.countP p := by
  have hnone : box.returned.countP p = 0 := by
    rw [List.countP_eq_zero]
    intro m hm
    rw [hreturned m hm]
    decide
  rw [h.perm.countP_eq, List.countP_append, List.countP_append, List.countP_append, hnone, zero_add]

end Mailbox

end CMailbox
