import Mathlib

/-!
# Messages one after the other

A stream of messages that each say where they end. Whoever has only the
beginning of the stream finds exactly the messages that are whole in it, and
what is left over begins the next one. A sender may skip messages, which leaves
an ordered part of what it had to say.
-/

namespace CFraming

universe u v
variable {α : Type u} {β : Type v}

theorem prefix_concat_append {l front back : List α} {a : α} (h : l ++ [a] <+: front ++ back) :
    l ++ [a] <+: front ∨ ∃ l', l = front ++ l' ∧ l' ++ [a] <+: back := by
  obtain hle | hge := List.prefix_or_prefix_of_prefix h (List.prefix_append front back)
  · exact .inl hle
  · obtain ⟨rest, hrest⟩ := hge
    obtain rfl | ⟨rest, b, rfl⟩ := List.eq_nil_or_concat rest
    · rw [List.append_nil] at hrest
      exact .inl (hrest ▸ List.prefix_rfl)
    · rw [List.concat_eq_append, ← List.append_assoc] at hrest
      obtain ⟨rfl, hb⟩ := List.append_inj' hrest rfl
      rw [List.append_assoc, List.prefix_append_right_inj] at h
      exact .inr ⟨rest, rfl, h⟩

/-! ## Codes -/

/-- A code whose messages can be cut off the front of a stream. -/
structure FrameCode (α : Type u) (β : Type v) where
  encode : α → List β
  decode : List β → Option (α × List β)
  Fits : α → Prop
  decode_nil : decode [] = none
  encode_ne_nil : ∀ a, encode a ≠ []
  decode_encode : ∀ a rest, Fits a → decode (encode a ++ rest) = some (a, rest)
  decode_part : ∀ a part, Fits a → part <+: encode a → part ≠ encode a → decode part = none

namespace FrameCode
variable (code : FrameCode α β)

def stream (messages : List α) : List β := messages.flatMap code.encode

/-- The whole messages at the front, and what is left over. Every message takes
at least one symbol. -/
def listen : ℕ → List β → List α × List β
  | 0, bytes => ([], bytes)
  | n + 1, bytes =>
    match code.decode bytes with
    | none => ([], bytes)
    | some (a, rest) => (a :: (listen n rest).1, (listen n rest).2)

def hear (bytes : List β) : List α × List β := code.listen bytes.length bytes

/-- What is left over begins the first message that is missing. -/
def Begins (left : List β) : List α → Prop
  | [] => left = []
  | a :: _ => left <+: code.encode a ∧ left ≠ code.encode a

variable {code}

theorem stream_append (messages messages' : List α) :
    code.stream (messages ++ messages') = code.stream messages ++ code.stream messages' :=
  List.flatMap_append

theorem listen_of_decode {n : ℕ} {bytes : List β} (h : code.decode bytes = none) :
    code.listen n bytes = ([], bytes) := by
  cases n with
  | zero => rfl
  | succ n => rw [listen, h]

theorem listen_succ {n : ℕ} {bytes rest : List β} {a : α}
    (h : code.decode bytes = some (a, rest)) :
    code.listen (n + 1) bytes = (a :: (code.listen n rest).1, (code.listen n rest).2) := by
  rw [listen, h]

theorem prefix_cons {bytes : List β} {a : α} {messages : List α}
    (h : bytes <+: code.stream (a :: messages)) :
    (∃ rest, bytes = code.encode a ++ rest ∧ rest <+: code.stream messages) ∨
      (bytes <+: code.encode a ∧ bytes ≠ code.encode a) := by
  rw [stream, List.flatMap_cons] at h
  obtain hlong | hshort := List.prefix_or_prefix_of_prefix (List.prefix_append _ _) h
  · obtain ⟨rest, rfl⟩ := hlong
    exact .inl ⟨rest, rfl, (List.prefix_append_right_inj _).mp h⟩
  · by_cases heq : bytes = code.encode a
    · exact .inl ⟨[], by rw [heq, List.append_nil], List.nil_prefix⟩
    · exact .inr ⟨hshort, heq⟩

theorem listen_prefix {messages : List α} (hfits : ∀ a ∈ messages, code.Fits a) {n : ℕ}
    {bytes : List β} (h : bytes <+: code.stream messages) (hn : bytes.length ≤ n) :
    ∃ heard missing left, messages = heard ++ missing ∧ code.listen n bytes = (heard, left) ∧
      bytes = code.stream heard ++ left ∧ code.Begins left missing := by
  induction messages generalizing n bytes with
  | nil =>
    have hbytes : bytes = [] := List.prefix_nil.mp h
    subst hbytes
    exact ⟨[], [], [], rfl, listen_of_decode code.decode_nil, rfl, rfl⟩
  | cons a messages ih =>
    rw [List.forall_mem_cons] at hfits
    obtain ⟨rest, rfl, hrest⟩ | ⟨hpart, hne⟩ := prefix_cons h
    · have hpos := List.length_pos_of_ne_nil (code.encode_ne_nil a)
      rw [List.length_append] at hn
      cases n with
      | zero => omega
      | succ n =>
        have hlen : rest.length ≤ n := by omega
        obtain ⟨heard, missing, left, rfl, hlisten, rfl, hbegins⟩ := ih hfits.2 hrest hlen
        refine ⟨a :: heard, missing, left, rfl, ?_, ?_, hbegins⟩
        · rw [listen_succ (code.decode_encode a _ hfits.1), hlisten]
        · rw [stream, stream, List.flatMap_cons, List.append_assoc]
    · have hnone := code.decode_part a bytes hfits.1 hpart hne
      exact ⟨[], a :: messages, bytes, rfl, listen_of_decode hnone, rfl, hpart, hne⟩

/-- Whatever part of the stream has come, what is heard are its first messages. -/
theorem hear_prefix {messages : List α} (hfits : ∀ a ∈ messages, code.Fits a) {bytes : List β}
    (h : bytes <+: code.stream messages) :
    ∃ heard missing left, messages = heard ++ missing ∧ code.hear bytes = (heard, left) ∧
      bytes = code.stream heard ++ left ∧ code.Begins left missing :=
  listen_prefix hfits h le_rfl

theorem Begins.eq_nil {heard missing : List α} {left : List β}
    (h : code.Begins left missing)
    (hall : code.stream heard ++ left = code.stream (heard ++ missing)) :
    missing = [] ∧ left = [] := by
  cases missing with
  | nil => exact ⟨rfl, h⟩
  | cons a missing =>
    rw [stream_append, List.append_cancel_left_eq] at hall
    have hlt : left.length < (code.encode a).length :=
      lt_of_le_of_ne h.1.length_le fun hlen => h.2 (h.1.eq_of_length hlen)
    have hlen := congrArg List.length hall
    rw [stream, List.flatMap_cons, List.length_append] at hlen
    omega

theorem hear_stream {messages : List α} (hfits : ∀ a ∈ messages, code.Fits a) :
    code.hear (code.stream messages) = (messages, []) := by
  obtain ⟨heard, missing, left, rfl, hhear, hbytes, hbegins⟩ := hear_prefix hfits List.prefix_rfl
  obtain ⟨rfl, rfl⟩ := hbegins.eq_nil hbytes.symm
  rw [hhear, List.append_nil]

end FrameCode

/-! ## Messages that get through -/

/-- A list is split into two, each of which keeps the order. -/
inductive Splits : List α → List α → List α → Prop
  | nil : Splits [] [] []
  | left {l kept dropped : List α} (a : α) (h : Splits l kept dropped) :
    Splits (a :: l) (a :: kept) dropped
  | right {l kept dropped : List α} (a : α) (h : Splits l kept dropped) :
    Splits (a :: l) kept (a :: dropped)

namespace Splits
variable {l l' kept kept' dropped dropped' : List α}

theorem append (h : Splits l kept dropped) (h' : Splits l' kept' dropped') :
    Splits (l ++ l') (kept ++ kept') (dropped ++ dropped') := by
  induction h with
  | nil => exact h'
  | left a _ ih => exact .left a ih
  | right a _ ih => exact .right a ih

theorem sublist (h : Splits l kept dropped) : kept.Sublist l := by
  induction h with
  | nil => exact List.nil_sublist _
  | left a _ ih => exact ih.cons_cons a
  | right a _ ih => exact ih.cons a

end Splits

end CFraming
