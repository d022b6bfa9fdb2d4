import RType.Lib.Chunks
import RType.Proof.ChatFrames

/-!
# Chat messages, poll by poll

`receiveChatMessages` is called now and then, and takes what has arrived since.

* `receiveChatMessages_stable`: on any bytes, what arrives later does not change what a call
  returns.
* `receiveChatMessages_arrived`: one call returns the chats that have arrived.
* `polls_arrived`: **however the bytes arrive, after each call the messages returned are those
  of the chats that have arrived, in order.**
-/

namespace RType

namespace TCPClient

open Chunks Wire

variable {type l₀ l₁ : UInt8} {rest : List UInt8}

/-! ## The turns of the loop -/

/-- Less than a header. -/
theorem receiveChatMessages_short {available : List UInt8} (h : available.length < 3) :
    receiveChatMessages available = ([], available) := by
  refine receiveChatMessages.eq_2 available fun type l₀ l₁ rest heq => ?_
  rw [heq] at h
  simp only [List.length_cons] at h
  omega

/-- A chat that has arrived. -/
theorem receiveChatMessages_whole (h : (ofLe16 [l₀, l₁]).toNat ≤ rest.length) :
    receiveChatMessages (TCPMessageType.chatMessage.code :: l₀ :: l₁ :: rest) =
      (rest.take (ofLe16 [l₀, l₁]).toNat :: (receiveChatMessages (rest.drop (ofLe16 [l₀, l₁]).toNat)).1,
        (receiveChatMessages (rest.drop (ofLe16 [l₀, l₁]).toNat)).2) := by
  rw [receiveChatMessages, if_pos rfl, if_pos h]

/-- A chat that has not arrived wholly. -/
theorem receiveChatMessages_part (h : rest.length < (ofLe16 [l₀, l₁]).toNat) :
    receiveChatMessages (TCPMessageType.chatMessage.code :: l₀ :: l₁ :: rest) =
      ([], TCPMessageType.chatMessage.code :: l₀ :: l₁ :: rest) := by
  rw [receiveChatMessages, if_pos rfl, if_neg (not_le.2 h)]

/-- Any other byte. -/
theorem receiveChatMessages_other (h : type ≠ TCPMessageType.chatMessage.code) :
    receiveChatMessages (type :: l₀ :: l₁ :: rest) = receiveChatMessages (l₀ :: l₁ :: rest) := by
  rw [receiveChatMessages, if_neg h]

/-- **What arrives later does not change what a call returns.** -/
theorem receiveChatMessages_stable : Stable receiveChatMessages := by
  intro x y
  induction x using receiveChatMessages.induct with
  | case1 l₀ l₁ rest length hle messages unread hrec ih =>
    -- a chat is taken from the front of either
    have hle' : length ≤ (rest ++ y).length := by
      rw [List.length_append]
      omega
    rw [List.cons_append, List.cons_append, List.cons_append, receiveChatMessages_whole hle,
      receiveChatMessages_whole hle', List.take_append_of_le_length hle, List.drop_append_of_le_length hle, ih]
    rfl
  | case2 l₀ l₁ rest length hlt => rw [receiveChatMessages_part (not_le.1 hlt), List.nil_append]
  | case3 type l₀ l₁ rest htype ih =>
    rw [List.cons_append, List.cons_append, List.cons_append, receiveChatMessages_other htype,
      receiveChatMessages_other htype]
    exact ih
  | case4 available hshort => rw [receiveChatMessages.eq_2 available hshort, List.nil_append]

/-! ## Frames -/

/-- A chat, as the loop sees it. -/
theorem bytes_chatMessage (payload : List UInt8) (fits : payload.length < 65536) :
    (ChatFrame.chatMessage payload fits).bytes = (Block.chatMessage payload).bytes := by
  rw [ChatFrame.bytes, ServerFrame.bytes, ServerFrame.blocks, List.flatMap_singleton]

theorem length_bytes_chatMessage (payload : List UInt8) (fits : payload.length < 65536) :
    (ChatFrame.chatMessage payload fits).bytes.length = 3 + payload.length := by
  rw [bytes_chatMessage, chatMessage_bytes, List.length_cons, List.length_append, length_le16]
  omega

/-- In less than a header there is no chat. -/
theorem payloads_arrived_of_lt (fs : List ChatFrame) {n : ℕ} (h : n < 3) :
    (arrived ChatFrame.bytes fs n).filterMap ChatFrame.payload? = [] := by
  rw [List.filterMap_eq_nil_iff]
  intro f hf
  have hlen := length_le_of_mem_arrived hf
  cases f with
  | chatMessage payload fits =>
    rw [length_bytes_chatMessage] at hlen
    omega
  | gameStartingNotification => rfl

/-- A part of a chat stays where it is. -/
theorem receiveChatMessages_upTo {payload : List UInt8} {fits : payload.length < 65536} {x : List UInt8}
    (hx : x <+: (ChatFrame.chatMessage payload fits).bytes) (hlt : x.length < 3 + payload.length) :
    receiveChatMessages x = ([], x) := by
  by_cases hshort : x.length < 3
  · exact receiveChatMessages_short hshort
  · obtain ⟨l₀, l₁, hl⟩ := exists_le16 (UInt16.ofNat payload.length)
    have hlength : (ofLe16 [l₀, l₁]).toNat = payload.length := by
      rw [← hl]
      exact toNat_ofLe16_length fits
    rw [bytes_chatMessage, chatMessage_bytes, hl] at hx
    obtain ⟨rest, rfl⟩ : ∃ rest, x = TCPMessageType.chatMessage.code :: l₀ :: l₁ :: rest := by
      obtain ⟨rest, rfl⟩ := List.prefix_of_prefix_length_le
        (List.prefix_append [TCPMessageType.chatMessage.code, l₀, l₁] payload) hx (not_lt.1 hshort)
      exact ⟨rest, rfl⟩
    refine receiveChatMessages_part ?_
    simp only [List.length_cons] at hlt
    omega

/-- **One call returns the chats that have arrived.** -/
theorem receiveChatMessages_arrived (fs : List ChatFrame) {x : List UInt8} (hx : x <+: fs.flatMap ChatFrame.bytes) :
    (receiveChatMessages x).1 = (arrived ChatFrame.bytes fs x.length).filterMap ChatFrame.payload? := by
  induction fs generalizing x with
  | nil =>
    obtain rfl := List.prefix_nil.1 hx
    rw [receiveChatMessages_short (by decide)]
    rfl
  | cons f fs ih =>
    rcases isPrefix_cons hx with ⟨hlt, hpart⟩ | ⟨y, rfl, hy⟩
    · rw [arrived_cons_of_lt hlt]
      cases f with
      | chatMessage payload fits =>
        rw [length_bytes_chatMessage] at hlt
        rw [receiveChatMessages_upTo hpart hlt]
        rfl
      | gameStartingNotification =>
        have hempty : x.length < 1 := hlt
        rw [receiveChatMessages_short (by omega)]
        rfl
    · rw [List.length_append, arrived_cons_of_le (Nat.le_add_right _ _), Nat.add_sub_cancel_left]
      cases f with
      | chatMessage payload fits =>
        rw [bytes_chatMessage, receiveChatMessages_frame fits, ih hy]
        rfl
      | gameStartingNotification =>
        -- the byte is dropped as soon as two more are there
        by_cases hshort : y.length < 2
        · have hlen : (ChatFrame.gameStartingNotification.bytes ++ y).length < 3 := by
            rw [List.length_append]
            exact Nat.add_lt_add_left hshort 1
          rw [receiveChatMessages_short hlen]
          exact (payloads_arrived_of_lt fs (by omega)).symm
        · have htype : TCPMessageType.gameStartingNotification.code ≠ TCPMessageType.chatMessage.code := by decide
          obtain ⟨l₀, l₁, rest, rfl⟩ : ∃ l₀ l₁ rest, y = l₀ :: l₁ :: rest := by
            rcases y with _ | ⟨l₀, _ | ⟨l₁, rest⟩⟩
            · exact absurd Nat.zero_lt_two hshort
            · exact absurd Nat.one_lt_two hshort
            · exact ⟨l₀, l₁, rest, rfl⟩
          exact (congrArg Prod.fst (receiveChatMessages_other htype)).trans (ih hy)

/-! ## Calls -/

/-- **However the bytes arrive, after each call the messages returned are those of the chats that
have arrived, in order.** -/
theorem polls_arrived (fs : List ChatFrame) (chunks : List (List UInt8)) (h : chunks.flatten <+: fs.flatMap ChatFrame.bytes)
    (n : ℕ) : ((calls receiveChatMessages [] chunks).1.take n).flatten =
      (arrived ChatFrame.bytes fs (chunks.take n).flatten.length).filterMap ChatFrame.payload? := by
  have hsplit : chunks.flatten = (chunks.take n).flatten ++ (chunks.drop n).flatten := by
    rw [← List.flatten_append, List.take_append_drop]
  have hx : (chunks.take n).flatten <+: fs.flatMap ChatFrame.bytes := (hsplit ▸ List.prefix_append _ _).trans h
  have hempty : receiveChatMessages [] = ([], []) := receiveChatMessages_short (by decide)
  have hcalls := congrArg Prod.fst (receiveChatMessages_stable.calls hempty (chunks.take n))
  rw [calls_take]
  exact hcalls.trans (receiveChatMessages_arrived fs hx)

/-- The start of the game, a chat in three parts and an empty chat. -/
theorem polls_arrived_parts : ((calls receiveChatMessages [] [[13, 14], [2, 0, 72], [105, 14, 0, 0]]).1.take 3).flatten =
    [[72, 105], []] :=
  polls_arrived [.gameStartingNotification, .chatMessage [72, 105] (by decide), .chatMessage [] (by decide)] _
    (by decide) 3

end TCPClient

end RType
