import RType.Spec.TCPClient
import RType.Spec.TCPServer

/-!
# Chat messages through the relay

The relay puts the sender's name in front of the text and writes the new length as a
`uint16_t`.

* `receiveChatMessages_frame`: a frame with a right length is received as a whole.
* `chatRoundTrips_iff`: **a relayed chat is received as it was sent if and only if name and
  text fit the length field.**
* `not_chatRoundTrips_long`: a text of 65535 bytes is not.
-/

namespace RType

open Wire

/-- The frame announces the bytes that follow, and a receiver takes exactly `fullMsg` and goes
on with what comes next. -/
def ChatRoundTrips (frame fullMsg : List UInt8) : Prop :=
  (ofLe16 ((frame.drop 1).take 2)).toNat = (frame.drop 3).length ∧
    ∀ next, TCPClient.receiveChatMessages (frame ++ next) =
      (fullMsg :: (TCPClient.receiveChatMessages next).1, (TCPClient.receiveChatMessages next).2)

theorem chatMessage_bytes (fullMsg : List UInt8) :
    (Block.chatMessage fullMsg).bytes =
      TCPMessageType.chatMessage.code :: (le16 (UInt16.ofNat fullMsg.length) ++ fullMsg) := rfl

/-- Two bytes of a length. -/
theorem exists_le16 (v : UInt16) : ∃ l₀ l₁, le16 v = [l₀, l₁] := by
  have hlen : (le16 v).length = 2 := length_le16 v
  obtain ⟨l₀, l₁, h⟩ := List.length_eq_two.1 hlen
  exact ⟨l₀, l₁, h⟩

/-- A chat whose length is right is received as a whole. -/
theorem receiveChatMessages_frame {fullMsg : List UInt8} (h : fullMsg.length < 65536) (next : List UInt8) :
    TCPClient.receiveChatMessages ((Block.chatMessage fullMsg).bytes ++ next) =
      (fullMsg :: (TCPClient.receiveChatMessages next).1, (TCPClient.receiveChatMessages next).2) := by
  obtain ⟨l₀, l₁, hl⟩ := exists_le16 (UInt16.ofNat fullMsg.length)
  have hlength : (ofLe16 [l₀, l₁]).toNat = fullMsg.length := by
    rw [← hl]
    exact toNat_ofLe16_length h
  have hfits : fullMsg.length ≤ (fullMsg ++ next).length := by
    rw [List.length_append]
    exact Nat.le_add_right _ _
  rw [chatMessage_bytes, hl]
  simp only [List.cons_append, List.nil_append]
  rw [TCPClient.receiveChatMessages]
  simp only [hlength, if_true, hfits, List.take_left, List.drop_left]

/-- The length field of a chat. -/
theorem chatMessage_length (fullMsg : List UInt8) :
    (ofLe16 (((Block.chatMessage fullMsg).bytes.drop 1).take 2)).toNat = fullMsg.length % 65536 := by
  have htake : ((Block.chatMessage fullMsg).bytes.drop 1).take 2 = le16 (UInt16.ofNat fullMsg.length) := by
    rw [chatMessage_bytes, List.drop_succ_cons, List.drop_zero]
    exact List.take_left' (length_le16 _)
  rw [htake, ofLe16_le16, UInt16.toNat_ofNat']

theorem chatMessage_payload (fullMsg : List UInt8) : (Block.chatMessage fullMsg).bytes.drop 3 = fullMsg := by
  rw [chatMessage_bytes, List.drop_succ_cons]
  exact List.drop_left' (length_le16 _)

/-- A chat frame round-trips if its payload fits the length field, and only then. -/
theorem chatMessage_roundTrips_iff (fullMsg : List UInt8) :
    ChatRoundTrips (Block.chatMessage fullMsg).bytes fullMsg ↔ fullMsg.length < 65536 := by
  constructor
  · rintro ⟨hlength, -⟩
    rw [chatMessage_length, chatMessage_payload] at hlength
    rw [← hlength]
    exact Nat.mod_lt _ (by decide)
  · intro h
    refine ⟨?_, receiveChatMessages_frame h⟩
    rw [chatMessage_length, chatMessage_payload, Nat.mod_eq_of_lt h]

/-- **Relayed chats.** What a thread relays for the accepted text `msg` of a sender named
`name` is received as `name + ": " + msg` if and only if these fit a `uint16_t` length. -/
theorem chatRoundTrips_iff (u : Peer) (roomId : ℤ) (name msg : List UInt8) (sock : ℕ) (socks : List ℕ) :
    ∃ relayed, Pc.act (Pc.next (Pc.next (.chatSender u roomId msg) (some name)) (sock :: socks)) =
        .relay sock relayed ∧
      (ChatRoundTrips relayed.bytes (name ++ [58, 32] ++ msg) ↔ name.length + 2 + msg.length < 65536) := by
  refine ⟨.chatMessage (name ++ [58, 32] ++ msg), rfl, ?_⟩
  rw [chatMessage_roundTrips_iff, List.length_append, List.length_append]
  rfl

/-- **A text that no longer fits**: the client "Bob" sends 65535 bytes, and the relay announces
4 of the 65540 it writes. -/
theorem not_chatRoundTrips_long : ∃ relayed,
    Pc.act (Pc.next (Pc.next (.chatSender ⟨1, [66, 111, 98]⟩ 0 (List.replicate 65535 65)) (some [66, 111, 98])) [2]) =
        .relay 2 relayed ∧
      ¬ ChatRoundTrips relayed.bytes ([66, 111, 98] ++ [58, 32] ++ List.replicate 65535 65) := by
  refine ⟨.chatMessage ([66, 111, 98] ++ [58, 32] ++ List.replicate 65535 65), rfl, ?_⟩
  rw [chatMessage_roundTrips_iff, List.length_append, List.length_replicate]
  decide

end RType
