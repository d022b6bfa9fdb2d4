import Mathlib.Data.Nat.ModEq
import Mathlib.Tactic.Ring

/-!
# Little-endian numbers in a byte stream

`leBytes n v` is `v` as `n` bytes, least significant first, and `leNat` reads
such bytes back; `leNat_leBytes` is the round trip, modulo `256 ^ n`.
-/

namespace Wire

/-- `v` on `n` bytes, least significant first. -/
def leBytes : ℕ → ℕ → List UInt8
  | 0, _ => []
  | n + 1, v => UInt8.ofNat v :: leBytes n (v / 256)

/-- The number that little-endian bytes stand for. -/
def leNat : List UInt8 → ℕ
  | [] => 0
  | b :: bs => b.toNat + 256 * leNat bs

@[simp] theorem length_leBytes (n v : ℕ) : (leBytes n v).length = n := by
  induction n generalizing v with
  | zero => rfl
  | succ n ih => simp [leBytes, ih]

theorem leNat_leBytes (n v : ℕ) : leNat (leBytes n v) = v % 256 ^ n := by
  induction n generalizing v with
  | zero => simp [leBytes, leNat, Nat.mod_one]
  | succ n ih =>
    have h8 : (UInt8.ofNat v).toNat = v % 256 := by simp
    rw [leBytes, leNat, ih, h8, pow_succ, mul_comm (256 ^ n), Nat.mod_mul]

theorem leNat_leBytes_of_lt {n v : ℕ} (h : v < 256 ^ n) : leNat (leBytes n v) = v := by
  rw [leNat_leBytes, Nat.mod_eq_of_lt h]

/-- A `uint16_t` on the wire. -/
def le16 (v : UInt16) : List UInt8 := leBytes 2 v.toNat

/-- A `uint32_t` on the wire. -/
def le32 (v : UInt32) : List UInt8 := leBytes 4 v.toNat

def ofLe16 (bs : List UInt8) : UInt16 := UInt16.ofNat (leNat bs)

def ofLe32 (bs : List UInt8) : UInt32 := UInt32.ofNat (leNat bs)

@[simp] theorem length_le16 (v : UInt16) : (le16 v).length = 2 := length_leBytes 2 _

@[simp] theorem length_le32 (v : UInt32) : (le32 v).length = 4 := length_leBytes 4 _

@[simp] theorem ofLe16_le16 (v : UInt16) : ofLe16 (le16 v) = v := by
  rw [ofLe16, le16, leNat_leBytes_of_lt v.toNat_lt, UInt16.ofNat_toNat]

@[simp] theorem ofLe32_le32 (v : UInt32) : ofLe32 (le32 v) = v := by
  rw [ofLe32, le32, leNat_leBytes_of_lt v.toNat_lt, UInt32.ofNat_toNat]

end Wire
