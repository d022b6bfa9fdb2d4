import Mathlib.Data.List.TakeWhile
import Mathlib.Data.Nat.Digits.Defs

/-!
# Whole numbers in decimal

`print` writes a whole number as bytes, `scan` reads one from the front of some bytes: white
space, a sign, digits, and whatever follows them.

* `scan_print`: what is printed is read back.
* `mem_print`: it is made of digits and the minus sign.
-/

namespace Decimal

/-- The byte of a digit. -/
def digitByte (d : ℕ) : UInt8 := UInt8.ofNat (48 + d)

def isDigit (b : UInt8) : Bool := 48 ≤ b && b ≤ 57

/-- The white space of the C locale. -/
def isSpace (b : UInt8) : Bool := b == 32 || 9 ≤ b && b ≤ 13

/-- The digits of a number, the first one first. -/
def digits (n : ℕ) : List UInt8 := if n = 0 then [48] else ((Nat.digits 10 n).map digitByte).reverse

def print (n : ℤ) : List UInt8 := if n < 0 then 45 :: digits n.natAbs else digits n.natAbs

/-- The number that digits stand for. -/
def value (ds : List UInt8) : ℕ := ds.foldl (fun v b => 10 * v + (b.toNat - 48)) 0

/-- A sign, and what comes after it. -/
def sign : List UInt8 → Bool × List UInt8
  | [] => (false, [])
  | b :: rest => if b = 45 then (true, rest) else if b = 43 then (false, rest) else (false, b :: rest)

/-- The number at the front; none without a digit. -/
def scan (bytes : List UInt8) : Option ℤ :=
  let (negative, rest) := sign (bytes.dropWhile isSpace)
  let ds := rest.takeWhile isDigit
  if ds = [] then none else some (if negative then -(value ds : ℤ) else value ds)

theorem toNat_digitByte {d : ℕ} (h : d < 10) : (digitByte d).toNat = 48 + d := by
  have hlt : 48 + d < 256 := by omega
  exact Nat.mod_eq_of_lt hlt

theorem isDigit_iff (b : UInt8) : isDigit b = true ↔ 48 ≤ b.toNat ∧ b.toNat ≤ 57 := by
  simp only [isDigit, Bool.and_eq_true, decide_eq_true_eq, UInt8.le_iff_toNat_le]
  exact Iff.rfl

theorem isDigit_digitByte {d : ℕ} (h : d < 10) : isDigit (digitByte d) = true := by
  rw [isDigit_iff, toNat_digitByte h]
  omega

theorem digits_ne_nil (n : ℕ) : digits n ≠ [] := by
  unfold digits
  split
  · exact List.cons_ne_nil _ _
  · rename_i hn
    intro hnil
    exact hn (Nat.digits_eq_nil_iff_eq_zero.1 (List.map_eq_nil_iff.1 (List.reverse_eq_nil_iff.1 hnil)))

theorem isDigit_of_mem_digits {n : ℕ} {b : UInt8} (h : b ∈ digits n) : isDigit b = true := by
  unfold digits at h
  split at h
  · rw [List.mem_singleton.1 h]
    rfl
  · obtain ⟨d, hd, rfl⟩ := List.mem_map.1 (List.mem_reverse.1 h)
    exact isDigit_digitByte (Nat.digits_lt_base (by omega) hd)

/-- Digits, the last one first, stand for their sum in base ten. -/
theorem value_reverse {ds : List ℕ} (h : ∀ d ∈ ds, d < 10) :
    value (ds.map digitByte).reverse = Nat.ofDigits 10 ds := by
  induction ds with
  | nil => rfl
  | cons d ds ih =>
    have hd : (digitByte d).toNat - 48 = d := by
      rw [toNat_digitByte (h d List.mem_cons_self)]
      omega
    have hrest := ih fun x hx => h x (List.mem_cons_of_mem _ hx)
    unfold value at hrest ⊢
    rw [List.map_cons, List.reverse_cons, List.foldl_append, List.foldl_cons, List.foldl_nil, hrest, hd,
      Nat.ofDigits_cons]
    exact Nat.add_comm _ _

theorem value_digits (n : ℕ) : value (digits n) = n := by
  unfold digits
  split
  · rename_i hn
    rw [hn]
    rfl
  · rw [value_reverse fun d hd => Nat.digits_lt_base (by omega) hd, Nat.ofDigits_digits]

/-- A digit is neither white space nor a sign. -/
theorem not_lead_of_isDigit {b : UInt8} (h : isDigit b = true) : isSpace b = false ∧ b ≠ 45 ∧ b ≠ 43 := by
  rw [isDigit_iff] at h
  refine ⟨?_, ?_, ?_⟩
  · have h32 : b ≠ 32 := by
      rintro rfl
      exact absurd h.1 (by decide)
    have h13 : ¬b ≤ 13 := fun hle => by
      have h13 : b.toNat ≤ 13 := UInt8.le_iff_toNat_le.1 hle
      omega
    simp [isSpace, h32, h13]
  · rintro rfl
    exact absurd h.1 (by decide)
  · rintro rfl
    exact absurd h.1 (by decide)

/-- Digits are read to their end. -/
theorem takeWhile_digits (n : ℕ) : (digits n).takeWhile isDigit = digits n :=
  List.takeWhile_eq_self_iff.2 fun _ hb => isDigit_of_mem_digits hb

theorem sign_digits (n : ℕ) : sign ((digits n).dropWhile isSpace) = (false, digits n) := by
  have hall : ∀ b ∈ digits n, isDigit b = true := fun b hb => isDigit_of_mem_digits hb
  cases hds : digits n with
  | nil => exact absurd hds (digits_ne_nil n)
  | cons b rest =>
    obtain ⟨hspace, hminus, hplus⟩ := not_lead_of_isDigit (hall b (hds ▸ List.mem_cons_self))
    have hfirst : ¬isSpace b = true := by simp [hspace]
    rw [List.dropWhile_cons_of_neg hfirst, sign, if_neg hminus, if_neg hplus]

/-- **What is printed is read back.** -/
theorem scan_print (n : ℤ) : scan (print n) = some n := by
  by_cases hn : n < 0
  · have hprint : print n = 45 :: digits n.natAbs := if_pos hn
    have hlead : sign ((print n).dropWhile isSpace) = (true, digits n.natAbs) := by
      rw [hprint, List.dropWhile_cons_of_neg (by decide)]
      rfl
    have habs : -(n.natAbs : ℤ) = n := by omega
    simp only [scan, hlead, takeWhile_digits, if_neg (digits_ne_nil _), value_digits, if_true, habs]
  · have hprint : print n = digits n.natAbs := if_neg hn
    have hlead : sign ((print n).dropWhile isSpace) = (false, digits n.natAbs) := by
      rw [hprint, sign_digits]
    have habs : (n.natAbs : ℤ) = n := by omega
    simp only [scan, hlead, takeWhile_digits, if_neg (digits_ne_nil _), value_digits, Bool.false_eq_true,
      if_false, habs]

theorem print_ne_nil (n : ℤ) : print n ≠ [] := by
  unfold print
  split
  · exact List.cons_ne_nil _ _
  · exact digits_ne_nil _

/-- A printed number has digits and the minus sign only. -/
theorem mem_print {n : ℤ} {b : UInt8} (h : b ∈ print n) : b = 45 ∨ isDigit b = true := by
  unfold print at h
  split at h
  · rcases List.mem_cons.1 h with rfl | hdigit
    · exact .inl rfl
    · exact .inr (isDigit_of_mem_digits hdigit)
  · exact .inr (isDigit_of_mem_digits h)

end Decimal
