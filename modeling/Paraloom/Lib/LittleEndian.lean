import Mathlib.Data.Nat.Digits.Lemmas

/-!
# Little-endian byte strings

A byte string read as a natural number with its least significant byte first, and the fixed-width encoding of a number.
The two are inverse to each other on byte strings of one length and on the numbers that fit it, so a comparison of encodings
is a comparison of numbers.
-/

namespace LittleEndian

/-- The number a byte string encodes, least significant byte first. -/
def toNat (bytes : List UInt8) : Nat := Nat.ofDigits 256 (bytes.map UInt8.toNat)

/-- The `width` low bytes of a number, least significant byte first. -/
def ofNat : (width : Nat) → Nat → List UInt8
  | 0, _ => []
  | width + 1, n => UInt8.ofNat n :: ofNat width (n / 256)

@[simp] theorem toNat_nil : toNat [] = 0 := rfl

@[simp] theorem toNat_cons : toNat (b :: bytes) = b.toNat + 256 * toNat bytes := by
  simp [toNat, Nat.ofDigits_cons]

@[simp] theorem ofNat_length (width n : Nat) : (ofNat width n).length = width := by
  induction width generalizing n with
  | zero => rfl
  | succ width ih => simp [ofNat, ih]

/-- A byte string encodes a number below `256` to its length. -/
theorem toNat_lt (bytes : List UInt8) : toNat bytes < 256 ^ bytes.length := by
  induction bytes with
  | nil => simp
  | cons b bytes ih =>
    have hb : b.toNat < 256 := b.toNat_lt
    rw [toNat_cons, List.length_cons, Nat.pow_succ]
    omega

/-- Encoding keeps the number modulo what the width can hold. -/
theorem toNat_ofNat : toNat (ofNat width n) = n % 256 ^ width := by
  induction width generalizing n with
  | zero => simp [ofNat, Nat.mod_one]
  | succ width ih =>
    have hsplit : n % 256 ^ (width + 1) = n % 256 + 256 * (n / 256 % 256 ^ width) := by
      rw [Nat.pow_succ', Nat.mod_mul]
    rw [ofNat, toNat_cons, ih, UInt8.toNat_ofNat', hsplit]

theorem toNat_ofNat_of_lt (h : n < 256 ^ width) : toNat (ofNat width n) = n := by
  rw [toNat_ofNat, Nat.mod_eq_of_lt h]

theorem ofNat_inj (hm : m < 256 ^ width) (hn : n < 256 ^ width) (h : ofNat width m = ofNat width n) : m = n := by
  rw [← toNat_ofNat_of_lt hm, h, toNat_ofNat_of_lt hn]

/-- A byte string behind its length can be told from what follows it. -/
theorem length_append_inj (ha : a.length < 256 ^ width) (hb : b.length < 256 ^ width)
    (h : ofNat width a.length ++ (a ++ rest) = ofNat width b.length ++ (b ++ rest')) : a = b ∧ rest = rest' := by
  obtain ⟨hlength, hrest⟩ := List.append_inj h (by rw [ofNat_length, ofNat_length])
  exact List.append_inj hrest (ofNat_inj ha hb hlength)

theorem ofNat_toNat (bytes : List UInt8) : ofNat bytes.length (toNat bytes) = bytes := by
  induction bytes with
  | nil => rfl
  | cons b bytes ih =>
    have hb : b.toNat < 256 := b.toNat_lt
    have hdiv : (b.toNat + 256 * toNat bytes) / 256 = toNat bytes := by omega
    have hlow : UInt8.ofNat (b.toNat + 256 * toNat bytes) = b := by
      apply UInt8.toNat_inj.mp
      rw [UInt8.toNat_ofNat']
      omega
    rw [toNat_cons, List.length_cons, ofNat, hdiv, hlow, ih]

theorem toNat_inj (hlen : a.length = b.length) (h : toNat a = toNat b) : a = b := by
  rw [← ofNat_toNat a, ← ofNat_toNat b, hlen, h]

/-- The fixed-width encoding as a byte vector. -/
def vec (width n : Nat) : List.Vector UInt8 width := ⟨ofNat width n, ofNat_length width n⟩

/-- A byte vector is the encoding of a number exactly when it encodes that number and the number fits. -/
theorem vec_eq_iff (h : n < 256 ^ width) (v : List.Vector UInt8 width) : vec width n = v ↔ toNat v.val = n := by
  constructor
  · rintro rfl
    exact toNat_ofNat_of_lt h
  · intro hv
    apply Subtype.ext
    apply toNat_inj
    · rw [v.property]
      exact ofNat_length width n
    · rw [hv]
      exact toNat_ofNat_of_lt h

end LittleEndian
