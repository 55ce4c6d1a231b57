import Paraloom.Lib.LittleEndian
import Paraloom.Lib.LucasChain
import Paraloom.Error

/-!
# The BN254 scalar field

Every note, nullifier and root of the shielded pool is an element of the BN254 scalar field, held on chain as 32
little-endian bytes. The bytes are lifted with `Fr::from_le_bytes_mod_order`, which is not injective: an element has
several 32-byte encodings, of which one is canonical.
-/

namespace Paraloom

open LittleEndian

/-- The order of the BN254 scalar field. -/
def frModulus : Nat := 21888242871839275222246405745257275088548364400416034343698204186575808495617

abbrev Fr : Type := ZMod frModulus

/-- A `[u8; 32]`. -/
abbrev Bytes32 : Type := List.Vector UInt8 32

namespace FieldAux

/-- A Lucas chain that ends in the order of the field. -/
def frChain : List LucasChain.Link := [⟨3, 2, [2]⟩, ⟨13, 2, [2, 2, 3]⟩, ⟨7, 3, [2, 3]⟩, ⟨29, 2, [2, 2, 7]⟩, ⟨5, 2, [2, 2]⟩, ⟨491, 2, [2, 5, 7, 7]⟩,
  ⟨983, 5, [2, 491]⟩, ⟨11, 2, [2, 5]⟩, ⟨5501, 2, [2, 2, 5, 5, 5, 11]⟩, ⟨11003, 2, [2, 5501]⟩,
  ⟨449, 3, [2, 2, 2, 2, 2, 2, 7]⟩, ⟨237073, 15, [2, 2, 2, 2, 3, 11, 449]⟩, ⟨41, 6, [2, 2, 2, 5]⟩,
  ⟨3691, 2, [2, 3, 3, 5, 41]⟩, ⟨17, 3, [2, 2, 2, 2]⟩, ⟨4999, 3, [2, 3, 7, 7, 17]⟩,
  ⟨405928799, 22, [2, 11, 3691, 4999]⟩, ⟨53, 2, [2, 2, 13]⟩, ⟨107, 2, [2, 53]⟩, ⟨661, 2, [2, 2, 3, 5, 11]⟩,
  ⟨31, 3, [2, 3, 5]⟩, ⟨93001, 14, [2, 2, 2, 3, 5, 5, 5, 31]⟩, ⟨12048837557, 2, [2, 2, 7, 7, 661, 93001]⟩,
  ⟨5156902474397, 2, [2, 2, 107, 12048837557]⟩, ⟨1670836401704629, 2, [2, 2, 3, 3, 3, 3, 5156902474397]⟩,
  ⟨137, 3, [2, 2, 2, 17]⟩, ⟨823, 3, [2, 3, 137]⟩, ⟨19, 2, [2, 3, 3]⟩, ⟨23, 5, [2, 11]⟩, ⟨47, 5, [2, 23]⟩,
  ⟨37, 2, [2, 2, 3, 3]⟩, ⟨223, 3, [2, 3, 37]⟩, ⟨20963, 2, [2, 47, 223]⟩, ⟨41927, 5, [2, 20963]⟩,
  ⟨1593227, 2, [2, 19, 41927]⟩, ⟨83, 2, [2, 41]⟩, ⟨379, 2, [2, 3, 3, 3, 7]⟩, ⟨409, 21, [2, 2, 2, 3, 17]⟩,
  ⟨1637, 2, [2, 2, 409]⟩, ⟨229, 6, [2, 2, 3, 19]⟩, ⟨71, 7, [2, 5, 7]⟩, ⟨853, 2, [2, 2, 3, 71]⟩,
  ⟨639533339, 2, [2, 229, 853, 1637]⟩, ⟨65865678001877903, 5, [2, 83, 379, 1637, 639533339]⟩,
  ⟨13818364434197438864469338081, 3, [2, 2, 2, 2, 2, 5, 823, 1593227, 65865678001877903]⟩,
  ⟨frModulus, 5,
    List.replicate 28 2 ++ [3, 3, 13, 29, 983, 11003, 237073, 405928799, 1670836401704629, 13818364434197438864469338081]⟩]

theorem frChain_checked : LucasChain.check [2] frChain = true := by
  decide +kernel

end FieldAux

/-- The order of the field is prime. -/
theorem frModulus_prime : frModulus.Prime := by
  have hmem : ∃ l ∈ FieldAux.frChain, l.number = frModulus := by
    simp [FieldAux.frChain]
  obtain ⟨l, hl, hn⟩ := hmem
  rw [← hn]
  apply LucasChain.check_prime _ FieldAux.frChain_checked l hl
  intro q hq
  rw [List.mem_singleton.mp hq]
  exact Nat.prime_two

instance : Fact frModulus.Prime := ⟨frModulus_prime⟩

instance : NeZero frModulus := ⟨frModulus_prime.ne_zero⟩

/-- Numbers below the order of the field are distinct elements. -/
theorem natCast_fr_inj (ha : a < frModulus) (hb : b < frModulus) (h : (a : Fr) = b) : a = b := by
  have hmod := (ZMod.natCast_eq_natCast_iff' a b frModulus).mp h
  rwa [Nat.mod_eq_of_lt ha, Nat.mod_eq_of_lt hb] at hmod

/-! ## Encodings -/

/-- `Fr::from_le_bytes_mod_order` on 32 bytes. -/
def fromLeBytesModOrder (bytes : Bytes32) : Fr := (LittleEndian.toNat bytes.val : Fr)

/-- `into_bigint().to_bytes_le()`, the canonical encoding of an element. -/
def toBytesLe (x : Fr) : Bytes32 := LittleEndian.vec 32 x.val

/-- The all-zero word. -/
def zero32 : Bytes32 := LittleEndian.vec 32 0

/-- Reject a 32-byte value that is not the canonical encoding of the element it is lifted to. -/
def requireCanonicalField (value : Bytes32) (error : BridgeError) : Result Unit :=
  let reduced := fromLeBytesModOrder value
  let canonical := toBytesLe reduced
  if canonical ≠ value then .error (.bridge error) else .ok ()

def requireCanonicalNullifier (nullifier : Bytes32) : Result Unit :=
  requireCanonicalField nullifier .nonCanonicalNullifier

/-- Little-endian encoding of the signed `ext_amount` as the circuit's `public_amount`: a withdrawal encodes as `p - |x|`. -/
def publicAmountBytes (extAmount : Int64) : Bytes32 :=
  let magnitude : Fr := extAmount.toInt.natAbs
  let field := if extAmount < 0 then -magnitude else magnitude
  toBytesLe field

/-- A word that is the canonical encoding of the element it lifts to. -/
def Canonical (value : Bytes32) : Prop := toBytesLe (fromLeBytesModOrder value) = value

instance (value : Bytes32) : Decidable (Canonical value) := inferInstanceAs (Decidable (_ = _))

@[simp] theorem requireCanonicalField_ok_iff : requireCanonicalField value e = .ok u ↔ Canonical value := by
  simp [requireCanonicalField, Canonical]

@[simp] theorem requireCanonicalNullifier_ok_iff : requireCanonicalNullifier nullifier = .ok u ↔ Canonical nullifier :=
  requireCanonicalField_ok_iff

theorem frModulus_lt : frModulus < 256 ^ 32 := by decide

/-- The lift of a number that fits a word. -/
theorem lift_vec {n : Nat} (h : n < 256 ^ 32) : fromLeBytesModOrder (vec 32 n) = (n : Fr) := by
  rw [fromLeBytesModOrder, vec, toNat_ofNat_of_lt h]

@[simp] theorem fromLeBytesModOrder_toBytesLe (x : Fr) : fromLeBytesModOrder (toBytesLe x) = x := by
  have hx : x.val < 256 ^ 32 := (ZMod.val_lt x).trans frModulus_lt
  rw [fromLeBytesModOrder, toBytesLe, vec, toNat_ofNat_of_lt hx, ZMod.natCast_zmod_val]

theorem canonical_toBytesLe (x : Fr) : Canonical (toBytesLe x) := by
  rw [Canonical, fromLeBytesModOrder_toBytesLe]

/-- The canonical words are the ones that encode a number below the order of the field. -/
theorem canonical_iff (value : Bytes32) : Canonical value ↔ toNat value.val < frModulus := by
  have hval : (fromLeBytesModOrder value).val < 256 ^ 32 := (ZMod.val_lt _).trans frModulus_lt
  rw [Canonical, toBytesLe, vec_eq_iff hval, fromLeBytesModOrder, ZMod.val_natCast]
  constructor
  · intro h
    rw [h]
    exact Nat.mod_lt _ frModulus_prime.pos
  · intro h
    rw [Nat.mod_eq_of_lt h]

theorem Canonical.lift_inj (ha : Canonical a) (hb : Canonical b) (h : fromLeBytesModOrder a = fromLeBytesModOrder b) :
    a = b := by
  rw [← ha, ← hb, h]

theorem fromLeBytesModOrder_publicAmountBytes (extAmount : Int64) :
    fromLeBytesModOrder (publicAmountBytes extAmount) = ((extAmount.toInt : Int) : Fr) := by
  simp only [publicAmountBytes, fromLeBytesModOrder_toBytesLe]
  split
  · rename_i hneg
    have hneg' : extAmount.toInt < 0 := by simpa [Int64.lt_iff_toInt_lt] using hneg
    rw [← Int.cast_natCast, ← Int.cast_neg]
    congr 1
    omega
  · rename_i hpos
    have hpos' : 0 ≤ extAmount.toInt := by simpa [Int64.lt_iff_toInt_lt] using hpos
    rw [← Int.cast_natCast]
    congr 1
    omega

end Paraloom
