import Mathlib.Data.List.Basic

/-!
# Fixed-width encodings

Values of a type as byte strings of one length, and the reader that takes a value off the front of a byte string.
-/

/-- An encoding of one width that can be read back. -/
structure Codec (α : Type) where
  width : Nat
  encode : α → List UInt8
  decode : List UInt8 → Option α
  length_encode : ∀ x, (encode x).length = width
  decode_encode : ∀ x, decode (encode x) = some x

namespace Codec

variable {α : Type} (c : Codec α)

/-- Take a value off the front. Returns the value and what follows it. -/
def read (bytes : List UInt8) : Option (α × List UInt8) :=
  if bytes.length < c.width then none else (c.decode (bytes.take c.width)).map (·, bytes.drop c.width)

theorem read_encode_append (x : α) (rest : List UInt8) : c.read (c.encode x ++ rest) = some (x, rest) := by
  have hlength : ¬(c.encode x ++ rest).length < c.width := by
    rw [List.length_append, c.length_encode]
    omega
  rw [read, if_neg hlength, List.take_left' (c.length_encode x), List.drop_left' (c.length_encode x), c.decode_encode]
  rfl

theorem read_encode (x : α) : c.read (c.encode x) = some (x, []) := by
  have h := c.read_encode_append x []
  rwa [List.append_nil] at h

end Codec
