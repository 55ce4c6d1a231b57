import Mathlib.Data.List.TakeWhile
import Paraloom.Lib.LittleEndian

/-!
# Base58

A byte string is a number with its most significant byte first, written with the 58 digits of the alphabet, behind one `1` for
each leading zero byte. Byte strings of one length have different names, and a text that was written is read back as it was.
-/

namespace Base58

open LittleEndian

/-- The digits, which leave out the characters that look alike. -/
def alphabet : List Char := "123456789ABCDEFGHJKLMNPQRSTUVWXYZabcdefghijkmnopqrstuvwxyz".toList

def digit (d : Nat) : Char := alphabet.getD d '1'

/-- The digit of a character. -/
def value (c : Char) : Nat := alphabet.idxOf c

/-- The text of a byte string. -/
def encode (bytes : List UInt8) : String :=
  let zeros := (bytes.takeWhile (· = 0)).length
  String.ofList (List.replicate zeros '1' ++ (Nat.digits 58 (LittleEndian.toNat bytes.reverse)).reverse.map digit)

def number (text : String) : Nat := Nat.ofDigits 58 (text.toList.reverse.map value)

/-- The byte string of a length that a text stands for. The number has to fit, and its leading zeros to be the ones that the
length asks for. -/
def decode (length : Nat) (text : String) : Option (List.Vector UInt8 length) :=
  let bytes := (LittleEndian.vec length (number text)).reverse
  if encode bytes.toList = text then some bytes else none

/-- The byte string that a text stands for: a zero byte for each leading `1`, and the bytes of the number. -/
def decodeVec (text : String) : Option (List UInt8) :=
  if text.toList.all (· ∈ alphabet) then
    some (List.replicate (text.toList.takeWhile (· = '1')).length 0 ++ (Nat.digits 256 (number text)).reverse.map UInt8.ofNat)
  else none

theorem value_digit (h : d < 58) : value (digit d) = d := by
  revert d
  decide +kernel

theorem number_encode : number (encode bytes) = toNat bytes.reverse := by
  have hdigits : ((Nat.digits 58 (toNat bytes.reverse)).map digit).map value = Nat.digits 58 (toNat bytes.reverse) := by
    rw [List.map_map, List.map_congr_left (g := id), List.map_id]
    intro d hd
    exact value_digit (Nat.digits_lt_base (by decide) hd)
  have hzero : value '1' = 0 := by decide +kernel
  simp only [number, encode, String.toList_ofList, List.reverse_append, List.reverse_replicate, ← List.map_reverse,
    List.reverse_reverse, List.map_append, hdigits, List.map_replicate, hzero, Nat.ofDigits_append_replicate_zero,
    Nat.ofDigits_digits]

theorem encode_inj (hlen : a.length = b.length) (h : encode a = encode b) : a = b := by
  have hnumber : toNat a.reverse = toNat b.reverse := by
    rw [← number_encode, ← number_encode, h]
  exact List.reverse_inj.mp (toNat_inj (by simpa using hlen) hnumber)

theorem decode_eq_some_iff : decode length text = some bytes ↔ encode bytes.toList = text := by
  simp only [decode, Option.ite_none_right_eq_some, Option.some.injEq]
  constructor
  · rintro ⟨htext, rfl⟩
    exact htext
  · intro htext
    have hnumber : number text = toNat bytes.toList.reverse := by rw [← htext, number_encode]
    have hfits : number text < 256 ^ length := by
      have hlt := toNat_lt bytes.toList.reverse
      rwa [List.length_reverse, List.Vector.toList_length, ← hnumber] at hlt
    have hbytes : (vec length (number text)).reverse = bytes := by
      rw [(vec_eq_iff hfits bytes.reverse).mpr (by rw [hnumber]; rfl)]
      exact List.Vector.reverse_reverse
    exact ⟨hbytes ▸ htext, hbytes⟩

theorem digit_mem_alphabet (h : d < 58) : digit d ∈ alphabet := by
  revert d
  decide +kernel

theorem mem_alphabet_of_mem_encode (h : c ∈ (encode bytes).toList) : c ∈ alphabet := by
  rw [encode, String.toList_ofList] at h
  rcases List.mem_append.mp h with h | h
  · rw [List.eq_of_mem_replicate h]
    decide
  · obtain ⟨d, hd, rfl⟩ := List.mem_map.mp h
    exact digit_mem_alphabet (Nat.digits_lt_base (by decide) (List.mem_reverse.mp hd))

/-- The digits of a number do not start with a zero. -/
theorem takeWhile_digits : ((Nat.digits 58 n).reverse.map digit).takeWhile (· = '1') = [] := by
  rw [List.takeWhile_eq_nil_iff]
  intro hpos hhead
  have hne : Nat.digits 58 n ≠ [] := by
    intro hnil
    simp [hnil] at hpos
  have hn : n ≠ 0 := Nat.digits_ne_nil_iff_ne_zero.mp hne
  have hlast : ((Nat.digits 58 n).reverse.map digit).get ⟨0, hpos⟩ = digit ((Nat.digits 58 n).getLast hne) := by
    rw [List.get_eq_getElem, List.getElem_map, List.getElem_zero, List.head_reverse]
  rw [hlast, decide_eq_true_iff] at hhead
  have hvalue := value_digit (Nat.digits_lt_base (b := 58) (by decide) (List.getLast_mem hne))
  rw [hhead] at hvalue
  have hzero : value '1' = 0 := by decide +kernel
  exact Nat.getLast_digit_ne_zero 58 hn (by rw [← hvalue, hzero])

/-- The zeros that lead the text are those that lead the byte string. -/
theorem takeWhile_encode : ((encode bytes).toList.takeWhile (· = '1')).length = (bytes.takeWhile (· = 0)).length := by
  rw [encode, String.toList_ofList, List.takeWhile_append_of_pos (by simp), takeWhile_digits, List.append_nil,
    List.length_replicate]

theorem takeWhile_zero_eq (bytes : List UInt8) :
    bytes.takeWhile (· = 0) = List.replicate (bytes.takeWhile (· = 0)).length 0 := by
  rw [List.eq_replicate_iff]
  refine ⟨rfl, ?_⟩
  intro b hb
  simpa using List.mem_takeWhile_imp hb

/-- The bytes of the number are those behind the leading zeros. -/
theorem digits_toNat (bytes : List UInt8) :
    (Nat.digits 256 (toNat bytes.reverse)).reverse.map UInt8.ofNat = bytes.dropWhile (· = 0) := by
  have hsplit := List.takeWhile_append_dropWhile (p := fun b : UInt8 => decide (b = 0)) (l := bytes)
  set rest := bytes.dropWhile (· = 0) with hrest
  have hnumber : toNat bytes.reverse = Nat.ofDigits 256 (rest.reverse.map UInt8.toNat) := by
    rw [← hsplit, takeWhile_zero_eq, LittleEndian.toNat, List.reverse_append, List.map_append, List.reverse_replicate,
      List.map_replicate]
    exact Nat.ofDigits_append_replicate_zero _
  have hdigits : Nat.digits 256 (Nat.ofDigits 256 (rest.reverse.map UInt8.toNat)) = rest.reverse.map UInt8.toNat := by
    refine Nat.digits_ofDigits 256 (by decide) _ ?_ ?_
    · intro d hd
      obtain ⟨b, -, rfl⟩ := List.mem_map.mp hd
      exact b.toNat_lt
    · intro hne hlast
      have hnil : rest ≠ [] := by
        rintro hnil
        simp [hnil] at hne
      have hhead : rest.head hnil = 0 := by
        rw [List.getLast_map, List.getLast_reverse] at hlast
        exact UInt8.toNat_inj.mp hlast
      exact absurd hhead (by simpa [hrest] using List.head_dropWhile_not (fun b : UInt8 => decide (b = 0)) hnil)
  rw [hnumber, hdigits, ← List.map_reverse, List.reverse_reverse, List.map_map]
  conv_rhs => rw [← List.map_id rest]
  refine List.map_congr_left ?_
  intro b _
  simp

theorem decodeVec_encode (bytes : List UInt8) : decodeVec (encode bytes) = some bytes := by
  have hall : (encode bytes).toList.all (· ∈ alphabet) = true := by
    rw [List.all_eq_true]
    exact fun c hc => decide_eq_true (mem_alphabet_of_mem_encode hc)
  rw [decodeVec, if_pos hall, takeWhile_encode, number_encode, digits_toNat, ← takeWhile_zero_eq,
    List.takeWhile_append_dropWhile]

end Base58
