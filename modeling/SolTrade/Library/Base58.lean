import Mathlib.Data.Nat.Digits.Lemmas

/-!
Base-58 text.

A byte string is read as a big-endian number and written with 58 characters;
every leading zero byte is written as the character of zero. Texts of byte
strings of one length determine them.
-/

namespace SolTrade.Library.Base58

def alphabet : List Char := "123456789ABCDEFGHJKLMNPQRSTUVWXYZabcdefghijkmnopqrstuvwxyz".toList

/-- The number that the bytes spell, the first byte most significant. -/
def number (bytes : List UInt8) : ℕ := Nat.ofDigits 256 (bytes.reverse.map UInt8.toNat)

/-- The digits of the text. -/
def digits (bytes : List UInt8) : List ℕ :=
  List.replicate (bytes.takeWhile (· = 0)).length 0 ++ (Nat.digits 58 (number bytes)).reverse

def encode (bytes : List UInt8) : String :=
  String.ofList ((digits bytes).map fun d => alphabet.getD d '1')

variable {a b : List UInt8}

theorem lt_of_mem_digits {d : ℕ} (h : d ∈ digits a) : d < 58 := by
  rw [digits, List.mem_append, List.mem_reverse] at h
  rcases h with h | h
  · rw [List.eq_of_mem_replicate h]
    decide
  · exact Nat.digits_lt_base (by decide) h

/-- The leading zeros do not change the number that the digits spell. -/
theorem ofDigits_digits (a : List UInt8) : Nat.ofDigits 58 (digits a).reverse = number a := by
  rw [digits, List.reverse_append, List.reverse_reverse, List.reverse_replicate,
    Nat.ofDigits_append_replicate_zero, Nat.ofDigits_digits]

theorem number_inj (hlen : a.length = b.length) (h : number a = number b) : a = b := by
  have hbyte : ∀ bytes : List UInt8, ∀ d ∈ bytes.reverse.map UInt8.toNat, d < 256 := by
    intro bytes d hd
    obtain ⟨byte, -, rfl⟩ := List.mem_map.1 hd
    exact byte.toNat_lt
  have hlist := Nat.ofDigits_inj_of_len_eq (by decide) (by simpa using hlen) (hbyte a) (hbyte b) h
  exact List.reverse_injective (List.map_injective_iff.2 (fun _ _ => UInt8.toNat_inj.1) hlist)

/-- A digit is the position of its character. -/
theorem idxOf_character : ∀ d < 58, alphabet.idxOf (alphabet.getD d '1') = d := by decide

theorem digits_of_encode (a : List UInt8) :
    (encode a).toList.map (alphabet.idxOf ·) = digits a := by
  rw [encode, String.toList_ofList, List.map_map]
  exact (List.map_congr_left fun d hd => idxOf_character d (lt_of_mem_digits hd)).trans
    (List.map_id _)

theorem encode_inj (hlen : a.length = b.length) (h : encode a = encode b) : a = b := by
  apply number_inj hlen
  rw [← ofDigits_digits, ← digits_of_encode, h, digits_of_encode, ofDigits_digits]

end SolTrade.Library.Base58
