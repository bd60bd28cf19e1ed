import Mathlib.Data.Bool.AllAny
import SolTrade.Library.Base58
import SolTrade.Library.Radix

/-!
Base-58 text and the bytes it stands for.

Both directions pass through one number and treat the leading zeros on their own. A text is a
numeral of base 58 and a byte string one of base 256, and the functions convert between them.
-/

namespace SolTrade.Serialization

open Library Radix
open Base58 (alphabet idxOf_character)

/-! ### The functions -/

/-- The entries before the first other one. -/
def countLeading {α : Type} [DecidableEq α] (a : α) : List α → ℕ
  | [] => 0
  | b :: bs => if b = a then countLeading a bs + 1 else 0

/-- `int.from_bytes(data, 'big')`. -/
def fromBytes (data : List UInt8) : ℕ := data.foldl (fun num b => num * 256 + b.toNat) 0

/-- The characters of a number, the least significant one first. -/
def numberCharacters (num : ℕ) : List Char :=
  if num > 0 then alphabet.getD (num % 58) '1' :: numberCharacters (num / 58) else []
  termination_by num
  decreasing_by omega

def encodeBase58 (data : List UInt8) : String :=
  let leadingZeros := countLeading 0 data
  let result := numberCharacters (fromBytes data) ++ List.replicate leadingZeros '1'
  String.ofList result.reverse

/-- A text with another character has no number. -/
def fromCharacters (text : List Char) : Option ℕ :=
  text.foldlM (fun num char => (alphabet.idxOf? char).map fun digit => num * 58 + digit) 0

/-- The bytes of a number, the least significant one first. -/
def numberBytes (num : ℕ) : List UInt8 :=
  if num > 0 then UInt8.ofNat (num &&& 0xFF) :: numberBytes (num >>> 8) else []
  termination_by num
  decreasing_by
    rw [Nat.shiftRight_eq_div_pow]
    omega

def decodeBase58 (s : String) : Option (List UInt8) := do
  let num ← fromCharacters s.toList
  let leadingOnes := countLeading '1' s.toList
  return (numberBytes num ++ List.replicate leadingOnes 0).reverse

/-! ### Digits -/

/-- The digits of a byte string. -/
def byteDigits (data : List UInt8) : List ℕ := data.map UInt8.toNat

/-- The digits of a text. -/
def textDigits (text : List Char) : List ℕ := text.map (alphabet.idxOf ·)

def character (digit : ℕ) : Char := alphabet.getD digit '1'

variable {data : List UInt8} {text : List Char} {num : ℕ}

theorem byteDigits_lt : ∀ d ∈ byteDigits data, d < 256 := by
  intro d hd
  obtain ⟨b, -, rfl⟩ := List.mem_map.1 hd
  exact b.toNat_lt

theorem textDigits_lt (h : ∀ c ∈ text, c ∈ alphabet) : ∀ d ∈ textDigits text, d < 58 := by
  intro d hd
  obtain ⟨c, hc, rfl⟩ := List.mem_map.1 hd
  exact List.idxOf_lt_length_iff.2 (h c hc)

-- Through `List.all`, only the characters of the alphabet are tried.
theorem character_idxOf : ∀ c ∈ alphabet, character (alphabet.idxOf c) = c :=
  List.all_iff_forall_prop.1 (by decide)

theorem idxOf?_character : ∀ c ∈ alphabet, alphabet.idxOf? c = some (alphabet.idxOf c) :=
  List.all_iff_forall_prop.1 (by decide)

theorem character_mem : ∀ d < 58, character d ∈ alphabet := by decide

theorem countLeading_zero : countLeading 0 data = leading (byteDigits data) := by
  induction data with
  | nil => rfl
  | cons b bs ih =>
      rw [countLeading, ih]
      by_cases hb : b = 0
      · simp [hb, leading, byteDigits]
      · have hnat : b.toNat ≠ 0 := fun h => hb (UInt8.toNat_inj.1 h)
        simp [hb, hnat, leading, byteDigits]

theorem countLeading_one (h : ∀ c ∈ text, c ∈ alphabet) :
    countLeading '1' text = leading (textDigits text) := by
  induction text with
  | nil => rfl
  | cons c cs ih =>
      obtain ⟨hc, hcs⟩ := List.forall_mem_cons.1 h
      rw [countLeading, ih hcs]
      by_cases hone : c = '1'
      · simp [hone, leading, textDigits, show alphabet.idxOf '1' = 0 by decide]
      · have hidx : alphabet.idxOf c ≠ 0 := by
          intro hzero
          have hchar := character_idxOf c hc
          rw [hzero] at hchar
          exact hone hchar.symm
        simp [hone, hidx, leading, textDigits]

theorem fromBytes_eq : fromBytes data = value 256 (byteDigits data) := by
  rw [fromBytes, value_eq_foldl, byteDigits, List.foldl_map]

/-- A text over the alphabet has the value of its digits. -/
theorem fromCharacters_eq (h : ∀ c ∈ text, c ∈ alphabet) :
    fromCharacters text = some (value 58 (textDigits text)) := by
  rw [fromCharacters, value_eq_foldl]
  generalize 0 = num
  induction text generalizing num with
  | nil => rfl
  | cons c cs ih =>
      obtain ⟨hc, hcs⟩ := List.forall_mem_cons.1 h
      rw [List.foldlM_cons, idxOf?_character c hc]
      exact ih hcs _

theorem numberCharacters_eq : numberCharacters num = (Nat.digits 58 num).map character := by
  induction num using numberCharacters.induct with
  | case1 num hpos ih =>
      rw [numberCharacters, if_pos hpos, ih, Nat.digits_def' (by norm_num) hpos, List.map_cons]
      rfl
  | case2 num hzero =>
      obtain rfl : num = 0 := by omega
      simp [numberCharacters]

theorem numberBytes_eq : numberBytes num = (Nat.digits 256 num).map UInt8.ofNat := by
  induction num using numberBytes.induct with
  | case1 num hpos ih =>
      rw [numberBytes, if_pos hpos, ih, Nat.digits_def' (by norm_num) hpos, List.map_cons,
        Nat.and_two_pow_sub_one_eq_mod num 8, Nat.shiftRight_eq_div_pow]
  | case2 num hzero =>
      obtain rfl : num = 0 := by omega
      simp [numberBytes]

/-! ### Conversions -/

theorem encodeBase58_toList :
    (encodeBase58 data).toList = (convert 256 58 (byteDigits data)).map character := by
  rw [encodeBase58, String.toList_ofList, List.reverse_append, List.reverse_replicate,
    numberCharacters_eq, ← List.map_reverse, countLeading_zero, fromBytes_eq, convert, write,
    List.map_append, List.map_replicate]
  rfl

theorem decodeBase58_eq (h : ∀ c ∈ text, c ∈ alphabet) :
    decodeBase58 (String.ofList text) =
      some ((convert 58 256 (textDigits text)).map UInt8.ofNat) := by
  rw [decodeBase58, String.toList_ofList, fromCharacters_eq h, countLeading_one h]
  simp [numberBytes_eq, convert, write]

theorem byteDigits_map {ds : List ℕ} (h : ∀ d ∈ ds, d < 256) :
    byteDigits (ds.map UInt8.ofNat) = ds := by
  rw [byteDigits, List.map_map]
  refine (List.map_congr_left fun d hd => ?_).trans (List.map_id ds)
  exact UInt8.toNat_ofNat_of_lt (h d hd)

theorem textDigits_map {ds : List ℕ} (h : ∀ d ∈ ds, d < 58) :
    textDigits (ds.map character) = ds := by
  rw [textDigits, List.map_map]
  exact (List.map_congr_left fun d hd => idxOf_character d (h d hd)).trans (List.map_id ds)

/-- Decoding takes an encoding back, and encoding takes back the decoding of every text over the
alphabet. -/
theorem base58_roundtrip :
    (∀ data, decodeBase58 (encodeBase58 data) = some data) ∧
      ∀ s : String, (∀ c ∈ s.toList, c ∈ alphabet) →
        ∃ data, decodeBase58 s = some data ∧ encodeBase58 data = s := by
  constructor
  · intro data
    have hdigits : ∀ d ∈ convert 256 58 (byteDigits data), d < 58 :=
      fun d hd => lt_of_mem_convert (by norm_num) hd
    have htext : ∀ c ∈ (encodeBase58 data).toList, c ∈ alphabet := by
      rw [encodeBase58_toList]
      intro c hc
      obtain ⟨d, hd, rfl⟩ := List.mem_map.1 hc
      exact character_mem d (hdigits d hd)
    have hdecode := decodeBase58_eq htext
    rw [String.ofList_toList, encodeBase58_toList, textDigits_map hdigits,
      convert_convert (by norm_num) byteDigits_lt] at hdecode
    rw [hdecode, byteDigits, List.map_map]
    simp [Function.comp_def]
  · intro s hs
    have hdecode := decodeBase58_eq hs
    rw [String.ofList_toList] at hdecode
    refine ⟨_, hdecode, ?_⟩
    have hbytes : ∀ d ∈ convert 58 256 (textDigits s.toList), d < 256 :=
      fun d hd => lt_of_mem_convert (by norm_num) hd
    rw [← String.toList_inj, encodeBase58_toList, byteDigits_map hbytes,
      convert_convert (by norm_num) (textDigits_lt hs), textDigits, List.map_map]
    exact (List.map_congr_left fun c hc => character_idxOf c (hs c hc)).trans (List.map_id _)

theorem base58_roundtrip_zeros :
    decodeBase58 (encodeBase58 [0, 0, 58]) = some [0, 0, 58] ∧
      ∃ data, decodeBase58 "11z" = some data ∧ encodeBase58 data = "11z" :=
  ⟨base58_roundtrip.1 _, base58_roundtrip.2 _ (List.all_iff_forall_prop.1 (by decide))⟩

end SolTrade.Serialization
