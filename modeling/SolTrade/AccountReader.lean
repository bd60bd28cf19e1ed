import SolTrade.Library.Wire
import SolTrade.PumpSwap.Pool

/-!
Reading an account from front to back.

What a reader takes next is what stands at the offset it has come to; and an account
without its first bytes is read as the account from there on.
-/

namespace SolTrade.AccountReader

open Library Wire
open PumpSwap (byteAt keyAt unsignedAt)

/-- The next 32 bytes as a key. -/
def pubkey : Parser Pubkey := fun input =>
  if 32 ≤ input.length then some (keyAt input 0, input.drop 32) else none

variable {data : List UInt8} {n offset width : ℕ} {β : Type}

theorem byteAt_drop : byteAt (data.drop n) offset = byteAt data (n + offset) := by
  simp [byteAt, List.getD_eq_getElem?_getD]

theorem unsignedAt_drop :
    unsignedAt (data.drop n) offset width = unsignedAt data (n + offset) width := by
  simp [unsignedAt, List.drop_drop]

theorem keyAt_drop : keyAt (data.drop n) offset = keyAt data (n + offset) := by
  simp [keyAt, List.getD_eq_getElem?_getD, Nat.add_assoc]

theorem unsignedAt_one (h : offset < data.length) :
    unsignedAt data offset 1 = byteAt data offset := by
  obtain ⟨b, rest, hdrop⟩ : ∃ b rest, data.drop offset = b :: rest :=
    List.exists_cons_of_ne_nil (by simpa [List.drop_eq_nil_iff] using h)
  have hb : byteAt (data.drop offset) 0 = b.toNat := by
    rw [hdrop]
    rfl
  rw [byteAt_drop, Nat.add_zero] at hb
  rw [hb]
  simp [unsignedAt, hdrop, littleEndianValue]

/-- A number is read back where it has been written. -/
theorem unsignedAt_append {front : List UInt8} {k : ℕ} (rest : List UInt8)
    (hlen : front.length = offset) (hk : k < 256 ^ width) :
    unsignedAt (front ++ (littleEndian width k ++ rest)) offset width = k := by
  rw [unsignedAt, List.drop_left' hlen, List.take_left' (length_littleEndian width k),
    littleEndianValue_littleEndian hk]

/-- A number is read at the offset that has been reached. -/
theorem unsignedInt_run (h : offset + width ≤ data.length) :
    (unsignedInt width).run (data.drop offset) =
      some (unsignedAt data offset width, data.drop (offset + width)) := by
  have hroom : width ≤ (data.drop offset).length := by
    rw [List.length_drop]
    omega
  have hbytes : (bytes width).run (data.drop offset) =
      some ((data.drop offset).take width, (data.drop offset).drop width) := if_pos hroom
  rw [unsignedInt, StateT.run_map, hbytes, List.drop_drop]
  rfl

theorem pubkey_run (h : offset + 32 ≤ data.length) :
    pubkey.run (data.drop offset) = some (keyAt data offset, data.drop (offset + 32)) := by
  have hroom : 32 ≤ (data.drop offset).length := by
    rw [List.length_drop]
    omega
  change pubkey (data.drop offset) = _
  rw [pubkey, if_pos hroom, keyAt_drop, List.drop_drop]
  rfl

theorem bind_unsignedInt {f : ℕ → Parser β} (h : offset + width ≤ data.length) :
    (unsignedInt width >>= f).run (data.drop offset) =
      (f (unsignedAt data offset width)).run (data.drop (offset + width)) := by
  rw [StateT.run_bind, unsignedInt_run h]
  rfl

theorem bind_pubkey {f : Pubkey → Parser β} (h : offset + 32 ≤ data.length) :
    (pubkey >>= f).run (data.drop offset) =
      (f (keyAt data offset)).run (data.drop (offset + 32)) := by
  rw [StateT.run_bind, pubkey_run h]
  rfl

end SolTrade.AccountReader
