import Mathlib.Data.List.Lex
import Mathlib.Order.Lattice
import SolTrade.Library.Base58

/-!
Public keys: 32 bytes, and the text that shows them.
-/

namespace SolTrade

open Library

abbrev Pubkey := Vector UInt8 32

namespace Pubkey

/-- The key of zero bytes, which stands for a missing one. -/
def default : Pubkey := Vector.replicate 32 0

/-- The key whose bytes spell the number, the first byte most significant. -/
def ofNat (n : ℕ) : Pubkey := Vector.ofFn fun i : Fin 32 => UInt8.ofNat (n / 256 ^ (31 - i.val))

/-- `bytes(key)`, compared byte by byte. -/
def bytes (key : Pubkey) : List ℕ := key.toList.map UInt8.toNat

instance : LawfulBEq Pubkey := inferInstance

theorem bytes_injective : Function.Injective bytes := by
  intro a b h
  apply Vector.toList_inj.1
  exact List.map_injective_iff.2 (fun _ _ => UInt8.toNat_inj.1) h

end Pubkey

/-- `str(key)`, of which the code needs that it tells the keys apart. -/
structure PubkeyText where
  text : Pubkey → String
  injective : Function.Injective text

instance : CoeFun PubkeyText fun _ => Pubkey → String := ⟨PubkeyText.text⟩

/-- The bytes in base 58. -/
def base58Text : PubkeyText where
  text key := Base58.encode key.toList
  injective a b h := by
    apply Vector.toList_inj.1
    exact Base58.encode_inj (by rw [Vector.length_toList, Vector.length_toList]) h

end SolTrade
