import SolTrade.Pubkey

/-!
Instructions, as the builders return them and as messages carry them.
-/

namespace SolTrade

structure AccountMeta where
  pubkey : Pubkey
  isSigner : Bool
  isWritable : Bool
  deriving DecidableEq

structure Instruction where
  programId : Pubkey
  data : List UInt8
  accounts : List AccountMeta
  deriving DecidableEq

end SolTrade
