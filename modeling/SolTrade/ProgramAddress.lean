import SolTrade.Route.Hint

/-!
Addresses that are derived from seeds under a program.
-/

namespace SolTrade

/-- `Pubkey.find_program_address`: the address of the seeds under the program, and its bump. -/
abbrev ProgramAddress := List (List UInt8) → Pubkey → Pubkey × ℕ

def seed (text : String) : List UInt8 := text.toUTF8.data.toList

def associatedTokenAddress (find : ProgramAddress) (owner mint tokenProgram : Pubkey) : Pubkey :=
  (find [owner.toList, tokenProgram.toList, mint.toList] Route.associatedTokenProgram).1

end SolTrade
