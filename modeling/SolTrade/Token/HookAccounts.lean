import SolTrade.Instruction
import SolTrade.Token.MintState

/-!
The accounts of a transfer hook, resolved from literal keys and seeds.

The program of the hook is read from the mint, and the list of accounts from the
validation account of that program. `findProgramAddress` is the derivation of program
addresses; it fails on seeds that are too long.
-/

namespace SolTrade.Token

open Library
open PumpSwap (byteAt keyAt unsignedAt)

def executeDiscriminator : List UInt8 := [105, 37, 101, 197, 75, 251, 102, 26]

/-! ### Errors -/

inductive HookError where
  | invalidMint
  | invalidExecuteData
  | truncatedExtension
  | invalidHookExtension
  | programMismatch
  | invalidValidationAccount
  | invalidExecuteOrder
  | invalidExecuteTlv
  | invalidExecuteLength
  | unsupportedSigner
  | invalidInstructionKey
  | invalidAccountKey
  | missingKeySnapshot
  | invalidKeyConfiguration
  | invalidProgramIndex
  | invalidLiteralSeed
  | truncatedInstructionSeed
  | missingInstructionSeed
  | invalidKeySeed
  | invalidDataSeed
  | missingDataSeed
  | unsupportedSeed
  | invalidSeedPadding
  | unsupportedConfiguration
  | noProgramAddress
  deriving DecidableEq

/-- The text each error carries; the derivation of an address has none of its own. -/
def HookError.text : HookError → String
  | invalidMint => "Invalid Token-2022 mint"
  | invalidExecuteData => "Invalid Execute instruction data"
  | truncatedExtension => "Truncated mint extension"
  | invalidHookExtension => "Invalid Hook extension"
  | programMismatch => "Active Hook program mismatch"
  | invalidValidationAccount => "Invalid Hook validation account"
  | invalidExecuteOrder => "Invalid Execute account order"
  | invalidExecuteTlv => "Invalid Execute TLV"
  | invalidExecuteLength => "Invalid Execute TLV length"
  | unsupportedSigner => "Unsupported signer or invalid flags"
  | invalidInstructionKey => "Invalid instruction PubkeyData"
  | invalidAccountKey => "Invalid account PubkeyData"
  | missingKeySnapshot => "Missing or invalid PubkeyData snapshot"
  | invalidKeyConfiguration => "Invalid PubkeyData configuration"
  | invalidProgramIndex => "Invalid external Hook PDA program index"
  | invalidLiteralSeed => "Invalid literal Hook PDA seed"
  | truncatedInstructionSeed => "Truncated instruction Hook PDA seed"
  | missingInstructionSeed => "Missing or invalid Execute seed data"
  | invalidKeySeed => "Invalid account-key Hook PDA seed"
  | invalidDataSeed => "Invalid account-data Hook PDA seed"
  | missingDataSeed => "Missing or invalid account seed data"
  | unsupportedSeed => "Unsupported Hook PDA seed"
  | invalidSeedPadding => "Invalid Hook PDA seed padding/count"
  | unsupportedConfiguration => "Unsupported Hook account configuration"
  | noProgramAddress => ""

/-! ### The program of the hook -/

/-- The loop over the mint's entries, from the offset on. -/
def activeHook (mintData : List UInt8) (offset : ℕ) (active : Option Pubkey) :
    Except HookError (Option Pubkey) :=
  if offset + 4 ≤ mintData.length then
    if unsignedAt mintData offset 2 = 0 then .ok active
    else
      let length := unsignedAt mintData (offset + 2) 2
      if mintData.length < offset + 4 + length then .error .truncatedExtension
      else if unsignedAt mintData offset 2 = 14 then
        if active.isSome ∨ length ≠ 64 then .error .invalidHookExtension
        else activeHook mintData (offset + 4 + length) (some (keyAt mintData (offset + 36)))
      else activeHook mintData (offset + 4 + length) active
  else .ok active
termination_by mintData.length - offset

/-! ### The accounts -/

section Accounts

variable (findProgramAddress : List (List UInt8) → Pubkey → Option (Pubkey × ℕ))
variable (hook : Pubkey) (executeAccounts : List Pubkey) (executeData : List UInt8)
  (accountData : Pubkey → Option (List UInt8))

/-- The key that an address of the program derives to. -/
def derive (seeds : List (List UInt8)) (program : Pubkey) : Except HookError Pubkey :=
  match findProgramAddress seeds program with
  | none => .error .noProgramAddress
  | some (key, _) => .ok key

/-- The seed at the offset, and the offset after it. -/
def readSeed (config : List UInt8) (keys : List Pubkey) (offset : ℕ) :
    Except HookError (List UInt8 × ℕ) :=
  if byteAt config offset = 1 then do
    let length := byteAt config (offset + 1)
    require (¬ (32 ≤ offset + 1 ∨ 32 < length ∨ 32 < offset + 2 + length)) .invalidLiteralSeed
    return ((config.drop (offset + 2)).take length, offset + 2 + length)
  else if byteAt config offset = 2 then do
    require (¬ 32 ≤ offset + 2) .truncatedInstructionSeed
    let start := byteAt config (offset + 1)
    let length := byteAt config (offset + 2)
    require (¬ (32 < length ∨ executeData = [] ∨ executeData.length < start + length))
      .missingInstructionSeed
    return ((executeData.drop start).take length, offset + 3)
  else if byteAt config offset = 3 then do
    require (¬ 32 ≤ offset + 1) .invalidKeySeed
    match keys[byteAt config (offset + 1)]? with
    | none => .error .invalidKeySeed
    | some key => return (key.toList, offset + 2)
  else if byteAt config offset = 4 then do
    require (¬ 32 ≤ offset + 3) .invalidDataSeed
    match keys[byteAt config (offset + 1)]? with
    | none => .error .invalidDataSeed
    | some key =>
        let start := byteAt config (offset + 2)
        let length := byteAt config (offset + 3)
        match accountData key with
        | none => .error .missingDataSeed
        | some data => do
            require (¬ (32 < length ∨ data.length < start + length)) .missingDataSeed
            return ((data.drop start).take length, offset + 4)
  else .error .unsupportedSeed

/-- The loop over the seeds, up to a zero. A seed takes at least two bytes, so the budget
of 32 steps is not what ends it. -/
def readSeeds (config : List UInt8) (keys : List Pubkey) :
    ℕ → ℕ → List (List UInt8) → Except HookError (ℕ × List (List UInt8))
  | 0, offset, seeds => .ok (offset, seeds)
  | left + 1, offset, seeds =>
      if offset < 32 ∧ byteAt config offset ≠ 0 then do
        let (seed, after) ← readSeed executeData accountData config keys offset
        readSeeds config keys left after (seeds ++ [seed])
      else .ok (offset, seeds)

/-- The key that an entry of the list stands for, among the keys before it. -/
def resolveKey (item : List UInt8) (keys : List Pubkey) : Except HookError Pubkey :=
  let config := (item.drop 1).take 32
  if byteAt item 0 = 0 then .ok (keyAt config 0)
  else if byteAt item 0 = 2 then
    if byteAt config 0 = 1 then do
      let start := byteAt config 1
      require (¬ ((∃ b ∈ config.drop 2, b ≠ 0) ∨ executeData.length < start + 32))
        .invalidInstructionKey
      return keyAt executeData start
    else if byteAt config 0 = 2 then do
      require (¬ ∃ b ∈ config.drop 3, b ≠ 0) .invalidAccountKey
      match keys[byteAt config 1]? with
      | none => .error .invalidAccountKey
      | some key =>
          let start := byteAt config 2
          match accountData key with
          | none => .error .missingKeySnapshot
          | some data => do
              require (¬ data.length < start + 32) .missingKeySnapshot
              return keyAt data start
    else .error .invalidKeyConfiguration
  else if byteAt item 0 = 1 ∨ 128 ≤ byteAt item 0 then do
    let program ←
      if 128 ≤ byteAt item 0 then
        match keys[byteAt item 0 - 128]? with
        | none => .error .invalidProgramIndex
        | some key => .ok key
      else .ok hook
    let (offset, seeds) ← readSeeds executeData accountData config keys 32 0 []
    require (¬ ((∃ b ∈ config.drop offset, b ≠ 0) ∨ 15 < seeds.length)) .invalidSeedPadding
    derive findProgramAddress seeds program
  else .error .unsupportedConfiguration

/-- One entry of the list. An account of the transfer is never made writable. -/
def resolveEntry (state : List AccountMeta × List Pubkey) (item : List UInt8) :
    Except HookError (List AccountMeta × List Pubkey) := do
  let (resolved, keys) := state
  require (¬ (byteAt item 33 ≠ 0 ∨ 1 < byteAt item 34)) .unsupportedSigner
  let key ← resolveKey findProgramAddress hook executeData accountData item keys
  let writable : Bool := byteAt item 34 ≠ 0 ∧ key ∉ executeAccounts
  let writable : Bool :=
    if key ∈ keys.drop 5 then
      writable = true ∧ ∃ m ∈ resolved, m.pubkey = key ∧ m.isWritable = true
    else writable
  return (resolved ++ [⟨key, false, writable⟩], keys ++ [key])

def resolveHookAccounts (mint mintOwner : Pubkey) (mintData : List UInt8)
    (validation validationOwner : Pubkey) (validationData : List UInt8) :
    Except HookError (List AccountMeta) := do
  require (¬ (mintOwner ≠ token2022Program ∨ mintData.length < 166 ∨ byteAt mintData 165 ≠ 1 ∨
    byteAt mintData 45 ≠ 1)) .invalidMint
  require (¬ (executeData ≠ [] ∧
    (executeData.length ≠ 16 ∨ executeData.take 8 ≠ executeDiscriminator))) .invalidExecuteData
  let active ← activeHook mintData 166 none
  require (¬ (active ≠ some hook ∨ hook = .default)) .programMismatch
  let expected ←
    derive findProgramAddress ["extra-account-metas".toUTF8.data.toList, mint.toList] hook
  require (¬ (validation ≠ expected ∨ validationOwner ≠ hook)) .invalidValidationAccount
  require (¬ (executeAccounts.length ≠ 5 ∨ executeAccounts[1]? ≠ some mint ∨
    executeAccounts[4]? ≠ some validation)) .invalidExecuteOrder
  require (¬ (validationData.length < 16 ∨ validationData.take 8 ≠ executeDiscriminator))
    .invalidExecuteTlv
  let count := unsignedAt validationData 12 4
  require (¬ (unsignedAt validationData 8 4 ≠ 4 + 35 * count ∨
    validationData.length ≠ 16 + 35 * count)) .invalidExecuteLength
  let items := (List.range count).map fun i => (validationData.drop (16 + 35 * i)).take 35
  let (resolved, _) ← items.foldlM
    (resolveEntry findProgramAddress hook executeAccounts executeData accountData)
    ([], executeAccounts)
  return resolved ++ [⟨hook, false, false⟩, ⟨validation, false, false⟩]

end Accounts

end SolTrade.Token
