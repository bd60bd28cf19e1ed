import SolTrade.Library.Tlv
import SolTrade.PumpSwap.Pool
import SolTrade.Route.ReserveQuotes

/-!
Transfer fees and public-transfer eligibility of a cached mint.
-/

namespace SolTrade.Token

open Library
open PumpSwap (byteAt keyAt unsignedAt)
open Route (TokenTransferFee tokenProgram)

def token2022Program : Pubkey :=
  .ofNat 0x06ddf6e1ee758fde18425dbce46ccddab61afc4d83b90d27febdf928d8a18bfc

example : base58Text token2022Program = "TokenzQdBNbLqP5VEhdkAS6EPFLC1PHnBqCXEpPxuEb" := by
  decide +kernel

/-! ### Errors -/

inductive MintError where
  | value (e : ValueError)
  | unsupportedProgram
  | uninitializedMint
  | invalidClassicSize
  | invalidLayout
  | truncatedExtension
  | duplicateExtension
  | unsupportedExtension
  | invalidExtensionSize
  | frozenByDefault
  | transfersPaused
  | activeTransferHook
  | invalidFeeBasisPoints
  deriving DecidableEq

def MintError.text : MintError → String
  | value e => e.text
  | unsupportedProgram => "Unsupported mint token program"
  | uninitializedMint => "Invalid or uninitialized cached mint"
  | invalidClassicSize => "Invalid classic mint size"
  | invalidLayout => "Invalid Token2022 mint layout"
  | truncatedExtension => "Truncated mint extension"
  | duplicateExtension => "Invalid/duplicate mint extension"
  | unsupportedExtension => "Unsupported mint extension"
  | invalidExtensionSize => "Invalid mint extension size"
  | frozenByDefault => "Mint defaults to frozen/uninitialized accounts"
  | transfersPaused => "Mint transfers are paused"
  | activeTransferHook => "Active transfer hook requires extra accounts"
  | invalidFeeBasisPoints => "Invalid mint fee basis points"

/-! ### Extensions -/

/-- The extensions of a fixed size. -/
def extensionLengths : List (ℕ × ℕ) :=
  [(1, 108), (3, 32), (4, 65), (6, 1), (10, 52), (12, 32), (14, 64), (16, 129), (18, 64), (20, 64),
    (21, 80), (22, 64), (23, 72), (25, 56), (26, 33)]

abbrev Extensions := List (ℕ × List UInt8)

def Extensions.ofKind (extensions : Extensions) (kind : ℕ) : Option (List UInt8) :=
  extensions.lookup kind

/-- The loop over the entries, from the offset on. -/
def readExtensions (d : List UInt8) (offset : ℕ) (extensions : Extensions) :
    Except MintError Extensions :=
  if offset < d.length then
    -- one byte may be left over, and a kind of zero ends what is in use
    if d.length < offset + 2 then .ok extensions
    else if unsignedAt d offset 2 = 0 then .ok extensions
    else if d.length < offset + 4 then .error .truncatedExtension
    else
      let kind := unsignedAt d offset 2
      let length := unsignedAt d (offset + 2) 2
      if (extensions.ofKind kind).isSome ∨ d.length < offset + 4 + length then
        .error .duplicateExtension
      else if kind ≠ 19 ∧ (extensionLengths.lookup kind).isNone then .error .unsupportedExtension
      else if kind ≠ 19 ∧ extensionLengths.lookup kind ≠ some length then
        .error .invalidExtensionSize
      else readExtensions d (offset + 4 + length)
        (extensions ++ [(kind, (d.drop (offset + 4)).take length)])
  else .ok extensions
termination_by d.length - offset

/-- The checks on the extensions, and the fee of the epoch. -/
def feeOfExtensions (extensions : Extensions) (epoch : ℤ) : Except MintError TokenTransferFee := do
  require (∀ e ∈ extensions.ofKind 6, byteAt e 0 = 1) .frozenByDefault
  require (∀ e ∈ extensions.ofKind 26, byteAt e 32 = 0) .transfersPaused
  require (∀ e ∈ extensions.ofKind 14, ¬ ∃ b ∈ e.drop 32, b ≠ 0) .activeTransferHook
  match extensions.ofKind 1 with
  | none => return {}
  | some fees =>
      let start := if unsignedAt fees 90 8 ≤ epoch then 90 else 72
      let basisPoints := unsignedAt fees (start + 16) 2
      require (basisPoints ≤ 10000) .invalidFeeBasisPoints
      return ⟨basisPoints, unsignedAt fees (start + 8) 8⟩

def tokenTransferFeeForEpoch (d : List UInt8) (owner : Pubkey) (epoch : ℤ) :
    Except MintError TokenTransferFee := do
  let _ ← (unsigned epoch u64).mapError .value
  require (owner ∈ [tokenProgram, token2022Program]) .unsupportedProgram
  require (¬ (d.length < 82 ∨ byteAt d 45 ≠ 1 ∨ 1 < unsignedAt d 0 4 ∨ 1 < unsignedAt d 46 4))
    .uninitializedMint
  if owner = tokenProgram then
    require (d.length = 82) .invalidClassicSize
    return {}
  else if d.length = 82 then return {}
  else do
    require (¬ (d.length < 166 ∨ d.length = 355 ∨ byteAt d 165 ≠ 1 ∨
      ∃ b ∈ (d.drop 82).take 83, b ≠ 0)) .invalidLayout
    let extensions ← readExtensions d 166 []
    feeOfExtensions extensions epoch

end SolTrade.Token
