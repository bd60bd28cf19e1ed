import SolTrade.Route.NativeSol

/-!
Settling a route whose curve is quoted in native SOL.

Such a curve takes and gives the lamports of the wallet. Where the route goes on in
wrapped SOL, the lamports are wrapped after a sale, and wrapped SOL is unwrapped
through a temporary account before a purchase.
-/

namespace SolTrade.Route

open Library Wire

/-! ### Checks -/

/-- A leg and its instruction. -/
def checkSettlementLeg (payer : Pubkey) (leg : CachedRouteLeg) (ix : Instruction) :
    Except ValueError Unit := do
  require (ix = leg.instruction) .pumpFunInstructionDiffers
  require (∃ a ∈ ix.accounts, a.pubkey = payer ∧ a.isSigner = true) .pumpFunOtherWallet
  let _ ← unsigned leg.amountIn u64
  let _ ← unsigned leg.minimumNetAmountOut u64
  require (¬ (leg.amountIn = 0 ∨ leg.minimumNetAmountOut = 0)) .invalidPumpFunAmount

def validateSettlementInstructions (route : PreparedCachedRoute) (payer : Pubkey) :
    Except ValueError Unit := do
  require (route.swapInstructions.length = route.legs.length) .invalidPumpFunSettlement
  forM (route.legs.zip route.swapInstructions) fun p => checkSettlementLeg payer p.1 p.2
  require (∀ last ∈ route.legs.getLast?, route.minimumNetAmountOut = last.minimumNetAmountOut)
    .pumpFunProtectionDiffers

/-- The account at a position is the key. -/
def KeyAt (keys : List AccountMeta) (i : ℕ) (key : Pubkey) : Prop :=
  (keys[i]?).map (·.pubkey) = some key

instance (keys : List AccountMeta) (i : ℕ) (key : Pubkey) : Decidable (KeyAt keys i key) :=
  inferInstanceAs (Decidable (_ = _))

/-- The account at a position is the wallet, which signs and pays. -/
def WalletAt (keys : List AccountMeta) (i : ℕ) (payer : Pubkey) : Prop :=
  keys[i]? = some ⟨payer, true, true⟩

instance (keys : List AccountMeta) (i : ℕ) (payer : Pubkey) : Decidable (WalletAt keys i payer) :=
  inferInstanceAs (Decidable (_ = _))

/-- `struct.unpack_from("<QQ", data, 8)`. -/
def unpackAmounts (data : List UInt8) : ℤ × ℤ :=
  (littleEndianValue ((data.drop 8).take 8), littleEndianValue ((data.drop 16).take 8))

/-- The instruction of a curve leg, in one of its three versions, trades the amounts of
the leg for the wallet. -/
def validateNativeAnchor (leg : CachedRouteLeg) (payer : Pubkey) (buy : Bool) :
    Except ValueError Unit := do
  let data := leg.instruction.data
  let keys := leg.instruction.accounts
  let token := if buy then leg.hint.outputMint else leg.hint.inputMint
  let legacy : List UInt8 :=
    if buy then [56, 252, 116, 8, 158, 223, 205, 95] else [51, 230, 133, 164, 1, 127, 131, 173]
  let v3 : List UInt8 :=
    if buy then [225, 247, 80, 30, 213, 179, 132, 136] else [28, 146, 222, 119, 38, 196, 105, 213]
  let discriminator : List UInt8 :=
    if buy then [0xc2, 0xab, 0x1c, 0x46, 0x68, 0x4d, 0x5b, 0x2f]
    else [0x5d, 0xf6, 0x82, 0x3c, 0xe7, 0xe9, 0x40, 0xb2]
  if data.take 8 = legacy then
    require (¬ (data.length ≠ (if buy then 25 else 24) ∨ (buy = true ∧ data.getD 24 0 > 1) ∨
      keys.length < 16 ∨ unpackAmounts data ≠ (leg.amountIn, leg.minimumNetAmountOut) ∨
      ¬ WalletAt keys 6 payer ∨ ¬ KeyAt keys 3 leg.hint.pool ∨ ¬ KeyAt keys 2 token))
      .pumpFunV1Mismatch
  else if data.take 8 = v3 then
    require (¬ (data.length ≠ (if buy then 25 else 24) ∨ (buy = true ∧ data.getD 24 0 ≠ 0) ∨
      keys.length ≠ 17 ∨ unpackAmounts data ≠ (leg.amountIn, leg.minimumNetAmountOut) ∨
      ¬ WalletAt keys 8 payer ∨ ¬ KeyAt keys 5 leg.hint.pool ∨ ¬ KeyAt keys 2 wsolTokenAccount ∨
      ¬ KeyAt keys 1 token)) .pumpFunV3Mismatch
  else
    require (¬ (data.length ≠ 24 ∨ data.take 8 ≠ discriminator ∨
      keys.length ≠ (if buy then 27 else 26) ∨
      unpackAmounts data ≠ (leg.amountIn, leg.minimumNetAmountOut) ∨
      ¬ WalletAt keys 13 payer ∨ ¬ KeyAt keys 10 leg.hint.pool ∨ ¬ KeyAt keys 2 wsolTokenAccount ∨
      ¬ KeyAt keys 1 token)) .pumpFunV2Mismatch

/-! ### Instructions -/

/-- The wallet sends lamports to its wrapped SOL account. -/
def fundAccount (payer ata : Pubkey) (lamports : ℤ) : Instruction :=
  ⟨systemProgram, littleEndian 4 2 ++ littleEndian 8 lamports.toNat,
    [⟨payer, true, true⟩, ⟨ata, false, true⟩]⟩

/-- The wrapped SOL account sends to the temporary one. -/
def transferToTemporary (payer ata temporary : Pubkey) (amount : ℤ) : Instruction :=
  ⟨tokenProgram, [3] ++ littleEndian 8 amount.toNat,
    [⟨ata, false, true⟩, ⟨temporary, false, true⟩, ⟨payer, true, false⟩]⟩

/-! ### Settlement -/

/-- The instructions, the lamports that the wallet needs and the lamports that are
estimated to stay with it. -/
abbrev PumpFunSettlement := List Instruction × ℤ × ℤ

/-- A route of one curve leg. -/
def settleCurve (d : Derivation) (route : PreparedCachedRoute) (leg : CachedRouteLeg)
    (payer : Pubkey) (nativeInput nativeOutput : Bool) (seed : String) (rent : ℤ) :
    Except ValueError PumpFunSettlement := do
  let buy : Bool := leg.hint.inputMint = wsolTokenAccount
  require (¬ (leg.instruction.programId ≠ pumpFunProgram ∨
    (leg.hint.inputMint = wsolTokenAccount ↔ leg.hint.outputMint = wsolTokenAccount)))
    .pumpFunNativeCurve
  validateSettlementInstructions route payer
  validateNativeAnchor leg payer buy
  require ((if buy then nativeOutput else nativeInput) = false) .invalidPumpFunEndpoint
  let ata := d.wrappedSol payer
  let keep := route.setupInstructions.filter fun ix => ¬ Creates ata ix
  let swaps := route.swapInstructions
  if buy = true ∧ nativeInput = true then return (keep ++ swaps, leg.amountIn, 0)
  else if buy = false ∧ nativeOutput = true then return (keep ++ swaps, 0, 0)
  else if buy = false then
    let minimum := route.minimumNetAmountOut
    match leg.estimatedNetAmountOut with
    | none => .error .missingPumpFunEstimate
    | some estimated =>
        require (minimum ≤ estimated) .missingPumpFunEstimate
        return (route.setupInstructions ++ swaps ++ [fundAccount payer ata minimum, syncNative ata],
          0, estimated - minimum)
  else
    let _ ← unsigned rent u64
    require (¬ (¬ (1 ≤ (encodeSeed seed).length ∧ (encodeSeed seed).length ≤ 32) ∨ rent = 0))
      .pumpFunSeedAndRent
    let temporary := d.temporaryAccount payer seed
    require (temporary ≠ ata) .temporaryInputCollides
    return ([createTemporary payer temporary seed rent, initializeTemporary payer temporary,
      transferToTemporary payer ata temporary leg.amountIn, closeTemporary payer temporary] ++
        keep ++ swaps, rent, 0)

def isCurve (leg : CachedRouteLeg) : Bool := leg.instruction.programId = pumpFunProgram

/-- The curve leg of a longer route, and whether it is the last one: a purchase. -/
def findAnchor (legs : List CachedRouteLeg) : Except ValueError (CachedRouteLeg × Bool) :=
  match (legs.zipIdx.filter fun p => isCurve p.1) with
  | [(anchor, index)] => do
      require (index = 0 ∨ index = legs.length - 1) .pumpFunOneCurve
      return (anchor, index == legs.length - 1)
  | _ => .error .pumpFunOneCurve

/-- A route of more than one leg, with the curve at one end. -/
def settleMultiHop (d : Derivation) (route : PreparedCachedRoute) (payer : Pubkey)
    (nativeInput nativeOutput : Bool) (seed : String) (rent : ℤ) :
    Except ValueError PumpFunSettlement := do
  require (¬ (¬ (2 ≤ route.legs.length ∧ route.legs.length ≤ 5) ∨ nativeInput = true ∨
    nativeOutput = true)) .pumpFunMultiHopEndpoints
  let (anchor, buy) ← findAnchor route.legs
  require ((if buy then anchor.hint.inputMint else anchor.hint.outputMint) = wsolTokenAccount)
    .pumpFunNativeAnchor
  require (route.legs.IsChain fun previous current =>
    previous.hint.outputMint = current.hint.inputMint ∧
      0 < current.amountIn ∧ current.amountIn ≤ previous.minimumNetAmountOut) .pumpFunExceedsCredit
  validateSettlementInstructions route payer
  let one : PreparedCachedRoute :=
    { legs := [anchor]
      setupInstructions := []
      swapInstructions := [anchor.instruction]
      minimumNetAmountOut := anchor.minimumNetAmountOut
      estimatedIntermediateResiduals := [] }
  let (converted, required, residual) ← settleCurve d one anchor payer false false seed rent
  if buy then
    return (route.setupInstructions ++ route.swapInstructions.dropLast ++ converted, required,
      residual)
  else
    return (route.setupInstructions ++ converted ++ route.swapInstructions.tail, required, residual)

def settlePumpfunNativeQuote (d : Derivation) (route : PreparedCachedRoute) (payer : Pubkey)
    (nativeInput nativeOutput : Bool) (seed : String) (rent : ℤ) :
    Except ValueError PumpFunSettlement :=
  match route.legs with
  | [leg] => settleCurve d route leg payer nativeInput nativeOutput seed rent
  | _ => settleMultiHop d route payer nativeInput nativeOutput seed rent

end SolTrade.Route
