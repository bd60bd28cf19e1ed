import SolTrade.Builder.PumpFunBuy

/-!
The compact instructions of the Pump programs, and the accounts that they take.

A multi-hop swap takes five accounts for each of its venues after its own. Every venue must be the
one of its mints, and the route must go through them in one direction.
-/

namespace SolTrade.Route

open Library Wire
open Builder (solTokenAccount)
open PumpFun (feeProgram)
open Token (token2022Program)

/-! ### Errors -/

inductive PumpRouteError where
  | routeInput
  | routeMinimum
  | missingBuybackRecipient
  | unsupportedHops
  | missingLimits
  | invalidEndpoints
  | unknownTokenProgram
  | disconnectedRoute
  | inconsistentTokenProgram
  | assetCycle
  | incompleteVenue
  | routeRequiresHops
  | invalidVenue
  | discontinuousRoute
  | mixedDirection
  | cashbackPosition
  | invalidCurveAccounts
  | noncanonicalPool
  | unknownVenue
  | wrongOutputMint
  | invalidArguments
  | zeroInput
  | invalidMultiHop
  | remainingAccounts
  | invalidPartialFill
  | missingAccount (name : String)
  | hopFlags
  | pumpRouteRequiresHops
  | pumpSwapDirectionDisabled
  | staleBuybackRecipient
  | unreadable (text : String)
  deriving DecidableEq

def PumpRouteError.text : PumpRouteError → String
  | routeInput => "Pump route input must be a positive u64"
  | routeMinimum => "Official Pump route minimum must be a positive u64"
  | missingBuybackRecipient => "Missing Pump buyback recipient"
  | unsupportedHops => "Official Pump routes require two or three supported hops"
  | missingLimits => "Provide an official final minimum and current buyback recipient"
  | invalidEndpoints => "Invalid Pump route endpoints"
  | unknownTokenProgram => "Unknown Pump route token program"
  | disconnectedRoute => "Disconnected Pump route"
  | inconsistentTokenProgram => "Inconsistent intermediate token program"
  | assetCycle => "Pump route contains an asset cycle"
  | incompleteVenue => "Incomplete Pump route venue"
  | routeRequiresHops => "Route requires hops and v0 with ALT for four or more hops"
  | invalidVenue => "Invalid multi-hop venue"
  | discontinuousRoute => "Discontinuous route"
  | mixedDirection => "Mixed route direction"
  | cashbackPosition => "Cashback must be at currency endpoint"
  | invalidCurveAccounts => "Invalid curve accounts"
  | noncanonicalPool => "Noncanonical Pump pool"
  | unknownVenue => "Unknown venue"
  | wrongOutputMint => "Wrong output mint"
  | invalidArguments => "Invalid u64 arguments"
  | zeroInput => "Input amount must be positive"
  | invalidMultiHop => "Invalid multi-hop route or minimum output"
  | remainingAccounts => "Compact trades and sweeps take no remaining accounts"
  | invalidPartialFill => "Invalid partial fill"
  | missingAccount name => "Missing account: " ++ name
  | hopFlags => "Invalid hop account flags"
  | pumpRouteRequiresHops => "Pump route requires hops"
  | pumpSwapDirectionDisabled => "PumpSwap direction is disabled"
  | staleBuybackRecipient => "Pump buyback recipient is not in current GlobalConfig"
  | unreadable text => text

/-! ### Instructions -/

structure PumpAccount where
  name : String
  writable : Bool := false
  signer : Bool := false
  deriving DecidableEq

structure PumpSpec where
  program : Pubkey
  discriminator : List UInt8
  accounts : List PumpAccount
  args : ℕ
  partialFill : Bool := false

inductive PumpUpgrade where
  | buyV3
  | buyExactQuoteInV3
  | sellV3
  | sweepCreatorFee
  | sweepProtocolFee
  | ammBuyV2
  | ammBuyExactQuoteInV2
  | ammSellV2
  | ammMultiHopSwap
  | ammSweepCreatorFee
  | ammSweepProtocolFee
  deriving DecidableEq

def tradeV3Accounts : List PumpAccount :=
  [{ name := "global" }, { name := "base_mint" }, { name := "quote_mint" },
    { name := "base_token_program" }, { name := "quote_token_program" },
    { name := "bonding_curve", writable := true },
    { name := "associated_base_bonding_curve", writable := true },
    { name := "associated_quote_bonding_curve", writable := true },
    { name := "user", writable := true, signer := true },
    { name := "associated_base_user", writable := true },
    { name := "associated_quote_user", writable := true },
    { name := "user_volume_accumulator", writable := true }, { name := "fee_config" },
    { name := "buyback_fee_recipient", writable := true }, { name := "system_program" },
    { name := "event_authority" }, { name := "program" }]

def sweepAccounts : List PumpAccount :=
  [{ name := "payer", writable := true, signer := true }, { name := "global" },
    { name := "base_mint" }, { name := "quote_mint" }, { name := "quote_token_program" },
    { name := "associated_token_program" }, { name := "system_program" },
    { name := "bonding_curve", writable := true },
    { name := "associated_quote_bonding_curve", writable := true },
    { name := "recipient", writable := true },
    { name := "associated_quote_recipient", writable := true }, { name := "event_authority" },
    { name := "program" }]

def ammTradeAccounts : List PumpAccount :=
  [{ name := "pool", writable := true }, { name := "user", writable := true, signer := true },
    { name := "global_config" }, { name := "base_mint" }, { name := "quote_mint" },
    { name := "user_base_token_account", writable := true },
    { name := "user_quote_token_account", writable := true },
    { name := "pool_base_token_account", writable := true },
    { name := "pool_quote_token_account", writable := true }, { name := "base_token_program" },
    { name := "quote_token_program" }, { name := "system_program" },
    { name := "user_volume_accumulator", writable := true }, { name := "fee_config" },
    { name := "buyback_fee_recipient", writable := true }, { name := "event_authority" },
    { name := "program" }]

def multiHopAccounts : List PumpAccount :=
  [{ name := "user", writable := true, signer := true },
    { name := "user_in_token_account", writable := true },
    { name := "user_out_token_account", writable := true }, { name := "global_config" },
    { name := "fee_config" }, { name := "user_volume_accumulator", writable := true },
    { name := "buyback_fee_recipient", writable := true }, { name := "token_program" },
    { name := "token_2022_program" }, { name := "system_program" }, { name := "event_authority" },
    { name := "program" }, { name := "pump_program" }, { name := "pump_global" },
    { name := "pump_fee_config" }, { name := "pump_event_authority" }]

def ammSweepAccounts : List PumpAccount :=
  [{ name := "payer", writable := true, signer := true }, { name := "global_config" },
    { name := "pool", writable := true }, { name := "quote_mint" },
    { name := "quote_token_program" }, { name := "pool_quote_token_account", writable := true },
    { name := "recipient" }, { name := "recipient_token_account", writable := true },
    { name := "system_program" }, { name := "associated_token_program" },
    { name := "event_authority" }, { name := "program" }]

def PumpUpgrade.spec : PumpUpgrade → PumpSpec
  | buyV3 => ⟨pumpFunProgram, [7, 5, 29, 196, 245, 23, 101, 80], tradeV3Accounts, 2, true⟩
  | buyExactQuoteInV3 =>
      ⟨pumpFunProgram, [225, 247, 80, 30, 213, 179, 132, 136], tradeV3Accounts, 2, true⟩
  | sellV3 => ⟨pumpFunProgram, [28, 146, 222, 119, 38, 196, 105, 213], tradeV3Accounts, 2, false⟩
  | sweepCreatorFee =>
      ⟨pumpFunProgram, [32, 246, 191, 52, 8, 201, 73, 186], sweepAccounts, 0, false⟩
  | sweepProtocolFee =>
      ⟨pumpFunProgram, [8, 48, 190, 7, 182, 68, 183, 229], sweepAccounts, 0, false⟩
  | ammBuyV2 =>
      ⟨pumpSwapProgram, [184, 23, 238, 97, 103, 197, 211, 61], ammTradeAccounts, 2, false⟩
  | ammBuyExactQuoteInV2 =>
      ⟨pumpSwapProgram, [194, 171, 28, 70, 104, 77, 91, 47], ammTradeAccounts, 2, false⟩
  | ammSellV2 =>
      ⟨pumpSwapProgram, [93, 246, 130, 60, 231, 233, 64, 178], ammTradeAccounts, 2, false⟩
  | ammMultiHopSwap =>
      ⟨pumpSwapProgram, [43, 100, 73, 19, 233, 246, 111, 148], multiHopAccounts, 2, false⟩
  | ammSweepCreatorFee =>
      ⟨pumpSwapProgram, [32, 246, 191, 52, 8, 201, 73, 186], ammSweepAccounts, 0, false⟩
  | ammSweepProtocolFee =>
      ⟨pumpSwapProgram, [8, 48, 190, 7, 182, 68, 183, 229], ammSweepAccounts, 0, false⟩

/-- The accounts by their names. -/
abbrev NamedAccounts := List (String × Pubkey)

def namedAccount (accounts : NamedAccounts) (a : PumpAccount) : Except PumpRouteError AccountMeta :=
  match accounts.lookup a.name with
  | some key => .ok ⟨key, a.signer, a.writable⟩
  | none => .error (.missingAccount a.name)

/-- The last three of the five accounts of a venue are writable. -/
def HopFlags (remaining : List AccountMeta) : Prop :=
  ∀ p ∈ remaining.zipIdx, p.1.isSigner = false ∧ (p.1.isWritable = true ↔ 2 ≤ p.2 % 5)

instance : DecidablePred HopFlags := fun _ => inferInstanceAs (Decidable (∀ _ ∈ _, _))

def buildPumpUpgradeInstruction (name : PumpUpgrade) (accounts : NamedAccounts)
    (amounts : List ℤ := []) (partialFill : Option Bool := none)
    (remaining : List AccountMeta := []) : Except PumpRouteError Instruction := do
  let s := name.spec
  require (amounts.length = s.args ∧ ∀ n ∈ amounts, 0 ≤ n ∧ n ≤ u64) .invalidArguments
  require (amounts.head? ≠ some 0) .zeroInput
  if name = .ammMultiHopSwap then
    require (¬ (amounts[1]? = some 0 ∨ remaining.length < 5 ∨ remaining.length % 5 ≠ 0))
      .invalidMultiHop
  else require (remaining = []) .remainingAccounts
  require (partialFill.isSome = true → s.partialFill = true) .invalidPartialFill
  let keys ← s.accounts.mapM (namedAccount accounts)
  require (HopFlags remaining) .hopFlags
  return ⟨s.program, s.discriminator ++ amounts.flatMap (fun n => littleEndian 8 n.toNat) ++
    (partialFill.map fun fill : Bool => if fill then (1 : UInt8) else 0).toList, keys ++ remaining⟩

/-! ### Accounts -/

def normalizeQuote (mint : Pubkey) : Pubkey :=
  if mint = .default ∨ mint = solTokenAccount then wsolTokenAccount else mint

/-- The kind of a venue, as its text says. -/
inductive PumpVenue where
  | curve
  | pool
  | other
  deriving DecidableEq

structure PumpMultiHop where
  venue : PumpVenue
  baseMint : Pubkey
  quoteMint : Pubkey
  address : Pubkey
  baseVault : Pubkey
  quoteVault : Pubkey
  baseTokenProgram : Pubkey
  quoteTokenProgram : Pubkey
  mayhem : Bool := false
  cashback : Bool := false
  complete : Bool := false
  index : ℤ := 0
  creator : Option Pubkey := none
  deriving DecidableEq

def normalizeHop (h : PumpMultiHop) : PumpMultiHop :=
  { h with
    quoteMint := normalizeQuote h.quoteMint
    quoteTokenProgram :=
      if normalizeQuote h.quoteMint = wsolTokenAccount then tokenProgram else h.quoteTokenProgram }

section Accounts

variable (find : ProgramAddress)

def pda (program : Pubkey) (text : String) (key : Option Pubkey := none) : Pubkey :=
  (find (seed text :: (key.map fun k => k.toList).toList) program).1

def canonicalCurve (mint : Pubkey) : Pubkey := pda find pumpFunProgram "bonding-curve" (some mint)

def poolAuthority (mint : Pubkey) : Pubkey := pda find pumpFunProgram "pool-authority" (some mint)

def canonicalPool (h : PumpMultiHop) : Pubkey :=
  (find [seed "pool", [0, 0], (poolAuthority find h.baseMint).toList, h.baseMint.toList,
    h.quoteMint.toList] pumpSwapProgram).1

/-! ### A route -/

/-- The venue is the one of its mints. -/
def checkVenue (h : PumpMultiHop) : Except PumpRouteError Unit :=
  match h.venue with
  | .curve =>
      let curve := canonicalCurve find h.baseMint
      require (¬ (h.complete = true ∨ h.address ≠ curve ∨
        h.baseVault ≠ associatedTokenAddress find curve h.baseMint h.baseTokenProgram ∨
        h.quoteVault ≠ associatedTokenAddress find curve h.quoteMint h.quoteTokenProgram))
        .invalidCurveAccounts
  | .pool =>
      require (¬ (h.index ≠ 0 ∨ h.creator ≠ some (poolAuthority find h.baseMint) ∨
        h.address ≠ canonicalPool find h)) .noncanonicalPool
  | .other => .error .unknownVenue

/-- The accounts of a venue. -/
def PumpMultiHop.metas (h : PumpMultiHop) : List AccountMeta :=
  [⟨h.baseMint, false, false⟩, ⟨h.quoteMint, false, false⟩, ⟨h.address, false, true⟩,
    ⟨h.baseVault, false, true⟩, ⟨h.quoteVault, false, true⟩]

/-- Goes on from a mint: where the route comes to, in which direction, and the accounts of its
venues. The position is counted from the first of all the hops. -/
def walkHops (count : ℕ) :
    List PumpMultiHop → ℕ → Pubkey → Option Bool →
      Except PumpRouteError (Pubkey × Option Bool × List AccountMeta)
  | [], _, current, side => .ok (current, side, [])
  | h :: hops, i, current, side => do
      require (¬ (h.mayhem = true ∨ h.baseMint = h.quoteMint)) .invalidVenue
      let buy : Bool := current = h.quoteMint
      require (buy = true ∨ current = h.baseMint) .discontinuousRoute
      require (side = none ∨ side = some buy) .mixedDirection
      require (h.cashback = true → i = (if buy then 0 else count - 1)) .cashbackPosition
      checkVenue find h
      let (last, side, metas) ←
        walkHops count hops (i + 1) (if buy then h.baseMint else h.quoteMint) (some buy)
      return (last, side, h.metas ++ metas)

def derivePumpMultiHopAccounts (user inputMint outputMint buybackRecipient : Pubkey)
    (hops : List PumpMultiHop) (useV0WithAlt : Bool := false) :
    Except PumpRouteError (NamedAccounts × List AccountMeta) := do
  require (¬ (hops = [] ∨ (4 ≤ hops.length ∧ useV0WithAlt = false))) .routeRequiresHops
  let input := normalizeQuote inputMint
  let output := normalizeQuote outputMint
  let venues := hops.map normalizeHop
  let (current, side, remaining) ← walkHops find venues.length venues 0 input none
  require (current = output) .wrongOutputMint
  match venues.head?, venues.getLast? with
  | some first, some last =>
      let buy := side.getD false
      let currency := if buy then first else last
      let ata := associatedTokenAddress find
      return ([("user", user),
        ("user_in_token_account",
          ata user input (if buy then first.quoteTokenProgram else first.baseTokenProgram)),
        ("user_out_token_account",
          ata user output (if buy then last.baseTokenProgram else last.quoteTokenProgram)),
        ("global_config", pda find pumpSwapProgram "global_config"),
        ("fee_config", pda find feeProgram "fee_config" (some pumpSwapProgram)),
        ("user_volume_accumulator", pda find pumpSwapProgram "user_volume_accumulator" (some user)),
        ("buyback_fee_recipient",
          ata buybackRecipient currency.quoteMint currency.quoteTokenProgram),
        ("token_program", tokenProgram), ("token_2022_program", token2022Program),
        ("system_program", .default),
        ("event_authority", pda find pumpSwapProgram "__event_authority"),
        ("program", pumpSwapProgram), ("pump_program", pumpFunProgram),
        ("pump_global", pda find pumpFunProgram "global"),
        ("pump_fee_config", pda find feeProgram "fee_config" (some pumpFunProgram)),
        ("pump_event_authority", pda find pumpFunProgram "__event_authority")], remaining)
  | _, _ => .error .routeRequiresHops

end Accounts

end SolTrade.Route
