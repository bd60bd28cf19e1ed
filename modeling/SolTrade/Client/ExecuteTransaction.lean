import SolTrade.Builder.Funding
import SolTrade.Trading.GasFeeStrategy

/-!
The transactions of one call of the trading client.

A call is planned before anything is sent: the instructions are wired with the nonce, the tip and
the compute budget, and every provider gets a transaction of its own, with its own tip account.
Hashes, keys and signatures are those of the caller's libraries, and the tip accounts are answered
by the providers.
-/

namespace SolTrade.Client

open Builder (transfer)
open Library Wire
open Route (systemProgram)
open Trading (DexType GasFeeStrategy SwqosType TradeType)

/-- `str(exc)`, or what solders raises for a number that does not fit. -/
inductive CallError where
  | text (error : String)
  | overflow
  deriving DecidableEq

instance : MonadLift (Except String) (Except CallError) where
  monadLift x := x.mapError .text

/-! ### Configurations -/

structure SwqosConfig where
  type : SwqosType
  region : String
  apiKey : String := ""
  customUrl : Option String := none
  mevProtection : Option Bool := none
  transport : Option String := none
  astralaneTransport : Option String := none
  swqosOnly : Option Bool := none
  deriving DecidableEq

def isSwqosTypeBlacklisted (swqosType : SwqosType) : Prop := swqosType = .nextBlock

instance : DecidablePred isSwqosTypeBlacklisted := fun _ => inferInstanceAs (Decidable (_ = _))

def normalizeSwqosConfigs (rpcUrl : String) (configs : List SwqosConfig) : List SwqosConfig :=
  let out :=
    if configs.any fun c => c.type = .default then configs
    else configs ++ [{ type := .default, region := "Default", apiKey := "", customUrl := rpcUrl }]
  out.filter fun c => ¬ isSwqosTypeBlacklisted c.type

/-- The configurations have a default one and no blacklisted one. -/
structure TradeConfig where
  rpcUrl : String
  swqosConfigs : List SwqosConfig
  defaulted : ∃ c ∈ swqosConfigs, c.type = .default
  allowed : ∀ c ∈ swqosConfigs, ¬ isSwqosTypeBlacklisted c.type

theorem exists_default_normalize (rpcUrl : String) (configs : List SwqosConfig) :
    ∃ c ∈ normalizeSwqosConfigs rpcUrl configs, c.type = .default := by
  rw [normalizeSwqosConfigs]
  split
  case isTrue h =>
    obtain ⟨c, hc, htype⟩ := List.any_eq_true.1 h
    have htype : c.type = .default := by simpa using htype
    exact ⟨c, List.mem_filter.2 ⟨hc, by simp [isSwqosTypeBlacklisted, htype]⟩, htype⟩
  case isFalse h =>
    exact ⟨_, List.mem_filter.2 ⟨List.mem_append_right _ (List.mem_singleton_self _),
      by simp [isSwqosTypeBlacklisted]⟩, rfl⟩

/-- `TradeConfig.__post_init__`. -/
def TradeConfig.new (rpcUrl : String) (swqosConfigs : List SwqosConfig) : TradeConfig where
  rpcUrl := rpcUrl
  swqosConfigs := normalizeSwqosConfigs rpcUrl swqosConfigs
  defaulted := exists_default_normalize rpcUrl swqosConfigs
  allowed c hc := by simpa using (List.mem_filter.1 hc).2

structure FlatGasFeeStrategy where
  buyPriorityFee : ℤ := 100000
  sellPriorityFee : ℤ := 100000
  buyComputeUnits : ℤ := 200000
  sellComputeUnits : ℤ := 200000
  buyTipLamports : ℤ := 100000
  sellTipLamports : ℤ := 100000

/-- What a call may bring for its fees. -/
inductive GasFees (τ : Type) where
  | flat (gas : FlatGasFeeStrategy)
  | common (gas : GasFeeStrategy τ)

structure DurableNonceInfo where
  nonceAccount : Pubkey
  authority : Pubkey
  nonceHash : String
  deriving DecidableEq

/-! ### Middlewares -/

structure InstructionMiddleware where
  processProtocolInstructions : List Instruction → String → Bool → Except String (List Instruction)
  processFullInstructions : List Instruction → String → Bool → Except String (List Instruction)

/-- One after the other, until no instruction is left. -/
def applyMiddlewares (process : InstructionMiddleware → List Instruction →
    Except String (List Instruction)) :
    List InstructionMiddleware → List Instruction → Except String (List Instruction)
  | [], result => return result
  | middleware :: rest, result => do
      let result ← process middleware result
      if result = [] then return result
      applyMiddlewares process rest result

/-- `apply_middlewares_process_full_instructions`. -/
def applyMiddlewaresProcessFullInstructions (middlewares : List InstructionMiddleware)
    (fullInstructions : List Instruction) (protocolName : String) (isBuy : Bool) :
    Except String (List Instruction) :=
  applyMiddlewares (fun m result => m.processFullInstructions result protocolName isBuy)
    middlewares fullInstructions

/-! ### Instructions -/

def recentBlockhashesSysvar : Pubkey :=
  .ofNat 0x06a7d517192c568ee08a845f73d29788cf035c3145b21ab344d8062ea9400000

def computeBudgetProgram : Pubkey :=
  .ofNat 0x0306466fe5211732ffecadba72c39be7bc8ce5bbc5f7126b2c439b3a40000000

example : [recentBlockhashesSysvar, computeBudgetProgram].map base58Text =
    ["SysvarRecentB1ockHashes11111111111111111111",
      "ComputeBudget111111111111111111111111111111"] := by
  decide +kernel

/-- `solders.system_program.advance_nonce_account`. -/
def advanceNonceAccount (nonce authority : Pubkey) : Instruction :=
  ⟨systemProgram, littleEndian 4 4, [⟨nonce, false, true⟩, ⟨recentBlockhashesSysvar, false, false⟩,
    ⟨authority, true, false⟩]⟩

/-- `solders.compute_budget.set_compute_unit_price`. -/
def setComputeUnitPrice (microLamports : ℤ) : Except CallError Instruction := do
  require (0 ≤ microLamports ∧ microLamports ≤ u64) .overflow
  return ⟨computeBudgetProgram, 3 :: littleEndian 8 microLamports.toNat, []⟩

/-- `solders.compute_budget.set_compute_unit_limit`. -/
def setComputeUnitLimit (units : ℤ) : Except CallError Instruction := do
  require (0 ≤ units ∧ units ≤ 2 ^ 32 - 1) .overflow
  return ⟨computeBudgetProgram, 2 :: littleEndian 4 units.toNat, []⟩

/-! ### Transactions -/

/-- What is signed, with a hash and a lookup table. -/
structure Transaction (η κ : Type) where
  payer : Pubkey
  instructions : List Instruction
  blockhash : η
  lookupTable : Option κ
  deriving DecidableEq

/-- What the client asks of its libraries: hashes and keys from text, the bytes of a transaction
that the payer has signed, and the lamports of a tip. -/
structure Libraries (η κ τ : Type) where
  hashFromString : String → Except String η
  pubkeyFromString : String → Except String Pubkey
  sign : Transaction η κ → Except String (List UInt8)
  lamports : τ → Option ℤ

structure TradingClient where
  payer : Pubkey
  config : TradeConfig
  middlewareManager : Option (List InstructionMiddleware) := none

/-- The arguments of `_execute_transaction`. -/
structure Call (κ τ : Type) where
  instructions : List Instruction
  blockhash : Option String
  waitConfirmed : Bool
  tradeType : TradeType := .buy
  addressLookupTableAccount : Option κ := none
  durableNonce : Option DurableNonceInfo := none
  gasFeeStrategy : Option (GasFees τ) := none
  simulate : Bool := false
  withTip : Bool := false
  dexType : Option DexType := none
  tipRecipient : Option Pubkey := none
  waitForAllSubmits : Bool := false

/-- What is handed to a provider. -/
structure Send (η κ : Type) where
  config : SwqosConfig
  transaction : Transaction η κ
  bytes : List UInt8

/-- What a call sends, once nothing can fail before it does. -/
inductive Plan (η κ : Type) where
  | simulated (transaction : Transaction η κ)
  | submitted (sends : List (Send η κ))
  | raw (transaction : Transaction η κ)

def packetDataSize : ℕ := 1232

def transactionTooLarge (serializedLen : ℕ) : String :=
  s!"transaction too large: {serializedLen} > {packetDataSize}; SDK did not remove compute budget " ++
    "or relay tip because that changes transaction priority semantics. Use an address lookup " ++
    "table or pre-create token ATAs before submitting"

namespace TradingClient

variable {η κ τ : Type} (client : TradingClient) (libraries : Libraries η κ τ) (call : Call κ τ)

/-- The unit price, the unit limit and the tip. -/
def gasForTrade (tradeType : TradeType) (gasFeeStrategy : Option (GasFees τ)) :
    Except CallError (ℤ × ℤ × ℤ) :=
  let flat (gas : FlatGasFeeStrategy) : ℤ × ℤ × ℤ :=
    if tradeType = .buy then (gas.buyPriorityFee, gas.buyComputeUnits, gas.buyTipLamports)
    else (gas.sellPriorityFee, gas.sellComputeUnits, gas.sellTipLamports)
  match gasFeeStrategy with
  | none => return flat {}
  | some (.flat gas) => return flat gas
  | some (.common gas) =>
      let commonTradeType := if tradeType = .buy then .buy else .sell
      let value := gas.get ⟨.default, commonTradeType, .normal⟩
      match value.bind fun value => (libraries.lamports value.tip).map (value, ·) with
      | some (value, tip) => return (value.cuPrice, value.cuLimit, tip)
      -- a common strategy has none of the fields of a flat one
      | none => throw (.text (if tradeType = .buy then
          "'GasFeeStrategy' object has no attribute 'buy_priority_fee'"
          else "'GasFeeStrategy' object has no attribute 'sell_priority_fee'"))

def applyFullMiddlewares (instructions : List Instruction) (tradeType : TradeType)
    (dexType : Option DexType) : Except String (List Instruction) :=
  match client.middlewareManager, dexType with
  | some manager, some dexType =>
      applyMiddlewaresProcessFullInstructions manager instructions dexType.text (tradeType = .buy)
  | _, _ => return instructions

/-- An instruction for a positive amount. -/
def forPositive (amount : ℤ) (instruction : ℤ → Except CallError Instruction) :
    Except CallError (List Instruction) :=
  if 0 < amount then do return [← instruction amount] else return []

/-- The tip, for a tip account. -/
def tipInstructions (tipRecipient : Option Pubkey) (tipLamports : ℤ) :
    Except CallError (List Instruction) :=
  match tipRecipient with
  | some recipient =>
      if call.withTip then
        forPositive tipLamports fun lamports =>
          (transfer client.payer recipient lamports).mapError fun _ => .overflow
      else return []
  | none => return []

/-- The instructions that come before those of the call, for a tip account. -/
def wiring (tipRecipient : Option Pubkey) : Except CallError (List Instruction) := do
  let nonce := match call.durableNonce with
    | some info => [advanceNonceAccount info.nonceAccount info.authority]
    | none => []
  let (unitPrice, unitLimit, tipLamports) ← gasForTrade libraries call.tradeType call.gasFeeStrategy
  let tip ← client.tipInstructions call tipRecipient tipLamports
  let price ← forPositive unitPrice setComputeUnitPrice
  let limit ← forPositive unitLimit setComputeUnitLimit
  return nonce ++ tip ++ price ++ limit

def buildWiredInstructions (tipRecipient : Option Pubkey) :
    Except CallError (List Instruction) := do
  let wired ← client.wiring libraries call tipRecipient
  client.applyFullMiddlewares (wired ++ call.instructions) call.tradeType call.dexType

/-- The transaction and its bytes. -/
def buildTransaction (instructions : List Instruction) (blockhash : String) :
    Except CallError (Transaction η κ × List UInt8) := do
  let parsedBlockhash ← libraries.hashFromString blockhash
  let transaction : Transaction η κ :=
    ⟨client.payer, instructions, parsedBlockhash, call.addressLookupTableAccount⟩
  let bytes ← libraries.sign transaction
  if bytes.length > packetDataSize then throw (.text (transactionTooLarge bytes.length))
  return (transaction, bytes)

/-! ### Plans -/

/-- The nonce hash, or the hash of the call. -/
def effectiveBlockhash (call : Call κ τ) : Option String :=
  match call.durableNonce with
  | some info => if info.nonceHash ≠ "" then some info.nonceHash else call.blockhash
  | none => call.blockhash

/-- The providers of the call: none where only the default one is configured. -/
def submissionConfigs : List SwqosConfig :=
  let configured := client.config.swqosConfigs
  if configured.any fun cfg => cfg.type ≠ .default then
    if call.withTip then configured else configured.filter fun cfg => cfg.type = .default
  else []

/-- The tip account of a provider's client. -/
def tipRecipientFor (cfg : SwqosConfig) (tipAccount : String) : Except String (Option Pubkey) :=
  if call.withTip = true ∧ cfg.type ≠ .default ∧ tipAccount ≠ "" then
    some <$> libraries.pubkeyFromString tipAccount
  else return none

/-- The transaction for a provider whose client has the given tip account, if it could be made. -/
def prepareSend (blockhash : String) (cfg : SwqosConfig) (created : Except String String) :
    Except CallError (Send η κ) := do
  let tipAccount ← created
  let tipRecipient ← tipRecipientFor libraries call cfg tipAccount
  let wired ← client.buildWiredInstructions libraries call tipRecipient
  let (transaction, bytes) ← client.buildTransaction libraries call wired blockhash
  return ⟨cfg, transaction, bytes⟩

/-- `createClient i cfg` is the tip account of the client that is made for the provider. -/
def plan (createClient : ℕ → SwqosConfig → Except String String) :
    Except CallError (Plan η κ) := do
  let some blockhash := effectiveBlockhash call
    | throw (.text ("recent_blockhash or durable_nonce.nonce_hash is required; trade execution " ++
        "hot path does not query RPC for blockhash"))
  let wired ← client.buildWiredInstructions libraries call call.tipRecipient
  let (transaction, _) ← client.buildTransaction libraries call wired blockhash
  if call.simulate then return .simulated transaction
  let configs := client.submissionConfigs call
  if configs = [] then return .raw transaction
  let nonDefaultCount := configs.countP fun cfg => cfg.type ≠ .default
  require (¬ (nonDefaultCount > 1 ∧ call.durableNonce = none))
    (.text "Multiple SWQOS transactions require durable_nonce to be set")
  return .submitted (← configs.zipIdx.mapM fun (cfg, i) =>
    client.prepareSend libraries call blockhash cfg (createClient i cfg))

end TradingClient

end SolTrade.Client
