import Mathlib.Data.List.AList
import Mathlib.Data.List.Sort
import SolTrade.Instruction
import SolTrade.Library.Wire
import SolTrade.Numeric

/-!
The V1 wire message.

The uses of every account are merged, the accounts are put in the order of their
privileges, and the instructions refer to them by position. The decoder follows the
same layout.
-/

namespace SolTrade.Serialization

open Library Wire

structure V1Config where
  priorityFee : Option ℤ := none
  computeUnitLimit : Option ℤ := none
  loadedAccountsDataSizeLimit : Option ℤ := none
  heapSize : Option ℤ := none
  deriving DecidableEq, Repr

structure CompiledV1Message where
  message : List UInt8
  accountKeys : List Pubkey
  requiredSignatures : ℕ
  deriving DecidableEq

/-- A blockhash as text or as bytes. -/
inductive Blockhash where
  | text (s : String)
  | raw (bytes : List UInt8)
  deriving DecidableEq

/-! ### Accounts -/

/-- The privileges of each account: whether it signs and whether it is written. -/
abbrev Privileges := AList fun _ : Pubkey => Bool × Bool

/-- Adds a use of an account to its privileges. -/
def addAccount (accounts : Privileges) (key : Pubkey) (signer writable : Bool) : Privileges :=
  let prior := (accounts.lookup key).getD (false, false)
  accounts.insert key (signer || prior.1, writable || prior.2)

def addInstruction (accounts : Privileges) (ix : Instruction) : Privileges :=
  ix.accounts.foldl (fun accounts a => addAccount accounts a.pubkey a.isSigner a.isWritable)
    (addAccount accounts ix.programId false false)

def collectAccounts (payer : Pubkey) (instructions : List Instruction) : Privileges :=
  addAccount (instructions.foldl addInstruction ∅) payer true true

/-- The accounts in the order of the message: by privileges, the payer first. -/
structure AccountOrder where
  signedWritable : List Pubkey
  signedReadonly : List Pubkey
  unsignedWritable : List Pubkey
  unsignedReadonly : List Pubkey
  deriving DecidableEq

def AccountOrder.keys (o : AccountOrder) : List Pubkey :=
  o.signedWritable ++ o.signedReadonly ++ o.unsignedWritable ++ o.unsignedReadonly

def AccountOrder.required (o : AccountOrder) : ℕ :=
  o.signedWritable.length + o.signedReadonly.length

def orderAccounts (payer : Pubkey) (accounts : Privileges) : AccountOrder :=
  let accounts := accounts.erase payer
  let ordered := accounts.keys.insertionSort fun a b => a.bytes ≤ b.bytes
  let having := fun privileges => ordered.filter fun k => accounts.lookup k = some privileges
  { signedWritable := payer :: having (true, true)
    signedReadonly := having (true, false)
    unsignedWritable := having (false, true)
    unsignedReadonly := having (false, false) }

/-! ### Configuration and instructions -/

/-- Appends an optional value and sets its bit of the mask. -/
def packValue (value : Option ℤ) (bit width : ℕ) (packed : ℕ × List UInt8) :
    Except ValueError (ℕ × List UInt8) :=
  match value with
  | none => .ok packed
  | some v => do
      require (0 ≤ v ∧ v < 2 ^ (8 * width)) .v1ConfigOutsideRange
      require (¬ (bit = 16 ∧ (v < 32768 ∨ v > 262144 ∨ v % 1024 ≠ 0))) .invalidV1HeapSize
      return (packed.1 ||| bit, packed.2 ++ littleEndian width v.toNat)

def packConfig (config : V1Config) : Except ValueError (ℕ × List UInt8) := do
  let packed ← packValue config.priorityFee 3 8 (0, [])
  let packed ← packValue config.computeUnitLimit 4 4 packed
  let packed ← packValue config.loadedAccountsDataSizeLimit 8 4 packed
  packValue config.heapSize 16 4 packed

/-- The header and the payload of an instruction. -/
def packInstruction (keys : List Pubkey) (ix : Instruction) :
    Except ValueError (List UInt8 × List UInt8) := do
  let program := keys.idxOf ix.programId
  require (program ≠ 0) .v1FeePayerIsProgram
  require (¬ (ix.accounts.length > 255 ∨ ix.data.length > 65535)) .v1PayloadLimit
  return (UInt8.ofNat program :: UInt8.ofNat ix.accounts.length ::
      littleEndian 2 ix.data.length,
    ix.accounts.map (fun a => UInt8.ofNat (keys.idxOf a.pubkey)) ++ ix.data)

/-- The message of `keys` and packed parts. -/
def layoutMessage (order : AccountOrder) (mask : ℕ) (values blockhash : List UInt8)
    (packed : List (List UInt8 × List UInt8)) : List UInt8 :=
  [129, UInt8.ofNat order.required, UInt8.ofNat order.signedReadonly.length,
      UInt8.ofNat order.unsignedReadonly.length] ++
    littleEndian 4 mask ++ blockhash ++
    [UInt8.ofNat packed.length, UInt8.ofNat order.keys.length] ++
    order.keys.flatMap Vector.toList ++ values ++
    packed.flatMap Prod.fst ++ packed.flatMap Prod.snd

section Compile

-- `b58decode` reads a blockhash text
variable (b58decode : String → Except ValueError (List UInt8))

def Blockhash.decode : Blockhash → Except ValueError (List UInt8)
  | .text s => b58decode s
  | .raw bytes => .ok bytes

def compileV1Message (payer : Pubkey) (instructions : List Instruction)
    (recentBlockhash : Blockhash) (config : V1Config) : Except ValueError CompiledV1Message := do
  require (instructions.length ≤ 64) .v1TooManyInstructions
  let order := orderAccounts payer (collectAccounts payer instructions)
  require (¬ (order.keys.length > 64 ∨ order.required > 12)) .v1LimitExceeded
  let blockhash ← recentBlockhash.decode b58decode
  require (blockhash.length = 32) .invalidBlockhash
  let (mask, values) ← packConfig config
  let packed ← instructions.mapM (packInstruction order.keys)
  let message := layoutMessage order mask values blockhash packed
  require (message.length + order.required * 64 ≤ 4096) .v1TransactionTooLarge
  return ⟨message, order.keys, order.required⟩

end Compile

/-! ### Signing -/

structure Signer where
  pubkey : Pubkey
  signMessage : List UInt8 → List UInt8

/-- What signing raises; the last is the verifier's own exception. -/
inductive SignError where
  | value (e : ValueError)
  | missingV1Signer (key : Pubkey)
  | invalidSignature
  deriving DecidableEq

def SignError.text (str : PubkeyText) : SignError → String
  | value e => e.text
  | missingV1Signer key => "Missing V1 signer: " ++ str key
  | invalidSignature => ""

/-- The metadata of a compiled message agrees with its bytes. -/
def SignerMetadata (compiled : CompiledV1Message) : Prop :=
  let m := compiled.message
  let count := compiled.requiredSignatures
  let keys := compiled.accountKeys
  (1 ≤ count ∧ count ≤ min 12 keys.length) ∧ keys.length ≤ 64 ∧
    42 + 32 * keys.length ≤ m.length ∧ m.length + 64 * count ≤ 4096 ∧
    m[0]? = some 129 ∧ m[1]? = some (UInt8.ofNat count) ∧
    m[41]? = some (UInt8.ofNat keys.length) ∧
    (m.getD 2 0).toNat < count ∧ (m.getD 3 0).toNat ≤ keys.length - count ∧
    ∀ ki ∈ keys.zipIdx, (m.drop (42 + 32 * ki.2)).take 32 = ki.1.toList

instance (compiled : CompiledV1Message) : Decidable (SignerMetadata compiled) :=
  inferInstanceAs (Decidable (_ ∧ _))

/-- Signs with the last signer given for each required key. -/
def signV1Transaction (verify : Pubkey → List UInt8 → List UInt8 → Bool)
    (compiled : CompiledV1Message) (signers : List Signer) : Except SignError (List UInt8) := do
  require (SignerMetadata compiled) (.value .invalidV1SignerMetadata)
  let signatures ← (compiled.accountKeys.take compiled.requiredSignatures).mapM fun key =>
    match signers.reverse.find? (fun s => s.pubkey = key) with
    | none => .error (.missingV1Signer key)
    | some s =>
        let signature := s.signMessage compiled.message
        if verify key signature compiled.message then .ok signature else .error .invalidSignature
  return compiled.message ++ signatures.flatten

/-! ### Decoding -/

structure DecodedV1Instruction where
  programIndex : ℕ
  accountIndexes : List ℕ
  data : List UInt8
  deriving DecidableEq

structure DecodedV1Message where
  requiredSignatures : ℕ
  readonlySigned : ℕ
  readonlyUnsigned : ℕ
  blockhash : List UInt8
  keys : List Pubkey
  config : V1Config
  instructions : List DecodedV1Instruction
  deriving DecidableEq

def readPubkey : Parser Pubkey := do
  let raw ← bytes 32
  if h : raw.length = 32 then return ⟨raw.toArray, h⟩ else failure

/-- The value of an option that is present. -/
def readOptional (present : Bool) (width : ℕ) : Parser (Option ℤ) :=
  if present then (fun n : ℕ => some (n : ℤ)) <$> unsignedInt width else pure none

def readConfig (mask : ℕ) : Parser V1Config := do
  let priorityFee ← readOptional (mask &&& 3 = 3) 8
  let computeUnitLimit ← readOptional (mask &&& 4 = 4) 4
  let loadedAccountsDataSizeLimit ← readOptional (mask &&& 8 = 8) 4
  let heapSize ← readOptional (mask &&& 16 = 16) 4
  return { priorityFee, computeUnitLimit, loadedAccountsDataSizeLimit, heapSize }

/-- The program, the number of accounts and the length of the data. -/
def readHeader : Parser (ℕ × ℕ × ℕ) := do
  let program ← unsignedInt 1
  let accounts ← unsignedInt 1
  let data ← unsignedInt 2
  return (program, accounts, data)

def readPayload (header : ℕ × ℕ × ℕ) : Parser DecodedV1Instruction := do
  let accountIndexes ← times header.2.1 (unsignedInt 1)
  let data ← bytes header.2.2
  return ⟨header.1, accountIndexes, data⟩

def readMessage : Parser DecodedV1Message := do
  let version ← unsignedInt 1
  if version ≠ 129 then failure
  let requiredSignatures ← unsignedInt 1
  let readonlySigned ← unsignedInt 1
  let readonlyUnsigned ← unsignedInt 1
  let mask ← unsignedInt 4
  let blockhash ← bytes 32
  let instructions ← unsignedInt 1
  let accounts ← unsignedInt 1
  let keys ← times accounts readPubkey
  let config ← readConfig mask
  let headers ← times instructions readHeader
  let instructions ← headers.mapM readPayload
  return {
    requiredSignatures, readonlySigned, readonlyUnsigned, blockhash, keys, config, instructions }

def decodeV1Message : List UInt8 → Option DecodedV1Message := parseAll readMessage

/-- The privileges that the header gives to the account at a position. -/
def DecodedV1Message.isSigner (d : DecodedV1Message) (i : ℕ) : Bool := i < d.requiredSignatures

def DecodedV1Message.isWritable (d : DecodedV1Message) (i : ℕ) : Bool :=
  i < d.requiredSignatures - d.readonlySigned ∨
    d.requiredSignatures ≤ i ∧ i < d.keys.length - d.readonlyUnsigned

/-- The program and the accounts that an instruction refers to. -/
def DecodedV1Instruction.resolve (keys : List Pubkey) (ix : DecodedV1Instruction) :
    Option (Pubkey × List Pubkey × List UInt8) := do
  let program ← keys[ix.programIndex]?
  let accounts ← ix.accountIndexes.mapM fun i => keys[i]?
  return (program, accounts, ix.data)

end SolTrade.Serialization
