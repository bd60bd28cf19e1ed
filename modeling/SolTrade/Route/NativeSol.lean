import SolTrade.Route.CachedRoute

/-!
Settling a route in native SOL.

The wrapped SOL of the route passes through a temporary account of its own, which is
opened before the route and closed after it. The wallet's own wrapped SOL account is
replaced by it wherever a swap names it.
-/

namespace SolTrade.Route

open Library Wire

structure NativeSolRoute where
  instructions : List Instruction
  temporaryWsolAccount : Pubkey
  requiredLamports : ℤ
  minimumNetAmountOut : ℤ
  deriving DecidableEq

/-- The wallet's own wrapped SOL account. -/
def Derivation.wrappedSol (d : Derivation) (payer : Pubkey) : Pubkey :=
  d.associatedTokenAddress payer wsolTokenAccount tokenProgram

/-! ### Checks -/

/-- A leg and its instruction. -/
def checkNativeSolLeg (leg : CachedRouteLeg) (ix : Instruction) : Except ValueError Unit := do
  require (ix = leg.instruction) .nativeSolInstructionDiffers
  let _ ← unsigned leg.amountIn u64
  let _ ← unsigned leg.minimumNetAmountOut u64
  require (¬ (leg.amountIn = 0 ∨ leg.minimumNetAmountOut = 0)) .invalidNativeSolAmount

/-- A leg after the one before it. -/
def Continues (previous current : CachedRouteLeg) : Prop :=
  previous.hint.outputMint = current.hint.inputMint ∧
    current.amountIn ≤ previous.minimumNetAmountOut

instance : DecidableRel Continues := fun _ _ => inferInstanceAs (Decidable (_ ∧ _))

def checkNativeSolLegs (previous : Option CachedRouteLeg) :
    List (CachedRouteLeg × Instruction) → Except ValueError Unit
  | [] => .ok ()
  | (leg, ix) :: rest => do
      checkNativeSolLeg leg ix
      require (∀ p ∈ previous, Continues p leg) .nativeSolExceedsCredit
      checkNativeSolLegs (some leg) rest

/-- Continuity, amounts and protection of a route, leg by leg. The last leg is the
result. -/
def checkNativeSolRoute (route : PreparedCachedRoute) :
    Except ValueError (CachedRouteLeg × CachedRouteLeg) := do
  require (¬ (¬ (1 ≤ route.legs.length ∧ route.legs.length ≤ 5) ∨
    route.swapInstructions.length ≠ route.legs.length)) .invalidNativeSolRoute
  checkNativeSolLegs none (route.legs.zip route.swapInstructions)
  let _ ← unsigned route.minimumNetAmountOut u64
  match route.legs.head?, route.legs.getLast? with
  | some first, some last =>
      require (route.minimumNetAmountOut = last.minimumNetAmountOut) .nativeSolProtectionDiffers
      return (first, last)
  | _, _ => .error .invalidNativeSolRoute

/-! ### Instructions -/

/-- `seed.encode("utf8")`. -/
def encodeSeed (seed : String) : List UInt8 := seed.toUTF8.toList

section Build

variable (payer temporary : Pubkey) (seed : String)

def createTemporary (lamports : ℤ) : Instruction :=
  ⟨systemProgram, littleEndian 4 3 ++ payer.toList ++ littleEndian 8 (encodeSeed seed).length ++
      encodeSeed seed ++ littleEndian 8 lamports.toNat ++ littleEndian 8 165 ++ tokenProgram.toList,
    [⟨payer, true, true⟩, ⟨temporary, false, true⟩]⟩

def initializeTemporary : Instruction :=
  ⟨tokenProgram, [18] ++ payer.toList,
    [⟨temporary, false, true⟩, ⟨wsolTokenAccount, false, false⟩]⟩

def syncNative (account : Pubkey) : Instruction := ⟨tokenProgram, [17], [⟨account, false, true⟩]⟩

def closeTemporary : Instruction :=
  ⟨tokenProgram, [9], [⟨temporary, false, true⟩, ⟨payer, false, true⟩, ⟨payer, true, false⟩]⟩

end Build

/-- The instruction creates the account. -/
def Creates (account : Pubkey) (ix : Instruction) : Prop :=
  ix.programId = associatedTokenProgram ∧ (ix.accounts[1]?).map (·.pubkey) = some account

instance (account : Pubkey) : DecidablePred (Creates account) :=
  fun _ => inferInstanceAs (Decidable (_ ∧ _))

def redirectMeta (old temporary : Pubkey) (a : AccountMeta) : AccountMeta :=
  { a with pubkey := if a.pubkey = old then temporary else a.pubkey }

def redirect (old temporary : Pubkey) (ix : Instruction) : Instruction :=
  { ix with accounts := ix.accounts.map (redirectMeta old temporary) }

/-- Redirects the swaps, and tells whether a swap named the account. -/
def redirectSwaps (payer old temporary : Pubkey) :
    List Instruction → Bool → Except ValueError (List Instruction × Bool)
  | [], replaced => return ([], replaced)
  | ix :: ixs, replaced => do
      require (∃ a ∈ ix.accounts, a.pubkey = payer ∧ a.isSigner = true) .nativeSolOtherWallet
      let here := ix.accounts.any fun a => (redirectMeta old temporary a).pubkey != a.pubkey
      let (swaps, replaced) ← redirectSwaps payer old temporary ixs (replaced || here)
      return (redirect old temporary ix :: swaps, replaced)

def settleCachedRouteWithNativeSol (d : Derivation) (route : PreparedCachedRoute)
    (payer : Pubkey) (seed : String) (rentLamports : ℤ) (nativeInput : Bool := false)
    (nativeOutput : Bool := false) : Except ValueError NativeSolRoute := do
  require (nativeInput ≠ nativeOutput) .oneNativeEndpoint
  let (first, last) ← checkNativeSolRoute route
  let mint := if nativeInput then first.hint.inputMint else last.hint.outputMint
  require (mint = wsolTokenAccount) .nativeSolEndpoint
  require (1 ≤ (encodeSeed seed).length ∧ (encodeSeed seed).length ≤ 32) .invalidTemporarySeed
  let _ ← unsigned rentLamports u64
  require (rentLamports ≠ 0) .missingRent
  let funding := if nativeInput then first.amountIn else 0
  let required ← unsigned (rentLamports + funding) u64
  let temporary := d.temporaryAccount payer seed
  let old := d.wrappedSol payer
  require (temporary ≠ old) .temporaryCollides
  let setup := route.setupInstructions.filter fun ix => ¬ Creates old ix
  let (swaps, replaced) ← redirectSwaps payer old temporary route.swapInstructions false
  require (replaced = true) .nativeSolUnused
  return {
    instructions :=
      [createTemporary payer temporary seed required, initializeTemporary payer temporary,
        syncNative temporary] ++ setup ++ swaps ++ [closeTemporary payer temporary]
    temporaryWsolAccount := temporary
    requiredLamports := required
    minimumNetAmountOut := route.minimumNetAmountOut }

end SolTrade.Route
