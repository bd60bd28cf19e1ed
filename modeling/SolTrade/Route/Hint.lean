import SolTrade.Dlmm.Swap
import SolTrade.Instruction

/-!
What the modules on routes share: the addresses of the programs, the errors and the
hints that name a pool and the direction to trade it in.
-/

namespace SolTrade.Route

open Library

/-! ### Addresses -/

def systemProgram : Pubkey := .ofNat 0
def tokenProgram : Pubkey :=
  .ofNat 0x06ddf6e1d765a193d9cbe146ceeb79ac1cb485ed5f5b37913a8cf5857eff00a9
def associatedTokenProgram : Pubkey :=
  .ofNat 0x8c97258f4e2489f1bb3d1029148e0d830b5a1399daff1084048e7bd8dbe9f859
def wsolTokenAccount : Pubkey :=
  .ofNat 0x069b8857feab8184fb687f634618c035dac439dc1aeb3b5598a0f00000000001

def pumpFunProgram : Pubkey :=
  .ofNat 0x0156e0f693665acf44db1568bf175baa5189cb97f5d2ff3b655d2bb6fd6d18b0
def pumpSwapProgram : Pubkey :=
  .ofNat 0x0c14defc825ec67694250818bb654065f4298d3156d571b4d4f8090c18e9a863
def clmmProgram : Pubkey :=
  .ofNat 0xa5d5ca9e04cf5db590b714ba2fe32cb159133fc1c192b72257fd07d39cb0401e
def whirlpoolProgram : Pubkey :=
  .ofNat 0x0e03685f8e909053e458121c66f5a76aedc7706aa11c82f8aa952a8f2b7879a9
def dlmmProgram : Pubkey :=
  .ofNat 0x04e9e12fbc84e826c932cce9e2640cce15590c1c6273b0925708ba3b8520b0bc
def ammV4Program : Pubkey :=
  .ofNat 0x4bd949c43602c33f207790ed16a3524ca1b9975cf121a2a90cffec7df8b68acd
def cpmmProgram : Pubkey :=
  .ofNat 0xa92a5a8b4f295952842550aa93fd5b95b5ace6a8eb920c93942e43690c20ec73
def launchLabProgram : Pubkey :=
  .ofNat 0x05043b954dca26e1ef91b52c4f8f89af8a6f5ac8c62156f171cf0f21ac51c922

example : [systemProgram, tokenProgram, associatedTokenProgram, wsolTokenAccount, pumpFunProgram,
    pumpSwapProgram, clmmProgram, whirlpoolProgram, dlmmProgram, ammV4Program, cpmmProgram,
    launchLabProgram].map base58Text =
    ["11111111111111111111111111111111",
      "TokenkegQfeZyiNwAJbNbGKPFXCWuBvf9Ss623VQ5DA",
      "ATokenGPvbdGVxr1b2hvZbsiqW5xWH25efTNsLJA8knL",
      "So11111111111111111111111111111111111111112",
      "6EF8rrecthR5Dkzon8Nwu78hRvfCKubJ14M5uBEwF6P",
      "pAMMBay6oceH9fJKBRHGP5D4bD4sWpmSwMn52FMfXEA",
      "CAMMCzo5YL8w4VFF8KVHrK22GGUsp5VTaW7grrKgrWqK",
      "whirLbMiicVdio4qvUfM5KAg6Ct8VwpYzGff3uctyCc",
      "LBUZKhRxPF3XUpBCjp4YzTKgLccjZhTSDM9YuVaPwxo",
      "675kPX9MHTjS2zt1qfr1NYHuzeLXfQM9H24wFSUt1Mp8",
      "CPMMoo8L3F4NbTegBCKVNunggL7H1ZpdTHKxQB5qKP1C",
      "LanMV9sAd7wArD4vJFi2qDdfnVhFxYSUg6eADduJ3uj"] := by
  decide +kernel

/-! ### Errors -/

/-- What preparing a route raises. A read of the snapshot and the decoding of an
account come with a text of their own. -/
inductive RouteError where
  | value (e : ValueError)
  | mustFitU64 (name : String)
  | invalidVaultBalance (balance : ℤ)
  | invalidVirtualReserves (virtual : ℤ)
  | invalidEffectiveReserves (raw virtual : ℤ)
  | dlmm (e : Dlmm.DlmmError)
  | packRange
  | unreadable (text : String)
  deriving DecidableEq

def RouteError.text : RouteError → String
  | value e => e.text
  | mustFitU64 name => name ++ " must fit u64"
  | invalidVaultBalance balance => "Invalid quote vault balance: " ++ toString balance
  | invalidVirtualReserves virtual => "Invalid i128 virtual quote reserves: " ++ toString virtual
  | invalidEffectiveReserves raw virtual =>
      "Invalid effective quote reserves: raw=" ++ toString raw ++ ", virtual=" ++ toString virtual
  | dlmm e => e.text
  | packRange => "argument out of range"
  | unreadable text => text

instance : MonadLift (Except ValueError) (Except RouteError) where
  monadLift x := x.mapError .value

instance : MonadLift (Except Dlmm.DlmmError) (Except RouteError) where
  monadLift x := x.mapError .dlmm

variable {α : Type}

@[simp] theorem lift_eq_ok {x : Except ValueError α} {a : α} :
    (liftM x : Except RouteError α) = .ok a ↔ x = .ok a := mapError_eq_ok

@[simp] theorem lift_dlmm_eq_ok {x : Except Dlmm.DlmmError α} {a : α} :
    (liftM x : Except RouteError α) = .ok a ↔ x = .ok a := mapError_eq_ok

/-! ### Hints -/

/-- A pool and the direction to trade it in. -/
structure PoolTradeHint where
  pool : Pubkey
  inputMint : Pubkey
  outputMint : Pubkey
  pumpfunVersion : Option String := none
  deriving DecidableEq

/-- The check that making a hint runs. -/
def PoolTradeHint.postInit (h : PoolTradeHint) : Except ValueError Unit :=
  require (¬ (h.pool = .default ∨ h.inputMint = .default ∨ h.outputMint = .default ∨
    h.inputMint = h.outputMint)) .missingHintIdentity

/-- The same pool in the other direction. -/
def PoolTradeHint.reverse (h : PoolTradeHint) : PoolTradeHint :=
  { h with inputMint := h.outputMint, outputMint := h.inputMint }

def PoolTradeHint.mints (h : PoolTradeHint) : Finset Pubkey := {h.inputMint, h.outputMint}

end SolTrade.Route
