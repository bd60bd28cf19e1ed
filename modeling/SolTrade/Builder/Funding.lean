import SolTrade.AccountReader
import SolTrade.ProgramAddress
import SolTrade.PumpFun.ExactCurve
import SolTrade.Route.Execution

/-!
What the instruction builders share: the accounts of the wallet that they open and close,
and the funding of its wrapped SOL account.

A purchase is a list of instructions in which one swap stands among the instructions that open,
fund and close accounts. What the list wraps and what the swap may take are read from the bytes.
-/

namespace SolTrade.Builder

open Library Wire
open PumpFun (CurveError)
open PumpSwap (unsignedAt)
open Route

/-! ### Errors -/

/-- What a builder raises: an error of its own, of a quote or of the curve, a number that does not
fit its field or a float, a division by zero. -/
inductive BuildError where
  | value (text : String)
  | quote (e : RouteError)
  | curve (e : CurveError)
  | packRange
  | lamportsRange
  | floatRange
  | zeroDivision
  deriving DecidableEq

instance : MonadLift (Except RouteError) (Except BuildError) where
  monadLift x := x.mapError .quote

instance : MonadLift (Except CurveError) (Except BuildError) where
  monadLift x := x.mapError .curve

/-- `struct.pack("<Q", n)`. -/
def packU64 (n : ℤ) : Except BuildError (List UInt8) := do
  require (0 ≤ n ∧ n ≤ u64) .packRange
  return littleEndian 8 n.toNat

/-- `solders.system_program.transfer`. -/
def transfer (source destination : Pubkey) (lamports : ℤ) : Except BuildError Instruction := do
  require (0 ≤ lamports ∧ lamports ≤ u64) .lamportsRange
  return fundAccount source destination lamports

/-! ### Addresses -/

def solTokenAccount : Pubkey :=
  .ofNat 0x069b8857feab8184fb687f634618c035dac439dc1aeb3b5598a0f00000000000

example : base58Text solTokenAccount = "So11111111111111111111111111111111111111111" := by
  decide +kernel

def feeRecipient : Pubkey :=
  .ofNat 0x4ac2f8d0dd5cbc97e3289c197cb5062a54f3d956b9ce6e5115f96567aa5cb3e6

def mayhemFeeRecipients : List Pubkey := [
  .ofNat 0xe893141fb18e9f1574d810e178e19e30604e3175aa2e4a32dfc8600727d10709,
  .ofNat 0x3584536256094f912819127efa4e446b4333721793d13876f9aadbf3dc7d0b5f,
  .ofNat 0x6e75018220f942677003237b4d6b453759b4a5c690b59c35d9bb187a090cbd2a,
  .ofNat 0x33987a9ebb136799ab59925b13e5dc8b3081df005db427c1478fa46ff8c347a0,
  .ofNat 0x74e9543f3e37a2d046227addcb4e9c774c44258c43edf24aa8aae1f00214665b,
  .ofNat 0xda4c38cd6db7438f59b408bb9ec3b4ca9e8ad1f1f24653c499b5796c20dbf9b3,
  .ofNat 0x2ddd9eea3f39b372115c71847c1845cfa536c685074e030e44d021de3ef9e35c,
  .ofNat 0x4cb780f08ee2fee84bec446a577825da68d439fa8a5da3b0c5cff50f63f4546b]

def protocolExtraFeeRecipients : List Pubkey := [
  .ofNat 0x439e6510c03d65fad931e89d04be0bb70d51971f51c415fb344c07db419f2122,
  .ofNat 0x02235516a917134c67588c493820ae155ee96665577ac1b718da47ddcf2a050e,
  .ofNat 0xe6a7e22068bb88640aa57f909308c61fef711a0163f5a755c070bc860d1f6367,
  .ofNat 0x207cecda5bcc6cb1eaf0f16d68404566b18d56d2481acb317032656e90551c78,
  .ofNat 0x449641f84958dc73a76a85d8756f55c02cdaca89ba1932790c368ab157e92d73,
  .ofNat 0xc54b96b5c931941e46ea4be2e0e31127744fc6b74cfb455efeaf8bd571792ced,
  .ofNat 0x44fc1f78f94a33d0909c5e6b5fb021570ad8dbad8de8fdb3d20ed1cd99eb8e4e,
  .ofNat 0x8770157eebeb678a655db99b37f6b1326c7657db90cfb8a87abef8c7b6f2c869]

example : (feeRecipient :: mayhemFeeRecipients ++ protocolExtraFeeRecipients).map base58Text =
    ["62qc2CNXwrYqQScmEdiZFFAnJR262PxWEuNQtxfafNgV",
      "GesfTA3X2arioaHp8bbKdjG9vJtskViWACZoYvxp4twS",
      "4budycTjhs9fD6xw62VBducVTNgMgJJ5BgtKq7mAZwn6",
      "8SBKzEQU4nLSzcwF4a74F2iaUDQyTfjGndn6qUWBnrpR",
      "4UQeTP1T39KZ9Sfxzo3WR5skgsaP6NZa87BAkuazLEKH",
      "8sNeir4QsLsJdYpc9RZacohhK1Y5FLU3nC5LXgYB4aa6",
      "Fh9HmeLNUMVCvejxCtCL2DbYaRyBFVJ5xrWkLnMH6fdk",
      "463MEnMeGyJekNZFQSTUABBEbLnvMTALbT6ZmsxAbAdq",
      "6AUH3WEHucYZyC61hqpqYUWVto5qA5hjHuNQ32GNnNxA",
      "5YxQFdt3Tr9zJLvkFccqXVUwhdTWJQc1fFg2YPbxvxeD",
      "9M4giFFMxmFGXtc3feFzRai56WbBqehoSeRE5GK7gf7",
      "GXPFM2caqTtQYC2cJ5yJRi9VDkpsYZXzYdwYpGnLmtDL",
      "3BpXnfJaUTiwXnJNe7Ej1rcbzqTTQUvLShZaWazebsVR",
      "5cjcW9wExnJJiqgLjq7DEG75Pm6JBgE1hNv4B2vHXUW6",
      "EHAAiTxcdDwQ3U4bU6YcMsQGaekdzLS3B5SmYo46kJtL",
      "5eHhjP8JaYkz83CWwvGU2uMUXefd3AazWGx4gpcuEEYD",
      "A7hAgCzFw14fejgCp387JUJRMNyz4j89JKnhtKU8piqW"] := by
  decide +kernel

/-! ### Accounts of the wallet -/

section Accounts

variable (find : ProgramAddress)

def createAssociatedTokenAccountIdempotentInstruction (payer owner mint program : Pubkey) :
    Instruction :=
  ⟨associatedTokenProgram, [1],
    [⟨payer, true, true⟩, ⟨associatedTokenAddress find owner mint program, false, true⟩,
      ⟨owner, false, false⟩, ⟨mint, false, false⟩, ⟨systemProgram, false, false⟩,
      ⟨program, false, false⟩]⟩

/-- The wrapped SOL account of a wallet. -/
def wsolAta (payer : Pubkey) : Pubkey :=
  associatedTokenAddress find payer wsolTokenAccount tokenProgram

def createWsolAccountInstruction (payer : Pubkey) (amount : ℤ) :
    Except BuildError (List Instruction) := do
  let transferIx ← transfer payer (wsolAta find payer) amount
  return [createAssociatedTokenAccountIdempotentInstruction find payer payer wsolTokenAccount
    tokenProgram, transferIx, syncNative (wsolAta find payer)]

def handleWsol (payer : Pubkey) (amount : ℤ) : Except BuildError (List Instruction) :=
  createWsolAccountInstruction find payer amount

def closeWsolAccountInstruction (payer : Pubkey) : Instruction :=
  ⟨tokenProgram, [9],
    [⟨wsolAta find payer, false, true⟩, ⟨payer, false, true⟩, ⟨payer, true, false⟩]⟩

def closeWsol (payer : Pubkey) : List Instruction := [closeWsolAccountInstruction find payer]

/-- The account of the input, if it is asked for: wrapped SOL is funded, any other is opened. -/
def fundInput (create : Bool) (payer mint program : Pubkey) (amount : ℤ) :
    Except BuildError (List Instruction) :=
  if create = true then
    if mint = wsolTokenAccount then handleWsol find payer amount
    else .ok [createAssociatedTokenAccountIdempotentInstruction find payer payer mint program]
  else .ok []

/-- The account of the output, if it is asked for. -/
def openOutput (create : Bool) (payer mint program : Pubkey) : List Instruction :=
  if create = true then
    [createAssociatedTokenAccountIdempotentInstruction find payer payer mint program]
  else []

/-- Closes the account of the input, if that is asked for and it is wrapped SOL. -/
def closeInput (close : Bool) (payer mint : Pubkey) : List Instruction :=
  if close = true ∧ mint = wsolTokenAccount then closeWsol find payer else []

end Accounts

def calculateWithSlippageBuy (amount slippageBps : ℤ) : ℤ :=
  amount * (10000 + slippageBps) / 10000

def calculateWithSlippageSell (amount slippageBps : ℤ) : ℤ :=
  amount * (10000 - slippageBps) / 10000

/-! ### What a list of instructions moves -/

/-- The lamports that an instruction sends from the wallet to its wrapped SOL account. -/
def wraps (find : ProgramAddress) (payer : Pubkey) (ix : Instruction) : Option ℕ :=
  if ix.programId = systemProgram ∧ ix.accounts.map (·.pubkey) = [payer, wsolAta find payer] then
    match parseAll readSystemInstruction ix.data with
    | some (.transfer lamports) => some lamports
    | _ => none
  else none

/-- The `i`-th number after the eight bytes that name an instruction. -/
def argument (data : List UInt8) (i : ℕ) : ℕ := unsignedAt data (8 + 8 * i) 8

/-- The programs that open, fund and close accounts. -/
def accountPrograms : List Pubkey := [associatedTokenProgram, systemProgram, tokenProgram]

/-- A program that swaps: its address, and what the data of a swap lets it take at most. -/
structure SwapProgram where
  address : Pubkey
  maximumInput : List UInt8 → Option ℕ
  address_notMem : address ∉ accountPrograms

/-- What an instruction lets the program take at most, if it is a swap of the program. -/
def SwapProgram.authorises (p : SwapProgram) (ix : Instruction) : Option ℕ :=
  if ix.programId = p.address then p.maximumInput ix.data else none

/-- The list only opens, funds and closes accounts, and wraps these amounts of lamports. -/
structure Wraps (find : ProgramAddress) (payer : Pubkey) (lamports : List ℕ)
    (ixs : List Instruction) : Prop where
  programs : ∀ ix ∈ ixs, ix.programId ∈ accountPrograms
  wrapped : ixs.filterMap (wraps find payer) = lamports

/-- The list holds one swap of the program, which may take at most `n`. Exactly `n` lamports are
wrapped in it if `wrapping` holds, and none otherwise. -/
structure Funds (find : ProgramAddress) (payer : Pubkey) (p : SwapProgram) (wrapping : Prop)
    [Decidable wrapping] (n : ℕ) (ixs : List Instruction) : Prop where
  authorised : ixs.filterMap p.authorises = [n]
  wrapped : ixs.filterMap (wraps find payer) = if wrapping then [n] else []

/-! ### Opening, funding and closing accounts -/

section Wraps

variable {find : ProgramAddress} {p : SwapProgram} {payer mint program : Pubkey} {amount : ℤ}
  {ix create swap : Instruction} {ixs ys opening funding closing : List Instruction}
  {lamports more : List ℕ} {wrapping : Prop} [Decidable wrapping] {n : ℕ}

/-- Only the system program moves lamports of the wallet. -/
theorem wraps_of_ne (h : ix.programId ≠ systemProgram) : wraps find payer ix = none :=
  if_neg fun hsystem => h hsystem.1

theorem associated_ne_system : associatedTokenProgram ≠ systemProgram := by decide +kernel

theorem token_ne_system : tokenProgram ≠ systemProgram := by decide +kernel

theorem Wraps.nil : Wraps find payer [] [] := ⟨List.forall_mem_nil _, rfl⟩

theorem Wraps.append (h : Wraps find payer lamports ixs) (h' : Wraps find payer more ys) :
    Wraps find payer (lamports ++ more) (ixs ++ ys) where
  programs := List.forall_mem_append.2 ⟨h.programs, h'.programs⟩
  wrapped := by rw [List.filterMap_append, h.wrapped, h'.wrapped]

/-- Opening an account. -/
theorem Wraps.associated (h : ix.programId = associatedTokenProgram) :
    Wraps find payer [] [ix] where
  programs := by simp [accountPrograms, h]
  wrapped := by
    have hnone : wraps find payer ix = none := wraps_of_ne (h ▸ associated_ne_system)
    simp [hnone]

/-- Closing an account, or telling it of its lamports. -/
theorem Wraps.token (h : ix.programId = tokenProgram) : Wraps find payer [] [ix] where
  programs := by simp [accountPrograms, h]
  wrapped := by
    have hnone : wraps find payer ix = none := wraps_of_ne (h ▸ token_ne_system)
    simp [hnone]

/-- Funding the wrapped SOL account of the wallet. -/
theorem Wraps.fund (h : 0 ≤ amount ∧ amount ≤ u64) :
    Wraps find payer [amount.toNat] [fundAccount payer (wsolAta find payer) amount] where
  programs := by simp [accountPrograms, fundAccount]
  wrapped := by
    have hsome : wraps find payer (fundAccount payer (wsolAta find payer) amount) =
        some amount.toNat := by
      rw [wraps, if_pos ⟨rfl, rfl⟩, fundAccount, Ledger.parse_transfer (Ledger.toNat_lt h)]
    simp [hsome]

/-- Opening, funding and synchronizing the wrapped SOL account of the wallet. -/
theorem Wraps.handleWsol (hcreate : create.programId = associatedTokenProgram)
    (h : 0 ≤ amount ∧ amount ≤ u64) :
    Wraps find payer [amount.toNat]
      [create, fundAccount payer (wsolAta find payer) amount, syncNative (wsolAta find payer)] :=
  (Wraps.associated hcreate).append ((Wraps.fund h).append (.token rfl))

theorem wraps_handleWsol (h : Builder.handleWsol find payer amount = .ok ixs) :
    Wraps find payer [amount.toNat] ixs := by
  rw [Builder.handleWsol, createWsolAccountInstruction, transfer, bind_eq_ok] at h
  obtain ⟨transferIx, htransfer, h⟩ := h
  obtain ⟨_, hrange, htransfer⟩ := bind_eq_ok.1 htransfer
  obtain rfl := pure_eq_ok.1 htransfer
  obtain rfl := pure_eq_ok.1 h
  exact .handleWsol rfl (require_eq_ok.1 hrange)

/-- Instructions that are there under a condition. -/
theorem Wraps.ite_nil {c : Prop} [Decidable c] (h : Wraps find payer [] ixs) :
    Wraps find payer [] (if c then ixs else []) := by
  by_cases hc : c
  · rwa [if_pos hc]
  · rw [if_neg hc]
    exact .nil

/-- Funding wrapped SOL, or opening the account of another mint, if that is asked for. -/
theorem Wraps.of_requested {requested : Bool} {handle : Except BuildError (List Instruction)}
    (hhandle : ∀ xs, handle = .ok xs → Wraps find payer [amount.toNat] xs)
    (hcreate : create.programId = associatedTokenProgram)
    (h : (if requested = true then
      if mint = wsolTokenAccount then handle else .ok [create] else .ok []) = .ok ixs) :
    Wraps find payer (if requested = true ∧ mint = wsolTokenAccount then [amount.toNat] else [])
      ixs := by
  by_cases hrequested : requested = true
  · by_cases hmint : mint = wsolTokenAccount
    · rw [if_pos hrequested, if_pos hmint] at h
      rw [if_pos ⟨hrequested, hmint⟩]
      exact hhandle ixs h
    · rw [if_pos hrequested, if_neg hmint] at h
      obtain rfl := Except.ok.inj h
      rw [if_neg fun hboth => hmint hboth.2]
      exact .associated hcreate
  · rw [if_neg hrequested] at h
    obtain rfl := Except.ok.inj h
    rw [if_neg fun hboth => hrequested hboth.1]
    exact .nil

theorem wraps_fundInput {requested : Bool}
    (h : fundInput find requested payer mint program amount = .ok ixs) :
    Wraps find payer (if requested = true ∧ mint = wsolTokenAccount then [amount.toNat] else [])
      ixs :=
  .of_requested (fun _ => wraps_handleWsol) rfl h

theorem wraps_openOutput (requested : Bool) (mint program : Pubkey) :
    Wraps find payer [] (openOutput find requested payer mint program) :=
  .ite_nil (.associated rfl)

theorem wraps_closeInput (requested : Bool) :
    Wraps find payer [] (closeInput find requested payer mint) :=
  .ite_nil (.token rfl)

/-! ### Purchases -/

/-- What opens, funds and closes accounts is no swap. -/
theorem Wraps.authorises_nil (h : Wraps find payer lamports ixs) :
    ixs.filterMap p.authorises = [] := by
  rw [List.filterMap_eq_nil_iff]
  intro ix hix
  apply if_neg
  intro hswap
  have hprogram := h.programs ix hix
  rw [hswap] at hprogram
  exact p.address_notMem hprogram

/-- A swap between instructions that wrap what it may take. -/
theorem Funds.of_swap (hopening : Wraps find payer (if wrapping then [n] else []) opening)
    (hprogram : swap.programId = p.address) (hswap : p.maximumInput swap.data = some n)
    (hclosing : Wraps find payer [] closing) :
    Funds find payer p wrapping n (opening ++ swap :: closing) where
  authorised := by
    have hn : p.authorises swap = some n := (if_pos hprogram).trans hswap
    rw [List.filterMap_append, List.filterMap_cons_some hn, hopening.authorises_nil,
      hclosing.authorises_nil, List.nil_append]
  wrapped := by
    -- the program of a swap is not the system program, so that the swap itself wraps nothing
    have hnone : wraps find payer swap = none := by
      apply wraps_of_ne
      intro hsystem
      apply p.address_notMem
      rw [← hprogram, hsystem]
      simp [accountPrograms]
    rw [List.filterMap_append, List.filterMap_cons_none hnone, hopening.wrapped, hclosing.wrapped,
      List.append_nil]

end Wraps

/-! ### The data of a swap -/

section SwapData

variable {name rest data bytes : List UInt8} {a b : ℤ}

/-- The data of a swap: its name, two numbers and what follows them. -/
def packSwap (name : List UInt8) (a b : ℤ) (rest : List UInt8) :
    Except BuildError (List UInt8) := do
  let first ← packU64 a
  let second ← packU64 b
  return name ++ first ++ second ++ rest

/-- The data names the swap and holds both numbers. -/
structure SwapData (name : List UInt8) (a b : ℤ) (rest data : List UInt8) : Prop where
  name_eq : data.take 8 = name
  first : argument data 0 = a.toNat
  second : argument data 1 = b.toNat
  rest_eq : data.drop 24 = rest

theorem packU64_eq_ok : packU64 a = .ok bytes ↔
    (0 ≤ a ∧ a ≤ u64) ∧ littleEndian 8 a.toNat = bytes := by
  rw [packU64, bind_eq_ok]
  simp

theorem packSwap_data (hname : name.length = 8) (h : packSwap name a b rest = .ok data) :
    SwapData name a b rest data := by
  rw [packSwap, bind_eq_ok] at h
  obtain ⟨first, hfirst, h⟩ := h
  obtain ⟨second, hsecond, h⟩ := bind_eq_ok.1 h
  obtain ⟨ha, rfl⟩ := packU64_eq_ok.1 hfirst
  obtain ⟨hb, rfl⟩ := packU64_eq_ok.1 hsecond
  obtain rfl := pure_eq_ok.1 h
  have hone : (name ++ littleEndian 8 a.toNat).length = 16 := by
    rw [List.length_append, hname, length_littleEndian]
  have htwo : (name ++ littleEndian 8 a.toNat ++ littleEndian 8 b.toNat).length = 24 := by
    rw [List.length_append, hone, length_littleEndian]
  constructor
  · rw [List.append_assoc, List.append_assoc, List.take_left' hname]
  · rw [List.append_assoc, List.append_assoc]
    exact AccountReader.unsignedAt_append _ hname (Ledger.toNat_lt ha)
  · rw [List.append_assoc]
    exact AccountReader.unsignedAt_append rest hone (Ledger.toNat_lt hb)
  · exact List.drop_left' htwo

end SwapData

end SolTrade.Builder
