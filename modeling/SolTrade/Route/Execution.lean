import Mathlib.Algebra.BigOperators.Group.List.Basic
import Mathlib.Algebra.Group.Pi.Lemmas
import SolTrade.Route.Ledger

/-!
Executing the instructions of a settlement on a ledger.

Each conversion, decoded from its bytes, moves its amount between lamports and wrapped
SOL. Swaps move the amounts of their legs, and a chain of them funds itself.
-/

namespace SolTrade.Route

open Library Wire
open Serialization (readPubkey reads_pubkey)

namespace Ledger

/-! ### The instructions of a settlement -/

section Conversions

variable {w : Wallet} {s t : Ledger} {ix : Instruction}

theorem exec_associated (h : ix.programId = associatedTokenProgram) : s.exec w ix = some s :=
  if_pos h

theorem exec_system (h : ix.programId = systemProgram) : s.exec w ix = s.runSystem w ix := by
  have hne : systemProgram ≠ associatedTokenProgram := by decide +kernel
  rw [exec, h, if_neg hne, if_pos rfl]

theorem exec_token (h : ix.programId = tokenProgram) : s.exec w ix = s.runToken w ix := by
  have hassociated : tokenProgram ≠ associatedTokenProgram := by decide +kernel
  have hsystem : tokenProgram ≠ systemProgram := by decide +kernel
  rw [exec, h, if_neg hassociated, if_neg hsystem, if_pos rfl]

/-- Creating accounts that exist does nothing. -/
theorem run_associated {setup : List Instruction}
    (h : ∀ ix ∈ setup, ix.programId = associatedTokenProgram) : s.run w setup = some s := by
  induction setup with
  | nil => rfl
  | cons ix setup ih =>
      obtain ⟨hix, hsetup⟩ := List.forall_mem_cons.1 h
      rw [run_cons_of (exec_associated hix), ih hsetup]

theorem parse_transfer {lamports : ℕ} (h : lamports < 256 ^ 8) :
    parseAll readSystemInstruction (littleEndian 4 2 ++ littleEndian 8 lamports) =
      some (.transfer lamports) :=
  parseAll_of_reads ((reads_unsignedInt (by norm_num)).bind ((reads_unsignedInt h).map _))

theorem parse_create {base owner : Pubkey} {seed : List UInt8} {lamports space : ℕ}
    (hseed : seed.length < 256 ^ 8) (hlamports : lamports < 256 ^ 8) (hspace : space < 256 ^ 8) :
    parseAll readSystemInstruction (littleEndian 4 3 ++ base.toList ++
        littleEndian 8 seed.length ++ seed ++ littleEndian 8 lamports ++ littleEndian 8 space ++
        owner.toList) =
      some (.createAccountWithSeed base seed lamports space owner) := by
  simp only [List.append_assoc]
  apply parseAll_of_reads
  refine (reads_unsignedInt (by norm_num)).bind ?_
  refine (reads_pubkey base).bind ?_
  refine (reads_unsignedInt hseed).bind ?_
  refine (reads_bytes rfl).bind ?_
  refine (reads_unsignedInt hlamports).bind ?_
  refine (reads_unsignedInt hspace).bind ?_
  exact (reads_pubkey owner).then_pure (.pure _)

theorem parse_tokenTransfer {amount : ℕ} (h : amount < 256 ^ 8) :
    parseAll readTokenInstruction ([3] ++ littleEndian 8 amount) = some (.transfer amount) :=
  parseAll_of_reads ((reads_byte (by norm_num)).bind ((reads_unsignedInt h).map _))

theorem parse_initializeAccount (owner : Pubkey) :
    parseAll readTokenInstruction ([18] ++ owner.toList) = some (.initializeAccount owner) :=
  parseAll_of_reads ((reads_byte (by norm_num)).bind ((reads_pubkey owner).map _))

theorem parse_closeAccount : parseAll readTokenInstruction [9] = some .closeAccount :=
  rfl

theorem parse_syncNative : parseAll readTokenInstruction [17] = some .syncNative :=
  rfl

theorem toNat_lt {n : ℤ} (h : 0 ≤ n ∧ n ≤ u64) : n.toNat < 256 ^ 8 := by
  have hle : n ≤ 18446744073709551615 := h.2
  omega

/-- Wrapping takes lamports of the wallet to its wrapped SOL account. -/
theorem run_wrap {amount : ℤ} (hrange : 0 ≤ amount ∧ amount ≤ u64) (hle : amount ≤ s.wallet) :
    s.run w [fundAccount w.payer w.ata amount, syncNative w.ata] =
      some { s.receive (-amount) with
        wsol := ⟨s.wsol.lamports + amount, s.wsol.lamports + amount - w.rent⟩ } := by
  have hamount : (amount.toNat : ℤ) = amount := Int.toNat_of_nonneg hrange.1
  have hfund : s.exec w (fundAccount w.payer w.ata amount) =
      some { s.receive (-amount) with
        wsol := { s.wsol with lamports := s.wsol.lamports + amount } } := by
    rw [exec_system rfl, runSystem, fundAccount, parse_transfer (toNat_lt hrange)]
    dsimp only
    rw [if_pos ⟨rfl, rfl, rfl⟩, hamount, pay, if_pos hle]
    rfl
  rw [run_cons_of hfund, run_cons, exec_token rfl, runToken, syncNative, parse_syncNative]
  dsimp only
  rw [if_pos rfl]
  rfl

theorem exec_create {seed : String} {lamports : ℤ} (hseed : (encodeSeed seed).length ≤ 32)
    (hrange : 0 ≤ lamports ∧ lamports ≤ u64) (habsent : s.temporary = .absent)
    (hle : lamports ≤ s.wallet) :
    s.exec w (createTemporary w.payer w.temporary seed lamports) =
      some { s.receive (-lamports) with temporary := .created lamports } := by
  have hlamports : (lamports.toNat : ℤ) = lamports := Int.toNat_of_nonneg hrange.1
  rw [exec_system rfl, runSystem, createTemporary,
    parse_create (hseed.trans_lt (by norm_num)) (toNat_lt hrange) (by norm_num)]
  dsimp only
  rw [if_pos ⟨rfl, rfl, rfl, rfl, rfl, habsent⟩, hlamports, pay, if_pos hle]
  rfl

theorem exec_initAccount {lamports : ℤ} (hcreated : s.temporary = .created lamports)
    (hrent : w.rent ≤ lamports) :
    s.exec w (initializeTemporary w.payer w.temporary) =
      some { s with temporary := .opened ⟨lamports, lamports - w.rent⟩ } := by
  rw [exec_token rfl, runToken, initializeTemporary, parse_initializeAccount, hcreated]
  exact if_pos ⟨rfl, rfl, rfl, hrent⟩

theorem exec_transfer {amount : ℤ} {account : NativeAccount} (hrange : 0 ≤ amount ∧ amount ≤ u64)
    (hopened : s.temporary = .opened account) (hle : amount ≤ s.balance wsolTokenAccount) :
    s.exec w (transferToTemporary w.payer w.ata w.temporary amount) =
      some { s.credit wsolTokenAccount (-amount) with
        temporary := .opened ⟨account.lamports + amount, account.amount + amount⟩ } := by
  have hamount : (amount.toNat : ℤ) = amount := Int.toNat_of_nonneg hrange.1
  rw [exec_token rfl, runToken, transferToTemporary, parse_tokenTransfer (toNat_lt hrange), hopened]
  dsimp only
  rw [if_pos ⟨rfl, rfl, rfl, rfl⟩, hamount, debit, if_pos hle]
  rfl

theorem exec_close {account : NativeAccount} (hopened : s.temporary = .opened account) :
    s.exec w (closeTemporary w.payer w.temporary) =
      some { s.receive account.lamports with temporary := .absent } := by
  rw [exec_token rfl, runToken, closeTemporary, parse_closeAccount, hopened]
  exact if_pos ⟨rfl, rfl, rfl, rfl⟩

/-- Unwrapping takes wrapped SOL of the wallet to its lamports, and returns the rent. -/
theorem run_unwrap {seed : String} {rent amount : ℤ} (hseed : (encodeSeed seed).length ≤ 32)
    (hrange : 0 ≤ rent ∧ rent ≤ u64) (hrent : w.rent ≤ rent)
    (hamount : 0 ≤ amount ∧ amount ≤ u64) (habsent : s.temporary = .absent)
    (hwallet : rent ≤ s.wallet) (hle : amount ≤ s.wsol.amount) :
    s.run w [createTemporary w.payer w.temporary seed rent,
        initializeTemporary w.payer w.temporary,
        transferToTemporary w.payer w.ata w.temporary amount,
        closeTemporary w.payer w.temporary] =
      some ((s.credit wsolTokenAccount (-amount)).receive amount) := by
  have hbalance : amount ≤ s.balance wsolTokenAccount := by
    rwa [balance, if_pos rfl]
  refine (run_cons_of (exec_create hseed hrange habsent hwallet)).trans ?_
  refine (run_cons_of (exec_initAccount rfl hrent)).trans ?_
  refine (run_cons_of (exec_transfer hamount rfl (show amount ≤ balance _ _ from ?_))).trans ?_
  · exact hbalance
  refine (run_cons_of (exec_close rfl)).trans (congrArg some ?_)
  -- The rent comes back with the amount.
  have hback : s.wallet + -rent + (rent + amount) = s.wallet + amount := by omega
  simp only [credit, receive, if_pos, hback, habsent]

end Conversions

/-! ### What a swap moves -/

/-- The lamports that a swap brings to the wallet. -/
def lamportFlow (p : CachedRouteLeg × ℤ) : ℤ :=
  (if InLamports p.1 p.1.hint.outputMint then p.2 else 0) -
    (if InLamports p.1 p.1.hint.inputMint then p.1.amountIn else 0)

/-- The tokens that a swap brings, by mint. -/
def tokenFlow (p : CachedRouteLeg × ℤ) : Pubkey → ℤ :=
  (if InLamports p.1 p.1.hint.outputMint then 0 else Pi.single p.1.hint.outputMint p.2) -
    (if InLamports p.1 p.1.hint.inputMint then 0 else Pi.single p.1.hint.inputMint p.1.amountIn)

/-- The balances grew by these lamports and tokens. The amount of wrapped SOL may have
grown by more, where lamports that were not synchronized were waiting. -/
structure Moved (s t : Ledger) (lamports : ℤ) (tokens : Pubkey → ℤ) : Prop where
  wallet : t.wallet = s.wallet + lamports
  wsol_lamports : t.wsol.lamports = s.wsol.lamports + tokens wsolTokenAccount
  wsol_amount : s.wsol.amount + tokens wsolTokenAccount ≤ t.wsol.amount
  tokens : ∀ mint, mint ≠ wsolTokenAccount → t.tokens mint = s.tokens mint + tokens mint

theorem credit_temporary (s : Ledger) (mint : Pubkey) (amount : ℤ) :
    (s.credit mint amount).temporary = s.temporary := by
  unfold credit
  split <;> rfl

theorem credit_pending (s : Ledger) (mint : Pubkey) (amount : ℤ) :
    (s.credit mint amount).pending = s.pending := by
  unfold credit
  split <;> rfl

section Moved

variable {s t u : Ledger} {lamports lamports' : ℤ} {tokens tokens' : Pubkey → ℤ}

namespace Moved

theorem refl (s : Ledger) : Moved s s 0 0 := by
  constructor <;> simp

theorem trans (h : Moved s t lamports tokens) (h' : Moved t u lamports' tokens') :
    Moved s u (lamports + lamports') (tokens + tokens') := by
  constructor
  · rw [h'.wallet, h.wallet, add_assoc]
  · rw [h'.wsol_lamports, h.wsol_lamports, Pi.add_apply, add_assoc]
  · have hfirst := h.wsol_amount
    have hsecond := h'.wsol_amount
    rw [Pi.add_apply]
    omega
  · intro mint hmint
    rw [h'.tokens mint hmint, h.tokens mint hmint, Pi.add_apply, add_assoc]

theorem credit (s : Ledger) (mint : Pubkey) (amount : ℤ) :
    Moved s (s.credit mint amount) 0 (Pi.single mint amount) := by
  unfold Ledger.credit
  split
  · rename_i hmint
    subst hmint
    exact ⟨(add_zero _).symm, by simp, by simp, fun other hother => by simp [hother]⟩
  · rename_i hmint
    refine ⟨(add_zero _).symm, by simp [Ne.symm hmint], by simp [Ne.symm hmint], fun other _ => ?_⟩
    by_cases heq : other = mint
    · subst heq
      simp
    · simp [heq]

theorem receive (s : Ledger) (lamports : ℤ) : Moved s (s.receive lamports) lamports 0 := by
  constructor <;> simp [Ledger.receive]

/-- What is still pending and the temporary account are no part of it. -/
theorem congr (h : Moved s t lamports tokens) (hwallet : u.wallet = t.wallet)
    (hwsol : u.wsol = t.wsol) (htokens : u.tokens = t.tokens) : Moved s u lamports tokens := by
  constructor
  · rw [hwallet, h.wallet]
  · rw [hwsol, h.wsol_lamports]
  · rw [hwsol]
    exact h.wsol_amount
  · intro mint hmint
    rw [htokens, h.tokens mint hmint]

/-- Every balance grew by at least the tokens. -/
theorem balance_le (h : Moved s t lamports tokens) (mint : Pubkey) :
    s.balance mint + tokens mint ≤ t.balance mint := by
  unfold balance
  split
  · rename_i hmint
    rw [hmint]
    exact h.wsol_amount
  · exact (h.tokens mint ‹_›).ge

end Moved

end Moved

/-! ### Swaps -/

/-- The instruction calls none of the programs that the ledger knows. -/
def CallsPool (ix : Instruction) : Prop :=
  ix.programId ∉ [associatedTokenProgram, systemProgram, tokenProgram]

instance : DecidablePred CallsPool := fun _ => inferInstanceAs (Decidable (_ ∉ _))

section Swaps

variable {w : Wallet} {s t : Ledger} {leg : CachedRouteLeg} {got : ℤ}
  {pending : List (CachedRouteLeg × ℤ)}

theorem exec_pool {ix : Instruction} (h : CallsPool ix) : s.exec w ix = s.swap ix := by
  simp only [CallsPool, List.mem_cons, List.not_mem_nil, or_false, not_or] at h
  rw [exec, if_neg h.1, if_neg h.2.1, if_neg h.2.2]

theorem earn_moved (s : Ledger) (leg : CachedRouteLeg) (got : ℤ) :
    Moved s (s.earn leg got)
      (if InLamports leg leg.hint.outputMint then got else 0)
      (if InLamports leg leg.hint.outputMint then 0 else Pi.single leg.hint.outputMint got) := by
  unfold earn
  split
  · exact .receive s got
  · exact .credit s _ got

theorem spend_moved (h : s.spend leg = some t) :
    Moved s t (-(if InLamports leg leg.hint.inputMint then leg.amountIn else 0))
      (-(if InLamports leg leg.hint.inputMint then 0
        else Pi.single leg.hint.inputMint leg.amountIn)) := by
  unfold spend at h
  split at h
  · rename_i hinput
    obtain ⟨-, rfl⟩ := pay_eq_some.1 h
    rw [if_pos hinput, if_pos hinput, neg_zero]
    exact .receive s _
  · rename_i hinput
    obtain ⟨-, rfl⟩ := debit_eq_some.1 h
    rw [if_neg hinput, if_neg hinput, neg_zero, ← Pi.single_neg]
    exact .credit s _ _

theorem exists_spend (hle : leg.amountIn ≤ s.holds leg leg.hint.inputMint) :
    ∃ t, s.spend leg = some t := by
  unfold spend
  unfold holds at hle
  split
  · rw [if_pos ‹_›] at hle
    exact ⟨_, if_pos hle⟩
  · rw [if_neg ‹_›] at hle
    exact ⟨_, if_pos hle⟩

theorem spend_temporary (h : s.spend leg = some t) : t.temporary = s.temporary := by
  unfold spend at h
  split at h
  · obtain ⟨-, rfl⟩ := pay_eq_some.1 h
    rfl
  · obtain ⟨-, rfl⟩ := debit_eq_some.1 h
    exact credit_temporary ..

theorem earn_temporary : (s.earn leg got).temporary = s.temporary := by
  unfold earn
  split
  · rfl
  · exact credit_temporary ..

/-- What is earned is held. -/
theorem Covered.le_holds_earn (hs : s.Covered w) :
    got ≤ (s.earn leg got).holds leg leg.hint.outputMint := by
  unfold Ledger.earn holds
  split
  · exact le_add_of_nonneg_left hs.wallet_nonneg
  · rw [balance_credit, if_pos rfl]
    exact le_add_of_nonneg_left (hs.balance_nonneg _)

/-- These pending swaps were executed, and this much wrapped SOL was made of lamports. -/
structure Executed (s t : Ledger) (swaps : List (CachedRouteLeg × ℤ)) (wrapped : ℤ) : Prop where
  pending : s.pending = swaps ++ t.pending
  temporary : t.temporary = s.temporary
  moved : Moved s t ((swaps.map lamportFlow).sum - wrapped)
    ((swaps.map tokenFlow).sum + Pi.single wsolTokenAccount wrapped)

theorem Executed.refl (s : Ledger) : Executed s s [] 0 := by
  refine ⟨rfl, rfl, ?_⟩
  rw [Pi.single_zero]
  exact .refl s

theorem Executed.trans {u : Ledger} {first second : List (CachedRouteLeg × ℤ)}
    {wrapped wrapped' : ℤ} (h : Executed s t first wrapped) (h' : Executed t u second wrapped') :
    Executed s u (first ++ second) (wrapped + wrapped') := by
  constructor
  · rw [h.pending, h'.pending, List.append_assoc]
  · rw [h'.temporary, h.temporary]
  · rw [List.map_append, List.map_append, List.sum_append, List.sum_append, add_sub_add_comm,
      Pi.single_add, add_add_add_comm]
    exact h.moved.trans h'.moved

theorem Executed.pending_eq {swaps : List (CachedRouteLeg × ℤ)} {wrapped : ℤ}
    (h : Executed s t swaps wrapped) (hpending : s.pending = swaps ++ pending) :
    t.pending = pending :=
  List.append_cancel_left (h.pending.symm.trans hpending)

/-- A swap whose input is held succeeds. -/
theorem exec_swap (hs : s.Covered w) (hpool : CallsPool leg.instruction)
    (hpending : s.pending = (leg, got) :: pending)
    (hle : leg.amountIn ≤ s.holds leg leg.hint.inputMint) :
    ∃ t, s.exec w leg.instruction = some t ∧ Executed s t [(leg, got)] 0 ∧
      got ≤ t.holds leg leg.hint.outputMint := by
  obtain ⟨u, hspend⟩ := exists_spend hle
  refine ⟨{ u.earn leg got with pending }, ?_, ⟨hpending, ?_, ?_⟩,
    (hs.spend hspend).le_holds_earn⟩
  · rw [exec_pool hpool, swap, hpending]
    dsimp only
    rw [if_pos rfl, hspend]
    rfl
  · exact earn_temporary.trans (spend_temporary hspend)
  · have hmoved := (spend_moved hspend).trans (earn_moved u leg got)
    rw [neg_add_eq_sub, neg_add_eq_sub] at hmoved
    rw [List.map_singleton, List.map_singleton, List.sum_singleton, List.sum_singleton, sub_zero,
      Pi.single_zero, add_zero]
    exact hmoved.congr rfl rfl rfl

theorem holds_token (hleg : isCurve leg = false) (mint : Pubkey) :
    s.holds leg mint = s.balance mint :=
  if_neg fun h => Bool.false_ne_true (hleg.symm.trans h.1)

theorem lamportFlow_token (hleg : isCurve leg = false) : lamportFlow (leg, got) = 0 := by
  have hnot : ∀ mint, ¬ InLamports leg mint := fun mint h =>
    Bool.false_ne_true (hleg.symm.trans h.1)
  rw [lamportFlow, if_neg (hnot _), if_neg (hnot _), sub_zero]

/-- The next swap spends no more than the one before returns at least. -/
def Funds (previous current : CachedRouteLeg × ℤ) : Prop :=
  previous.1.hint.outputMint = current.1.hint.inputMint ∧ current.1.amountIn ≤ previous.2

/-- Swaps of tokens succeed one after the other when the first input is held. The first
swap leaves the input of the second, so the rest is the same claim. -/
theorem run_swaps {swaps : List (CachedRouteLeg × ℤ)} (hs : s.Covered w)
    (hpool : ∀ p ∈ swaps, CallsPool p.1.instruction) (htoken : ∀ p ∈ swaps, isCurve p.1 = false)
    (hpending : s.pending = swaps ++ pending) (hfunds : swaps.IsChain Funds)
    (hfirst : ∀ p ∈ swaps.head?, p.1.amountIn ≤ s.balance p.1.hint.inputMint) :
    ∃ t, s.run w (swaps.map (·.1.instruction)) = some t ∧ Executed s t swaps 0 ∧
      ∀ p ∈ swaps.getLast?, p.2 ≤ t.balance p.1.hint.outputMint := by
  induction swaps generalizing s with
  | nil => exact ⟨s, rfl, .refl s, nofun⟩
  | cons p swaps ih =>
      obtain ⟨leg, got⟩ := p
      obtain ⟨hleg, hpool⟩ := List.forall_mem_cons.1 hpool
      obtain ⟨hcurve, htoken⟩ := List.forall_mem_cons.1 htoken
      obtain ⟨hnext, hfunds⟩ := List.isChain_cons.1 hfunds
      have hinput : leg.amountIn ≤ s.holds leg leg.hint.inputMint := by
        rw [holds_token hcurve]
        exact hfirst (leg, got) rfl
      obtain ⟨t, hexec, hswapped, hearned⟩ := exec_swap hs hleg hpending hinput
      rw [holds_token hcurve] at hearned
      have hfirst : ∀ q ∈ swaps.head?, q.1.amountIn ≤ t.balance q.1.hint.inputMint := by
        intro q hq
        obtain ⟨hmint, hle⟩ := hnext q hq
        rw [← hmint]
        exact hle.trans hearned
      obtain ⟨u, hrun, hlater, hlast⟩ := ih (hs.effect (exec_effect hexec)) hpool htoken
        (hswapped.pending_eq hpending) hfunds hfirst
      refine ⟨u, ?_, hswapped.trans hlater, ?_⟩
      · rw [List.map_cons, run_cons_of hexec, hrun]
      · cases swaps with
        | nil =>
            rintro _ ⟨⟩
            obtain rfl : t = u := Option.some.inj hrun
            exact hearned
        | cons q swaps =>
            rw [List.getLast?_cons_cons]
            exact hlast

/-! ### Conversions -/

theorem exec_wrap {amount : ℤ} (hs : s.Covered w) (hrange : 0 ≤ amount ∧ amount ≤ u64)
    (hle : amount ≤ s.wallet) :
    ∃ t, s.run w [fundAccount w.payer w.ata amount, syncNative w.ata] = some t ∧
      Executed s t [] amount := by
  refine ⟨_, run_wrap hrange hle, rfl, rfl, ?_⟩
  have hcovered := hs.wsol.amount_le
  rw [List.map_nil, List.map_nil, List.sum_nil, List.sum_nil, zero_sub, zero_add]
  constructor
  · rfl
  · rw [Pi.single_eq_same]
  · rw [Pi.single_eq_same]
    show s.wsol.amount + amount ≤ s.wsol.lamports + amount - w.rent
    omega
  · intro mint hmint
    rw [Pi.single_eq_of_ne hmint]
    exact (add_zero _).symm

theorem exec_unwrap {seed : String} {rent amount : ℤ} (hseed : (encodeSeed seed).length ≤ 32)
    (hrange : 0 ≤ rent ∧ rent ≤ u64) (hrent : w.rent ≤ rent)
    (hamount : 0 ≤ amount ∧ amount ≤ u64) (habsent : s.temporary = .absent)
    (hwallet : rent ≤ s.wallet) (hle : amount ≤ s.balance wsolTokenAccount) :
    ∃ t, s.run w [createTemporary w.payer w.temporary seed rent,
        initializeTemporary w.payer w.temporary,
        transferToTemporary w.payer w.ata w.temporary amount,
        closeTemporary w.payer w.temporary] = some t ∧ Executed s t [] (-amount) := by
  rw [balance, if_pos rfl] at hle
  refine ⟨_, run_unwrap hseed hrange hrent hamount habsent hwallet hle, ?_, ?_, ?_⟩
  · exact (credit_pending ..).symm
  · exact credit_temporary ..
  · have hmoved := (Moved.credit s wsolTokenAccount (-amount)).trans (.receive _ amount)
    rw [zero_add, add_zero] at hmoved
    rw [List.map_nil, List.map_nil, List.sum_nil, List.sum_nil, zero_sub, neg_neg, zero_add]
    exact hmoved

end Swaps

end Ledger

end SolTrade.Route
