import SolTrade.Route.PumpFunSettlement
import SolTrade.Serialization.Roundtrip

/-!
A ledger on which the instructions of a settled route are executed.

It keeps the lamports of the wallet, its wrapped SOL account, its other token accounts
by mint and the temporary account. The system and token programs act on it as their
instructions say; a swap moves the amounts of its leg. Executing what a balance does
not cover, or what the ledger does not know, fails.
-/

namespace SolTrade.Route

open Library Wire
open Serialization (readPubkey reads_pubkey)

/-! ### Instructions of the system and token programs -/

inductive SystemInstruction where
  | transfer (lamports : ℕ)
  | createAccountWithSeed (base : Pubkey) (seed : List UInt8) (lamports space : ℕ) (owner : Pubkey)

inductive TokenInstruction where
  | transfer (amount : ℕ)
  | closeAccount
  | syncNative
  | initializeAccount (owner : Pubkey)

def readSystemInstruction : Parser SystemInstruction := do
  match ← unsignedInt 4 with
  | 2 => .transfer <$> unsignedInt 8
  | 3 => do
      let base ← readPubkey
      let length ← unsignedInt 8
      let seed ← bytes length
      let lamports ← unsignedInt 8
      let space ← unsignedInt 8
      let owner ← readPubkey
      return .createAccountWithSeed base seed lamports space owner
  | _ => failure

def readTokenInstruction : Parser TokenInstruction := do
  match ← unsignedInt 1 with
  | 3 => .transfer <$> unsignedInt 8
  | 9 => return .closeAccount
  | 17 => return .syncNative
  | 18 => .initializeAccount <$> readPubkey
  | _ => failure

/-! ### Balances -/

/-- A wrapped SOL account. Its amount is what its lamports were beyond the rent, when it
was last synchronized. -/
structure NativeAccount where
  lamports : ℤ
  amount : ℤ
  deriving DecidableEq

inductive Temporary where
  | absent
  | created (lamports : ℤ)
  | opened (account : NativeAccount)
  deriving DecidableEq

/-- `pending` are the legs still to be swapped, each with what its swap returns. -/
structure Ledger where
  wallet : ℤ
  wsol : NativeAccount
  tokens : Pubkey → ℤ
  temporary : Temporary
  pending : List (CachedRouteLeg × ℤ)

/-- A wallet with its accounts, and the rent of a token account. -/
structure Wallet where
  payer : Pubkey
  ata : Pubkey
  temporary : Pubkey
  rent : ℕ

namespace Ledger

/-- The tokens of a mint. -/
def balance (s : Ledger) (mint : Pubkey) : ℤ :=
  if mint = wsolTokenAccount then s.wsol.amount else s.tokens mint

/-- Tokens come in; wrapped SOL comes with its lamports. -/
def credit (s : Ledger) (mint : Pubkey) (amount : ℤ) : Ledger :=
  if mint = wsolTokenAccount then
    { s with wsol := ⟨s.wsol.lamports + amount, s.wsol.amount + amount⟩ }
  else { s with tokens := Function.update s.tokens mint (s.tokens mint + amount) }

def debit (s : Ledger) (mint : Pubkey) (amount : ℤ) : Option Ledger :=
  if amount ≤ s.balance mint then some (s.credit mint (-amount)) else none

def receive (s : Ledger) (lamports : ℤ) : Ledger := { s with wallet := s.wallet + lamports }

def pay (s : Ledger) (lamports : ℤ) : Option Ledger :=
  if lamports ≤ s.wallet then some (s.receive (-lamports)) else none

end Ledger

/-- A curve leg that trades against wrapped SOL moves lamports of the wallet instead. -/
def InLamports (leg : CachedRouteLeg) (mint : Pubkey) : Prop :=
  isCurve leg = true ∧ mint = wsolTokenAccount

instance (leg : CachedRouteLeg) (mint : Pubkey) : Decidable (InLamports leg mint) :=
  inferInstanceAs (Decidable (_ ∧ _))

namespace Ledger

/-- What the wallet holds of the input of a leg. -/
def holds (s : Ledger) (leg : CachedRouteLeg) (mint : Pubkey) : ℤ :=
  if InLamports leg mint then s.wallet else s.balance mint

def spend (s : Ledger) (leg : CachedRouteLeg) : Option Ledger :=
  if InLamports leg leg.hint.inputMint then s.pay leg.amountIn
  else s.debit leg.hint.inputMint leg.amountIn

def earn (s : Ledger) (leg : CachedRouteLeg) (got : ℤ) : Ledger :=
  if InLamports leg leg.hint.outputMint then s.receive got else s.credit leg.hint.outputMint got

/-! ### Execution -/

variable (w : Wallet) (s : Ledger) (ix : Instruction)

/-- The next pending leg is swapped by its own instruction only. -/
def swap : Option Ledger :=
  match s.pending with
  | (leg, got) :: pending =>
      if ix = leg.instruction then
        (s.spend leg).map fun t => { t.earn leg got with pending }
      else none
  | [] => none

/-- The wallet pays for a new account at its temporary address, or sends lamports to its
wrapped SOL account. -/
def runSystem : Option Ledger :=
  match parseAll readSystemInstruction ix.data, ix.accounts with
  | some (.transfer lamports), [source, destination] =>
      if source.pubkey = w.payer ∧ source.isSigner = true ∧ destination.pubkey = w.ata then
        (s.pay lamports).map fun t =>
          { t with wsol := { t.wsol with lamports := t.wsol.lamports + lamports } }
      else none
  | some (.createAccountWithSeed base _ lamports _ owner), [source, account] =>
      if source.pubkey = w.payer ∧ source.isSigner = true ∧ base = w.payer ∧
          account.pubkey = w.temporary ∧ owner = tokenProgram ∧ s.temporary = .absent then
        (s.pay lamports).map fun t => { t with temporary := .created lamports }
      else none
  | _, _ => none

def runToken : Option Ledger :=
  match parseAll readTokenInstruction ix.data, ix.accounts, s.temporary with
  | some (.initializeAccount owner), [account, mint], .created lamports =>
      if account.pubkey = w.temporary ∧ mint.pubkey = wsolTokenAccount ∧ owner = w.payer ∧
          w.rent ≤ lamports then
        some { s with temporary := .opened ⟨lamports, lamports - w.rent⟩ }
      else none
  | some (.transfer amount), [source, destination, owner], .opened account =>
      if source.pubkey = w.ata ∧ destination.pubkey = w.temporary ∧ owner.pubkey = w.payer ∧
          owner.isSigner = true then
        (s.debit wsolTokenAccount amount).map fun t =>
          { t with temporary := .opened ⟨account.lamports + amount, account.amount + amount⟩ }
      else none
  | some .closeAccount, [account, destination, owner], .opened closed =>
      if account.pubkey = w.temporary ∧ destination.pubkey = w.payer ∧ owner.pubkey = w.payer ∧
          owner.isSigner = true then
        some { s.receive closed.lamports with temporary := .absent }
      else none
  | some .syncNative, [account], _ =>
      if account.pubkey = w.ata then
        some { s with wsol := { s.wsol with amount := s.wsol.lamports - w.rent } }
      else none
  | _, _, _ => none

/-- The token accounts of the wallet exist, so that creating one does nothing. -/
def exec : Option Ledger :=
  if ix.programId = associatedTokenProgram then some s
  else if ix.programId = systemProgram then s.runSystem w ix
  else if ix.programId = tokenProgram then s.runToken w ix
  else s.swap ix

/-- Executes the instructions in order. -/
def run (ixs : List Instruction) : Option Ledger := ixs.foldlM (exec w) s

end Ledger

/-! ### No balance is negative -/

/-- Every account covers what it owes. -/
structure NativeAccount.Covered (rent : ℕ) (a : NativeAccount) : Prop where
  amount_nonneg : 0 ≤ a.amount
  amount_le : rent + a.amount ≤ a.lamports

def Temporary.Covered (rent : ℕ) : Temporary → Prop
  | .absent => True
  | .created lamports => 0 ≤ lamports
  | .opened account => account.Covered rent

structure Ledger.Covered (w : Wallet) (s : Ledger) : Prop where
  wallet_nonneg : 0 ≤ s.wallet
  wsol : s.wsol.Covered w.rent
  tokens_nonneg : ∀ mint, mint ≠ wsolTokenAccount → 0 ≤ s.tokens mint
  temporary : s.temporary.Covered w.rent
  returns_nonneg : ∀ p ∈ s.pending, 0 ≤ p.2

namespace Ledger

section Balances

variable {w : Wallet} {s t : Ledger} {mint : Pubkey} {amount : ℤ}

theorem balance_credit (s : Ledger) (mint other : Pubkey) (amount : ℤ) :
    (s.credit mint amount).balance other =
      s.balance other + (if other = mint then amount else 0) := by
  unfold credit balance
  by_cases hmint : mint = wsolTokenAccount
  · by_cases hother : other = wsolTokenAccount
    · simp [hmint, hother]
    · simp [hmint, hother]
  · by_cases hother : other = wsolTokenAccount
    · simp [hother, hmint, Ne.symm hmint]
    · by_cases heq : other = mint
      · subst heq
        simp [hmint]
      · simp [hmint, hother, heq]

theorem Covered.balance_nonneg (h : s.Covered w) (mint : Pubkey) : 0 ≤ s.balance mint := by
  unfold balance
  split
  · exact h.wsol.amount_nonneg
  · exact h.tokens_nonneg mint ‹_›

theorem Covered.credit (h : s.Covered w) (hamount : 0 ≤ s.balance mint + amount) :
    (s.credit mint amount).Covered w := by
  unfold Ledger.credit
  unfold balance at hamount
  split
  · rename_i hmint
    rw [if_pos hmint] at hamount
    have hle := h.wsol.amount_le
    exact ⟨h.wallet_nonneg, ⟨hamount, by show _ + (_ + _) ≤ _ + _; omega⟩, h.tokens_nonneg,
      h.temporary, h.returns_nonneg⟩
  · rename_i hmint
    rw [if_neg hmint] at hamount
    refine ⟨h.wallet_nonneg, h.wsol, fun other hother => ?_, h.temporary, h.returns_nonneg⟩
    by_cases heq : other = mint
    · subst heq
      simpa using hamount
    · simpa [heq] using h.tokens_nonneg other hother

theorem Covered.receive (h : s.Covered w) (hamount : 0 ≤ s.wallet + amount) :
    (s.receive amount).Covered w :=
  ⟨hamount, h.wsol, h.tokens_nonneg, h.temporary, h.returns_nonneg⟩

theorem debit_eq_some :
    s.debit mint amount = some t ↔ amount ≤ s.balance mint ∧ s.credit mint (-amount) = t := by
  unfold debit
  split <;> simp_all

theorem pay_eq_some : s.pay amount = some t ↔ amount ≤ s.wallet ∧ s.receive (-amount) = t := by
  unfold pay
  split <;> simp_all

theorem Covered.debit (h : s.Covered w) (ht : s.debit mint amount = some t) : t.Covered w := by
  obtain ⟨hle, rfl⟩ := debit_eq_some.1 ht
  exact h.credit (by omega)

theorem Covered.pay (h : s.Covered w) (ht : s.pay amount = some t) : t.Covered w := by
  obtain ⟨hle, rfl⟩ := pay_eq_some.1 ht
  exact h.receive (by omega)

theorem Covered.spend {leg : CachedRouteLeg} (h : s.Covered w) (ht : s.spend leg = some t) :
    t.Covered w := by
  unfold Ledger.spend at ht
  split at ht
  · exact h.pay ht
  · exact h.debit ht

theorem Covered.earn {leg : CachedRouteLeg} {got : ℤ} (h : s.Covered w) (hgot : 0 ≤ got) :
    (s.earn leg got).Covered w := by
  unfold Ledger.earn
  split
  · exact h.receive (add_nonneg h.wallet_nonneg hgot)
  · exact h.credit (add_nonneg (h.balance_nonneg _) hgot)

end Balances

/-! ### What one instruction can do -/

/-- The effects of an instruction that succeeds. -/
inductive Effect (w : Wallet) (s : Ledger) : Ledger → Prop
  | idle : Effect w s s
  | fund {t : Ledger} (lamports : ℕ) (hpay : s.pay lamports = some t) :
      Effect w s { t with wsol := { t.wsol with lamports := t.wsol.lamports + lamports } }
  | create {t : Ledger} (lamports : ℕ) (hpay : s.pay lamports = some t) :
      Effect w s { t with temporary := .created lamports }
  | initAccount (lamports : ℤ) (hcreated : s.temporary = .created lamports)
      (hrent : w.rent ≤ lamports) :
      Effect w s { s with temporary := .opened ⟨lamports, lamports - w.rent⟩ }
  | transfer {t : Ledger} (amount : ℕ) (account : NativeAccount)
      (hopened : s.temporary = .opened account)
      (hdebit : s.debit wsolTokenAccount amount = some t) :
      Effect w s
        { t with temporary := .opened ⟨account.lamports + amount, account.amount + amount⟩ }
  | close (account : NativeAccount) (hopened : s.temporary = .opened account) :
      Effect w s { s.receive account.lamports with temporary := .absent }
  | sync : Effect w s { s with wsol := { s.wsol with amount := s.wsol.lamports - w.rent } }
  | swap {t : Ledger} (leg : CachedRouteLeg) (got : ℤ) (pending : List (CachedRouteLeg × ℤ))
      (hpending : s.pending = (leg, got) :: pending) (hspend : s.spend leg = some t) :
      Effect w s { t.earn leg got with pending }

section Effects

variable {w : Wallet} {s t : Ledger} {ix : Instruction}

theorem runSystem_effect (h : s.runSystem w ix = some t) : Effect w s t := by
  unfold runSystem at h
  split at h
  · split at h
    · obtain ⟨u, hpay, rfl⟩ := Option.map_eq_some_iff.1 h
      exact .fund _ hpay
    · cases h
  · split at h
    · obtain ⟨u, hpay, rfl⟩ := Option.map_eq_some_iff.1 h
      exact .create _ hpay
    · cases h
  · cases h

theorem runToken_effect (h : s.runToken w ix = some t) : Effect w s t := by
  unfold runToken at h
  split at h
  · split at h
    · rename_i hcreated hguard
      obtain rfl := Option.some.inj h
      exact .initAccount _ hcreated hguard.2.2.2
    · cases h
  · split at h
    · rename_i hopened hguard
      obtain ⟨u, hdebit, rfl⟩ := Option.map_eq_some_iff.1 h
      exact .transfer _ _ hopened hdebit
    · cases h
  · split at h
    · rename_i hopened hguard
      obtain rfl := Option.some.inj h
      exact .close _ hopened
    · cases h
  · split at h
    · obtain rfl := Option.some.inj h
      exact .sync
    · cases h
  · cases h

theorem swap_effect (h : s.swap ix = some t) : Effect w s t := by
  unfold swap at h
  split at h
  · rename_i leg got pending hpending
    split at h
    · obtain ⟨u, hspend, rfl⟩ := Option.map_eq_some_iff.1 h
      exact .swap leg got pending hpending hspend
    · cases h
  · cases h

theorem exec_effect (h : s.exec w ix = some t) : Effect w s t := by
  unfold exec at h
  split at h
  · obtain rfl := Option.some.inj h
    exact .idle
  split at h
  · exact runSystem_effect h
  split at h
  · exact runToken_effect h
  · exact swap_effect h

/-- No effect overdraws a balance. -/
theorem Covered.effect (hs : s.Covered w) (h : Effect w s t) : t.Covered w := by
  cases h with
  | idle => exact hs
  | @fund t lamports hpay =>
      have ht := hs.pay hpay
      have hle := ht.wsol.amount_le
      exact { ht with
        wsol := ⟨ht.wsol.amount_nonneg, by show _ + t.wsol.amount ≤ _ + _; omega⟩ }
  | create lamports hpay => exact { hs.pay hpay with temporary := Int.natCast_nonneg lamports }
  | initAccount lamports _ hrent =>
      exact { hs with temporary := ⟨sub_nonneg.2 hrent, (add_sub_cancel _ _).le⟩ }
  | transfer amount account hopened hdebit =>
      have haccount : account.Covered w.rent := by
        have htemporary := hs.temporary
        rwa [hopened] at htemporary
      have hnonneg := haccount.amount_nonneg
      have hle := haccount.amount_le
      exact { hs.debit hdebit with
        temporary := ⟨by show 0 ≤ _ + _; omega, by show _ + (_ + _) ≤ _ + _; omega⟩ }
  | close account hopened =>
      have haccount : account.Covered w.rent := by
        have htemporary := hs.temporary
        rwa [hopened] at htemporary
      have hwallet := hs.wallet_nonneg
      have hnonneg := haccount.amount_nonneg
      have hle := haccount.amount_le
      exact { hs.receive (show 0 ≤ s.wallet + account.lamports by omega) with temporary := trivial }
  | sync =>
      have hnonneg := hs.wsol.amount_nonneg
      have hle := hs.wsol.amount_le
      exact { hs with wsol := ⟨by show 0 ≤ _ - _; omega, (add_sub_cancel _ _).le⟩ }
  | swap leg got pending hpending hspend =>
      have hgot : 0 ≤ got := hs.returns_nonneg (leg, got) (hpending ▸ List.mem_cons_self)
      have hrest : ∀ p ∈ pending, 0 ≤ p.2 := fun p hp =>
        hs.returns_nonneg p (hpending ▸ List.mem_cons_of_mem _ hp)
      exact { (hs.spend hspend).earn hgot with returns_nonneg := hrest }

end Effects

/-! ### Runs -/

section Runs

variable {w : Wallet} {s t : Ledger} {xs ys : List Instruction}

@[simp] theorem run_nil : s.run w [] = some s := rfl

@[simp] theorem run_cons (ix : Instruction) :
    s.run w (ix :: xs) = (s.exec w ix).bind fun u => u.run w xs := rfl

theorem run_append : s.run w (xs ++ ys) = (s.run w xs).bind fun u => u.run w ys :=
  List.foldlM_append

theorem run_append_of (h : s.run w xs = some t) : s.run w (xs ++ ys) = t.run w ys := by
  rw [run_append, h, Option.bind_some]

theorem run_cons_of {ix : Instruction} (h : s.exec w ix = some t) :
    s.run w (ix :: xs) = t.run w xs := by
  rw [run_cons, h, Option.bind_some]

/-- No run overdraws a balance. -/
theorem Covered.run (hs : s.Covered w) (h : s.run w xs = some t) : t.Covered w := by
  induction xs generalizing s with
  | nil =>
      obtain rfl := Option.some.inj h
      exact hs
  | cons ix xs ih =>
      obtain ⟨u, hu, h⟩ := Option.bind_eq_some_iff.1 h
      exact ih (hs.effect (exec_effect hu)) h

/-- Nor does any of its first steps. -/
theorem Covered.take (hs : s.Covered w) (h : s.run w xs = some t) (k : ℕ) :
    ∃ u, s.run w (xs.take k) = some u ∧ u.Covered w := by
  rw [← List.take_append_drop k xs, run_append] at h
  obtain ⟨u, hu, -⟩ := Option.bind_eq_some_iff.1 h
  exact ⟨u, hu, hs.run hu⟩

end Runs

end Ledger

end SolTrade.Route
