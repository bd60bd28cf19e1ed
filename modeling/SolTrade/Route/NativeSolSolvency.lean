import SolTrade.Library.Runs
import SolTrade.Route.NativeSolSound
import SolTrade.Route.Solvency

/-!
Executing a route that is settled in native SOL.

The temporary account stands in for the wrapped SOL account of the wallet: what a swap that
names it trades of wrapped SOL, it trades from and to the temporary account. The lamports that
the settlement asks for are enough, and closing the account gives the wallet what is left in it.
-/

namespace SolTrade.Route

open Library Wire

/-! ### Execution -/

/-- The leg trades wrapped SOL. -/
def TradesWsol (leg : CachedRouteLeg) : Prop :=
  leg.hint.inputMint = wsolTokenAccount ∨ leg.hint.outputMint = wsolTokenAccount

/-- The swap is not in lamports. -/
def InTokens (leg : CachedRouteLeg) : Prop :=
  ¬ InLamports leg leg.hint.inputMint ∧ ¬ InLamports leg leg.hint.outputMint

/-- The instruction is a swap that names the temporary account. -/
def TradesTemporary (w : Wallet) (ix : Instruction) : Prop :=
  Ledger.CallsPool ix ∧ ∃ a ∈ ix.accounts, a.pubkey = w.temporary

instance (w : Wallet) : DecidablePred (TradesTemporary w) :=
  fun _ => inferInstanceAs (Decidable (_ ∧ _))

namespace Ledger

section Redirected

variable (w : Wallet) (s : Ledger) (ix : Instruction)

/-- The temporary account stands in for the wrapped SOL account. -/
def standIn (account : NativeAccount) : Ledger := { s with wsol := account, temporary := .absent }

/-- The wrapped SOL account is in its place again. -/
def restore (t : Ledger) : Ledger := { t with wsol := s.wsol, temporary := .opened t.wsol }

def syncTemporary (account : NativeAccount) : Option Ledger :=
  match parseAll readTokenInstruction ix.data, ix.accounts with
  | some .syncNative, [synced] =>
      if synced.pubkey = w.temporary then
        some { s with
          temporary := .opened { account with amount := account.lamports - w.rent } }
      else none
  | _, _ => none

def execRedirected : Option Ledger :=
  match s.temporary with
  | .opened account =>
      if ix.programId = tokenProgram then s.syncTemporary w ix account <|> s.runToken w ix
      else if TradesTemporary w ix then ((s.standIn account).swap ix).map s.restore
      else s.exec w ix
  | _ => s.exec w ix

def runRedirected (ixs : List Instruction) : Option Ledger := ixs.foldlM (execRedirected w) s

end Redirected

section Runs

variable {w : Wallet} {s t : Ledger} {ix : Instruction} {xs ys : List Instruction}
  {account : NativeAccount}

theorem runRedirected_append_of (h : s.runRedirected w xs = some t) :
    s.runRedirected w (xs ++ ys) = t.runRedirected w ys := by
  unfold runRedirected at h ⊢
  rw [List.foldlM_append, h]
  rfl

theorem runRedirected_cons_of (h : s.execRedirected w ix = some t) :
    s.runRedirected w (ix :: xs) = t.runRedirected w xs := by
  rw [runRedirected, List.foldlM_cons, h]
  rfl

theorem execRedirected_absent (h : s.temporary = .absent) :
    s.execRedirected w ix = s.exec w ix := by
  rw [execRedirected, h]

theorem execRedirected_created {lamports : ℤ} (h : s.temporary = .created lamports) :
    s.execRedirected w ix = s.exec w ix := by
  rw [execRedirected, h]

/-- No step overdraws a balance. -/
theorem Covered.execRedirected (hs : s.Covered w) (h : s.execRedirected w ix = some t) :
    t.Covered w := by
  unfold Ledger.execRedirected at h
  split at h
  · rename_i account hopened
    have haccount : account.Covered w.rent := by
      have htemporary := hs.temporary
      rwa [hopened] at htemporary
    split at h
    · rcases (Option.orElse_eq_some _ _ _).1 h with hsync | ⟨-, htoken⟩
      · unfold syncTemporary at hsync
        split at hsync
        · split at hsync
          · obtain rfl := Option.some.inj hsync
            have hnonneg := haccount.amount_nonneg
            have hle := haccount.amount_le
            exact { hs with
              temporary := ⟨by show 0 ≤ _ - _; omega, (add_sub_cancel _ _).le⟩ }
          · cases hsync
        · cases hsync
      · exact hs.effect (runToken_effect htoken)
    · split at h
      · obtain ⟨u, hu, rfl⟩ := Option.map_eq_some_iff.1 h
        have hstand : (s.standIn account).Covered w :=
          { hs with wsol := haccount, temporary := trivial }
        have hswapped := hstand.effect (swap_effect hu)
        exact { hswapped with wsol := hs.wsol, temporary := hswapped.wsol }
      · exact hs.effect (exec_effect h)
  · exact hs.effect (exec_effect h)

theorem Covered.runRedirected (hs : s.Covered w) (h : s.runRedirected w xs = some t) :
    t.Covered w := by
  induction xs generalizing s with
  | nil =>
      obtain rfl := Option.some.inj h
      exact hs
  | cons ix xs ih =>
      obtain ⟨u, hu, h⟩ := Option.bind_eq_some_iff.1 h
      exact ih (hs.execRedirected hu) h

theorem Covered.takeRedirected (hs : s.Covered w) (h : s.runRedirected w xs = some t) (k : ℕ) :
    ∃ u, s.runRedirected w (xs.take k) = some u ∧ u.Covered w := by
  unfold Ledger.runRedirected at h
  rw [← List.take_append_drop k xs, List.foldlM_append] at h
  obtain ⟨u, hu, -⟩ := Option.bind_eq_some_iff.1 h
  exact ⟨u, hu, hs.runRedirected hu⟩

end Runs

/-! ### The temporary account in the place of another -/

/-- `v` is the ledger as the swaps see it; the wallet's own account holds `own`. -/
structure StandsIn (w : Wallet) (own : NativeAccount) (s v : Ledger) : Prop where
  own_eq : s.wsol = own
  opened : s.temporary = .opened v.wsol
  absent : v.temporary = .absent
  wallet : s.wallet = v.wallet
  tokens : s.tokens = v.tokens
  pending : s.pending = v.pending
  named : ∀ p ∈ v.pending, TradesTemporary w p.1.instruction ∨ ¬ TradesWsol p.1

section Simulation

variable {w : Wallet} {own : NativeAccount} {s v : Ledger} {ix : Instruction}

theorem StandsIn.standIn_eq (h : StandsIn w own s v) : s.standIn v.wsol = v := by
  obtain ⟨-, -, habsent, hwallet, htokens, hpending, -⟩ := h
  cases v
  simp only at habsent hwallet htokens hpending
  rw [standIn, hwallet, htokens, hpending, habsent]

theorem credit_standIn {account : NativeAccount} {mint : Pubkey} {amount : ℤ}
    (hmint : mint ≠ wsolTokenAccount) :
    (s.standIn account).credit mint amount = (s.credit mint amount).standIn account := by
  unfold credit
  rw [if_neg hmint, if_neg hmint]
  rfl

theorem credit_wsol {mint : Pubkey} {amount : ℤ} (hmint : mint ≠ wsolTokenAccount) :
    (s.credit mint amount).wsol = s.wsol := by
  rw [credit, if_neg hmint]

/-- A swap that does not trade wrapped SOL does not depend on where it is. -/
theorem swap_standIn {account : NativeAccount} (hopened : s.temporary = .opened account)
    (htrades : ∀ p ∈ s.pending, p.1.instruction = ix → ¬ TradesWsol p.1) :
    s.swap ix = ((s.standIn account).swap ix).map s.restore := by
  unfold swap
  have hpending : (s.standIn account).pending = s.pending := rfl
  rw [hpending]
  split
  · rename_i leg got pending hleg
    split
    · rename_i hix
      have hnot := htrades (leg, got) (hleg ▸ List.mem_cons_self) hix.symm
      rw [TradesWsol, not_or] at hnot
      have hin : ¬ InLamports leg leg.hint.inputMint := fun h => hnot.1 h.2
      have hout : ¬ InLamports leg leg.hint.outputMint := fun h => hnot.2 h.2
      unfold spend debit earn
      simp only [if_neg hin, if_neg hout, balance, if_neg hnot.1]
      have htokens : (s.standIn account).tokens = s.tokens := rfl
      rw [htokens]
      split
      · rw [Option.map_some, Option.map_some, Option.map_some, credit_standIn hnot.1,
          credit_standIn hnot.2]
        refine congrArg some ?_
        simp only [restore, standIn, credit_wsol hnot.1, credit_wsol hnot.2, credit_temporary,
          ← hopened]
      · rfl
    · rfl
  · rfl

/-- What the ledger does as the swaps see it, it does. -/
theorem StandsIn.step {v' : Ledger} (h : StandsIn w own s v) (hpool : CallsPool ix)
    (hv : v.exec w ix = some v') :
    ∃ s', s.execRedirected w ix = some s' ∧ StandsIn w own s' v' := by
  have hstand := h.standIn_eq
  rw [exec_pool hpool] at hv
  have htoken : ix.programId ≠ tokenProgram := fun heq => hpool (by simp [heq])
  have hexec : s.execRedirected w ix = ((s.standIn v.wsol).swap ix).map s.restore := by
    rw [Ledger.execRedirected, h.opened]
    dsimp only
    rw [if_neg htoken]
    split
    · rfl
    · rename_i hnames
      rw [exec_pool hpool]
      refine swap_standIn h.opened fun p hp hix => ?_
      rw [h.pending] at hp
      exact (h.named p hp).resolve_left (hix ▸ hnames)
  refine ⟨s.restore v', by rw [hexec, hstand, hv, Option.map_some], ?_⟩
  obtain ⟨leg, got, hpending, habsent⟩ : ∃ leg got, v.pending = (leg, got) :: v'.pending ∧
      v'.temporary = .absent := by
    unfold swap at hv
    split at hv
    · rename_i leg got pending hpending
      split at hv
      · obtain ⟨u, hspend, rfl⟩ := Option.map_eq_some_iff.1 hv
        exact ⟨leg, got, hpending, earn_temporary.trans ((spend_temporary hspend).trans h.absent)⟩
      · cases hv
    · cases hv
  exact ⟨h.own_eq, rfl, habsent, rfl, rfl, rfl, fun p hp =>
    h.named p (hpending ▸ List.mem_cons_of_mem _ hp)⟩

theorem StandsIn.run {v' : Ledger} {ixs : List Instruction} (h : StandsIn w own s v)
    (hpool : ∀ ix ∈ ixs, CallsPool ix) (hv : v.run w ixs = some v') :
    ∃ s', s.runRedirected w ixs = some s' ∧ StandsIn w own s' v' :=
  Runs.foldlM_simulation (fun _ _ ix _ hix hR => hR.step (hpool ix hix)) h hv

end Simulation

/-! ### Funded swaps -/

/-- Swaps succeed one after the other when the first input is held and none is in lamports. -/
theorem run_funded {w : Wallet} {s : Ledger} {swaps pending : List (CachedRouteLeg × ℤ)}
    (hs : s.Covered w) (hpool : ∀ p ∈ swaps, CallsPool p.1.instruction)
    (htoken : ∀ p ∈ swaps, InTokens p.1)
    (hpending : s.pending = swaps ++ pending) (hfunds : swaps.IsChain Funds)
    (hfirst : ∀ p ∈ swaps.head?, p.1.amountIn ≤ s.balance p.1.hint.inputMint) :
    ∃ t, s.run w (swaps.map (·.1.instruction)) = some t ∧ Executed s t swaps 0 := by
  induction swaps generalizing s with
  | nil => exact ⟨s, rfl, .refl s⟩
  | cons p swaps ih =>
      obtain ⟨leg, got⟩ := p
      obtain ⟨hleg, hpool⟩ := List.forall_mem_cons.1 hpool
      obtain ⟨hlegToken, htoken⟩ := List.forall_mem_cons.1 htoken
      obtain ⟨hnext, hfunds⟩ := List.isChain_cons.1 hfunds
      have hinput : leg.amountIn ≤ s.holds leg leg.hint.inputMint := by
        rw [holds, if_neg hlegToken.1]
        exact hfirst (leg, got) rfl
      obtain ⟨t, hexec, hswapped, hearned⟩ := exec_swap hs hleg hpending hinput
      rw [holds, if_neg hlegToken.2] at hearned
      have hfirst : ∀ q ∈ swaps.head?, q.1.amountIn ≤ t.balance q.1.hint.inputMint := by
        intro q hq
        obtain ⟨hmint, hle⟩ := hnext q hq
        rw [← hmint]
        exact hle.trans hearned
      obtain ⟨u, hrun, hlater⟩ := ih (hs.effect (exec_effect hexec)) hpool htoken
        (hswapped.pending_eq hpending) hfunds hfirst
      refine ⟨u, ?_, hswapped.trans hlater⟩
      rw [List.map_cons, run_cons_of hexec, hrun]

end Ledger

/-! ### The mints of a route -/

section Mints

variable {hint : PoolTradeHint} {hints : List PoolTradeHint}

/-- The mints that are given are all but the last. -/
theorem map_inputMint (hchain : hints.IsChain fun a b => a.outputMint = b.inputMint) :
    hints.map (·.inputMint) = (routeMints hints).dropLast := by
  induction hints with
  | nil => rfl
  | cons hint hints ih =>
      cases hints with
      | nil => rfl
      | cons next hints =>
          obtain ⟨hnext, hchain⟩ := List.isChain_cons_cons.1 hchain
          rw [List.map_cons, ih hchain]
          simp only [routeMints, List.map_cons, hnext]
          rfl

/-- The mint that a route starts from is traded by the first hint only. -/
theorem first_mint_once
    (hchain : (hint :: hints).IsChain fun a b => a.outputMint = b.inputMint)
    (hnodup : (routeMints (hint :: hints)).Nodup) :
    hint.outputMint ≠ hint.inputMint ∧
      ∀ h ∈ hints, h.inputMint ≠ hint.inputMint ∧ h.outputMint ≠ hint.inputMint := by
  have houtputs : hint.inputMint ∉ (hint :: hints).map (·.outputMint) :=
    (List.nodup_cons.1 hnodup).1
  rw [List.map_cons, List.mem_cons, not_or] at houtputs
  refine ⟨Ne.symm houtputs.1, fun h hh => ⟨fun heq => ?_, fun heq => ?_⟩⟩
  · -- what a later hint is given, one before it returns
    have hinputs : hints.map (·.inputMint) = ((hint :: hints).map (·.outputMint)).dropLast := by
      have hmap := map_inputMint hchain
      rw [List.map_cons, routeMints, List.dropLast_cons_of_ne_nil (by simp)] at hmap
      exact (List.cons.inj hmap).2
    have hmem : h.inputMint ∈ hints.map (·.inputMint) := List.mem_map_of_mem hh
    rw [hinputs] at hmem
    have hgiven := List.dropLast_subset _ hmem
    rw [heq, List.map_cons, List.mem_cons] at hgiven
    exact hgiven.elim houtputs.1 houtputs.2
  · exact houtputs.2 (heq ▸ List.mem_map_of_mem hh)

/-- The mint that a route comes to is traded by the last hint only. -/
theorem last_mint_once
    (hchain : (hints ++ [hint]).IsChain fun a b => a.outputMint = b.inputMint)
    (hnodup : (routeMints (hints ++ [hint])).Nodup) :
    (∀ h ∈ hints ++ [hint], h.inputMint ≠ hint.outputMint) ∧
      ∀ h ∈ hints, h.outputMint ≠ hint.outputMint := by
  have hinputs := map_inputMint hchain
  have hmints : routeMints (hints ++ [hint]) =
      (hints ++ [hint]).map (·.inputMint) ++ [hint.outputMint] := by
    have hlast : (routeMints (hints ++ [hint])).getLast? = some hint.outputMint := by
      cases hints with
      | nil => rfl
      | cons first hints =>
          have hsplit : routeMints (first :: hints ++ [hint]) =
              (first.inputMint :: (first :: hints).map (·.outputMint)) ++ [hint.outputMint] := by
            simp [routeMints]
          rw [hsplit, List.getLast?_concat]
    rw [hinputs]
    exact (List.dropLast_append_getLast? _ hlast).symm
  have houtputs : hint.outputMint ∉ hints.map (·.outputMint) := by
    have hsub : (hints.map (·.outputMint) ++ [hint.outputMint]).Sublist
        (routeMints (hints ++ [hint])) := by
      cases hints with
      | nil => simp [routeMints]
      | cons first hints => simp [routeMints]
    have hdistinct := hnodup.sublist hsub
    rw [List.nodup_append'] at hdistinct
    exact fun hmem => hdistinct.2.2 hmem (List.mem_singleton_self _)
  rw [hmints, List.nodup_append'] at hnodup
  refine ⟨fun h hh heq => ?_, fun h hh heq => houtputs (heq ▸ List.mem_map_of_mem hh)⟩
  exact hnodup.2.2 (List.mem_map_of_mem hh) (heq ▸ List.mem_singleton_self _)

end Mints

/-! ### Curves of a route -/

section Curves

variable {snapshot : RouteSnapshot} {d : Derivation} {hint : PoolTradeHint}
  {hints : List PoolTradeHint} {r : RouteRequest} {route : PreparedCachedRoute}
  {spend final slippageBps : ℤ} {leg : CachedRouteLeg} {legs : List CachedRouteLeg}

/-- No curve sells wrapped SOL itself. -/
def QuotesWsol (snapshot : RouteSnapshot) : Prop :=
  ∀ hint c, snapshot.cachedPumpfun hint = .ok c →
    hint.inputMint = wsolTokenAccount ∨ hint.outputMint = wsolTokenAccount →
      c.quote = wsolTokenAccount

theorem quoteLeg_curve {q : LegQuote} {ix : Instruction}
    (h : quoteLeg snapshot r hint spend slippageBps = .ok (q, ix)) (hne : q.minimum ≠ 0)
    (hprogram : ix.programId = pumpFunProgram) :
    preparePumpfunLeg snapshot r hint spend slippageBps = .ok (q, ix) := by
  have hother : ∀ program ∈ swapPrograms.tail, q.Protected ∧ ix.programId = program →
      preparePumpfunLeg snapshot r hint spend slippageBps = .ok (q, ix) := by
    have hapart : ∀ program ∈ swapPrograms.tail, program ≠ pumpFunProgram := by decide +kernel
    exact fun program hmem hspec => absurd (hspec.2.symm.trans hprogram) (hapart program hmem)
  obtain ⟨program, -, h⟩ := bind_eq_ok.1 h
  split at h
  · exact h
  split at h
  · exact hother _ (by simp [swapPrograms]) (preparePumpswap_spec h)
  split at h
  · exact hother _ (by simp [swapPrograms]) (prepareClmm_spec h)
  split at h
  · exact hother _ (by simp [swapPrograms]) (prepareWhirlpool_spec h)
  split at h
  · exact hother _ (by simp [swapPrograms]) (prepareDlmm_spec h)
  split at h
  · exact hother _ (by simp [swapPrograms]) (prepareAmmV4_spec h)
  split at h
  · exact hother _ (by simp [swapPrograms]) (prepareCpmm_spec h)
  split at h
  · exact hother _ (by simp [swapPrograms]) (prepareLaunchlab_spec h hne)
  · cases h

/-- A leg on a curve that is quoted in SOL is refused, unless the settlement is asked for. -/
theorem prepareLeg_inTokens (hquotes : QuotesWsol snapshot)
    (hallow : r.allowPumpfunNativeSettlement = false)
    (h : prepareLeg snapshot r hint spend = .ok leg) : InTokens leg := by
  have hspec := prepareLeg_spec h
  obtain ⟨⟨q, ix⟩, hquote, h⟩ := bind_eq_ok.1 h
  obtain ⟨_, hused, h⟩ := bind_eq_ok.1 h
  rw [require_eq_ok, not_or, not_not] at hused
  have hix : leg.instruction = ix := by
    dsimp only at h
    split at h
    · obtain ⟨_, -, h⟩ := bind_eq_ok.1 h
      rw [← pure_eq_ok.1 h]
    · rw [← pure_eq_ok.1 h]
  have hnot : isCurve leg = true → leg.hint.inputMint ≠ wsolTokenAccount ∧
      leg.hint.outputMint ≠ wsolTokenAccount := by
    intro hcurve
    have hprogram : ix.programId = pumpFunProgram := hix ▸ of_decide_eq_true hcurve
    have hcurve := quoteLeg_curve hquote hused.2 hprogram
    obtain ⟨_, -, hcurve⟩ := bind_eq_ok.1 hcurve
    obtain ⟨c, hread, hcurve⟩ := bind_eq_ok.1 hcurve
    obtain ⟨_, hrefused, -⟩ := bind_eq_ok.1 hcurve
    rw [require_eq_ok] at hrefused
    rw [hspec.hint_eq]
    exact not_or.1 fun hmint => hrefused ⟨hquotes hint c hread hmint, hallow⟩
  exact ⟨fun h => (hnot h.1).1 h.2, fun h => (hnot h.1).2 h.2⟩

theorem prepareLegs_inTokens (hquotes : QuotesWsol snapshot)
    (hallow : r.allowPumpfunNativeSettlement = false)
    (h : prepareLegs snapshot r hints spend = .ok (legs, final)) :
    ∀ leg ∈ legs, InTokens leg := by
  induction hints generalizing spend legs with
  | nil =>
      obtain ⟨rfl, -⟩ := Prod.mk.inj (pure_eq_ok.1 h)
      exact fun leg hleg => absurd hleg List.not_mem_nil
  | cons hint hints ih =>
      obtain ⟨leg, hleg, h⟩ := bind_eq_ok.1 h
      obtain ⟨⟨rest, last⟩, hrest, h⟩ := bind_eq_ok.1 h
      obtain ⟨rfl, rfl⟩ := Prod.mk.inj (pure_eq_ok.1 h)
      exact List.forall_mem_cons.2 ⟨prepareLeg_inTokens hquotes hallow hleg, ih hrest⟩

theorem prepareCachedRoute_inTokens (hquotes : QuotesWsol snapshot)
    (hallow : r.allowPumpfunNativeSettlement = false)
    (h : prepareCachedRoute snapshot d hints r = .ok route) : ∀ leg ∈ route.legs, InTokens leg := by
  obtain ⟨_, -, h⟩ := bind_eq_ok.1 h
  obtain ⟨⟨legs, final⟩, hlegs, h⟩ := bind_eq_ok.1 h
  obtain ⟨setup, -, h⟩ := bind_eq_ok.1 h
  obtain rfl := pure_eq_ok.1 h
  exact prepareLegs_inTokens hquotes hallow hlegs

end Curves

/-! ### The settlement -/

def CachedRouteLeg.redirect (old temporary : Pubkey) (leg : CachedRouteLeg) : CachedRouteLeg :=
  { leg with instruction := Route.redirect old temporary leg.instruction }

/-- The route with its swaps redirected. -/
def PreparedCachedRoute.redirect (old temporary : Pubkey) (route : PreparedCachedRoute) :
    PreparedCachedRoute :=
  { route with
    legs := route.legs.map (CachedRouteLeg.redirect old temporary)
    swapInstructions := route.swapInstructions.map (Route.redirect old temporary) }

section Settlement

variable {snapshot : RouteSnapshot} {d : Derivation} {hints : List PoolTradeHint}
  {r : RouteRequest} {route : PreparedCachedRoute} {seed : String} {rent : ℤ} {exempt : ℕ}
  {nativeInput nativeOutput : Bool} {n : NativeSolRoute} {old temporary payer : Pubkey}
  {s : Ledger}

/-- A swap named the account that is replaced. -/
theorem redirectSwaps_replaced {ixs swaps : List Instruction} {replaced : Bool}
    (h : redirectSwaps payer old temporary ixs replaced = .ok (swaps, true)) :
    replaced = true ∨ ∃ ix ∈ ixs, ∃ a ∈ ix.accounts, a.pubkey = old := by
  induction ixs generalizing swaps replaced with
  | nil =>
      rw [redirectSwaps, pure_eq_ok, Prod.mk.injEq] at h
      exact .inl h.2
  | cons ix ixs ih =>
      rw [redirectSwaps] at h
      obtain ⟨_, -, h⟩ := bind_eq_ok.1 h
      obtain ⟨⟨rest, flag⟩, hrest, h⟩ := bind_eq_ok.1 h
      rw [pure_eq_ok, Prod.mk.injEq] at h
      obtain ⟨-, rfl⟩ := h
      rcases ih hrest with hflag | ⟨later, hlater, hnamed⟩
      · rw [Bool.or_eq_true, List.any_eq_true] at hflag
        rcases hflag with hflag | ⟨a, ha, hchanged⟩
        · exact .inl hflag
        · refine .inr ⟨ix, List.mem_cons_self, a, ha, ?_⟩
          by_contra hne
          simp [redirectMeta, hne] at hchanged
      · exact .inr ⟨later, List.mem_cons_of_mem _ hlater, hnamed⟩

theorem checkNativeSolRoute_last {first last : CachedRouteLeg}
    (h : checkNativeSolRoute route = .ok (first, last)) : route.legs.getLast? = some last := by
  simp only [checkNativeSolRoute, bind_eq_ok] at h
  obtain ⟨_, -, _, -, _, -, h⟩ := h
  split at h
  · rename_i _ hlast
    simp only [bind_eq_ok, pure_eq_ok, Prod.mk.injEq] at h
    obtain ⟨_, -, -, rfl⟩ := h
    exact hlast
  · cases h

/-- What a settlement has checked. -/
structure SettlementChecks (d : Derivation) (route : PreparedCachedRoute) (payer : Pubkey)
    (seed : String) (rent : ℤ) (nativeInput : Bool) (n : NativeSolRoute) : Prop where
  endpoint : ∃ first last, route.legs.head? = some first ∧ route.legs.getLast? = some last ∧
    (if nativeInput then first.hint.inputMint else last.hint.outputMint) = wsolTokenAccount
  seed_length : (encodeSeed seed).length ≤ 32
  rent_nonneg : 0 ≤ rent
  required : 0 ≤ n.requiredLamports ∧ n.requiredLamports ≤ u64
  minimum : n.minimumNetAmountOut = route.minimumNetAmountOut
  named : ∃ ix ∈ route.swapInstructions, ∃ a ∈ ix.accounts, a.pubkey = d.wrappedSol payer

theorem settleCachedRouteWithNativeSol_checks
    (h : settleCachedRouteWithNativeSol d route payer seed rent nativeInput nativeOutput = .ok n) :
    SettlementChecks d route payer seed rent nativeInput n := by
  rw [settleCachedRouteWithNativeSol] at h
  obtain ⟨_, -, h⟩ := bind_eq_ok.1 h
  obtain ⟨⟨first, last⟩, hchecked, h⟩ := bind_eq_ok.1 h
  simp only [bind_eq_ok, require_eq_ok, unsigned_eq_ok, pure_eq_ok] at h
  obtain ⟨_, hmint, _, hseed, _, ⟨hrent, rfl⟩, _, -, _, ⟨hrequired, rfl⟩, _, -, ⟨swaps, replaced⟩,
    hswaps, _, hreplaced, rfl⟩ := h
  simp only at hreplaced
  subst hreplaced
  refine ⟨⟨first, last, checkNativeSolRoute_first hchecked, checkNativeSolRoute_last hchecked,
    hmint⟩, hseed.2, hrent.1, hrequired, rfl, ?_⟩
  exact (redirectSwaps_replaced hswaps).resolve_left Bool.false_ne_true

/-- The legs continue one another and revisit no mint. -/
structure PreparedCachedRoute.Linked (route : PreparedCachedRoute) : Prop where
  continues : route.legs.IsChain Continues
  mints_nodup : (routeMints (route.legs.map (·.hint))).Nodup
  first_pos : ∀ first ∈ route.legs.head?, 0 < first.amountIn
  minimum_eq : ∀ last ∈ route.legs.getLast?,
    route.minimumNetAmountOut = last.minimumNetAmountOut

theorem PreparedCachedRoute.Linked.connected (h : route.Linked) :
    (route.legs.map (·.hint)).IsChain fun a b => a.outputMint = b.inputMint := by
  rw [List.isChain_map]
  exact h.continues.imp fun _ _ h => h.1

theorem prepareCachedRoute_linked {snapshot : RouteSnapshot}
    (h : prepareCachedRoute snapshot d hints r = .ok route) : route.Linked := by
  obtain ⟨hcheck, hchain, -⟩ := prepareCachedRoute_eq_ok h
  simp only [checkRouteRequest, bind_eq_ok, require_eq_ok] at hcheck
  obtain ⟨_, -, _, -, _, -, _, -, _, hmints, _, hconnected, -⟩ := hcheck
  rw [← hchain.hints_eq] at hconnected hmints
  constructor
  · rw [List.isChain_map] at hconnected
    rw [List.isChain_iff_getElem] at hconnected ⊢
    intro i hi
    exact ⟨hconnected i hi, (List.isChain_iff_getElem.1 hchain.isChain i hi).2⟩
  · exact hmints
  · exact fun first hfirst => (hchain.first_le first hfirst).1
  · exact hchain.last_eq

/-- One leg trades wrapped SOL, at the end that is native. -/
structure Anchored (route : PreparedCachedRoute) (nativeInput : Bool)
    (before : List CachedRouteLeg) (anchor : CachedRouteLeg) (after : List CachedRouteLeg) :
    Prop where
  legs : route.legs = before ++ anchor :: after
  others : ∀ leg ∈ before ++ after, ¬ TradesWsol leg
  native : if nativeInput = true then before = [] ∧ anchor.hint.inputMint = wsolTokenAccount ∧
      anchor.hint.outputMint ≠ wsolTokenAccount
    else after = [] ∧ anchor.hint.outputMint = wsolTokenAccount ∧
      anchor.hint.inputMint ≠ wsolTokenAccount

theorem exists_anchored (hroute : route.Linked)
    (hchecks : SettlementChecks d route payer seed rent nativeInput n) :
    ∃ before anchor after, Anchored route nativeInput before anchor after := by
  obtain ⟨first, last, hfirst, hlast, hmint⟩ := hchecks.endpoint
  have hchain := hroute.connected
  have hnodup := hroute.mints_nodup
  cases nativeInput with
  | true =>
      obtain ⟨after, hlegs⟩ := List.head?_eq_some_iff.1 hfirst
      rw [hlegs] at hchain hnodup
      obtain ⟨hout, hothers⟩ := first_mint_once hchain hnodup
      have hin : first.hint.inputMint = wsolTokenAccount := hmint
      rw [hin, List.forall_mem_map] at hothers
      refine ⟨[], first, after, hlegs, fun leg hleg => ?_, rfl, hin, hin ▸ hout⟩
      exact not_or.2 (hothers leg hleg)
  | false =>
      obtain ⟨before, hlegs⟩ := List.getLast?_eq_some_iff.1 hlast
      rw [hlegs, List.map_append] at hchain hnodup
      obtain ⟨hins, houts⟩ := last_mint_once hchain hnodup
      have hout : last.hint.outputMint = wsolTokenAccount := hmint
      rw [hout] at hins houts
      refine ⟨before, last, [], hlegs, fun leg hleg => ?_, rfl, hout, hins last.hint (by simp)⟩
      rw [List.append_nil] at hleg
      have hmem : leg.hint ∈ before.map (·.hint) := List.mem_map_of_mem hleg
      exact not_or.2 ⟨hins _ (List.mem_append_left _ hmem), houts _ hmem⟩

theorem Anchored.eq_anchor {before after : List CachedRouteLeg} {anchor leg : CachedRouteLeg}
    (h : Anchored route nativeInput before anchor after) (hleg : leg ∈ route.legs)
    (htrades : TradesWsol leg) : leg = anchor := by
  rw [h.legs, List.mem_append, List.mem_cons] at hleg
  by_contra hne
  have hother : leg ∈ before ++ after := by
    rw [List.mem_append]
    exact hleg.imp_right fun h => h.resolve_left hne
  exact h.others leg hother htrades

/-- A route begins with wrapped SOL if and only if it is paid in native SOL. -/
theorem Anchored.input_iff {before after : List CachedRouteLeg} {anchor first : CachedRouteLeg}
    (h : Anchored route nativeInput before anchor after) (hfirst : first ∈ route.legs.head?) :
    first.hint.inputMint = wsolTokenAccount ↔ nativeInput = true := by
  have hnative := h.native
  cases nativeInput with
  | true =>
      obtain ⟨rfl, hin, -⟩ := hnative
      rw [h.legs, List.nil_append] at hfirst
      obtain rfl := Option.some.inj hfirst
      exact iff_of_true hin rfl
  | false =>
      refine iff_of_false (fun hin => ?_) Bool.false_ne_true
      obtain rfl := h.eq_anchor (List.mem_of_mem_head? hfirst) (.inl hin)
      exact hnative.2.2 hin

/-- It ends with wrapped SOL if and only if it is not. -/
theorem Anchored.output_iff {before after : List CachedRouteLeg} {anchor last : CachedRouteLeg}
    (h : Anchored route nativeInput before anchor after) (hlast : last ∈ route.legs.getLast?) :
    last.hint.outputMint = wsolTokenAccount ↔ nativeInput = false := by
  have hnative := h.native
  cases nativeInput with
  | true =>
      refine iff_of_false (fun hout => ?_) (by simp)
      obtain rfl := h.eq_anchor (List.mem_of_getLast? hlast) (.inr hout)
      exact hnative.2.2 hout
  | false =>
      obtain ⟨rfl, hout, -⟩ := hnative
      rw [h.legs, List.getLast?_concat] at hlast
      obtain rfl := Option.some.inj hlast
      exact iff_of_true hout rfl

/-- The swap that trades wrapped SOL names the temporary account. -/
theorem named_redirect (hroute : route.Linked) (hbuilt : route.Built)
    (hswaps : route.swapInstructions = route.legs.map (·.instruction))
    (hchecks : SettlementChecks d route payer seed rent nativeInput n)
    (hown : ∀ leg ∈ route.legs, (∃ a ∈ leg.instruction.accounts, a.pubkey = d.wrappedSol payer) →
      TradesWsol leg)
    {leg : CachedRouteLeg} (hleg : leg ∈ route.legs) :
    TradesTemporary (d.wallet payer seed exempt)
        (leg.redirect (d.wrappedSol payer) (d.temporaryAccount payer seed)).instruction ∨
      ¬ TradesWsol leg := by
  by_cases htrades : TradesWsol leg
  · left
    obtain ⟨before, anchor, after, hanchored⟩ := exists_anchored hroute hchecks
    obtain ⟨ix, hix, a, ha, hold⟩ := hchecks.named
    rw [hswaps] at hix
    obtain ⟨named, hnamed, rfl⟩ := List.mem_map.1 hix
    obtain rfl : leg = named := (hanchored.eq_anchor hleg htrades).trans
      (hanchored.eq_anchor hnamed (hown named hnamed ⟨a, ha, hold⟩)).symm
    refine ⟨hbuilt.pools leg hleg, _, List.mem_map_of_mem ha, ?_⟩
    exact if_pos hold
  · exact .inr htrades

end Settlement

/-! ### The temporary account opens and closes -/

namespace Ledger

section Temporary

variable {w : Wallet} {s : Ledger}

theorem execRedirected_sync {account : NativeAccount} (hopened : s.temporary = .opened account) :
    s.execRedirected w (syncNative w.temporary) =
      some { s with
        temporary := .opened { account with amount := account.lamports - w.rent } } := by
  have hsync : s.syncTemporary w (syncNative w.temporary) account =
      some { s with
        temporary := .opened { account with amount := account.lamports - w.rent } } := by
    rw [syncTemporary, syncNative, parse_syncNative]
    exact if_pos rfl
  rw [execRedirected, hopened]
  exact (if_pos rfl).trans (by rw [hsync]; rfl)

theorem execRedirected_close {account : NativeAccount} (hopened : s.temporary = .opened account) :
    s.execRedirected w (closeTemporary w.payer w.temporary) =
      some { s.receive account.lamports with temporary := .absent } := by
  have hsync : s.syncTemporary w (closeTemporary w.payer w.temporary) account = none := by
    rw [syncTemporary, closeTemporary, parse_closeAccount]
  rw [execRedirected, hopened]
  refine (if_pos rfl).trans ?_
  rw [hsync, ← exec_token rfl, exec_close hopened]
  rfl

/-- Creating accounts that exist does nothing. -/
theorem runRedirected_associated {setup : List Instruction} {account : NativeAccount}
    (hopened : s.temporary = .opened account)
    (h : ∀ ix ∈ setup, ix.programId = associatedTokenProgram) :
    s.runRedirected w setup = some s := by
  induction setup with
  | nil => rfl
  | cons ix setup ih =>
      obtain ⟨hix, hsetup⟩ := List.forall_mem_cons.1 h
      have hexec : s.execRedirected w ix = some s := by
        have hne : associatedTokenProgram ≠ tokenProgram := by decide +kernel
        rw [execRedirected, hopened]
        dsimp only
        rw [hix, if_neg hne, if_neg, exec_associated hix]
        rintro ⟨hpool, -⟩
        exact hpool (by simp [hix])
      rw [runRedirected_cons_of hexec, ih hsetup]

/-- Opening the temporary account takes the lamports of the wallet. -/
theorem runRedirected_open {seed : String} {required : ℤ} (hseed : (encodeSeed seed).length ≤ 32)
    (hrange : 0 ≤ required ∧ required ≤ u64) (habsent : s.temporary = .absent)
    (hwallet : required ≤ s.wallet) (hrent : w.rent ≤ required) :
    s.runRedirected w [createTemporary w.payer w.temporary seed required,
        initializeTemporary w.payer w.temporary, syncNative w.temporary] =
      some { s.receive (-required) with
        temporary := .opened ⟨required, required - w.rent⟩ } := by
  refine (runRedirected_cons_of ((execRedirected_absent habsent).trans
    (exec_create hseed hrange habsent hwallet))).trans ?_
  refine (runRedirected_cons_of ((execRedirected_created rfl).trans
    (exec_initAccount rfl hrent))).trans ?_
  refine (runRedirected_cons_of (execRedirected_sync rfl)).trans ?_
  rfl

end Temporary

/-! ### What the swaps bring -/

section Flow

variable {swaps : List (CachedRouteLeg × ℤ)} {p : CachedRouteLeg × ℤ} {mint : Pubkey}

theorem tokenFlow_apply (h : InTokens p.1) : tokenFlow p mint =
    (if p.1.hint.outputMint = mint then p.2 else 0) -
      (if p.1.hint.inputMint = mint then p.1.amountIn else 0) := by
  rw [tokenFlow, if_neg h.1, if_neg h.2]
  simp only [Pi.sub_apply, Pi.single_apply, eq_comm]

theorem sum_lamportFlow (h : ∀ p ∈ swaps, InTokens p.1) : (swaps.map lamportFlow).sum = 0 := by
  apply List.sum_eq_zero
  rw [List.forall_mem_map]
  intro p hp
  rw [lamportFlow, if_neg (h p hp).1, if_neg (h p hp).2, sub_zero]

theorem sum_tokenFlow_apply :
    (swaps.map tokenFlow).sum mint = (swaps.map fun p => tokenFlow p mint).sum := by
  rw [Pi.list_sum_apply, List.map_map]
  rfl

/-- A mint that no swap spends is gained, at least what one of them returns. -/
theorem le_sum_tokenFlow (h : ∀ p ∈ swaps, InTokens p.1) (hreturns : ∀ p ∈ swaps, 0 ≤ p.2)
    (hspent : ∀ p ∈ swaps, p.1.hint.inputMint ≠ mint) (hp : p ∈ swaps)
    (hmint : p.1.hint.outputMint = mint) : p.2 ≤ (swaps.map tokenFlow).sum mint := by
  have hflow : ∀ q ∈ swaps, tokenFlow q mint = if q.1.hint.outputMint = mint then q.2 else 0 := by
    intro q hq
    rw [tokenFlow_apply (h q hq), if_neg (hspent q hq), sub_zero]
  have hnonneg : ∀ n ∈ swaps.map (fun q => tokenFlow q mint), 0 ≤ n := by
    rw [List.forall_mem_map]
    intro q hq
    rw [hflow q hq]
    split
    · exact hreturns q hq
    · exact le_rfl
  rw [sum_tokenFlow_apply]
  have hle := List.single_le_sum hnonneg _ (List.mem_map_of_mem hp)
  rwa [hflow p hp, if_pos hmint] at hle

/-- The mint that only the first swap trades, and spends, is lost. -/
theorem sum_tokenFlow_spent (hp : InTokens p.1) (h : ∀ q ∈ swaps, InTokens q.1)
    (hin : p.1.hint.inputMint = mint) (hout : p.1.hint.outputMint ≠ mint)
    (hothers : ∀ q ∈ swaps, ¬ (q.1.hint.inputMint = mint ∨ q.1.hint.outputMint = mint)) :
    (((p :: swaps).map tokenFlow).sum : Pubkey → ℤ) mint = -p.1.amountIn := by
  have hrest : (swaps.map fun q => tokenFlow q mint).sum = 0 := by
    apply List.sum_eq_zero
    rw [List.forall_mem_map]
    intro q hq
    have hnot := not_or.1 (hothers q hq)
    rw [tokenFlow_apply (h q hq), if_neg hnot.1, if_neg hnot.2, sub_zero]
  rw [sum_tokenFlow_apply, List.map_cons, List.sum_cons, hrest, tokenFlow_apply hp, if_pos hin,
    if_neg hout]
  omega

end Flow

end Ledger

/-! ### A settlement runs through -/

namespace Ledger

section Settled

variable {w : Wallet} {s : Ledger} {seed : String} {required : ℤ} {setup ixs : List Instruction}

/-- The ledger as the swaps see it, once the temporary account is open. -/
def opening (w : Wallet) (s : Ledger) (required : ℤ) : Ledger :=
  (s.receive (-required)).standIn ⟨required, required - w.rent⟩

theorem Covered.opening (hs : s.Covered w) (hwallet : required ≤ s.wallet)
    (hrent : w.rent ≤ required) : (opening w s required).Covered w :=
  { hs.receive (by omega) with
    wsol := ⟨sub_nonneg.2 hrent, (add_sub_cancel _ _).le⟩
    temporary := trivial }

/-- What the swaps do to the ledger as they see it, the settlement does to the ledger: it spends
and earns lamports where they spend and earn wrapped SOL. -/
theorem runRedirected_settled (hseed : (encodeSeed seed).length ≤ 32)
    (hrange : 0 ≤ required ∧ required ≤ u64) (habsent : s.temporary = .absent)
    (hwallet : required ≤ s.wallet) (hrent : w.rent ≤ required)
    (hsetup : ∀ ix ∈ setup, ix.programId = associatedTokenProgram)
    (hpool : ∀ ix ∈ ixs, CallsPool ix)
    (hnamed : ∀ p ∈ s.pending, TradesTemporary w p.1.instruction ∨ ¬ TradesWsol p.1)
    (htoken : ∀ p ∈ s.pending, InTokens p.1) {v : Ledger}
    (hrun : (opening w s required).run w ixs = some v)
    (hexecuted : Executed (opening w s required) v s.pending 0) :
    ∃ t, s.runRedirected w
        (createTemporary w.payer w.temporary seed required :: initializeTemporary w.payer w.temporary ::
          (syncNative w.temporary :: setup ++ ixs) ++ [closeTemporary w.payer w.temporary]) =
        some t ∧
      t.pending = [] ∧ t.temporary = .absent ∧ t.wsol = s.wsol ∧
      t.wallet = s.wallet + (s.pending.map tokenFlow).sum wsolTokenAccount ∧
      ∀ mint, mint ≠ wsolTokenAccount →
        t.tokens mint = s.tokens mint + (s.pending.map tokenFlow).sum mint := by
  have hopen := runRedirected_open hseed hrange habsent hwallet hrent
  generalize hu : ({ s.receive (-required) with
    temporary := .opened ⟨required, required - w.rent⟩ } : Ledger) = u at hopen
  have hstands : StandsIn w s.wsol u (opening w s required) := by
    rw [← hu]
    exact ⟨rfl, rfl, rfl, rfl, rfl, rfl, hnamed⟩
  obtain ⟨u', hu', hstands'⟩ := hstands.run hpool hrun
  refine ⟨{ u'.receive v.wsol.lamports with temporary := .absent }, ?_, ?_, rfl, hstands'.own_eq,
    ?_, ?_⟩
  · have hsplit : createTemporary w.payer w.temporary seed required ::
        initializeTemporary w.payer w.temporary :: (syncNative w.temporary :: setup ++ ixs) ++
          [closeTemporary w.payer w.temporary] =
        [createTemporary w.payer w.temporary seed required,
          initializeTemporary w.payer w.temporary, syncNative w.temporary] ++ (setup ++ (ixs ++
            [closeTemporary w.payer w.temporary])) := by simp
    rw [hsplit, runRedirected_append_of hopen,
      runRedirected_append_of (runRedirected_associated hstands.opened hsetup),
      runRedirected_append_of hu']
    exact runRedirected_cons_of (execRedirected_close hstands'.opened)
  · have hpending : v.pending = [] := hexecuted.pending_eq (List.append_nil _).symm
    exact hstands'.pending.trans hpending
  · have hmoved := hexecuted.moved
    rw [Pi.single_zero, add_zero, sub_zero, sum_lamportFlow htoken] at hmoved
    have hlamports := hmoved.wsol_lamports
    have hpaid := hmoved.wallet
    have hsame := hstands'.wallet
    show u'.wallet + v.wsol.lamports = _
    rw [hsame, hpaid, hlamports]
    show s.wallet + -required + 0 + (required + _) = _
    omega
  · intro mint hmint
    have hmoved := hexecuted.moved
    rw [Pi.single_zero, add_zero] at hmoved
    exact (congrFun hstands'.tokens mint).trans (hmoved.tokens mint hmint)

end Settled

end Ledger

/-! ### Solvency -/

section Solvency

open Ledger

variable {snapshot : RouteSnapshot} {d : Derivation} {hints : List PoolTradeHint}
  {r : RouteRequest} {route : PreparedCachedRoute} {seed : String} {rent : ℤ} {exempt : ℕ}
  {nativeInput nativeOutput : Bool} {n : NativeSolRoute} {s : Ledger}

/-- The pending swaps are those of the legs, redirected. -/
theorem exists_leg_of_pending {old temporary : Pubkey} {p : CachedRouteLeg × ℤ}
    (hpending : s.pending.map Prod.fst = route.legs.map (CachedRouteLeg.redirect old temporary))
    (hp : p ∈ s.pending) : ∃ leg ∈ route.legs, leg.redirect old temporary = p.1 := by
  have hmem : p.1 ∈ s.pending.map Prod.fst := List.mem_map_of_mem hp
  rw [hpending] at hmem
  exact List.mem_map.1 hmem

/-- The redirected swaps run where the first input is held. -/
theorem run_redirected_swaps {w : Wallet} {old temporary : Pubkey} {v : Ledger}
    (hlinked : route.Linked) (hbuilt : route.Built)
    (hswaps : route.swapInstructions = route.legs.map (·.instruction))
    (htoken : ∀ leg ∈ route.legs, InTokens leg) (hv : v.Covered w)
    (hpending : v.pending.map Prod.fst = route.legs.map (CachedRouteLeg.redirect old temporary))
    (hreturns : ∀ p ∈ v.pending, p.1.minimumNetAmountOut ≤ p.2)
    (hfirst : ∀ first ∈ route.legs.head?, first.amountIn ≤ v.balance first.hint.inputMint) :
    ∃ t, v.run w (route.swapInstructions.map (Route.redirect old temporary)) = some t ∧
      Executed v t v.pending 0 := by
  have hixs : route.swapInstructions.map (Route.redirect old temporary) =
      v.pending.map (·.1.instruction) := by
    have hmap : v.pending.map (·.1.instruction) = (v.pending.map Prod.fst).map (·.instruction) := by
      rw [List.map_map]
      rfl
    rw [hmap, hpending, hswaps, List.map_map, List.map_map]
    rfl
  rw [hixs]
  refine run_funded hv (fun p hp => ?_) (fun p hp => ?_) (List.append_nil _).symm ?_ ?_
  · obtain ⟨leg, hleg, heq⟩ := exists_leg_of_pending hpending hp
    rw [← heq]
    exact hbuilt.pools leg hleg
  · obtain ⟨leg, hleg, heq⟩ := exists_leg_of_pending hpending hp
    rw [← heq]
    exact htoken leg hleg
  · refine isChain_funds ?_ hreturns
    rw [hpending, List.isChain_map]
    exact hlinked.continues
  · intro p hp
    have hhead : (route.legs.map (CachedRouteLeg.redirect old temporary)).head? = some p.1 := by
      rw [← hpending, List.head?_map, Option.mem_def.1 hp]
      rfl
    rw [List.head?_map, Option.map_eq_some_iff] at hhead
    obtain ⟨first, hleg, heq⟩ := hhead
    rw [← heq]
    exact hfirst first hleg

/-- The last leg brings its minimum, as no other leg spends it. -/
theorem le_flow_last {old temporary : Pubkey} {pending : List (CachedRouteLeg × ℤ)}
    (hlinked : route.Linked) (htoken : ∀ p ∈ pending, InTokens p.1)
    (hpending : pending.map Prod.fst = route.legs.map (CachedRouteLeg.redirect old temporary))
    (hreturns : ∀ p ∈ pending, p.1.minimumNetAmountOut ≤ p.2) (hnonneg : ∀ p ∈ pending, 0 ≤ p.2)
    {last : CachedRouteLeg} (hlast : last ∈ route.legs.getLast?) :
    last.minimumNetAmountOut ≤ (pending.map tokenFlow).sum last.hint.outputMint := by
  obtain ⟨before, hlegs⟩ := List.getLast?_eq_some_iff.1 hlast
  have hchain := hlinked.connected
  have hnodup := hlinked.mints_nodup
  rw [hlegs, List.map_append] at hchain hnodup
  have hspent := (last_mint_once hchain hnodup).1
  rw [← List.map_singleton, ← List.map_append, ← hlegs, List.forall_mem_map] at hspent
  have hmem : last.redirect old temporary ∈ pending.map Prod.fst := by
    rw [hpending, hlegs]
    exact List.mem_map_of_mem (List.mem_append_right _ (List.mem_singleton_self _))
  obtain ⟨p, hp, heq⟩ := List.mem_map.1 hmem
  have hgot : last.minimumNetAmountOut ≤ p.2 := by
    have hle := hreturns p hp
    rwa [heq] at hle
  refine hgot.trans (le_sum_tokenFlow htoken hnonneg (fun q hq => ?_) hp (by rw [heq]; rfl))
  have hmem : q.1 ∈ pending.map Prod.fst := List.mem_map_of_mem hq
  rw [hpending] at hmem
  obtain ⟨leg, hleg, hredirected⟩ := List.mem_map.1 hmem
  rw [← hredirected]
  exact hspent leg hleg

/-- The first input is in the temporary account, or was in the wallet all along. -/
theorem le_balance_opening {w : Wallet} {old temporary : Pubkey} {required : ℤ}
    {before after : List CachedRouteLeg} {anchor first : CachedRouteLeg}
    (hanchored : Anchored route nativeInput before anchor after)
    (hs : s.Ready w (route.redirect old temporary) nativeInput required)
    (hfirst : first ∈ route.legs.head?)
    (hrequired : nativeInput = true → first.amountIn ≤ required - w.rent) :
    first.amountIn ≤ (opening w s required).balance first.hint.inputMint := by
  have hmint := hanchored.input_iff hfirst
  cases nativeInput with
  | true =>
      rw [hmint.2 rfl, balance, if_pos rfl]
      exact hrequired rfl
  | false =>
      have hin : first.hint.inputMint ≠ wsolTokenAccount :=
        fun hin => Bool.false_ne_true (hmint.1 hin)
      have hhead : first.redirect old temporary ∈ (route.redirect old temporary).legs.head? := by
        rw [PreparedCachedRoute.redirect, List.head?_map, Option.mem_def.1 hfirst]
        rfl
      have hinput : first.amountIn ≤ s.endpoint false first.hint.inputMint :=
        hs.input (first.redirect old temporary) hhead
      rw [endpoint, if_neg Bool.false_ne_true, balance, if_neg hin] at hinput
      rw [balance, if_neg hin]
      exact hinput

/-- Of wrapped SOL the swaps take what the first leg spends, if that is the native end. -/
theorem sum_tokenFlow_native {old temporary : Pubkey} {pending : List (CachedRouteLeg × ℤ)}
    {before after : List CachedRouteLeg} {anchor first : CachedRouteLeg}
    (hanchored : Anchored route true before anchor after) (htoken : ∀ p ∈ pending, InTokens p.1)
    (hpending : pending.map Prod.fst = route.legs.map (CachedRouteLeg.redirect old temporary))
    (hfirst : first ∈ route.legs.head?) :
    (pending.map tokenFlow).sum wsolTokenAccount = -first.amountIn := by
  obtain ⟨rfl, hin, hout⟩ := hanchored.native
  have hlegs := hanchored.legs
  rw [List.nil_append] at hlegs
  rw [hlegs] at hfirst
  obtain rfl := Option.some.inj hfirst
  rw [hlegs, List.map_cons] at hpending
  obtain ⟨p, rest, rfl, hp, hrest⟩ := List.map_eq_cons_iff.1 hpending
  obtain ⟨hfirstToken, hothers⟩ := List.forall_mem_cons.1 htoken
  have hinput : p.1.hint.inputMint = wsolTokenAccount := by rw [hp]; exact hin
  have houtput : p.1.hint.outputMint ≠ wsolTokenAccount := by rw [hp]; exact hout
  have hapart : ∀ q ∈ rest, ¬ TradesWsol q.1 := by
    intro q hq
    have hmem : q.1 ∈ rest.map Prod.fst := List.mem_map_of_mem hq
    rw [hrest] at hmem
    obtain ⟨other, hother, heq⟩ := List.mem_map.1 hmem
    rw [← heq]
    exact hanchored.others other hother
  rw [sum_tokenFlow_spent hfirstToken hothers hinput houtput hapart, hp]
  rfl

/-- What the last leg returns arrives at its end of the route. -/
theorem le_endpoint {before after : List CachedRouteLeg} {anchor last : CachedRouteLeg}
    {t : Ledger} {flow : Pubkey → ℤ}
    (hanchored : Anchored route nativeInput before anchor after)
    (hendpoint : nativeInput ≠ nativeOutput) (hlast : last ∈ route.legs.getLast?)
    (hflow : last.minimumNetAmountOut ≤ flow last.hint.outputMint)
    (hpaid : t.wallet = s.wallet + flow wsolTokenAccount)
    (hmoved : ∀ mint, mint ≠ wsolTokenAccount → t.tokens mint = s.tokens mint + flow mint) :
    s.endpoint nativeOutput last.hint.outputMint + last.minimumNetAmountOut ≤
      t.endpoint nativeOutput last.hint.outputMint := by
  have hmint := hanchored.output_iff hlast
  cases nativeOutput with
  | true =>
      rw [hmint.2 (Bool.eq_false_iff.2 hendpoint)] at hflow
      simp only [endpoint, if_true]
      omega
  | false =>
      have hout : last.hint.outputMint ≠ wsolTokenAccount := fun hout => hendpoint (hmint.1 hout)
      rw [endpoint, endpoint, if_neg Bool.false_ne_true, if_neg Bool.false_ne_true, balance,
        balance, if_neg hout, if_neg hout, hmoved _ hout]
      omega

/-- A route that is settled in native SOL runs through from the lamports that the settlement asks
for, without overdrawing on the way. The wallet's own wrapped SOL account is as it was, and what
the swaps bring of wrapped SOL the wallet gets, or pays, in lamports. -/
theorem settleCachedRouteWithNativeSol_solvent
    (hroute : prepareCachedRoute snapshot d hints r = .ok route)
    (h : settleCachedRouteWithNativeSol d route r.payer seed rent nativeInput nativeOutput = .ok n)
    (hown : ∀ leg ∈ route.legs,
      (∃ a ∈ leg.instruction.accounts, a.pubkey = d.wrappedSol r.payer) → TradesWsol leg)
    (hquotes : QuotesWsol snapshot) (hallow : r.allowPumpfunNativeSettlement = false)
    (hs : s.Ready (d.wallet r.payer seed exempt)
      (route.redirect (d.wrappedSol r.payer) (d.temporaryAccount r.payer seed)) nativeInput
      n.requiredLamports)
    (hrent : exempt ≤ rent) :
    ∃ t, s.runRedirected (d.wallet r.payer seed exempt) n.instructions = some t ∧
      (∀ k, ∃ u, s.runRedirected (d.wallet r.payer seed exempt) (n.instructions.take k) = some u ∧
        u.Covered (d.wallet r.payer seed exempt)) ∧
      t.pending = [] ∧ t.temporary = .absent ∧ t.wsol = s.wsol ∧
      t.wallet = s.wallet + (s.pending.map tokenFlow).sum wsolTokenAccount ∧
      (∀ mint, mint ≠ wsolTokenAccount →
        t.tokens mint = s.tokens mint + (s.pending.map tokenFlow).sum mint) ∧
      (∀ first ∈ route.legs.head?, nativeInput = true → t.wallet = s.wallet - first.amountIn) ∧
      ∀ last ∈ route.legs.getLast?, s.endpoint nativeOutput last.hint.outputMint +
        n.minimumNetAmountOut ≤ t.endpoint nativeOutput last.hint.outputMint := by
  obtain ⟨hendpoint, first, hfirst, hrequired, htemporary, hinstructions⟩ :=
    settleCachedRouteWithNativeSol_eq_ok h
  obtain ⟨-, -, hswaps, -, -⟩ := prepareCachedRoute_eq_ok hroute
  have hlinked := prepareCachedRoute_linked hroute
  have hbuilt := prepareCachedRoute_built hroute
  have htoken := prepareCachedRoute_inTokens hquotes hallow hroute
  have hchecks := settleCachedRouteWithNativeSol_checks h
  obtain ⟨before, anchor, after, hanchored⟩ := exists_anchored hlinked hchecks
  rw [htemporary] at hinstructions
  have hfunds : ((d.wallet r.payer seed exempt).rent : ℤ) ≤ n.requiredLamports := by
    have hpositive := hlinked.first_pos first hfirst
    show (exempt : ℤ) ≤ n.requiredLamports
    rw [hrequired]
    split <;> omega
  have hpending : s.pending.map Prod.fst = route.legs.map (CachedRouteLeg.redirect
    (d.wrappedSol r.payer) (d.temporaryAccount r.payer seed)) := hs.pending
  have hlegs : ∀ p ∈ s.pending, InTokens p.1 ∧
      (TradesTemporary (d.wallet r.payer seed exempt) p.1.instruction ∨ ¬ TradesWsol p.1) := by
    intro p hp
    obtain ⟨leg, hleg, heq⟩ := exists_leg_of_pending hpending hp
    rw [← heq]
    exact ⟨htoken leg hleg, named_redirect hlinked hbuilt hswaps hchecks hown hleg⟩
  have htokens : ∀ p ∈ s.pending, InTokens p.1 := fun p hp => (hlegs p hp).1
  have hopening := hs.covered.opening hs.required_le hfunds
  have hheld : ∀ leg ∈ route.legs.head?, leg.amountIn ≤
      (opening (d.wallet r.payer seed exempt) s n.requiredLamports).balance leg.hint.inputMint := by
    intro leg hleg
    obtain rfl := Option.some.inj (hfirst.symm.trans hleg)
    refine le_balance_opening hanchored hs hfirst fun hnative => ?_
    rw [hrequired, if_pos hnative]
    show first.amountIn ≤ rent + first.amountIn - exempt
    omega
  have hpools : ∀ ix ∈ route.swapInstructions.map (Route.redirect (d.wrappedSol r.payer)
      (d.temporaryAccount r.payer seed)), CallsPool ix := by
    rw [List.forall_mem_map, hswaps, List.forall_mem_map]
    exact hbuilt.pools
  obtain ⟨v, hrun, hexecuted⟩ := run_redirected_swaps hlinked hbuilt hswaps htoken hopening hpending
    hs.returns hheld
  obtain ⟨t, hsettled, hnone, habsent, hwsol, hpaid, hmoved⟩ := runRedirected_settled
    hchecks.seed_length hchecks.required hs.absent hs.required_le hfunds
    (fun ix hix => hbuilt.setup ix (List.mem_filter.1 hix).1) hpools
    (fun p hp => (hlegs p hp).2) htokens hrun hexecuted
  have hrunAll : s.runRedirected (d.wallet r.payer seed exempt) n.instructions = some t := by
    rw [hinstructions]
    exact hsettled
  refine ⟨t, hrunAll, hs.covered.takeRedirected hrunAll, hnone, habsent, hwsol, hpaid, hmoved,
    ?_, ?_⟩
  · rintro leg hleg rfl
    rw [hpaid, sum_tokenFlow_native hanchored htokens hpending hleg]
    rfl
  · intro last hlast
    have hflow := le_flow_last hlinked htokens hpending hs.returns hs.covered.returns_nonneg hlast
    rw [hchecks.minimum, hlinked.minimum_eq last hlast]
    exact le_endpoint hanchored hendpoint hlast hflow hpaid hmoved

end Solvency

/-! ### A native input through two pools, run -/

instance : DecidablePred TradesWsol := fun _ => inferInstanceAs (Decidable (_ ∨ _))

/-- The wallet has the lamports that the settlement asks for and nothing else; every swap returns
its minimum. -/
def nativeLedger (route : PreparedCachedRoute) (n : NativeSolRoute) : Ledger where
  wallet := n.requiredLamports
  wsol := ⟨2039280, 0⟩
  tokens _ := 0
  temporary := .absent
  pending := route.legs.map fun leg => (leg, leg.minimumNetAmountOut)

theorem settleCachedRouteWithNativeSol_solvent_twoPools :
    ∃ route n t, settledSample (sampleKey 7) = .ok (route, n) ∧
      (nativeLedger (route.redirect (sampleKey 7) (sampleKey 4)) n).runRedirected
        ((sampleDerivation (sampleKey 7)).wallet (sampleKey 3) "seed" 2039280) n.instructions =
          some t ∧
      t.wallet = n.requiredLamports - 10000 ∧ t.wsol = ⟨2039280, 0⟩ := by
  obtain ⟨_, h⟩ := exists_of_isOk (show (settledSample (sampleKey 7) >>= fun settled =>
    require ((∀ leg ∈ settled.1.legs, (∃ a ∈ leg.instruction.accounts, a.pubkey = sampleKey 7) →
        TradesWsol leg) ∧ settled.1.legs.head?.map (·.amountIn) = some 10000 ∧
        settled.2.requiredLamports = 2049280 ∧
        ∀ leg ∈ settled.1.legs, 0 ≤ leg.minimumNetAmountOut) RouteError.packRange).isOk
      by decide +kernel)
  obtain ⟨⟨route, n⟩, hsettled, hchecked⟩ := bind_eq_ok.1 h
  obtain ⟨hown, hamount, hrequired, hminimum⟩ := require_eq_ok.1 hchecked
  obtain ⟨hroute, hsettle⟩ := settledSample_eq_ok hsettled
  obtain ⟨first, hfirst, hspent⟩ := Option.map_eq_some_iff.1 hamount
  simp only at hfirst hspent hrequired hminimum
  have hready : (nativeLedger (route.redirect (sampleKey 7) (sampleKey 4)) n).Ready
      ((sampleDerivation (sampleKey 7)).wallet (sampleKey 3) "seed" 2039280)
      (route.redirect (sampleKey 7) (sampleKey 4)) true n.requiredLamports := by
    refine ⟨⟨?_, ⟨le_rfl, ?_⟩, fun _ _ => le_rfl, trivial, ?_⟩, rfl, ?_, ?_, ?_, le_rfl⟩
    · show 0 ≤ n.requiredLamports
      omega
    · show ((2039280 : ℕ) : ℤ) + 0 ≤ 2039280
      norm_num
    · show ∀ p ∈ ((route.redirect (sampleKey 7) (sampleKey 4)).legs.map fun leg =>
        (leg, leg.minimumNetAmountOut)), 0 ≤ p.2
      rw [List.forall_mem_map, PreparedCachedRoute.redirect, List.forall_mem_map]
      exact hminimum
    · show ((route.redirect _ _).legs.map _).map Prod.fst = _
      rw [List.map_map]
      exact List.map_id _
    · show ∀ p ∈ ((route.redirect _ _).legs.map fun leg => (leg, leg.minimumNetAmountOut)),
        p.1.minimumNetAmountOut ≤ p.2
      rw [List.forall_mem_map]
      exact fun leg _ => le_rfl
    · intro leg hleg
      rw [PreparedCachedRoute.redirect, List.head?_map, hfirst] at hleg
      obtain rfl := Option.some.inj hleg
      show first.amountIn ≤ n.requiredLamports
      omega
  obtain ⟨t, hrun, -, -, -, hwsol, -, -, hpaid, -⟩ := settleCachedRouteWithNativeSol_solvent hroute
    hsettle (by rwa [sampleDerivation_wrappedSol])
    (fun hint c hread => absurd hread (by simp [twoPools])) rfl
    (by rw [sampleDerivation_wrappedSol]; exact hready) le_rfl
  refine ⟨route, n, t, hsettled, hrun, ?_, hwsol⟩
  rw [hpaid first hfirst rfl, hspent]
  rfl

end SolTrade.Route
