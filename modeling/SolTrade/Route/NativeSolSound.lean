import SolTrade.Route.RouteSound

/-!
A route settled in native SOL leaves the wallet's own wrapped SOL account alone.

The swaps keep their order, their programs, their data and the flags of their
accounts; they differ in the redirected account only. The temporary account is opened
before and closed after everything that could use it.
-/

namespace SolTrade.Route

open Library

/-- The instruction calls the address or passes it. -/
def Refers (key : Pubkey) (ix : Instruction) : Prop :=
  ix.programId = key ∨ ∃ a ∈ ix.accounts, a.pubkey = key

/-- The instruction with the occurrences of `old` among its accounts replaced. -/
structure Redirected (old temporary : Pubkey) (ix ix' : Instruction) : Prop where
  programId_eq : ix'.programId = ix.programId
  data_eq : ix'.data = ix.data
  accounts : List.Forall₂ (fun a a' : AccountMeta =>
    a'.isSigner = a.isSigner ∧ a'.isWritable = a.isWritable ∧
      a'.pubkey = if a.pubkey = old then temporary else a.pubkey) ix.accounts ix'.accounts

section Redirect

variable {payer old temporary : Pubkey} {ix : Instruction} {ixs swaps : List Instruction}
  {replaced replaced' : Bool}

theorem redirect_redirected (old temporary : Pubkey) (ix : Instruction) :
    Redirected old temporary ix (redirect old temporary ix) := by
  refine ⟨rfl, rfl, ?_⟩
  show List.Forall₂ _ ix.accounts (ix.accounts.map (redirectMeta old temporary))
  rw [List.forall₂_map_right_iff, List.forall₂_same]
  exact fun a _ => ⟨rfl, rfl, rfl⟩

theorem redirect_not_refers (hne : temporary ≠ old) (hprogram : ix.programId ≠ old) :
    ¬ Refers old (redirect old temporary ix) := by
  rintro (h | ⟨a', ha', h⟩)
  · exact hprogram h
  · obtain ⟨a, -, rfl⟩ := List.mem_map.1 ha'
    simp only [redirectMeta] at h
    split at h
    · exact hne h
    · contradiction

theorem redirectSwaps_eq
    (h : redirectSwaps payer old temporary ixs replaced = .ok (swaps, replaced')) :
    swaps = ixs.map (redirect old temporary) := by
  induction ixs generalizing swaps replaced with
  | nil =>
      rw [redirectSwaps, pure_eq_ok, Prod.mk.injEq] at h
      exact h.1.symm
  | cons ix ixs ih =>
      rw [redirectSwaps] at h
      obtain ⟨_, -, h⟩ := bind_eq_ok.1 h
      obtain ⟨⟨rest, last⟩, hrest, h⟩ := bind_eq_ok.1 h
      rw [pure_eq_ok, Prod.mk.injEq] at h
      obtain ⟨rfl, rfl⟩ := h
      rw [List.map_cons, ih hrest]

end Redirect

/-- The addresses that do not depend on the route. -/
def fixedAddresses : List Pubkey :=
  [systemProgram, tokenProgram, associatedTokenProgram, wsolTokenAccount] ++ swapPrograms

/-- The wallet's wrapped SOL account is not the wallet, nor another token account of it,
nor the temporary account. -/
structure Derivation.Apart (d : Derivation) (payer : Pubkey) (seed : String) : Prop where
  payer_ne : d.wrappedSol payer ≠ payer
  accounts : ∀ mint program, d.associatedTokenAddress payer mint program = d.wrappedSol payer →
    mint = wsolTokenAccount ∧ program = tokenProgram
  temporary_ne : d.temporaryAccount payer seed ≠ d.wrappedSol payer

/-- An address that is no account of a token: no mint of the route, no program that
owns one, and none of the fixed addresses. -/
structure Outside (snapshot : RouteSnapshot) (hints : List PoolTradeHint) (key : Pubkey) :
    Prop where
  mints : key ∉ routeMints hints
  owners : ∀ mint ∈ routeMints hints, snapshot.owner mint ≠ .ok key
  fixed : key ∉ fixedAddresses

section Settle

variable {snapshot : RouteSnapshot} {d : Derivation} {hints : List PoolTradeHint}
  {r : RouteRequest} {route : PreparedCachedRoute} {seed : String} {rentLamports : ℤ}
  {nativeInput nativeOutput : Bool} {n : NativeSolRoute}

/-- The setup of a prepared route creates the accounts of its mints. -/
theorem setup_not_refers (hroute : prepareCachedRoute snapshot d hints r = .ok route)
    (hapart : d.Apart r.payer seed) (houtside : Outside snapshot hints (d.wrappedSol r.payer))
    {ix : Instruction} (hix : ix ∈ route.setupInstructions)
    (hcreates : ¬ Creates (d.wrappedSol r.payer) ix) : ¬ Refers (d.wrappedSol r.payer) ix := by
  obtain ⟨-, -, -, -, hsetup⟩ := prepareCachedRoute_eq_ok hroute
  obtain ⟨mint, hmint, program, howner, rfl⟩ : ∃ mint ∈ routeMints hints, ∃ program,
      snapshot.owner mint = .ok program ∧
        createAssociatedTokenAccountIdempotent d r.payer r.payer mint program = ix :=
    exists_of_forall₂ hsetup hix
  have hfixed := houtside.fixed
  simp only [fixedAddresses, List.mem_append, List.mem_cons, not_or] at hfixed
  have hmint' : mint ≠ d.wrappedSol r.payer := fun heq => houtside.mints (heq ▸ hmint)
  have hprogram : program ≠ d.wrappedSol r.payer := by
    rintro rfl
    exact houtside.owners mint hmint howner
  have haccount : d.associatedTokenAddress r.payer mint program ≠ d.wrappedSol r.payer := by
    intro heq
    exact hcreates ⟨rfl, congrArg some heq⟩
  have hpayer := hapart.payer_ne
  rintro (h | ⟨a, ha, h⟩)
  · exact hfixed.1.2.2.1 h.symm
  · simp only [createAssociatedTokenAccountIdempotent, List.mem_cons, List.not_mem_nil,
      or_false] at ha
    rcases ha with rfl | rfl | rfl | rfl | rfl | rfl
    · exact hpayer h.symm
    · exact haccount h
    · exact hpayer h.symm
    · exact hmint' h
    · exact hfixed.1.1 h.symm
    · exact hprogram h

theorem checkNativeSolRoute_first {first last : CachedRouteLeg}
    (h : checkNativeSolRoute route = .ok (first, last)) : route.legs.head? = some first := by
  simp only [checkNativeSolRoute, bind_eq_ok] at h
  obtain ⟨_, -, _, -, _, -, h⟩ := h
  split at h
  · rename_i hfirst _
    simp only [bind_eq_ok, pure_eq_ok, Prod.mk.injEq] at h
    obtain ⟨_, -, rfl, -⟩ := h
    exact hfirst
  · cases h

/-- What settling a route does, beyond its checks. -/
theorem settleCachedRouteWithNativeSol_eq_ok
    (h : settleCachedRouteWithNativeSol d route r.payer seed rentLamports nativeInput nativeOutput =
      .ok n) :
    nativeInput ≠ nativeOutput ∧
      ∃ first, route.legs.head? = some first ∧
        n.requiredLamports = rentLamports + (if nativeInput then first.amountIn else 0) ∧
        n.temporaryWsolAccount = d.temporaryAccount r.payer seed ∧
        n.instructions =
          createTemporary r.payer n.temporaryWsolAccount seed n.requiredLamports ::
          initializeTemporary r.payer n.temporaryWsolAccount ::
          (syncNative n.temporaryWsolAccount ::
            (route.setupInstructions.filter (fun ix => ¬ Creates (d.wrappedSol r.payer) ix)) ++
            route.swapInstructions.map (redirect (d.wrappedSol r.payer) n.temporaryWsolAccount)) ++
          [closeTemporary r.payer n.temporaryWsolAccount] := by
  rw [settleCachedRouteWithNativeSol] at h
  obtain ⟨_, hendpoint, h⟩ := bind_eq_ok.1 h
  obtain ⟨⟨first, last⟩, hchecked, h⟩ := bind_eq_ok.1 h
  simp only [bind_eq_ok, require_eq_ok, unsigned_eq_ok, pure_eq_ok] at h
  obtain ⟨_, -, _, -, _, -, _, -, _, ⟨-, rfl⟩, _, htemporary, ⟨swaps, replaced⟩, hswaps, _, -,
    rfl⟩ := h
  refine ⟨require_eq_ok.1 hendpoint, first, checkNativeSolRoute_first hchecked, rfl, rfl, ?_⟩
  rw [redirectSwaps_eq hswaps]
  rfl

/-- The instructions on the temporary account pass it, the wallet and the mint. -/
theorem temporary_not_refers (hapart : d.Apart r.payer seed)
    (houtside : Outside snapshot hints (d.wrappedSol r.payer)) {ix : Instruction} {lamports : ℤ}
    (h : ix ∈ [createTemporary r.payer (d.temporaryAccount r.payer seed) seed lamports,
      initializeTemporary r.payer (d.temporaryAccount r.payer seed),
      syncNative (d.temporaryAccount r.payer seed),
      closeTemporary r.payer (d.temporaryAccount r.payer seed)]) :
    ¬ Refers (d.wrappedSol r.payer) ix := by
  have hpayer := hapart.payer_ne.symm
  have htemporary := hapart.temporary_ne
  have hfixed := houtside.fixed
  simp only [fixedAddresses, List.mem_append, List.mem_cons, not_or] at hfixed
  have hsystem := Ne.symm hfixed.1.1
  have htoken := Ne.symm hfixed.1.2.1
  have hmint := Ne.symm hfixed.1.2.2.2.1
  simp only [List.mem_cons, List.not_mem_nil, or_false] at h
  rcases h with rfl | rfl | rfl | rfl
  · simp [Refers, createTemporary, hsystem, hpayer, htemporary]
  · simp [Refers, initializeTemporary, htoken, hmint, htemporary]
  · simp [Refers, syncNative, htoken, htemporary]
  · simp [Refers, closeTemporary, htoken, hpayer, htemporary]

theorem swap_programId_ne (hroute : prepareCachedRoute snapshot d hints r = .ok route)
    (houtside : Outside snapshot hints (d.wrappedSol r.payer)) :
    ∀ ix ∈ route.swapInstructions, ix.programId ≠ d.wrappedSol r.payer := by
  obtain ⟨-, hchain, hswaps, -⟩ := prepareCachedRoute_eq_ok hroute
  rw [hswaps, List.forall_mem_map]
  intro leg hleg heq
  obtain ⟨_, _, hspec⟩ := hchain.leg_spec leg hleg
  exact houtside.fixed (List.mem_append_right _ (heq ▸ hspec.program))

/-- The wallet's wrapped SOL account is left alone, the swaps are redirected and nothing
else about them changes, the temporary account is opened first and closed last, and
the lamports pay for the rent and a native input. -/
theorem settleCachedRouteWithNativeSol_frame
    (hroute : prepareCachedRoute snapshot d hints r = .ok route)
    (h : settleCachedRouteWithNativeSol d route r.payer seed rentLamports nativeInput nativeOutput =
      .ok n)
    (hapart : d.Apart r.payer seed) (houtside : Outside snapshot hints (d.wrappedSol r.payer)) :
    (∀ ix ∈ n.instructions, ¬ Refers (d.wrappedSol r.payer) ix) ∧
      (∃ setup swaps, setup.Sublist route.setupInstructions ∧
        List.Forall₂ (Redirected (d.wrappedSol r.payer) n.temporaryWsolAccount)
          route.swapInstructions swaps ∧
        n.instructions =
          createTemporary r.payer n.temporaryWsolAccount seed n.requiredLamports ::
          initializeTemporary r.payer n.temporaryWsolAccount ::
          (syncNative n.temporaryWsolAccount :: setup ++ swaps) ++
          [closeTemporary r.payer n.temporaryWsolAccount]) ∧
      ∃ first, route.legs.head? = some first ∧
        (nativeInput = true → n.requiredLamports = rentLamports + first.amountIn) ∧
        (nativeOutput = true → n.requiredLamports = rentLamports) := by
  obtain ⟨hendpoint, first, hfirst, hrequired, htemporary, hinstructions⟩ :=
    settleCachedRouteWithNativeSol_eq_ok h
  refine ⟨?_, ⟨_, _, List.filter_sublist, ?_, hinstructions⟩, first, hfirst, ?_, ?_⟩
  · intro ix hix
    rw [hinstructions, htemporary] at hix
    simp only [List.mem_append, List.mem_cons, List.not_mem_nil, or_false] at hix
    have hopen : ix ∈ [createTemporary r.payer _ seed n.requiredLamports,
        initializeTemporary r.payer _, syncNative _, closeTemporary r.payer _] →
        ¬ Refers (d.wrappedSol r.payer) ix := temporary_not_refers hapart houtside
    simp only [List.mem_cons, List.not_mem_nil, or_false] at hopen
    rcases hix with (hix | hix | (hix | hix) | hix) | hix
    · exact hopen (.inl hix)
    · exact hopen (.inr (.inl hix))
    · exact hopen (.inr (.inr (.inl hix)))
    · obtain ⟨hsetup, hcreates⟩ := List.mem_filter.1 hix
      exact setup_not_refers hroute hapart houtside hsetup (of_decide_eq_true hcreates)
    · obtain ⟨swap, hswap, rfl⟩ := List.mem_map.1 hix
      exact redirect_not_refers hapart.temporary_ne
        (swap_programId_ne hroute houtside swap hswap)
    · exact hopen (.inr (.inr (.inr hix)))
  · rw [List.forall₂_map_right_iff, List.forall₂_same]
    exact fun ix _ => redirect_redirected _ _ ix
  · rintro rfl
    exact hrequired
  · rintro rfl
    obtain rfl : nativeInput = false := Bool.eq_false_iff.2 hendpoint
    rw [hrequired]
    exact add_zero _

end Settle

/-! ### A native input through two pools -/

instance (key : Pubkey) : DecidablePred (Refers key) :=
  fun _ => inferInstanceAs (Decidable (_ ∨ _))

/-- The wallet's wrapped SOL account is `old`; every other account is another. -/
def sampleDerivation (old : Pubkey) : Derivation where
  associatedTokenAddress _ mint program :=
    if mint = wsolTokenAccount ∧ program = tokenProgram then old else sampleKey 9
  temporaryAccount _ _ := sampleKey 4

theorem sampleDerivation_wrappedSol (old payer : Pubkey) :
    (sampleDerivation old).wrappedSol payer = old := by
  simp [Derivation.wrappedSol, sampleDerivation]

theorem sampleDerivation_apart {old : Pubkey} (hpayer : old ≠ sampleRequest.payer)
    (haccount : old ≠ sampleKey 9) (htemporary : old ≠ sampleKey 4) :
    (sampleDerivation old).Apart sampleRequest.payer "seed" := by
  constructor
  · rwa [sampleDerivation_wrappedSol]
  · intro mint program h
    rw [sampleDerivation_wrappedSol, sampleDerivation] at h
    by_contra hother
    exact haccount (h.symm.trans (if_neg hother))
  · rw [sampleDerivation_wrappedSol]
    exact htemporary.symm

/-- The sample route, settled with a native input. -/
def settledSample (old : Pubkey) : Except RouteError (PreparedCachedRoute × NativeSolRoute) := do
  let d := sampleDerivation old
  let route ← prepareCachedRoute (twoPools d (sampleKey 5)) d (twoHops (sampleKey 5) (sampleKey 6))
    sampleRequest
  let n ← settleCachedRouteWithNativeSol d route sampleRequest.payer "seed" 2039280 true false
  return (route, n)

theorem settledSample_eq_ok {old : Pubkey} {route : PreparedCachedRoute} {n : NativeSolRoute}
    (h : settledSample old = .ok (route, n)) :
    prepareCachedRoute (twoPools (sampleDerivation old) (sampleKey 5)) (sampleDerivation old)
        (twoHops (sampleKey 5) (sampleKey 6)) sampleRequest = .ok route ∧
      settleCachedRouteWithNativeSol (sampleDerivation old) route sampleRequest.payer "seed"
        2039280 true false = .ok n := by
  simp only [settledSample, bind_eq_ok, lift_eq_ok, pure_eq_ok, Prod.mk.injEq] at h
  obtain ⟨_, hroute, _, hsettle, rfl, rfl⟩ := h
  exact ⟨hroute, hsettle⟩

/-- The wallet's wrapped SOL account is left alone when it is no mint of the route. -/
theorem settleCachedRouteWithNativeSol_frame_twoPools :
    ∃ route n, settledSample (sampleKey 7) = .ok (route, n) ∧
      ∀ ix ∈ n.instructions, ¬ Refers (sampleKey 7) ix := by
  obtain ⟨⟨route, n⟩, h⟩ :=
    exists_of_isOk (show (settledSample (sampleKey 7)).isOk by decide +kernel)
  obtain ⟨hroute, hsettle⟩ := settledSample_eq_ok h
  have hold := sampleDerivation_wrappedSol (sampleKey 7) sampleRequest.payer
  have houtside : Outside (twoPools (sampleDerivation (sampleKey 7)) (sampleKey 5))
      (twoHops (sampleKey 5) (sampleKey 6)) (sampleKey 7) :=
    ⟨by decide +kernel, by decide +kernel, by decide +kernel⟩
  refine ⟨route, n, h, ?_⟩
  have hframe := settleCachedRouteWithNativeSol_frame hroute hsettle
    (sampleDerivation_apart (by decide) (by decide) (by decide)) (by rwa [hold])
  rw [hold] at hframe
  exact hframe.1

/-- An address apart from the wallet, its other accounts and the temporary account can
still be a mint of the route, which the setup passes. -/
theorem settled_refers_mint :
    ∃ route n, settledSample (sampleKey 5) = .ok (route, n) ∧
      (sampleDerivation (sampleKey 5)).Apart sampleRequest.payer "seed" ∧
      (sampleDerivation (sampleKey 5)).wrappedSol sampleRequest.payer = sampleKey 5 ∧
      ∃ ix ∈ n.instructions, Refers (sampleKey 5) ix := by
  obtain ⟨_, h⟩ := exists_of_isOk (show (settledSample (sampleKey 5) >>= fun settled =>
    require (∃ ix ∈ settled.2.instructions, Refers (sampleKey 5) ix) RouteError.packRange).isOk
      by decide +kernel)
  obtain ⟨⟨route, n⟩, hsettled, hrefers⟩ := bind_eq_ok.1 h
  exact ⟨route, n, hsettled, sampleDerivation_apart (by decide) (by decide) (by decide),
    sampleDerivation_wrappedSol _ _, require_eq_ok.1 hrefers⟩

end SolTrade.Route
