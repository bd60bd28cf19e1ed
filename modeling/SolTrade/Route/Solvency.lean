import Mathlib.Algebra.BigOperators.Pi
import Mathlib.Algebra.Order.BigOperators.Group.List
import SolTrade.Route.Execution
import SolTrade.Route.RouteSound

/-!
Settled routes are solvent.

Executed from a wallet that holds the input and the required lamports, the
instructions overdraw nothing. Each conversion moves what its curve leg takes or
protects, and stands where that leg's side of the route is in lamports.
-/

namespace SolTrade.Route

open Library Ledger

/-! ### What a settlement returns -/

/-- Both amounts of a leg are positive and in the range of an unsigned integer. -/
structure CachedRouteLeg.Positive (leg : CachedRouteLeg) : Prop where
  amount : 0 < leg.amountIn ∧ leg.amountIn ≤ u64
  minimum : 0 < leg.minimumNetAmountOut ∧ leg.minimumNetAmountOut ≤ u64

/-- The settlements of one curve leg, by its direction and the native endpoints. -/
inductive CurveSettlement (d : Derivation) (payer : Pubkey) (seed : String) (rent : ℤ)
    (leg : CachedRouteLeg) (setup : List Instruction) :
    Bool → Bool → List Instruction → ℤ → Prop
  | nativePurchase {keep : List Instruction} (hin : leg.hint.inputMint = wsolTokenAccount)
      (hkeep : keep ⊆ setup) :
      CurveSettlement d payer seed rent leg setup true false (keep ++ [leg.instruction])
        leg.amountIn
  | nativeSale {keep : List Instruction} (hout : leg.hint.outputMint = wsolTokenAccount)
      (hkeep : keep ⊆ setup) :
      CurveSettlement d payer seed rent leg setup false true (keep ++ [leg.instruction]) 0
  | sale (hout : leg.hint.outputMint = wsolTokenAccount) :
      CurveSettlement d payer seed rent leg setup false false
        (setup ++ [leg.instruction] ++
          [fundAccount payer (d.wrappedSol payer) leg.minimumNetAmountOut,
            syncNative (d.wrappedSol payer)]) 0
  | purchase {keep : List Instruction} (hin : leg.hint.inputMint = wsolTokenAccount)
      (hseed : (encodeSeed seed).length ≤ 32) (hrent : 0 ≤ rent ∧ rent ≤ u64)
      (hkeep : keep ⊆ setup) :
      CurveSettlement d payer seed rent leg setup false false
        ([createTemporary payer (d.temporaryAccount payer seed) seed rent,
          initializeTemporary payer (d.temporaryAccount payer seed),
          transferToTemporary payer (d.wrappedSol payer) (d.temporaryAccount payer seed)
            leg.amountIn,
          closeTemporary payer (d.temporaryAccount payer seed)] ++ keep ++ [leg.instruction]) rent

section Settle

variable {d : Derivation} {route : PreparedCachedRoute} {payer : Pubkey} {leg : CachedRouteLeg}
  {nativeInput nativeOutput : Bool} {seed : String} {rent required residual : ℤ}
  {instructions : List Instruction}

theorem validateSettlementInstructions_eq_ok {u : Unit}
    (h : validateSettlementInstructions route payer = .ok u) :
    route.swapInstructions = route.legs.map (·.instruction) ∧
      (∀ leg ∈ route.legs, leg.Positive) ∧
      ∀ last ∈ route.legs.getLast?, route.minimumNetAmountOut = last.minimumNetAmountOut := by
  simp only [validateSettlementInstructions, checkSettlementLeg, bind_eq_ok, forM_eq_ok,
    require_eq_ok, unsigned_eq_ok] at h
  obtain ⟨_, hlength, _, hlegs, hlast⟩ := h
  have hpairs : List.Forall₂ (fun leg ix => leg.Positive ∧ leg.instruction = ix) route.legs
      route.swapInstructions := by
    refine List.forall₂_iff_zip.2 ⟨hlength.symm, fun {leg ix} hmem => ?_⟩
    obtain ⟨_, hix, _, -, _, ⟨hamount, -⟩, _, ⟨hminimum, -⟩, hpos⟩ := hlegs (leg, ix) hmem
    rw [not_or] at hpos
    dsimp only at hamount hminimum hpos hix
    exact ⟨⟨⟨by omega, hamount.2⟩, ⟨by omega, hminimum.2⟩⟩, hix.symm⟩
  obtain ⟨hpositive, hswaps⟩ := (List.forall₂_and_left _ _).1 hpairs
  rw [← List.forall₂_map_left_iff, List.forall₂_eq_eq_eq] at hswaps
  exact ⟨hswaps.symm, hpositive, hlast⟩

theorem settleCurve_eq_ok (hlegs : route.legs = [leg])
    (h : settleCurve d route leg payer nativeInput nativeOutput seed rent =
      .ok (instructions, required, residual)) :
    isCurve leg = true ∧
      (leg.hint.inputMint = wsolTokenAccount ↔ leg.hint.outputMint ≠ wsolTokenAccount) ∧
      leg.Positive ∧ route.minimumNetAmountOut = leg.minimumNetAmountOut ∧
      CurveSettlement d payer seed rent leg route.setupInstructions nativeInput nativeOutput
        instructions required := by
  simp only [settleCurve] at h
  obtain ⟨_, hcurve, h⟩ := bind_eq_ok.1 h
  obtain ⟨_, hvalid, h⟩ := bind_eq_ok.1 h
  obtain ⟨_, -, h⟩ := bind_eq_ok.1 h
  obtain ⟨_, hendpoint, h⟩ := bind_eq_ok.1 h
  rw [require_eq_ok, not_or, not_not] at hcurve
  rw [require_eq_ok] at hendpoint
  obtain ⟨hswaps, hpositive, hlast⟩ := validateSettlementInstructions_eq_ok hvalid
  rw [hlegs] at hswaps hpositive hlast
  have hminimum := hlast leg rfl
  have hsides : leg.hint.inputMint = wsolTokenAccount ↔ leg.hint.outputMint ≠ wsolTokenAccount := by
    tauto
  refine ⟨decide_eq_true hcurve.1, hsides, hpositive leg List.mem_cons_self, hminimum, ?_⟩
  rw [hswaps, hminimum] at h
  have hkeep : route.setupInstructions.filter (fun ix => ¬ Creates (d.wrappedSol payer) ix) ⊆
      route.setupInstructions := List.filter_subset_self _
  by_cases hin : leg.hint.inputMint = wsolTokenAccount
  · simp only [hin, decide_true, if_true, true_and, Bool.true_eq_false, if_false, false_and]
      at h hendpoint
    rw [hendpoint]
    split at h
    · rename_i hnative
      simp only [pure_eq_ok, Prod.mk.injEq] at h
      obtain ⟨rfl, rfl, -⟩ := h
      rw [hnative]
      exact .nativePurchase hin hkeep
    · rename_i hnative
      simp only [bind_eq_ok, unsigned_eq_ok, require_eq_ok, pure_eq_ok, Prod.mk.injEq] at h
      obtain ⟨_, ⟨hrent, -⟩, _, hseed, _, -, rfl, rfl, -⟩ := h
      rw [Bool.eq_false_iff.2 hnative]
      exact .purchase hin (by tauto) hrent hkeep
  · have hout : leg.hint.outputMint = wsolTokenAccount := by tauto
    simp only [hin, decide_false, Bool.false_eq_true, if_false, if_true, false_and, true_and]
      at h hendpoint
    rw [hendpoint]
    split at h
    · rename_i hnative
      simp only [pure_eq_ok, Prod.mk.injEq] at h
      obtain ⟨rfl, rfl, -⟩ := h
      rw [hnative]
      exact .nativeSale hout hkeep
    · rename_i hnative
      split at h
      · cases h
      · obtain ⟨_, -, h⟩ := bind_eq_ok.1 h
        simp only [pure_eq_ok, Prod.mk.injEq] at h
        obtain ⟨rfl, rfl, -⟩ := h
        rw [Bool.eq_false_iff.2 hnative]
        exact .sale hout

/-- The curve leg of a longer route, and the legs around it. -/
theorem filter_zipIdx_singleton {legs : List CachedRouteLeg} {start index : ℕ}
    (h : (legs.zipIdx start).filter (fun p => isCurve p.1) = [(leg, index)]) :
    ∃ before after, legs = before ++ leg :: after ∧ index = start + before.length ∧
      isCurve leg = true ∧ ∀ other ∈ before ++ after, isCurve other = false := by
  induction legs generalizing start with
  | nil => cases h
  | cons first rest ih =>
      rw [List.zipIdx_cons, List.filter_cons] at h
      split at h
      · rename_i hfirst
        obtain ⟨hpair, hrest⟩ := List.cons_eq_cons.1 h
        obtain ⟨rfl, rfl⟩ := Prod.mk.inj hpair
        refine ⟨[], rest, rfl, rfl, hfirst, fun other hother => ?_⟩
        rw [List.nil_append, ← List.zipIdx_map_fst (start + 1) rest] at hother
        obtain ⟨p, hp, rfl⟩ := List.mem_map.1 hother
        exact Bool.eq_false_iff.2 (List.filter_eq_nil_iff.1 hrest p hp)
      · rename_i hfirst
        obtain ⟨before, after, rfl, rfl, hleg, hothers⟩ := ih h
        refine ⟨first :: before, after, rfl, ?_, hleg, ?_⟩
        · rw [List.length_cons]
          omega
        · exact List.forall_mem_cons.2 ⟨Bool.eq_false_iff.2 hfirst, hothers⟩

theorem findAnchor_eq_ok {legs : List CachedRouteLeg} {buy : Bool}
    (h : findAnchor legs = .ok (leg, buy)) :
    ∃ before after, legs = before ++ leg :: after ∧ isCurve leg = true ∧
      (∀ other ∈ before ++ after, isCurve other = false) ∧
      (buy = true → after = []) ∧ (buy = false → before = []) := by
  unfold findAnchor at h
  split at h
  · rename_i anchor index hfilter
    obtain ⟨_, hends, h⟩ := bind_eq_ok.1 h
    rw [require_eq_ok] at hends
    rw [pure_eq_ok, Prod.mk.injEq] at h
    obtain ⟨rfl, rfl⟩ := h
    obtain ⟨before, after, rfl, hindex, hcurve, hothers⟩ := filter_zipIdx_singleton hfilter
    rw [List.length_append, List.length_cons] at hends ⊢
    refine ⟨before, after, rfl, hcurve, hothers, fun hbuy => ?_, fun hsell => ?_⟩
    · rw [beq_iff_eq] at hbuy
      exact List.length_eq_zero_iff.1 (by omega)
    · rw [beq_eq_false_iff_ne] at hsell
      exact List.length_eq_zero_iff.1 (by omega)
  · cases h

/-- The settlements of a route: the curve leg's, between the swaps of the other legs. -/
inductive RouteSettlement (d : Derivation) (payer : Pubkey) (seed : String) (rent : ℤ)
    (route : PreparedCachedRoute) (nativeInput nativeOutput : Bool) :
    List Instruction → ℤ → Prop
  | intro {before after : List CachedRouteLeg} {anchor : CachedRouteLeg}
      {first middle converted : List Instruction} {required : ℤ}
      (hlegs : route.legs = before ++ anchor :: after)
      (htoken : ∀ leg ∈ before ++ after, isCurve leg = false) (hcurve : isCurve anchor = true)
      (hsides : anchor.hint.inputMint = wsolTokenAccount ↔
        anchor.hint.outputMint ≠ wsolTokenAccount)
      (hpositive : ∀ leg ∈ route.legs, leg.Positive) (hcontinues : route.legs.IsChain Continues)
      (hminimum : ∀ last ∈ route.legs.getLast?,
        route.minimumNetAmountOut = last.minimumNetAmountOut)
      (hends : before ++ after = [] ∨ (nativeInput = false ∧ nativeOutput = false))
      (hfirst : first ⊆ route.setupInstructions) (hmiddle : middle ⊆ route.setupInstructions)
      (hconverted : CurveSettlement d payer seed rent anchor middle nativeInput nativeOutput
        converted required) :
      RouteSettlement d payer seed rent route nativeInput nativeOutput
        (first ++ before.map (·.instruction) ++ converted ++ after.map (·.instruction)) required

theorem settleMultiHop_eq_ok
    (h : settleMultiHop d route payer nativeInput nativeOutput seed rent =
      .ok (instructions, required, residual)) :
    RouteSettlement d payer seed rent route nativeInput nativeOutput instructions required := by
  obtain ⟨_, hshape, h⟩ := bind_eq_ok.1 h
  obtain ⟨⟨anchor, buy⟩, hanchor, h⟩ := bind_eq_ok.1 h
  obtain ⟨_, -, h⟩ := bind_eq_ok.1 h
  obtain ⟨_, hchain, h⟩ := bind_eq_ok.1 h
  obtain ⟨_, hvalid, h⟩ := bind_eq_ok.1 h
  obtain ⟨⟨converted, required', residual'⟩, hsettle, h⟩ := bind_eq_ok.1 h
  rw [require_eq_ok] at hshape hchain
  obtain ⟨hcurve, hsides, -, -, hconverted⟩ := settleCurve_eq_ok rfl hsettle
  obtain ⟨hswaps, hpositive, hlast⟩ := validateSettlementInstructions_eq_ok hvalid
  obtain ⟨before, after, hlegs, -, htoken, hbuy, hsell⟩ := findAnchor_eq_ok hanchor
  have hcontinues : route.legs.IsChain Continues := hchain.imp fun _ _ h => ⟨h.1, h.2.2⟩
  rw [not_or, not_or] at hshape
  have hnative : nativeInput = false ∧ nativeOutput = false :=
    ⟨Bool.eq_false_iff.2 hshape.2.1, Bool.eq_false_iff.2 hshape.2.2⟩
  have hanchored : CurveSettlement d payer seed rent anchor [] nativeInput nativeOutput converted
      required' := by
    rw [hnative.1, hnative.2]
    exact hconverted
  have hsettled := RouteSettlement.intro hlegs htoken hcurve hsides hpositive hcontinues hlast
    (.inr hnative) (List.Subset.refl _) (List.nil_subset _) hanchored
  dsimp only at h
  cases buy with
  | true =>
      obtain rfl := hbuy rfl
      rw [if_pos rfl, pure_eq_ok, Prod.mk.injEq, Prod.mk.injEq, hswaps, hlegs] at h
      obtain ⟨rfl, rfl, -⟩ := h
      simpa using hsettled
  | false =>
      obtain rfl := hsell rfl
      rw [if_neg Bool.false_ne_true, pure_eq_ok, Prod.mk.injEq, Prod.mk.injEq, hswaps, hlegs] at h
      obtain ⟨rfl, rfl, -⟩ := h
      simpa using hsettled

theorem settlePumpfunNativeQuote_eq_ok
    (h : settlePumpfunNativeQuote d route payer nativeInput nativeOutput seed rent =
      .ok (instructions, required, residual)) :
    RouteSettlement d payer seed rent route nativeInput nativeOutput instructions required := by
  unfold settlePumpfunNativeQuote at h
  split at h
  · rename_i leg hlegs
    obtain ⟨hcurve, hsides, hpositive, hminimum, hconverted⟩ := settleCurve_eq_ok hlegs h
    have hsettled := @RouteSettlement.intro d payer seed rent route nativeInput nativeOutput [] []
      leg [] _ _ required hlegs nofun hcurve hsides (by simpa [hlegs] using hpositive)
      (by simp [hlegs]) (by simpa [hlegs] using hminimum) (.inl rfl) (List.nil_subset _)
      (List.Subset.refl _) hconverted
    simpa using hsettled
  · exact settleMultiHop_eq_ok h

end Settle

/-! ### A curve leg -/

/-- The wrapped SOL that a curve leg's output is turned into. -/
def wraps (nativeOutput : Bool) (leg : CachedRouteLeg) : ℤ :=
  if InLamports leg leg.hint.outputMint ∧ nativeOutput = false then leg.minimumNetAmountOut else 0

/-- The wrapped SOL that is turned into a curve leg's input. -/
def unwraps (nativeInput : Bool) (leg : CachedRouteLeg) : ℤ :=
  if InLamports leg leg.hint.inputMint ∧ nativeInput = false then leg.amountIn else 0

/-- What an endpoint of a route holds: lamports if it is native, tokens otherwise. -/
def Ledger.endpoint (s : Ledger) (native : Bool) (mint : Pubkey) : ℤ :=
  if native = true then s.wallet else s.balance mint

theorem callsPool_of_curve {leg : CachedRouteLeg} (h : isCurve leg = true) :
    CallsPool leg.instruction := by
  have hprogram : leg.instruction.programId = pumpFunProgram := of_decide_eq_true h
  rw [CallsPool, hprogram]
  decide +kernel

section Curve

variable {d : Derivation} {w : Wallet} {s : Ledger} {leg : CachedRouteLeg} {got : ℤ}
  {pending : List (CachedRouteLeg × ℤ)} {setup instructions : List Instruction}
  {nativeInput nativeOutput : Bool} {seed : String} {rent required : ℤ}

/-- The settlement of a curve leg runs through. -/
theorem CurveSettlement.run
    (h : CurveSettlement d w.payer seed rent leg setup nativeInput nativeOutput instructions
      required)
    (hata : w.ata = d.wrappedSol w.payer)
    (htemporary : w.temporary = d.temporaryAccount w.payer seed)
    (hsetup : ∀ ix ∈ setup, ix.programId = associatedTokenProgram) (hcurve : isCurve leg = true)
    (hsides : leg.hint.inputMint = wsolTokenAccount ↔ leg.hint.outputMint ≠ wsolTokenAccount)
    (hleg : leg.Positive) (hs : s.Covered w) (habsent : s.temporary = .absent)
    (hpending : s.pending = (leg, got) :: pending) (hgot : leg.minimumNetAmountOut ≤ got)
    (hinput : leg.amountIn ≤ s.endpoint nativeInput leg.hint.inputMint)
    (hrequired : required ≤ s.wallet) (hrent : 0 < unwraps nativeInput leg → w.rent ≤ rent) :
    ∃ t, s.run w instructions = some t ∧
      Executed s t [(leg, got)] (wraps nativeOutput leg - unwraps nativeInput leg) ∧
      leg.minimumNetAmountOut ≤ t.endpoint nativeOutput leg.hint.outputMint := by
  have hpool := callsPool_of_curve hcurve
  have hlamports : ∀ mint, InLamports leg mint ↔ mint = wsolTokenAccount := fun mint =>
    and_iff_right hcurve
  cases h with
  | @nativePurchase keep hin hkeep =>
      have hout : leg.hint.outputMint ≠ wsolTokenAccount := hsides.1 hin
      have hholds : leg.amountIn ≤ s.holds leg leg.hint.inputMint := by
        rwa [holds, if_pos ((hlamports _).2 hin)]
      obtain ⟨t, hexec, hexecuted, hearned⟩ := exec_swap hs hpool hpending hholds
      have hnone : wraps false leg - unwraps true leg = 0 := by
        simp [wraps, unwraps, hlamports, hout]
      rw [holds, if_neg (mt (hlamports _).1 hout)] at hearned
      refine ⟨t, ?_, hnone.symm ▸ hexecuted, hgot.trans hearned⟩
      rw [run_append_of (run_associated fun ix hix => hsetup ix (hkeep hix)), run_cons_of hexec,
        run_nil]
  | @nativeSale keep hout hkeep =>
      have hin : leg.hint.inputMint ≠ wsolTokenAccount := fun hin => hsides.1 hin hout
      have hholds : leg.amountIn ≤ s.holds leg leg.hint.inputMint := by
        rwa [holds, if_neg (mt (hlamports _).1 hin)]
      obtain ⟨t, hexec, hexecuted, hearned⟩ := exec_swap hs hpool hpending hholds
      have hnone : wraps true leg - unwraps false leg = 0 := by
        simp [wraps, unwraps, hlamports, hin]
      rw [holds, if_pos ((hlamports _).2 hout)] at hearned
      refine ⟨t, ?_, hnone.symm ▸ hexecuted, hgot.trans hearned⟩
      rw [run_append_of (run_associated fun ix hix => hsetup ix (hkeep hix)), run_cons_of hexec,
        run_nil]
  | sale hout =>
      have hin : leg.hint.inputMint ≠ wsolTokenAccount := fun hin => hsides.1 hin hout
      have hholds : leg.amountIn ≤ s.holds leg leg.hint.inputMint := by
        rwa [holds, if_neg (mt (hlamports _).1 hin)]
      obtain ⟨t, hexec, hexecuted, hearned⟩ := exec_swap hs hpool hpending hholds
      rw [holds, if_pos ((hlamports _).2 hout)] at hearned
      have ht : t.Covered w := hs.effect (exec_effect hexec)
      -- What the sale is sure to return can be wrapped.
      obtain ⟨u, hrun, hwrapped⟩ := exec_wrap ht ⟨hleg.minimum.1.le, hleg.minimum.2⟩
        (hgot.trans hearned)
      have hwraps : wraps false leg - unwraps false leg = 0 + leg.minimumNetAmountOut := by
        simp [wraps, unwraps, hlamports, hin, hout]
      refine ⟨u, ?_, hwraps.symm ▸ hexecuted.trans hwrapped, ?_⟩
      · rw [List.append_assoc, run_append_of (run_associated hsetup), List.singleton_append,
          run_cons_of hexec, ← hata, hrun]
      · have hbalance := hwrapped.moved.balance_le wsolTokenAccount
        rw [List.map_nil, List.sum_nil, zero_add, Pi.single_eq_same] at hbalance
        rw [hout]
        exact (le_add_of_nonneg_left (ht.balance_nonneg _)).trans hbalance
  | @purchase keep hin hseed hrange hkeep =>
      have hout : leg.hint.outputMint ≠ wsolTokenAccount := hsides.1 hin
      have hunwraps : unwraps false leg = leg.amountIn := by
        simp [unwraps, hlamports, hin]
      have hwraps : wraps false leg - unwraps false leg = -leg.amountIn + 0 := by
        rw [hunwraps]
        simp [wraps, hlamports, hout]
      have hwsol : leg.amountIn ≤ s.balance wsolTokenAccount := by
        rw [← hin]
        exact hinput
      obtain ⟨t, hrun, hunwrapped⟩ := exec_unwrap hseed hrange
        (hrent (hunwraps.symm ▸ hleg.amount.1)) ⟨hleg.amount.1.le, hleg.amount.2⟩ habsent hrequired
        hwsol
      have ht : t.Covered w := hs.run hrun
      have hholds : leg.amountIn ≤ t.holds leg leg.hint.inputMint := by
        have hwallet := hunwrapped.moved.wallet
        have hnonneg := hs.wallet_nonneg
        rw [holds, if_pos ((hlamports _).2 hin), hwallet, List.map_nil, List.sum_nil]
        omega
      obtain ⟨u, hexec, hexecuted, hearned⟩ :=
        exec_swap ht hpool (hunwrapped.pending_eq hpending) hholds
      rw [holds, if_neg (mt (hlamports _).1 hout)] at hearned
      refine ⟨u, ?_, hwraps.symm ▸ hunwrapped.trans hexecuted, hgot.trans hearned⟩
      rw [← hata, ← htemporary, List.append_assoc, run_append_of hrun,
        run_append_of (run_associated fun ix hix => hsetup ix (hkeep hix)), run_cons_of hexec,
        run_nil]

end Curve

/-! ### The route -/

/-- The setup only creates token accounts, and the legs call pools. -/
structure PreparedCachedRoute.Built (route : PreparedCachedRoute) : Prop where
  setup : ∀ ix ∈ route.setupInstructions, ix.programId = associatedTokenProgram
  pools : ∀ leg ∈ route.legs, CallsPool leg.instruction

theorem prepareCachedRoute_built {snapshot : RouteSnapshot} {d : Derivation}
    {hints : List PoolTradeHint} {r : RouteRequest} {route : PreparedCachedRoute}
    (h : prepareCachedRoute snapshot d hints r = .ok route) : route.Built := by
  obtain ⟨-, hchain, -, -, hsetup⟩ := prepareCachedRoute_eq_ok h
  constructor
  · intro ix hix
    obtain ⟨mint, -, _, -, rfl⟩ := exists_of_forall₂ hsetup hix
    rfl
  · intro leg hleg
    obtain ⟨_, _, hspec⟩ := hchain.leg_spec leg hleg
    have hapart : ∀ program ∈ swapPrograms,
        program ∉ [associatedTokenProgram, systemProgram, tokenProgram] := by
      decide +kernel
    exact hapart _ hspec.program

/-- The wallet that a route is settled for, where a token account costs this rent. -/
def Derivation.wallet (d : Derivation) (payer : Pubkey) (seed : String) (rent : ℕ) : Wallet where
  payer
  ata := d.wrappedSol payer
  temporary := d.temporaryAccount payer seed
  rent

/-- The legs of the route are about to be swapped, each for at least its minimum, from a
wallet that holds the first input and the required lamports. -/
structure Ledger.Ready (w : Wallet) (s : Ledger) (route : PreparedCachedRoute)
    (nativeInput : Bool) (required : ℤ) : Prop where
  covered : s.Covered w
  absent : s.temporary = .absent
  pending : s.pending.map Prod.fst = route.legs
  returns : ∀ p ∈ s.pending, p.1.minimumNetAmountOut ≤ p.2
  input : ∀ first ∈ route.legs.head?,
    first.amountIn ≤ s.endpoint nativeInput first.hint.inputMint
  required_le : required ≤ s.wallet

section Solvency

variable {d : Derivation} {w : Wallet} {s : Ledger} {route : PreparedCachedRoute} {payer : Pubkey}
  {nativeInput nativeOutput : Bool} {seed : String} {rent required residual : ℤ} {exempt : ℕ}
  {instructions : List Instruction}

/-- Swaps that continue one another fund one another, as each returns its minimum. -/
theorem isChain_funds {swaps : List (CachedRouteLeg × ℤ)}
    (hcontinues : (swaps.map Prod.fst).IsChain Continues)
    (hreturns : ∀ p ∈ swaps, p.1.minimumNetAmountOut ≤ p.2) : swaps.IsChain Funds := by
  rw [List.isChain_map] at hcontinues
  exact hcontinues.imp_of_mem_imp fun p _ hp _ h => ⟨h.1, h.2.trans (hreturns p hp)⟩

/-- Legs of tokens need no conversion. -/
theorem sum_conversions_token {legs : List CachedRouteLeg} {native : Bool}
    (htoken : ∀ leg ∈ legs, isCurve leg = false) :
    (legs.map (wraps native)).sum = 0 ∧ (legs.map (unwraps native)).sum = 0 := by
  have hnot : ∀ leg ∈ legs, ∀ mint, ¬ InLamports leg mint := fun leg hleg mint h =>
    Bool.false_ne_true ((htoken leg hleg).symm.trans h.1)
  constructor
  · apply List.sum_eq_zero
    rintro _ hmem
    obtain ⟨leg, hleg, rfl⟩ := List.mem_map.1 hmem
    exact if_neg fun h => hnot leg hleg _ h.1
  · apply List.sum_eq_zero
    rintro _ hmem
    obtain ⟨leg, hleg, rfl⟩ := List.mem_map.1 hmem
    exact if_neg fun h => hnot leg hleg _ h.1

theorem sum_conversions {legs before after : List CachedRouteLeg} {anchor : CachedRouteLeg}
    {native : Bool} (hlegs : legs = before ++ anchor :: after)
    (htoken : ∀ leg ∈ before ++ after, isCurve leg = false) :
    (legs.map (wraps native)).sum = wraps native anchor ∧
      (legs.map (unwraps native)).sum = unwraps native anchor := by
  obtain ⟨hbefore, hafter⟩ := List.forall_mem_append.1 htoken
  subst hlegs
  constructor
  · rw [List.map_append, List.sum_append, List.map_cons, List.sum_cons,
      (sum_conversions_token hbefore).1, (sum_conversions_token hafter).1]
    omega
  · rw [List.map_append, List.sum_append, List.map_cons, List.sum_cons,
      (sum_conversions_token hbefore).2, (sum_conversions_token hafter).2]
    omega

/-- The legs before the curve leg, its settlement and the legs after it run one after
the other. Where there are legs around it, its own ends are tokens. -/
theorem RouteSettlement.run
    (h : RouteSettlement d payer seed rent route nativeInput nativeOutput instructions required)
    (hbuilt : route.Built) (hs : s.Ready (d.wallet payer seed exempt) route nativeInput required)
    (hrent : 0 < (route.legs.map (unwraps nativeInput)).sum → exempt ≤ rent) :
    ∃ t, s.run (d.wallet payer seed exempt) instructions = some t ∧
      Executed s t s.pending
        ((route.legs.map (wraps nativeOutput)).sum - (route.legs.map (unwraps nativeInput)).sum) ∧
      ∀ last ∈ route.legs.getLast?,
        last.minimumNetAmountOut ≤ t.endpoint nativeOutput last.hint.outputMint := by
  obtain @⟨before, after, anchor, first, middle, converted, required, hlegs, htoken, hcurve, hsides,
    hpositive, hcontinues, hminimum, hends, hfirst, hmiddle, hconverted⟩ := h
  rw [(sum_conversions hlegs htoken).1, (sum_conversions hlegs htoken).2]
  rw [(sum_conversions hlegs htoken).2] at hrent
  obtain ⟨htokenBefore, htokenAfter⟩ := List.forall_mem_append.1 htoken
  obtain ⟨swaps, rest, hpending, rfl, hrest⟩ :=
    List.map_eq_append_iff.1 (hs.pending.trans hlegs)
  obtain ⟨⟨leg, got⟩, later, rfl, rfl, rfl⟩ := List.map_eq_cons_iff.1 hrest
  have hreturns := hs.returns
  rw [hpending] at hreturns
  obtain ⟨hreturnsBefore, hgot, hreturnsAfter⟩ : (∀ p ∈ swaps, p.1.minimumNetAmountOut ≤ p.2) ∧
      leg.minimumNetAmountOut ≤ got ∧ ∀ p ∈ later, p.1.minimumNetAmountOut ≤ p.2 := by
    rw [List.forall_mem_append, List.forall_mem_cons] at hreturns
    exact hreturns
  have hpools := hbuilt.pools
  rw [hlegs, List.forall_mem_append, List.forall_mem_cons, List.forall_mem_map,
    List.forall_mem_map] at hpools
  rw [List.forall_mem_map] at htokenBefore htokenAfter
  have hleg : leg.Positive := hpositive leg (by simp [hlegs])
  rw [hlegs] at hcontinues
  obtain ⟨hbefore, hrest, hanchor⟩ := List.isChain_append.1 hcontinues
  obtain ⟨hafter, hrest⟩ := List.isChain_cons.1 hrest
  -- The legs before the curve leg.
  have hstart : ∀ p ∈ swaps.head?, p.1.amountIn ≤ s.balance p.1.hint.inputMint := by
    intro p hp
    cases swaps with
    | nil => cases hp
    | cons q swaps =>
        obtain rfl := Option.some.inj hp
        have hnative := (hends.resolve_left (List.cons_ne_nil _ _)).1
        have hfirst := hs.input q.1 (by rw [hlegs]; rfl)
        rwa [Ledger.endpoint, hnative, if_neg Bool.false_ne_true] at hfirst
  obtain ⟨t, hrun, hexecuted, hlast⟩ := run_swaps hs.covered hpools.1 htokenBefore hpending
    (isChain_funds hbefore hreturnsBefore) hstart
  have ht : t.Covered (d.wallet payer seed exempt) := hs.covered.run hrun
  have hwallet : t.wallet = s.wallet := by
    have hnone : (swaps.map lamportFlow).sum = 0 := by
      apply List.sum_eq_zero
      rintro _ hmem
      obtain ⟨p, hp, rfl⟩ := List.mem_map.1 hmem
      exact lamportFlow_token (htokenBefore p hp)
    rw [hexecuted.moved.wallet, hnone, sub_zero, add_zero]
  -- The curve leg.
  have hinput : leg.amountIn ≤ t.endpoint nativeInput leg.hint.inputMint := by
    rcases List.eq_nil_or_concat swaps with rfl | ⟨swaps, p, rfl⟩
    · obtain rfl : s = t := Option.some.inj hrun
      exact hs.input leg (by rw [hlegs]; rfl)
    · have hnative := (hends.resolve_left (by simp)).1
      obtain ⟨hmint, hle⟩ := hanchor p.1 (by simp) leg rfl
      have hearned := hlast p (by simp)
      have hminimum := hreturnsBefore p (by simp)
      rw [Ledger.endpoint, hnative, if_neg Bool.false_ne_true, ← hmint]
      omega
  obtain ⟨u, hrun', hexecuted', hearned⟩ := hconverted.run (w := d.wallet payer seed exempt) rfl rfl
    (fun ix hix => hbuilt.setup ix (hmiddle hix)) hcurve hsides hleg ht
    (hexecuted.temporary.trans hs.absent) (hexecuted.pending_eq hpending) hgot hinput
    (hwallet.symm ▸ hs.required_le) hrent
  have hu : u.Covered (d.wallet payer seed exempt) := ht.run hrun'
  -- The legs after it.
  have hnext : ∀ p ∈ later.head?, p.1.amountIn ≤ u.balance p.1.hint.inputMint := by
    intro p hp
    have hne : later ≠ [] := by
      rintro rfl
      cases hp
    have hnative := (hends.resolve_left (by simp [hne])).2
    obtain ⟨hmint, hle⟩ := hafter p.1 (by simp [Option.mem_def.1 hp])
    rw [Ledger.endpoint, hnative, if_neg Bool.false_ne_true, hmint] at hearned
    exact hle.trans hearned
  have hpending' : u.pending = later ++ [] := by
    rw [List.append_nil]
    exact hexecuted'.pending_eq (hexecuted.pending_eq hpending)
  obtain ⟨v, hrun'', hexecuted'', hend⟩ := run_swaps hu hpools.2.2 htokenAfter hpending'
    (isChain_funds hrest hreturnsAfter) hnext
  refine ⟨v, ?_, ?_, ?_⟩
  · rw [List.append_assoc, List.append_assoc,
      run_append_of (run_associated fun ix hix => hbuilt.setup ix (hfirst hix)), List.map_map,
      List.map_map]
    exact (run_append_of hrun).trans ((run_append_of hrun').trans hrun'')
  · have hall := hexecuted.trans (hexecuted'.trans hexecuted'')
    rw [zero_add, add_zero] at hall
    rwa [hpending]
  · intro last hmem
    rcases List.eq_nil_or_concat later with rfl | ⟨later, p, rfl⟩
    · obtain rfl : u = v := Option.some.inj hrun''
      obtain rfl : leg = last := by simpa [hlegs] using hmem
      exact hearned
    · obtain rfl : p.1 = last := by simpa [hlegs, List.getLast?_cons] using hmem
      have hnative := (hends.resolve_left (by simp)).2
      rw [Ledger.endpoint, hnative, if_neg Bool.false_ne_true]
      exact (hreturnsAfter p (by simp)).trans (hend p (by simp))

/-- What a swap and the conversion of its output bring of a mint that it does not spend. -/
theorem flow_gain {mint : Pubkey} {p : CachedRouteLeg × ℤ} (hp : p.1.Positive)
    (hreturns : p.1.minimumNetAmountOut ≤ p.2) (hin : p.1.hint.inputMint ≠ mint) :
    0 ≤ tokenFlow p mint + (if mint = wsolTokenAccount then wraps false p.1 else 0) ∧
      (p.1.hint.outputMint = mint → p.1.minimumNetAmountOut ≤
        tokenFlow p mint + (if mint = wsolTokenAccount then wraps false p.1 else 0)) := by
  have hpos := hp.minimum.1
  have hspent : (if InLamports p.1 p.1.hint.inputMint then 0
      else (Pi.single p.1.hint.inputMint p.1.amountIn : Pubkey → ℤ)) mint = 0 := by
    split
    · rfl
    · exact Pi.single_eq_of_ne hin.symm _
  rw [tokenFlow, Pi.sub_apply, hspent, sub_zero]
  by_cases hlamports : InLamports p.1 p.1.hint.outputMint
  · have hwraps : wraps false p.1 = p.1.minimumNetAmountOut := if_pos ⟨hlamports, rfl⟩
    rw [if_pos hlamports, hwraps, Pi.zero_apply, zero_add]
    constructor
    · split <;> omega
    · rintro rfl
      rw [if_pos hlamports.2]
  · have hwraps : wraps false p.1 = 0 := if_neg fun h => hlamports h.1
    rw [if_neg hlamports, hwraps, ite_self, add_zero]
    constructor
    · rw [Pi.single_apply]
      split <;> omega
    · rintro rfl
      rwa [Pi.single_eq_same]

/-- A mint that no leg spends is gained. -/
theorem Ledger.Executed.gain {t : Ledger} (hs : s.Ready w route nativeInput required)
    (h : Executed s t s.pending
      ((route.legs.map (wraps false)).sum - (route.legs.map (unwraps nativeInput)).sum))
    (hpositive : ∀ leg ∈ route.legs, leg.Positive) {last : CachedRouteLeg}
    (hlast : last ∈ route.legs)
    (hspent : ∀ leg ∈ route.legs, leg.hint.inputMint ≠ last.hint.outputMint) :
    s.balance last.hint.outputMint + last.minimumNetAmountOut ≤ t.balance last.hint.outputMint := by
  have hbalance := h.moved.balance_le last.hint.outputMint
  rw [← hs.pending] at hpositive hlast hspent hbalance
  rw [List.forall_mem_map] at hpositive hspent
  obtain ⟨p, hp, rfl⟩ := List.mem_map.1 hlast
  generalize hmint : p.1.hint.outputMint = mint at hspent hbalance ⊢
  -- Nothing is unwrapped where the output is wrapped SOL.
  have hunwraps : mint = wsolTokenAccount →
      ((s.pending.map Prod.fst).map (unwraps nativeInput)).sum = 0 := by
    rintro rfl
    apply List.sum_eq_zero
    intro n hn
    rw [List.map_map] at hn
    obtain ⟨q, hq, rfl⟩ := List.mem_map.1 hn
    exact if_neg fun h => hspent q hq h.1.2
  have hflow : ((s.pending.map tokenFlow).sum + Pi.single wsolTokenAccount
      (((s.pending.map Prod.fst).map (wraps false)).sum -
        ((s.pending.map Prod.fst).map (unwraps nativeInput)).sum) : Pubkey → ℤ) mint =
      (s.pending.map fun q => tokenFlow q mint +
        (if mint = wsolTokenAccount then wraps false q.1 else 0)).sum := by
    rw [List.sum_map_add, Pi.add_apply, Pi.list_sum_apply, List.map_map]
    by_cases hwsol : mint = wsolTokenAccount
    · rw [hunwraps hwsol]
      simp [hwsol, Function.comp_def]
    · simp [hwsol, Function.comp_def]
  have hgain := fun q hq => flow_gain (hpositive q hq) (hs.returns q hq) (hspent q hq)
  have hle := List.single_le_sum (List.forall_mem_map.2 fun q hq => (hgain q hq).1) _
    (List.mem_map_of_mem hp)
  have hmin := (hgain p hp).2 hmint
  rw [hflow] at hbalance
  omega

theorem RouteSettlement.positive
    (h : RouteSettlement d payer seed rent route nativeInput nativeOutput instructions required) :
    ∀ leg ∈ route.legs, leg.Positive := by
  cases h with
  | intro _ _ _ _ hpositive => exact hpositive

theorem RouteSettlement.minimum
    (h : RouteSettlement d payer seed rent route nativeInput nativeOutput instructions required) :
    ∀ last ∈ route.legs.getLast?, route.minimumNetAmountOut = last.minimumNetAmountOut := by
  cases h with
  | intro _ _ _ _ _ _ hminimum => exact hminimum

/-- Lamports are gained where they are the output. -/
theorem RouteSettlement.native_gain {t : Ledger}
    (h : RouteSettlement d payer seed rent route nativeInput true instructions required)
    (hs : s.Ready w route nativeInput required)
    (hexecuted : Executed s t s.pending
      ((route.legs.map (wraps true)).sum - (route.legs.map (unwraps nativeInput)).sum)) :
    s.wallet + route.minimumNetAmountOut ≤ t.wallet := by
  obtain @⟨before, after, anchor, _, _, _, _, hlegs, -, hcurve, hsides, -, -, hminimum, hends, -, -,
    hconverted⟩ := h
  obtain ⟨rfl, rfl⟩ := List.append_eq_nil_iff.1 (hends.resolve_right (by simp))
  rw [List.nil_append] at hlegs
  obtain ⟨p, rest, hpending, rfl, hrest⟩ :=
    List.map_eq_cons_iff.1 (hs.pending.trans hlegs)
  obtain rfl := List.map_eq_nil_iff.1 hrest
  cases hconverted with
  | @nativeSale keep hout hkeep =>
      have hin : p.1.hint.inputMint ≠ wsolTokenAccount := fun hin => hsides.1 hin hout
      have hflow : lamportFlow p = p.2 := by
        simp [lamportFlow, InLamports, hcurve, hout, hin]
      have hnone : wraps true p.1 = 0 ∧ unwraps false p.1 = 0 := by
        simp [wraps, unwraps, InLamports, hin]
      have hwallet := hexecuted.moved.wallet
      have hgot := hs.returns p (hpending ▸ List.mem_cons_self)
      rw [hpending, hlegs, List.map_singleton, List.map_singleton, List.map_singleton,
        List.sum_singleton, List.sum_singleton, List.sum_singleton, hflow, hnone.1, hnone.2]
        at hwallet
      rw [hminimum p.1 (by simp [hlegs])]
      omega

theorem settlePumpfunNativeQuote_solvent
    (h : settlePumpfunNativeQuote d route payer nativeInput nativeOutput seed rent =
      .ok (instructions, required, residual))
    (hbuilt : route.Built) (hs : s.Ready (d.wallet payer seed exempt) route nativeInput required)
    (hrent : 0 < (route.legs.map (unwraps nativeInput)).sum → exempt ≤ rent) :
    ∃ t, s.run (d.wallet payer seed exempt) instructions = some t ∧
      (∀ k, ∃ u, s.run (d.wallet payer seed exempt) (instructions.take k) = some u ∧
        u.Covered (d.wallet payer seed exempt)) ∧
      t.pending = [] ∧ t.temporary = .absent ∧
      Moved s t
        ((s.pending.map lamportFlow).sum -
          ((route.legs.map (wraps nativeOutput)).sum - (route.legs.map (unwraps nativeInput)).sum))
        ((s.pending.map tokenFlow).sum + Pi.single wsolTokenAccount
          ((route.legs.map (wraps nativeOutput)).sum -
            (route.legs.map (unwraps nativeInput)).sum)) ∧
      ∀ last ∈ route.legs.getLast?,
        route.minimumNetAmountOut ≤ t.endpoint nativeOutput last.hint.outputMint ∧
          ((∀ leg ∈ route.legs, leg.hint.inputMint ≠ last.hint.outputMint) →
            s.endpoint nativeOutput last.hint.outputMint + route.minimumNetAmountOut ≤
              t.endpoint nativeOutput last.hint.outputMint) := by
  have hsettled := settlePumpfunNativeQuote_eq_ok h
  obtain ⟨t, hrun, hexecuted, hlast⟩ := hsettled.run hbuilt hs hrent
  have hpending : t.pending = [] := hexecuted.pending_eq (List.append_nil _).symm
  refine ⟨t, hrun, hs.covered.take hrun, hpending, hexecuted.temporary.trans hs.absent,
    hexecuted.moved, fun last hmem => ?_⟩
  have hminimum : route.minimumNetAmountOut = last.minimumNetAmountOut := hsettled.minimum last hmem
  refine ⟨hminimum.trans_le (hlast last hmem), fun hspent => ?_⟩
  cases nativeOutput with
  | true => exact hsettled.native_gain hs hexecuted
  | false =>
      rw [hminimum]
      exact hexecuted.gain hs hsettled.positive (List.mem_of_getLast? hmem) hspent

end Solvency

/-! ### A purchase from a curve, through another pool -/

/-- Every account is at the key of its mint. -/
def mintDerivation : Derivation where
  associatedTokenAddress _ mint _ := mint
  temporaryAccount _ _ := sampleKey 4

/-- A token is sold for wrapped SOL in an AMM v4 pool. -/
def poolSale : CachedRouteLeg where
  hint := ⟨sampleKey 1, sampleKey 5, wsolTokenAccount, none⟩
  amountIn := 10000
  estimatedNetAmountOut := some 990
  minimumNetAmountOut := 900
  instruction := ⟨ammV4Program, [16], [⟨sampleKey 3, true, false⟩]⟩

/-- Another is bought from a curve of the first version. -/
def curvePurchase : CachedRouteLeg where
  hint := ⟨sampleKey 2, wsolTokenAccount, sampleKey 6, none⟩
  amountIn := 900
  estimatedNetAmountOut := some 55
  minimumNetAmountOut := 50
  instruction := ⟨pumpFunProgram,
    [56, 252, 116, 8, 158, 223, 205, 95] ++ Wire.littleEndian 8 900 ++ Wire.littleEndian 8 50 ++ [0],
    [⟨sampleKey 9, false, false⟩, ⟨sampleKey 9, false, true⟩, ⟨sampleKey 6, false, false⟩,
      ⟨sampleKey 2, false, true⟩, ⟨sampleKey 9, false, true⟩, ⟨sampleKey 9, false, true⟩,
      ⟨sampleKey 3, true, true⟩] ++ List.replicate 9 ⟨sampleKey 9, false, false⟩⟩

def purchaseRoute : PreparedCachedRoute where
  legs := [poolSale, curvePurchase]
  setupInstructions := [createAssociatedTokenAccountIdempotent mintDerivation (sampleKey 3)
    (sampleKey 3) (sampleKey 6) tokenProgram]
  swapInstructions := [poolSale.instruction, curvePurchase.instruction]
  minimumNetAmountOut := 50
  estimatedIntermediateResiduals := [(wsolTokenAccount, 90)]

/-- The wallet has no more lamports than the rent. -/
def purchaseLedger : Ledger where
  wallet := 2039280
  wsol := ⟨2039280, 0⟩
  tokens := fun mint => if mint = sampleKey 5 then 10000 else 0
  temporary := .absent
  pending := [(poolSale, 930), (curvePurchase, 52)]

theorem purchaseLedger_ready :
    purchaseLedger.Ready (mintDerivation.wallet (sampleKey 3) "seed" 2039280) purchaseRoute false
      2039280 := by
  constructor
  · constructor
    · decide
    · exact ⟨by decide, by decide⟩
    · intro mint _
      show 0 ≤ if mint = sampleKey 5 then (10000 : ℤ) else 0
      split <;> decide
    · trivial
    · decide
  · rfl
  · rfl
  · decide
  · rintro _ ⟨⟩
    decide +kernel
  · decide

theorem settlePumpfunNativeQuote_solvent_purchase :
    ∃ settled t, settlePumpfunNativeQuote mintDerivation purchaseRoute (sampleKey 3) false false "seed"
        2039280 = .ok settled ∧
      purchaseLedger.run (mintDerivation.wallet (sampleKey 3) "seed" 2039280) settled.1 = some t ∧
      t.pending = [] ∧ t.temporary = .absent ∧ 50 ≤ t.endpoint false (sampleKey 6) := by
  obtain ⟨_, h⟩ := exists_of_isOk (show (settlePumpfunNativeQuote mintDerivation purchaseRoute
    (sampleKey 3) false false "seed" 2039280 >>= fun settled =>
      require (settled.2.1 = 2039280) ValueError.pumpFunSeedAndRent).isOk by decide +kernel)
  obtain ⟨⟨instructions, required, residual⟩, h, hrequired⟩ := bind_eq_ok.1 h
  obtain rfl : required = 2039280 := require_eq_ok.1 hrequired
  have hbuilt : purchaseRoute.Built := ⟨by decide +kernel, by decide +kernel⟩
  obtain ⟨t, hrun, -, hpending, htemporary, -, hlast⟩ :=
    settlePumpfunNativeQuote_solvent h hbuilt purchaseLedger_ready fun _ => le_rfl
  exact ⟨_, t, h, hrun, hpending, htemporary, (hlast curvePurchase rfl).1⟩

end SolTrade.Route
