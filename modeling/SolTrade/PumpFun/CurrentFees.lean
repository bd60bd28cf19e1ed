import Mathlib.Data.List.Chain
import SolTrade.PumpFun.CachedQuote
import SolTrade.PumpSwap.FeeConfig

/-!
The current PumpFun rates, read from the fee schedule for one quote and market cap.

The schedule has the layout of the PumpSwap one, and a canonical PumpSwap pool pays the
rates that are read here.
-/

namespace SolTrade.PumpFun

open Library
open PumpSwap (unsignedAt feeConfigDiscriminator isNativeQuote usdcTokenAccount)
open PumpSwap (PumpSwapFeeTier PumpSwapFeeConfig decodeFees decodeTiers decodeFeeTiers
  decodeFeeConfig calculateFeeTier computePumpswapFeeBasisPoints exoticOrFlatFees
  poolMarketCapLamports)
open Route (PumpSwapFeeBasisPoints)

/-! ### Decoding -/

inductive FeeScheduleError where
  | value (e : ValueError)
  | invalidConfig
  | truncatedFees
  | invalidRate
  | truncatedCount
  | truncatedTiers
  | notOrdered
  | emptyTiers
  | combinedFees
  deriving DecidableEq

def FeeScheduleError.text : FeeScheduleError → String
  | value e => e.text
  | invalidConfig => "Invalid PumpFun FeeConfig or market cap"
  | truncatedFees => "Truncated PumpFun fees"
  | invalidRate => "Invalid PumpFun fee rate"
  | truncatedCount => "Truncated PumpFun tier count"
  | truncatedTiers => "Truncated PumpFun fee tiers"
  | notOrdered => "PumpFun fee tiers are not strictly ordered"
  | emptyTiers => "PumpFun fee tiers cannot be empty"
  | combinedFees => "PumpFun combined fees exceed 100%"

/-- The rates of the liquidity providers, the protocol and the creator. -/
abbrev Rates := ℕ × ℕ × ℕ

section Decode

variable (data : List UInt8)

def readFees (offset : ℕ) : Except FeeScheduleError (Rates × ℕ) := do
  require (¬ data.length < offset + 24) .truncatedFees
  let fees := (unsignedAt data offset 8, unsignedAt data (offset + 8) 8,
    unsignedAt data (offset + 16) 8)
  require (¬ (10000 < fees.1 ∨ 10000 < fees.2.1 ∨ 10000 < fees.2.2)) .invalidRate
  return (fees, offset + 24)

/-- The loop over the tiers. -/
def readTierLoop : ℕ → ℕ → List (ℕ × Rates) → Except FeeScheduleError (List (ℕ × Rates) × ℕ)
  | 0, offset, tiers => .ok (tiers, offset)
  | left + 1, offset, tiers => do
      let threshold := unsignedAt data offset 16
      require (∀ last ∈ tiers.getLast?, last.1 < threshold) .notOrdered
      let (fees, after) ← readFees data (offset + 16)
      readTierLoop left after (tiers ++ [(threshold, fees)])

def readTiers (offset : ℕ) : Except FeeScheduleError (List (ℕ × Rates) × ℕ) := do
  require (¬ data.length < offset + 4) .truncatedCount
  let n := unsignedAt data offset 4
  require (n ≤ (data.length - (offset + 4)) / 40) .truncatedTiers
  readTierLoop data n (offset + 4) []

/-- The account may end before the tiers of stable quotes, -/
def readStableTiers (offset : ℕ) : Except FeeScheduleError (List (ℕ × Rates) × ℕ) :=
  if offset = data.length then .ok ([], offset) else readTiers data offset

/-- and before the rates of other quotes. -/
def readExoticFees (offset : ℕ) : Except FeeScheduleError (Rates × ℕ) :=
  if offset = data.length then .ok ((0, 0, 0), offset) else readFees data offset

/-- The schedule: the flat rates, both lists of tiers and the rates of other quotes. -/
def readSchedule : Except FeeScheduleError
    (Rates × List (ℕ × Rates) × List (ℕ × Rates) × Rates) := do
  let (flat, offset) ← readFees data 41
  let (tiers, offset) ← readTiers data offset
  let (stable, offset) ← readStableTiers data offset
  let (exotic, _) ← readExoticFees data offset
  return (flat, tiers, stable, exotic)

/-- The rates that apply to the quote at the market cap. -/
def selectRates (flat : Rates) (tiers stable : List (ℕ × Rates)) (exotic : Rates)
    (quote : Pubkey) (marketCap : ℤ) : Except FeeScheduleError Rates :=
  let native := isNativeQuote quote
  if native = true ∨ quote = usdcTokenAccount then
    match if native = false ∧ stable ≠ [] then stable else tiers with
    | [] => .error .emptyTiers
    | first :: rest =>
        .ok (Schedule.ascend (fun tier => (tier.1 : ℤ)) marketCap first (first :: rest)).2
  else .ok (if exotic ≠ (0, 0, 0) then exotic else flat)

def decodePumpfunCurrentFees (quote : Pubkey) (marketCap : ℤ) (creatorOverride : ℤ := 0) :
    Except FeeScheduleError PumpFunCurrentFees := do
  require (¬ (data.length < 69 ∨ data.take 8 ≠ feeConfigDiscriminator ∨
    ¬ (0 ≤ marketCap ∧ marketCap < 2 ^ 128))) .invalidConfig
  let _ ← (unsigned creatorOverride u64).mapError .value
  let (flat, tiers, stable, exotic) ← readSchedule data
  let selected ← selectRates flat tiers stable exotic quote marketCap
  let creator := if creatorOverride ≠ 0 then creatorOverride else selected.2.2
  require (¬ 10000 < selected.2.1 + creator) .combinedFees
  return ⟨selected.2.1, creator⟩

end Decode

/-! ### The schedule as PumpSwap reads it -/

/-- The same rates in a PumpSwap schedule. -/
def Rates.basisPoints (rates : Rates) : PumpSwapFeeBasisPoints :=
  ⟨rates.1, rates.2.1, rates.2.2⟩

def tierOf (tier : ℕ × Rates) : PumpSwapFeeTier := ⟨tier.1, Rates.basisPoints tier.2⟩

def AscendingTiers (tiers : List (ℕ × Rates)) : Prop := Schedule.Ascending (·.1) tiers

section Agreement

variable {data : List UInt8} {offset after left : ℕ} {rates flat exotic : Rates}
  {tiers tiers' stable : List (ℕ × Rates)}

theorem readFees_eq_ok (h : readFees data offset = .ok (rates, after)) :
    after = offset + 24 ∧ after ≤ data.length ∧
      decodeFees data offset = some (Rates.basisPoints rates) := by
  unfold readFees at h
  obtain ⟨_, hroom, h⟩ := bind_eq_ok.1 h
  obtain ⟨_, -, h⟩ := bind_eq_ok.1 h
  rw [require_eq_ok, not_lt] at hroom
  rw [pure_eq_ok, Prod.mk.injEq] at h
  obtain ⟨rfl, rfl⟩ := h
  refine ⟨rfl, hroom, ?_⟩
  unfold decodeFees
  rw [if_neg (Nat.not_lt.2 hroom)]
  rfl

/-- What one tier adds keeps the order. -/
theorem ascending_append {threshold : ℕ} (htiers : AscendingTiers tiers)
    (hlast : ∀ last ∈ tiers.getLast?, last.1 < threshold) :
    AscendingTiers (tiers ++ [(threshold, rates)]) := by
  refine List.pairwise_append.2 ⟨htiers, List.pairwise_singleton _ _, fun a ha b hb => ?_⟩
  obtain rfl := List.mem_singleton.1 hb
  obtain ⟨before, last, rfl⟩ :=
    (List.eq_nil_or_concat' tiers).resolve_left (List.ne_nil_of_mem ha)
  have hnew : last.1 < threshold := hlast last (by simp)
  rcases List.mem_append.1 ha with hbefore | hlast'
  · exact ((List.pairwise_append.1 htiers).2.2 a hbefore last (by simp)).trans hnew
  · rwa [List.mem_singleton.1 hlast']

theorem readTierLoop_eq_ok (htiers : AscendingTiers tiers) (hoffset : offset ≤ data.length)
    (h : readTierLoop data left offset tiers = .ok (tiers', after)) :
    AscendingTiers tiers' ∧ after ≤ data.length ∧
      decodeTiers data left offset (tiers.map tierOf) = some (tiers'.map tierOf, after) := by
  induction left generalizing offset tiers with
  | zero =>
      rw [readTierLoop, Except.ok.injEq, Prod.mk.injEq] at h
      obtain ⟨rfl, rfl⟩ := h
      exact ⟨htiers, hoffset, rfl⟩
  | succ left ih =>
      rw [readTierLoop] at h
      obtain ⟨_, hlast, h⟩ := bind_eq_ok.1 h
      obtain ⟨⟨rates, next⟩, hrates, h⟩ := bind_eq_ok.1 h
      rw [require_eq_ok] at hlast
      obtain ⟨rfl, hroom, hdecode⟩ := readFees_eq_ok hrates
      obtain ⟨hascending, hafter, hrest⟩ := ih (ascending_append htiers hlast) hroom h
      refine ⟨hascending, hafter, ?_⟩
      rw [decodeTiers, hdecode]
      rw [List.map_append] at hrest
      exact hrest

theorem readTiers_eq_ok (h : readTiers data offset = .ok (tiers, after)) :
    AscendingTiers tiers ∧ after ≤ data.length ∧
      decodeFeeTiers data offset = some (tiers.map tierOf, after) := by
  unfold readTiers at h
  obtain ⟨_, hroom, h⟩ := bind_eq_ok.1 h
  obtain ⟨_, hcount, h⟩ := bind_eq_ok.1 h
  rw [require_eq_ok, not_lt] at hroom
  rw [require_eq_ok, Nat.le_div_iff_mul_le (by decide)] at hcount
  obtain ⟨hascending, hafter, hdecode⟩ := readTierLoop_eq_ok List.Pairwise.nil hroom h
  refine ⟨hascending, hafter, ?_⟩
  unfold decodeFeeTiers
  rw [if_neg (by omega)]
  dsimp only
  rw [if_neg (by omega)]
  exact hdecode

/-- A schedule that both decoders take is the same in both. -/
theorem decodeFeeConfig_of_readSchedule {config : PumpSwapFeeConfig}
    (hread : readSchedule data = .ok (flat, tiers, stable, exotic))
    (hdecode : decodeFeeConfig data = some config) :
    config = ⟨flat.basisPoints, tiers.map tierOf, stable.map tierOf, some exotic.basisPoints⟩ ∧
      AscendingTiers tiers ∧ AscendingTiers stable := by
  unfold readSchedule at hread
  obtain ⟨⟨flat', o₁⟩, hflat, hread⟩ := bind_eq_ok.1 hread
  obtain ⟨⟨tiers', o₂⟩, htiers, hread⟩ := bind_eq_ok.1 hread
  obtain ⟨⟨stable', o₃⟩, hstable, hread⟩ := bind_eq_ok.1 hread
  obtain ⟨⟨exotic', o₄⟩, hexotic, hread⟩ := bind_eq_ok.1 hread
  rw [pure_eq_ok] at hread
  simp only [Prod.mk.injEq] at hread
  obtain ⟨rfl, rfl, rfl, rfl⟩ := hread
  obtain ⟨rfl, -, hflat⟩ := readFees_eq_ok hflat
  obtain ⟨hascending, -, htiers⟩ := readTiers_eq_ok htiers
  unfold decodeFeeConfig at hdecode
  split at hdecode
  · contradiction
  simp only [hflat, htiers, Option.bind_eq_bind, Option.bind_some] at hdecode
  unfold readStableTiers at hstable
  unfold readExoticFees at hexotic
  split at hstable
  · -- without the second list the other decoder finds no room for its length
    rename_i hend
    have hnone : decodeFeeTiers data o₂ = none := if_pos (by omega)
    simp [hnone] at hdecode
  · obtain ⟨hascending', hroom, hstable⟩ := readTiers_eq_ok hstable
    simp only [hstable, Option.bind_some] at hdecode
    refine ⟨?_, hascending, hascending'⟩
    split at hexotic
    · rename_i hend
      rw [Except.ok.injEq, Prod.mk.injEq] at hexotic
      obtain ⟨rfl, -⟩ := hexotic
      rw [if_neg (by omega)] at hdecode
      simpa [Rates.basisPoints] using hdecode.symm
    · obtain ⟨-, -, hexotic⟩ := readFees_eq_ok hexotic
      rw [if_pos (by omega), hexotic] at hdecode
      simpa using hdecode.symm

theorem ordered_map (h : AscendingTiers tiers) : PumpSwap.Ordered (tiers.map tierOf) := by
  refine List.pairwise_map.2 (List.Pairwise.imp ?_ h)
  intro a b hab
  exact Int.ofNat_lt.2 hab

/-- Both searches find the same tier. -/
theorem calculateFeeTier_map {first : ℕ × Rates} {marketCap : ℤ}
    (h : AscendingTiers (first :: tiers)) :
    calculateFeeTier ((first :: tiers).map tierOf) marketCap =
      some (Rates.basisPoints (Schedule.ascend (fun tier => (tier.1 : ℤ)) marketCap first
        (first :: tiers)).2) := by
  have hascending : Schedule.Ascending (fun tier : ℕ × Rates => (tier.1 : ℤ)) (first :: tiers) :=
    List.Pairwise.imp (fun hab => Int.ofNat_lt.2 hab) h
  have hordered := ordered_map h
  rw [List.map_cons] at hordered ⊢
  rw [PumpSwap.calculateFeeTier_cons hordered, Schedule.ascend_eq hascending, ← List.map_cons,
    Schedule.lastUpTo_map]
  have hkey : (fun tier => (tierOf tier).marketCapLamportsThreshold) =
      fun tier : ℕ × Rates => (tier.1 : ℤ) := rfl
  rw [hkey]
  cases Schedule.lastUpTo (fun tier : ℕ × Rates => (tier.1 : ℤ)) marketCap (first :: tiers) <;> rfl

/-- The rates that are read are those a canonical pool pays. -/
theorem selectRates_eq_ok {quote creator baseMint : Pubkey} {poolAuthority : Pubkey → Pubkey}
    {supply baseReserve quoteReserve marketCap : ℤ} (hcanonical : poolAuthority baseMint = creator)
    (hcap : poolMarketCapLamports supply baseReserve quoteReserve = some marketCap)
    (htiers : AscendingTiers tiers) (hstable : AscendingTiers stable)
    (h : selectRates flat tiers stable exotic quote marketCap = .ok rates) :
    computePumpswapFeeBasisPoints poolAuthority
      (some ⟨flat.basisPoints, tiers.map tierOf, stable.map tierOf, some exotic.basisPoints⟩)
      creator baseMint (some supply) baseReserve quoteReserve quote = rates.basisPoints := by
  unfold computePumpswapFeeBasisPoints
  simp only [hcanonical, hcap, ne_eq, not_true_eq_false, if_false]
  unfold selectRates at h
  dsimp only at h
  split at h
  · rename_i hquote
    rw [if_neg (by rcases hquote with hnative | husdc <;> simp_all)]
    have hschedule : (if isNativeQuote quote = false ∧ stable.map tierOf ≠ [] then
        stable.map tierOf else tiers.map tierOf) =
        (if isNativeQuote quote = false ∧ stable ≠ [] then stable else tiers).map tierOf := by
      simp only [ne_eq, List.map_eq_nil_iff]
      split <;> rfl
    have hascending : AscendingTiers
        (if isNativeQuote quote = false ∧ stable ≠ [] then stable else tiers) := by
      split
      · exact hstable
      · exact htiers
    rw [hschedule]
    split at h
    · contradiction
    · rename_i first rest hfirst
      rw [hfirst] at hascending ⊢
      obtain rfl := Except.ok.inj h
      rw [calculateFeeTier_map hascending]
      rfl
  · rename_i hquote
    rw [not_or, Bool.not_eq_true] at hquote
    rw [if_pos hquote]
    obtain rfl := Except.ok.inj h
    unfold exoticOrFlatFees
    by_cases hexotic : exotic = (0, 0, 0)
    · simp [hexotic, Rates.basisPoints]
    · have hne : exotic.basisPoints ≠ ⟨0, 0, 0⟩ := by
        intro hzero
        apply hexotic
        obtain ⟨lp, protocol, creator⟩ := exotic
        simpa [Rates.basisPoints] using hzero
      simp [hexotic, hne]

end Agreement

/-! ### The rates of a canonical pool -/

/-- On an account that both decoders take, the current PumpFun rates are the protocol and
creator rates of any canonical pool with that quote and market cap. -/
theorem decodePumpfunCurrentFees_agrees {data : List UInt8} {quote : Pubkey} {marketCap : ℤ}
    {config : PumpSwapFeeConfig} {fees : PumpFunCurrentFees}
    (hconfig : decodeFeeConfig data = some config)
    (hfees : decodePumpfunCurrentFees data quote marketCap 0 = .ok fees)
    {poolAuthority : Pubkey → Pubkey} {creator baseMint : Pubkey}
    (hcanonical : poolAuthority baseMint = creator) {supply baseReserve quoteReserve : ℤ}
    (hcap : poolMarketCapLamports supply baseReserve quoteReserve = some marketCap) :
    let selected := computePumpswapFeeBasisPoints poolAuthority (some config) creator baseMint
      (some supply) baseReserve quoteReserve quote
    selected.protocolFeeBasisPoints = fees.protocolFeeBps ∧
      selected.coinCreatorFeeBasisPoints = fees.creatorFeeBps := by
  unfold decodePumpfunCurrentFees at hfees
  obtain ⟨_, -, hfees⟩ := bind_eq_ok.1 hfees
  obtain ⟨_, -, hfees⟩ := bind_eq_ok.1 hfees
  obtain ⟨⟨flat, tiers, stable, exotic⟩, hschedule, hfees⟩ := bind_eq_ok.1 hfees
  obtain ⟨rates, hrates, hfees⟩ := bind_eq_ok.1 hfees
  obtain ⟨_, -, hfees⟩ := bind_eq_ok.1 hfees
  obtain ⟨rfl, htiers, hstable⟩ := decodeFeeConfig_of_readSchedule hschedule hconfig
  rw [pure_eq_ok] at hfees
  obtain rfl := hfees
  dsimp only
  rw [selectRates_eq_ok hcanonical hcap htiers hstable hrates]
  exact ⟨rfl, rfl⟩

section Sample

open Wire (littleEndian)

/-- A schedule of two tiers for native quotes and one for stable ones. -/
def sampleSchedule : List UInt8 :=
  let rates (lp protocol creator : ℕ) :=
    littleEndian 8 lp ++ littleEndian 8 protocol ++ littleEndian 8 creator
  let tier (threshold lp protocol creator : ℕ) :=
    littleEndian 16 threshold ++ rates lp protocol creator
  feeConfigDiscriminator ++ List.replicate 33 0 ++ rates 25 5 0 ++
    littleEndian 4 2 ++ tier 0 2 93 30 ++ tier 1000 20 5 80 ++ littleEndian 4 1 ++ tier 0 20 5 60

theorem decodePumpfunCurrentFees_agrees_sample :
    ∃ config fees, decodeFeeConfig sampleSchedule = some config ∧
      decodePumpfunCurrentFees sampleSchedule .default 1500 0 = .ok fees ∧
      let selected := computePumpswapFeeBasisPoints id (some config) .default .default (some 10) 1
        150 .default
      selected.protocolFeeBasisPoints = fees.protocolFeeBps ∧
        selected.coinCreatorFeeBasisPoints = fees.creatorFeeBps := by
  obtain ⟨config, hconfig⟩ :=
    Option.isSome_iff_exists.1 (show (decodeFeeConfig sampleSchedule).isSome by decide +kernel)
  obtain ⟨fees, hfees⟩ := exists_of_isOk
    (show (decodePumpfunCurrentFees sampleSchedule .default 1500 0).isOk by decide +kernel)
  refine ⟨config, fees, hconfig, hfees, ?_⟩
  have hcap : poolMarketCapLamports 10 1 150 = some 1500 := by decide
  exact @decodePumpfunCurrentFees_agrees _ _ _ _ _ hconfig hfees id .default .default rfl 10 1
    150 hcap

end Sample

end SolTrade.PumpFun
