import SolTrade.Clmm.TickMath

/-!
Tick prices of the Whirlpool.

Ticks below zero are scaled down from `2 ^ 64`. Ticks from zero on are scaled up
from `2 ^ 96` and lose their lower 32 bits at the end, so their prices are
distinct only because neighbours differ by more than `2 ^ 32` before that.
-/

namespace SolTrade.Whirlpool

open Library
open Clmm (minTick maxTick minTick_le_maxTick)

def minSqrtPrice : ℤ := 4295048016
def maxSqrtPrice : ℤ := 79226673515401279992447579055

def positive : List ℕ :=
  [79232123823359799118286999567, 79236085330515764027303304731, 79244008939048815603706035061,
    79259858533276714757314932305, 79291567232598584799939703904, 79355022692464371645785046466,
    79482085999252804386437311141, 79736823300114093921829183326, 80248749790819932309965073892,
    81282483887344747381513967011, 83390072131320151908154831281, 87770609709833776024991924138,
    97234110755111693312479820773, 119332217159966728226237229890, 179736315981702064433883588727,
    407748233172238350107850275304, 2098478828474011932436660412517,
    55581415166113811149459800483533, 38992368544603139932233054999993551]

def negative : List ℕ :=
  [18445821805675392311, 18444899583751176498, 18443055278223354162, 18439367220385604838,
    18431993317065449817, 18417254355718160513, 18387811781193591352, 18329067761203520168,
    18212142134806087854, 17980523815641551639, 17526086738831147013, 16651378430235024244,
    15030750278693429944, 12247334978882834399, 8131365268884726200, 3584323654723342297,
    696457651847595233, 26294789957452057, 37481735321082]

/-- The product of the factors at the set bits of `n`, in `w` fractional bits. -/
def scaled (w : ℕ) (factors : List ℕ) (n : ℕ) : ℕ :=
  factors.zipIdx.foldl
    (fun ratio fb => if n &&& (1 <<< fb.2) ≠ 0 then (ratio * fb.1) >>> w else ratio) (1 <<< w)

/-- The price of a tick that has passed the range check. -/
def tickPrice (tick : ℤ) : ℤ :=
  if 0 ≤ tick then (scaled 96 positive tick.natAbs >>> 32 : ℕ)
  else scaled 64 negative tick.natAbs

def whirlpoolSqrtPriceAtTick (tick : ℤ) : Except ValueError ℤ := do
  require (minTick ≤ tick ∧ tick ≤ maxTick) .whirlpoolTickOutsideRange
  return tickPrice tick

/-- Twenty halvings exhaust the tick range; every tick tested lies in it. -/
def whirlpoolTickAtSqrtPrice (price : ℤ) : Except ValueError ℤ := do
  let _ ← unsigned price u128
  require (minSqrtPrice ≤ price ∧ price ≤ maxSqrtPrice) .whirlpoolPriceOutsideRange
  return bisectLast (fun middle => decide (tickPrice middle ≤ price)) 20 minTick maxTick

theorem scaled_eq_bitScale (w n : ℕ) (factors : List ℕ) :
    scaled w factors n = bitScale (2 ^ w) factors n (2 ^ w) := by
  rw [scaled, BitScale.foldl_zipIdx 0 n factors w, Nat.pow_zero, Nat.div_one, Nat.one_shiftLeft]

theorem negative_le : ∀ f ∈ negative, f ≤ 2 ^ 64 := by decide

theorem le_positive : ∀ f ∈ positive, 2 ^ 96 ≤ f := by decide

theorem negative_stepsDown :
    BitScale.stepsDown (2 ^ 64) negative (2 ^ 64) (2 ^ 64) = true := by decide +kernel

theorem positive_stepsUp :
    BitScale.stepsUp (2 ^ 96) (2 ^ 32) positive (2 ^ 96) (2 ^ 96) = true := by decide +kernel

theorem negative_succ_lt {n : ℕ} (hn : n < 443636) :
    scaled 64 negative (n + 1) < scaled 64 negative n := by
  rw [scaled_eq_bitScale, scaled_eq_bitScale]
  refine BitScale.succ_lt_of_stepsDown negative negative_le negative_stepsDown ?_
  have : (2 : ℕ) ^ negative.length = 524288 := by decide
  omega

theorem positive_add_le_succ {n : ℕ} (hn : n < 443636) :
    scaled 96 positive n + 2 ^ 32 ≤ scaled 96 positive (n + 1) := by
  rw [scaled_eq_bitScale, scaled_eq_bitScale]
  refine BitScale.add_gap_le_succ_of_stepsUp positive (by decide) le_positive positive_stepsUp ?_
  have : (2 : ℕ) ^ positive.length = 524288 := by decide
  omega

theorem tickPrice_of_neg {n : ℕ} (hn : 0 < n) : tickPrice (-n) = scaled 64 negative n := by
  rw [tickPrice, if_neg (by omega), Int.natAbs_neg, Int.natAbs_natCast]

theorem tickPrice_of_nonneg (n : ℕ) : tickPrice n = (scaled 96 positive n / 2 ^ 32 : ℕ) := by
  rw [tickPrice, if_pos (by omega), Int.natAbs_natCast, Nat.shiftRight_eq_div_pow]

/-- A tick and the one above it. -/
theorem tickPrice_lt_succ {t : ℤ} (ht : minTick ≤ t) (ht' : t < maxTick) :
    tickPrice t < tickPrice (t + 1) := by
  have hlo : -443636 ≤ t := ht
  have hhi : t < 443636 := ht'
  rcases lt_trichotomy t (-1) with hneg | rfl | hpos
  · obtain ⟨n, rfl⟩ : ∃ n : ℕ, t = -((n + 1 : ℕ) : ℤ) := ⟨(-t).toNat - 1, by omega⟩
    have hsucc : -((n + 1 : ℕ) : ℤ) + 1 = -(n : ℤ) := by omega
    rw [hsucc, tickPrice_of_neg (by omega), tickPrice_of_neg (by omega)]
    exact_mod_cast negative_succ_lt (by omega)
  · decide +kernel
  · obtain ⟨n, rfl⟩ : ∃ n : ℕ, t = n := ⟨t.toNat, by omega⟩
    have hgap := positive_add_le_succ (n := n) (by omega)
    rw [tickPrice_of_nonneg, show (n : ℤ) + 1 = (n + 1 : ℕ) by omega, tickPrice_of_nonneg]
    have : scaled 96 positive n / 2 ^ 32 + 1 ≤ scaled 96 positive (n + 1) / 2 ^ 32 := by omega
    omega

theorem tickPrice_strictMono {a b : ℤ} (ha : minTick ≤ a) (hab : a < b) (hb : b ≤ maxTick) :
    tickPrice a < tickPrice b := by
  induction b, (show a + 1 ≤ b from hab) using Int.leInduction with
  | base => exact tickPrice_lt_succ ha (by omega)
  | succ b hle ih =>
      have hstep := tickPrice_lt_succ (t := b) (by omega) (by omega)
      exact (ih (by omega) (by omega)).trans hstep

theorem tickPrice_minTick : tickPrice minTick = minSqrtPrice := by decide +kernel

theorem tickPrice_maxTick : tickPrice maxTick = maxSqrtPrice := by decide +kernel

/-- The tick prices as a table. -/
def tickTable : PriceTable :=
  { value := tickPrice, lo := minTick, hi := maxTick, nonempty := minTick_le_maxTick
    increasing := tickPrice_strictMono }

@[simp] theorem whirlpoolSqrtPriceAtTick_eq_ok {t p : ℤ} :
    whirlpoolSqrtPriceAtTick t = .ok p ↔ (minTick ≤ t ∧ t ≤ maxTick) ∧ tickPrice t = p := by
  simp only [whirlpoolSqrtPriceAtTick, bind_eq_ok, require_eq_ok, pure_eq_ok]
  simp

theorem whirlpoolTickAtSqrtPrice_spec {p t : ℤ} (h : whirlpoolTickAtSqrtPrice p = .ok t) :
    tickTable.Holds t p := by
  simp only [whirlpoolTickAtSqrtPrice, bind_eq_ok, unsigned_eq_ok, require_eq_ok, pure_eq_ok] at h
  obtain ⟨_, _, _, ⟨hlo, -⟩, rfl⟩ := h
  rw [← tickPrice_minTick] at hlo
  exact tickTable.holds_bisectLast (by decide) hlo

/-- The accepted prices. -/
theorem whirlpoolTickAtSqrtPrice_defined {p : ℤ} :
    (∃ t, whirlpoolTickAtSqrtPrice p = .ok t) ↔ minSqrtPrice ≤ p ∧ p ≤ maxSqrtPrice := by
  have hmin : minSqrtPrice = 4295048016 := rfl
  have hmax : maxSqrtPrice = 79226673515401279992447579055 := rfl
  have hu : u128 = 340282366920938463463374607431768211455 := rfl
  simp only [whirlpoolTickAtSqrtPrice, bind_eq_ok, unsigned_eq_ok, require_eq_ok, pure_eq_ok]
  constructor
  · rintro ⟨_, _, _, _, hrange, -⟩
    exact hrange
  · intro hrange
    exact ⟨_, _, ⟨⟨by omega, by omega⟩, rfl⟩, (), hrange, rfl⟩

theorem whirlpool_floorInverse :
    PriceTable.FloorInverse minTick maxTick whirlpoolSqrtPriceAtTick whirlpoolTickAtSqrtPrice :=
  PriceTable.floorInverse (T := tickTable) whirlpoolSqrtPriceAtTick_eq_ok
    whirlpoolTickAtSqrtPrice_spec

/-- Both programs: the price of a tick increases strictly over the whole range,
the tick of an accepted price is the greatest one whose price is at most it, and
so it inverts the price of a tick. Every price from the first tick's to the last
one's is accepted, for the CLMM without the last. -/
theorem tick_floorInverse :
    (PriceTable.FloorInverse minTick maxTick Clmm.clmmSqrtPriceAtTick Clmm.clmmTickAtSqrtPrice ∧
        ∀ p, (∃ t, Clmm.clmmTickAtSqrtPrice p = .ok t) ↔
          Clmm.tickPrice minTick ≤ p ∧ p < Clmm.tickPrice maxTick) ∧
      PriceTable.FloorInverse minTick maxTick whirlpoolSqrtPriceAtTick whirlpoolTickAtSqrtPrice ∧
        ∀ p, (∃ t, whirlpoolTickAtSqrtPrice p = .ok t) ↔
          tickPrice minTick ≤ p ∧ p ≤ tickPrice maxTick := by
  rw [Clmm.tickPrice_minTick, Clmm.tickPrice_maxTick, tickPrice_minTick, tickPrice_maxTick]
  exact ⟨⟨Clmm.clmm_floorInverse, fun _ => Clmm.clmmTickAtSqrtPrice_defined⟩,
    whirlpool_floorInverse, fun _ => whirlpoolTickAtSqrtPrice_defined⟩

/-- A tick and a price fit together: the price lies in the closed price interval
of the tick. The tick above must exist. -/
def TickConsistent (tick price : ℤ) : Prop := tickTable.Brackets tick price

instance (tick price : ℤ) : Decidable (TickConsistent tick price) :=
  inferInstanceAs (Decidable (tickTable.Brackets tick price))

end SolTrade.Whirlpool
