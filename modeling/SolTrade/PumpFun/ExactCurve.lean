import SolTrade.Library.ConstantProduct
import SolTrade.Numeric

/-!
The checked arithmetic of the bonding curve.

The values of a curve are checked to be `u128`s and `u64`s, and where a product or a sum leaves
its range a fallback is returned. Between `u64` values that does not happen, and a purchase that
is sold again at once returns at most what the curve has received.
-/

namespace SolTrade.PumpFun

open Library ConstantProduct

inductive CurveError where
  | outsideUnsignedRange (label : String)
  deriving DecidableEq

def CurveError.text : CurveError → String
  | outsideUnsignedRange label => label ++ " outside unsigned range"

def checkUnsigned (n maximum : ℤ) (label : String) : Except CurveError Unit :=
  require (0 ≤ n ∧ n ≤ maximum) (.outsideUnsignedRange label)

/-- What of an amount is paid into the curve. -/
def curveIn (amount totalFeeBps : ℤ) : ℤ := max 0 (amount * 10000 / (totalFeeBps + 10000) - 1)

def buyExact (virtualToken virtualQuote realToken amount : ℤ) (totalFeeBps : ℤ := 95) :
    Except CurveError ℤ := do
  checkUnsigned virtualToken u128 "reserve"
  checkUnsigned virtualQuote u128 "reserve"
  checkUnsigned realToken u128 "reserve"
  checkUnsigned amount u64 "amount"
  checkUnsigned totalFeeBps u64 "fee"
  if amount = 0 ∨ virtualToken = 0 then return 0
  let curveIn := curveIn amount totalFeeBps
  if curveIn = 0 then return 0
  let denominator := virtualQuote + curveIn
  if denominator = 0 ∨ denominator > u128 then return 0
  let numerator := curveIn * virtualToken
  return min (min (if numerator > u128 then 0 else numerator / denominator) realToken) u64

def sellExact (virtualToken virtualQuote amount : ℤ) (totalFeeBps : ℤ := 95) :
    Except CurveError ℤ := do
  checkUnsigned virtualToken u128 "reserve"
  checkUnsigned virtualQuote u128 "reserve"
  checkUnsigned amount u64 "amount"
  checkUnsigned totalFeeBps u64 "fee"
  if amount = 0 ∨ virtualToken = 0 then return 0
  let numerator := amount * virtualQuote
  if numerator > u128 then return u64
  let denominator := if virtualToken + amount > u128 then 1 else virtualToken + amount
  let gross := numerator / denominator
  let fee := (gross * totalFeeBps + 9999) / 10000
  return min (max 0 (gross - fee)) u64

variable {virtualToken virtualQuote realToken amount fee t : ℤ}

theorem checkUnsigned_of {n maximum : ℤ} {label : String} (h : 0 ≤ n ∧ n ≤ maximum) :
    checkUnsigned n maximum label = .ok () :=
  require_of h

theorem u64_le_u128 : u64 ≤ u128 := by decide

/-- A product of `u64`s does not leave the range. -/
theorem mul_le_u128 {a b : ℤ} (ha : a ≤ u64) (hb₀ : 0 ≤ b) (hb : b ≤ u64) : a * b ≤ u128 :=
  calc a * b ≤ u64 * u64 := mul_le_mul ha hb hb₀ (by decide)
    _ ≤ u128 := by decide

theorem curveIn_nonneg : 0 ≤ curveIn amount fee := le_max_left _ _

theorem curveIn_le (hamount : 0 ≤ amount) (hfee : 0 ≤ fee) : curveIn amount fee ≤ amount := by
  have hnet : amount * 10000 / (fee + 10000) ≤ amount := by
    apply Int.ediv_le_of_le_mul (by omega)
    exact mul_le_mul_of_nonneg_left (by omega) hamount
  simp only [curveIn]
  omega

/-- A purchase between `u64`s buys what the curve yields, as far as it holds it. -/
theorem buyExact_eq_ok (hvt : 0 ≤ virtualToken ∧ virtualToken ≤ u64)
    (hvq : 0 ≤ virtualQuote ∧ virtualQuote ≤ u64) (hrt : 0 ≤ realToken ∧ realToken ≤ u64)
    (hamount : 0 ≤ amount ∧ amount ≤ u64) (hfee : 0 ≤ fee ∧ fee ≤ u64) :
    buyExact virtualToken virtualQuote realToken amount fee =
      .ok (min (bought virtualToken virtualQuote (curveIn amount fee)) realToken) := by
  have hle := curveIn_le hamount.1 hfee.1
  have hin : 0 ≤ curveIn amount fee := curveIn_nonneg
  have hsum : virtualQuote + curveIn amount fee ≤ u128 :=
    (add_le_add hvq.2 (hle.trans hamount.2)).trans (by decide)
  have hproduct := mul_le_u128 (hle.trans hamount.2) hvt.1 hvt.2
  have hwide {n : ℤ} (h : 0 ≤ n ∧ n ≤ u64) : 0 ≤ n ∧ n ≤ u128 := ⟨h.1, h.2.trans u64_le_u128⟩
  simp only [buyExact, checkUnsigned_of (hwide hvt), checkUnsigned_of (hwide hvq),
    checkUnsigned_of (hwide hrt), checkUnsigned_of hamount, checkUnsigned_of hfee, ok_bind]
  by_cases hnone : amount = 0 ∨ virtualToken = 0
  · have hzero : bought virtualToken virtualQuote (curveIn amount fee) = 0 := by
      rcases hnone with rfl | rfl
      · simp [bought, curveIn]
      · simp [bought]
    rw [if_pos hnone, hzero, min_eq_left hrt.1]
    rfl
  rw [if_neg hnone]
  by_cases hpaid : curveIn amount fee = 0
  · simp [hpaid, bought, hrt.1]
  rw [if_neg hpaid, if_neg (by omega), if_neg (by omega)]
  rw [min_eq_left ((min_le_right _ _).trans hrt.2)]
  rfl

/-- What is sold again returns at most what was paid for it. -/
theorem sellExact_le {paid sellFee : ℤ} (ht : 0 ≤ t) (htv : t ≤ virtualToken)
    (hvt : virtualToken ≤ u64) (hpaid : 0 ≤ paid ∧ paid ≤ u64)
    (hvq : 0 ≤ virtualQuote ∧ virtualQuote ≤ u64) (hsellFee : 0 ≤ sellFee ∧ sellFee ≤ u64)
    (hcost : t * (virtualQuote + paid) ≤ paid * virtualToken) :
    ∃ returned, sellExact (virtualToken - t) (virtualQuote + paid) t sellFee = .ok returned ∧
      returned ≤ paid := by
  have hnumerator : t * (virtualQuote + paid) ≤ u128 :=
    hcost.trans (mul_le_u128 hpaid.2 (ht.trans htv) hvt)
  have hquote : virtualQuote + paid ≤ u128 := (add_le_add hvq.2 hpaid.2).trans (by decide)
  have hwide := u64_le_u128
  have htoken : 0 ≤ virtualToken - t ∧ virtualToken - t ≤ u128 := by omega
  have hreserve : 0 ≤ virtualQuote + paid ∧ virtualQuote + paid ≤ u128 := by omega
  have hsold : 0 ≤ t ∧ t ≤ u64 := by omega
  simp only [sellExact, checkUnsigned_of htoken, checkUnsigned_of hreserve, checkUnsigned_of hsold,
    checkUnsigned_of hsellFee, ok_bind]
  by_cases hnone : t = 0 ∨ virtualToken - t = 0
  · exact ⟨0, if_pos hnone, hpaid.1⟩
  rw [if_neg hnone, if_neg (by omega), sub_add_cancel, if_neg (by omega)]
  refine ⟨_, rfl, ?_⟩
  have hgross : t * (virtualQuote + paid) / virtualToken ≤ paid :=
    Int.ediv_le_of_le_mul (by omega) hcost
  have hgross₀ : 0 ≤ t * (virtualQuote + paid) / virtualToken :=
    Rounding.floor_nonneg (by omega) (mul_nonneg ht (by omega))
  have hfee : 0 ≤ t * (virtualQuote + paid) / virtualToken * sellFee :=
    mul_nonneg hgross₀ hsellFee.1
  omega

/-- A purchase between `u64`s. Selling it again at once, at any fee, returns at most what the curve
has received; it leaves something in a curve with both reserves, and the product of the reserves
does not decrease. -/
theorem buyExact_then_sellExact {sellFee : ℤ} (hvt : 0 ≤ virtualToken ∧ virtualToken ≤ u64)
    (hvq : 0 ≤ virtualQuote ∧ virtualQuote ≤ u64) (hrt : 0 ≤ realToken ∧ realToken ≤ u64)
    (hamount : 0 ≤ amount ∧ amount ≤ u64) (hfee : 0 ≤ fee ∧ fee ≤ u64)
    (hsellFee : 0 ≤ sellFee ∧ sellFee ≤ u64) :
    ∃ t, buyExact virtualToken virtualQuote realToken amount fee = .ok t ∧
      (∃ returned, sellExact (virtualToken - t) (virtualQuote + curveIn amount fee) t sellFee =
          .ok returned ∧ returned ≤ curveIn amount fee ∧ returned ≤ amount) ∧
      (0 < virtualQuote → 0 < virtualToken → t < virtualToken) ∧
      virtualToken * virtualQuote ≤ (virtualToken - t) * (virtualQuote + curveIn amount fee) := by
  refine ⟨_, buyExact_eq_ok hvt hvq hrt hamount hfee, ?_⟩
  have hle := curveIn_le hamount.1 hfee.1
  have hin : 0 ≤ curveIn amount fee := curveIn_nonneg
  generalize curveIn amount fee = paid at *
  rcases hin.eq_or_lt with rfl | hpaid
  · have hzero : bought virtualToken virtualQuote 0 = 0 := by simp [bought]
    rw [hzero, min_eq_left hrt.1]
    obtain ⟨returned, hsell, hreturned⟩ : ∃ returned,
        sellExact (virtualToken - 0) (virtualQuote + 0) 0 sellFee = .ok returned ∧ returned ≤ 0 :=
      sellExact_le le_rfl hvt.1 hvt.2 ⟨le_rfl, by decide⟩ hvq hsellFee (by simp)
    exact ⟨⟨returned, hsell, hreturned, by omega⟩, fun _ h => h, by simp⟩
  have hbought : 0 ≤ bought virtualToken virtualQuote paid :=
    bought_nonneg hpaid.le hvt.1 (by omega)
  have hcost : min (bought virtualToken virtualQuote paid) realToken * virtualQuote ≤
      paid * (virtualToken - min (bought virtualToken virtualQuote paid) realToken) :=
    (le_bought_iff (by omega)).1 (min_le_left _ _)
  have ht : 0 ≤ min (bought virtualToken virtualQuote paid) realToken := le_min hbought hrt.1
  have hlt : 0 < virtualQuote → 0 < virtualToken →
      min (bought virtualToken virtualQuote paid) realToken < virtualToken :=
    fun hquote htoken => (min_le_left _ _).trans_lt (bought_lt hpaid.le htoken hquote)
  generalize min (bought virtualToken virtualQuote paid) realToken = t at *
  have hexact : t * (virtualQuote + paid) ≤ paid * virtualToken := by linarith
  have htv : t ≤ virtualToken := by
    by_contra hmore
    nlinarith
  obtain ⟨returned, hsell, hreturned⟩ :=
    sellExact_le ht htv hvt.2 ⟨hpaid.le, hle.trans hamount.2⟩ hvq hsellFee hexact
  exact ⟨⟨returned, hsell, hreturned, hreturned.trans hle⟩, hlt, by linarith⟩

theorem buyExact_then_sellExact_small :
    ∃ t, buyExact 1000 30 800 100 95 = .ok t ∧
      (∃ returned, sellExact (1000 - t) (30 + curveIn 100 95) t 95 = .ok returned ∧
          returned ≤ curveIn 100 95 ∧ returned ≤ 100) ∧
      ((0 : ℤ) < 30 → (0 : ℤ) < 1000 → t < 1000) ∧
      (1000 : ℤ) * 30 ≤ (1000 - t) * (30 + curveIn 100 95) :=
  buyExact_then_sellExact (by decide) (by decide) (by decide) (by decide) (by decide) (by decide)

/-- Without virtual tokens nothing is bought, and nothing is not less than what there is. -/
theorem buyExact_without_tokens :
    buyExact 0 1 1 1000 95 = .ok 0 ∧ (0 : ℤ) < 1 ∧ ¬ (0 : ℤ) < 0 := by decide

end SolTrade.PumpFun
