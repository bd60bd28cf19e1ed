import Mathlib.Algebra.Order.BigOperators.Group.List
import SolTrade.LaunchLab.TransferFee
import SolTrade.Library.ConstantProduct

/-!
A purchase that sells out the curve.

What it pays is found by inverting, in turn, the curve, the fee of the curve and the transfer fee
of the quote mint. Each inversion is exact, so the payment is the least one that sells the curve
out.
-/

namespace SolTrade.LaunchLab

open Library ConstantProduct
open Route (TokenTransferFee LaunchLabQuoteState LaunchLabQuote launchLabReserves launchLabGraduate
  launchLabFill quoteLaunchlabExactIn)

variable {p : LaunchLabQuoteState} {amount slippageBps shareFeeRate base quote rate x y k : ℤ}

/-! ### Without a cap -/

/-- What is left of a payment after the transfer fee and the fee of the curve. -/
def netPayment (p : LaunchLabQuoteState) (rate amount : ℤ) : ℤ :=
  let vault := amount - feeOn p.quoteTransferFee amount
  vault - ceil (vault * rate) 1000000

/-- What a purchase yields before the cap. -/
def uncappedOut (p : LaunchLabQuoteState) (amount shareFeeRate : ℤ) : Except ValueError ℤ := do
  let (base, quote, rate) ← launchLabReserves p amount 0 shareFeeRate
  let vault := amount - (← p.quoteTransferFee.calculate amount)
  let net := vault - ceil (vault * rate) 1000000
  let denominator ← unsigned (quote + net) u128
  require (denominator ≠ 0) .emptyCurveReserves
  let product ← unsigned (net * base) u128
  return product / denominator

/-- The reserves and the rate of a curve do not depend on the payment or on the slippage. -/
theorem launchLabReserves_of {reserves : ℤ × ℤ × ℤ} {s : ℤ}
    (h : launchLabReserves p amount slippageBps shareFeeRate = .ok reserves)
    (hx : 0 < x ∧ x ≤ u64) (hs : 0 ≤ s ∧ s ≤ 9999) :
    launchLabReserves p x s shareFeeRate = .ok reserves := by
  simp only [launchLabReserves, bind_eq_ok, unsigned_eq_ok, require_eq_ok] at h ⊢
  obtain ⟨_, -, _, -, _, hcurve, _, hfields, _, hunderflow, _, hquote, _, hrates, _, hrate, _, -,
    hreserves⟩ := h
  exact ⟨_, ⟨⟨hx.1.le, hx.2⟩, rfl⟩, (), hx.1.ne', (), hcurve, _, hfields, (), hunderflow, _, hquote,
    _, hrates, (), hrate, (), hs, hreserves⟩

theorem launchLabReserves_spec
    (h : launchLabReserves p amount slippageBps shareFeeRate = .ok (base, quote, rate)) :
    (0 < amount ∧ amount ≤ u64) ∧ (0 ≤ slippageBps ∧ slippageBps ≤ 9999) ∧
      base = p.virtualBase - p.realBase ∧ quote = p.virtualQuote + p.realQuote ∧
      (0 ≤ quote ∧ quote ≤ u128) ∧ 0 ≤ base ∧ 0 ≤ rate ∧ rate ≤ 1000000 := by
  simp only [launchLabReserves, bind_eq_ok, unsigned_eq_ok, require_eq_ok, pure_eq_ok,
    Prod.mk.injEq] at h
  obtain ⟨_, ⟨hamount, -⟩, _, hne, _, -, _, -, _, hunderflow, _, ⟨hquote, rfl⟩, rates, hrates, _,
    hrate, _, hs, rfl, rfl, rfl⟩ := h
  have hnonneg : 0 ≤ rates.sum := by
    apply List.sum_nonneg
    intro r hr
    obtain ⟨_, -, hr'⟩ := exists_of_forall₂ (mapM_eq_ok.1 hrates) hr
    exact (unsigned_eq_ok.1 hr').2 ▸ (unsigned_eq_ok.1 hr').1.1
  exact ⟨⟨by omega, hamount.2⟩, hs, rfl, rfl, hquote, by omega, hnonneg, hrate⟩

theorem realBase_nonneg {reserves : ℤ × ℤ × ℤ}
    (h : launchLabReserves p amount slippageBps shareFeeRate = .ok reserves) : 0 ≤ p.realBase := by
  simp only [launchLabReserves, bind_eq_ok, unsigned_eq_ok, require_eq_ok] at h
  obtain ⟨_, -, _, -, _, -, _, hfields, -⟩ := h
  obtain ⟨_, hb⟩ := forall_of_forIn hfields p.realBase (by simp)
  exact (unsigned_eq_ok.1 hb).1.1

/-! ### The payment that sells the curve out -/

/-- What the curve, its fee and the transfer fee make of the rest of the curve. -/
def sellOutPayment (p : LaunchLabQuoteState) (base quote rate remaining : ℤ) : ℤ :=
  let required := ceil (quote * remaining) (base - remaining)
  let requiredVault := ceil (required * 1000000) (1000000 - rate)
  requiredVault + feeOver p.quoteTransferFee requiredVault

theorem le_sub_fee_iff {vault : ℤ} (hrate : rate < 1000000) :
    k ≤ vault - ceil (vault * rate) 1000000 ↔ ceil (k * 1000000) (1000000 - rate) ≤ vault := by
  rw [ceil, Rounding.sub_ceil_part vault rate (by norm_num), Rounding.le_floor_iff (by norm_num),
    ceil, Rounding.ceil_le_iff (by omega)]

theorem netPayment_mono (hf : ValidFee p.quoteTransferFee) (hrate : rate < 1000000) (hx : 0 ≤ x)
    (hxy : x ≤ y) : netPayment p rate x ≤ netPayment p rate y := by
  simp only [netPayment]
  rw [le_sub_fee_iff hrate]
  exact ((le_sub_fee_iff hrate).1 le_rfl).trans (rest_mono hf hx hxy)

theorem netPayment_nonneg (hf : ValidFee p.quoteTransferFee) (hrate : rate ≤ 1000000)
    (hx : 0 ≤ x) : 0 ≤ netPayment p rate x := by
  have hvault := feeOn_le hf hx
  exact sub_nonneg.2 (Rounding.ceil_part_le (by norm_num) (sub_nonneg.2 hvault) hrate)

/-- The payments that sell the curve out. -/
theorem reaches_iff {remaining : ℤ} (hf : ValidFee p.quoteTransferFee) (hrate : rate < 1000000)
    (hremaining : 0 < remaining) (hafter : remaining < base) (hquote : 0 < quote) (hx : 0 ≤ x) :
    remaining ≤ bought base quote (netPayment p rate x) ↔
      sellOutPayment p base quote rate remaining ≤ x := by
  have hnet := netPayment_nonneg hf hrate.le hx
  have hrequired : 0 < ceil (quote * remaining) (base - remaining) := by
    rw [ceil, Rounding.lt_ceil_iff (by omega), zero_mul]
    exact mul_pos hquote hremaining
  have hvault : 1 ≤ ceil (ceil (quote * remaining) (base - remaining) * 1000000)
      (1000000 - rate) := by
    rw [← Int.zero_add 1, Int.add_one_le_iff, ceil, Rounding.lt_ceil_iff (by omega), zero_mul]
    omega
  calc remaining ≤ bought base quote (netPayment p rate x)
      ↔ remaining * quote ≤ netPayment p rate x * (base - remaining) := le_bought_iff (by omega)
    _ ↔ ceil (quote * remaining) (base - remaining) ≤ netPayment p rate x := by
        rw [ceil, Rounding.ceil_le_iff (by omega), mul_comm]
    _ ↔ _ := le_sub_fee_iff hrate
    _ ↔ sellOutPayment p base quote rate remaining ≤ x := le_rest_iff hf hvault

/-! ### What a purchase pays -/

/-- The checks on a payment. -/
structure PaymentFits (p : LaunchLabQuoteState) (base quote rate amount : ℤ) : Prop where
  fee : ValidFee p.quoteTransferFee
  denominator_pos : 0 < quote + netPayment p rate amount
  denominator_le : quote + netPayment p rate amount ≤ u128
  product_nonneg : 0 ≤ netPayment p rate amount * base
  product_le : netPayment p rate amount * base ≤ u128

theorem uncappedOut_eq_ok {out : ℤ}
    (hreserves : launchLabReserves p amount 0 shareFeeRate = .ok (base, quote, rate)) :
    uncappedOut p amount shareFeeRate = .ok out ↔ PaymentFits p base quote rate amount ∧
      out = bought base quote (netPayment p rate amount) := by
  have hamount := (launchLabReserves_spec hreserves).1
  simp only [uncappedOut, hreserves, ok_bind, bind_eq_ok, unsigned_eq_ok, require_eq_ok,
    pure_eq_ok, calculate_eq_ok]
  constructor
  · rintro ⟨_, ⟨hf, -, rfl⟩, _, ⟨hdenominator, rfl⟩, _, hne, _, ⟨hproduct, rfl⟩, rfl⟩
    exact ⟨⟨hf, lt_of_le_of_ne hdenominator.1 hne.symm, hdenominator.2, hproduct.1, hproduct.2⟩,
      rfl⟩
  · rintro ⟨hfits, rfl⟩
    exact ⟨_, ⟨hfits.fee, ⟨hamount.1.le, hamount.2⟩, rfl⟩, _,
      ⟨⟨hfits.denominator_pos.le, hfits.denominator_le⟩, rfl⟩, (), hfits.denominator_pos.ne', _,
      ⟨⟨hfits.product_nonneg, hfits.product_le⟩, rfl⟩, rfl⟩

theorem launchLabFill_eq_ok {filled : ℤ × ℤ} (hamount : 0 ≤ amount ∧ amount ≤ u64) :
    launchLabFill p amount true base quote rate = .ok filled ↔
      PaymentFits p base quote rate amount ∧ ∃ actual out fee,
        launchLabGraduate p amount base quote rate (bought base quote (netPayment p rate amount)) =
          .ok (actual, out) ∧ (0 ≤ out ∧ out ≤ u64) ∧ p.baseTransferFee.calculate out = .ok fee ∧
          filled = (actual, out - fee) := by
  simp only [launchLabFill, if_true, bind_eq_ok, unsigned_eq_ok, require_eq_ok, pure_eq_ok,
    Prod.exists]
  constructor
  · rintro ⟨_, hfee, _, ⟨hdenominator, rfl⟩, _, hne, _, ⟨hproduct, rfl⟩, actual, out, hgraduate, _,
      ⟨hout, rfl⟩, fee, hbase, rfl⟩
    obtain ⟨hf, -, rfl⟩ := calculate_eq_ok.1 hfee
    exact ⟨⟨hf, lt_of_le_of_ne hdenominator.1 hne.symm, hdenominator.2, hproduct.1, hproduct.2⟩,
      actual, out, fee, hgraduate, hout, hbase, rfl⟩
  · rintro ⟨hfits, actual, out, fee, hgraduate, hout, hbase, rfl⟩
    exact ⟨_, calculate_eq_ok.2 ⟨hfits.fee, hamount, rfl⟩, _,
      ⟨⟨hfits.denominator_pos.le, hfits.denominator_le⟩, rfl⟩, (), hfits.denominator_pos.ne', _,
      ⟨⟨hfits.product_nonneg, hfits.product_le⟩, rfl⟩, actual, out, hgraduate, _, ⟨hout, rfl⟩, fee,
      hbase, rfl⟩

/-! ### Selling out -/

/-- What is left to sell. -/
def leftToSell (p : LaunchLabQuoteState) : ℤ := p.totalBaseSell - p.realBase

/-- The payment for what is left, with the checks on the way to it. -/
def checkedPayment (p : LaunchLabQuoteState) (base quote rate : ℤ) : Except ValueError ℤ := do
  let product ← unsigned (quote * leftToSell p) u128
  let scaled ← unsigned (ceil product (base - leftToSell p) * 1000000) u128
  let requiredVault ← unsigned (ceil scaled (1000000 - rate)) u64
  unsigned (requiredVault + (← p.quoteTransferFee.calculate requiredVault true)) u64

/-- A purchase of more than what is left. -/
theorem graduate_over {out : ℤ} {filled : ℤ × ℤ} (hleft : p.realBase < p.totalBaseSell)
    (hsell : p.totalBaseSell ≠ 0) (hout : leftToSell p < out) :
    launchLabGraduate p amount base quote rate out = .ok filled ↔
      (leftToSell p < base ∧ rate ≠ 1000000) ∧
        ∃ total, checkedPayment p base quote rate = .ok total ∧
          filled = (min total amount, leftToSell p) := by
  have hover : ¬ out ≤ p.totalBaseSell - p.realBase := not_le.2 hout
  simp only [launchLabGraduate, if_neg hsell, require_of hleft.le, ok_bind, if_neg hover,
    bind_eq_ok, require_eq_ok, pure_eq_ok, checkedPayment, leftToSell, not_or, not_le, sub_pos]
  constructor
  · rintro ⟨_, hafter, product, hproduct, scaled, hscaled, vault, hvault, fee, hfee, total, htotal,
      rfl⟩
    exact ⟨hafter, total, ⟨product, hproduct, scaled, hscaled, vault, hvault, fee, hfee, htotal⟩,
      rfl⟩
  · rintro ⟨hafter, total, ⟨product, hproduct, scaled, hscaled, vault, hvault, fee, hfee, htotal⟩,
      rfl⟩
    exact ⟨(), hafter, product, hproduct, scaled, hscaled, vault, hvault, fee, hfee, total, htotal,
      rfl⟩

/-- A purchase of no more than what is left is not capped. -/
theorem graduate_within {out : ℤ} (hleft : p.realBase < p.totalBaseSell)
    (hsell : p.totalBaseSell ≠ 0) (hout : out ≤ leftToSell p) :
    launchLabGraduate p amount base quote rate out = .ok (amount, out) := by
  have hwithin : out ≤ p.totalBaseSell - p.realBase := hout
  simp only [launchLabGraduate, if_neg hsell, require_of hleft.le, ok_bind, if_pos hwithin]
  rfl

theorem checkedPayment_pos {total : ℤ} (hrate : rate < 1000000) (hremaining : 0 < leftToSell p)
    (hafter : leftToSell p < base) (hquote : 0 < quote)
    (h : checkedPayment p base quote rate = .ok total) :
    total = sellOutPayment p base quote rate (leftToSell p) ∧ 0 < total ∧ total ≤ u64 := by
  simp only [checkedPayment, bind_eq_ok, unsigned_eq_ok] at h
  obtain ⟨_, ⟨-, rfl⟩, _, ⟨-, rfl⟩, vault, ⟨hvault, hvault_eq⟩, fee, hfee, htotal, rfl⟩ := h
  have hrequired : 0 < ceil (quote * leftToSell p) (base - leftToSell p) := by
    rw [ceil, Rounding.lt_ceil_iff (by omega), zero_mul]
    exact mul_pos hquote hremaining
  have hpos : 0 < vault := by
    rw [← hvault_eq, ceil, Rounding.lt_ceil_iff (by omega), zero_mul]
    omega
  obtain ⟨hf, -, rfl⟩ := (calculate_inverse_eq_ok hpos.ne').1 hfee
  have hover : 0 ≤ feeOver p.quoteTransferFee vault :=
    CappedFee.inverse_nonneg hf.basisPoints_nonneg hf.basisPoints_le hf.maximumFee_nonneg hpos.le
  refine ⟨?_, by omega, htotal.2⟩
  rw [sellOutPayment, hvault_eq]

/-- Without a quote reserve the rest of the curve is free. -/
theorem checkedPayment_zero {total : ℤ} (hrate : rate < 1000000) (hafter : leftToSell p < base)
    (h : checkedPayment p base 0 rate = .ok total) : total = 0 := by
  simp only [checkedPayment, bind_eq_ok, unsigned_eq_ok] at h
  obtain ⟨_, ⟨-, rfl⟩, _, ⟨-, rfl⟩, vault, ⟨-, hvault⟩, fee, hfee, -, rfl⟩ := h
  have hrequired : ceil (0 * leftToSell p) (base - leftToSell p) = 0 := by
    rw [zero_mul]
    exact Rounding.ceil_zero (by omega)
  have hzero : vault = 0 := by
    rw [← hvault, hrequired, zero_mul]
    exact Rounding.ceil_zero (by omega)
  subst hzero
  simp only [TokenTransferFee.calculate, bind_eq_ok, or_true, if_true, pure_eq_ok] at hfee
  obtain ⟨_, -, _, -, _, -, rfl⟩ := hfee
  rfl

/-- A smaller payment passes the checks as well. -/
theorem PaymentFits.of_le (h : PaymentFits p base quote rate amount) (hrate : rate < 1000000)
    (hbase : 0 ≤ base) (hquote : 0 < quote) (hx : 0 ≤ x) (hle : x ≤ amount) :
    PaymentFits p base quote rate x := by
  have hmono := netPayment_mono h.fee hrate hx hle
  have hnet := netPayment_nonneg h.fee hrate.le hx
  have hdenominator := h.denominator_le
  refine ⟨h.fee, by omega, by omega, mul_nonneg hnet hbase, ?_⟩
  exact (mul_le_mul_of_nonneg_right hmono hbase).trans h.product_le

/-- A purchase that sells the curve out pays the least amount that does, and quoting that amount
gives the same quote, unless the quote reserve is empty. -/
theorem quoteLaunchlabExactIn_sells_out_iff {out : ℤ} {q : LaunchLabQuote}
    (hleft : p.realBase < p.totalBaseSell)
    (hout : uncappedOut p amount shareFeeRate = .ok out) (hover : leftToSell p < out)
    (h : quoteLaunchlabExactIn p amount true slippageBps shareFeeRate = .ok q) :
    (q.amountIn ≤ amount ∧
      IsLeast {x | ∃ o, uncappedOut p x shareFeeRate = .ok o ∧ leftToSell p ≤ o} q.amountIn ∧
      quoteLaunchlabExactIn p q.amountIn true slippageBps shareFeeRate = .ok q) ↔
    p.virtualQuote + p.realQuote ≠ 0 := by
  rw [quoteLaunchlabExactIn] at h
  obtain ⟨⟨base, quote, rate⟩, hreserves, h⟩ := bind_eq_ok.1 h
  obtain ⟨⟨actual, received⟩, hfill, h⟩ := bind_eq_ok.1 h
  obtain ⟨hamount, hs, -, hquote_eq, hquote, hbase, hrate₀, hrate₁⟩ :=
    launchLabReserves_spec hreserves
  have hreal := realBase_nonneg hreserves
  have hremaining : 0 < leftToSell p := sub_pos.2 hleft
  have hsell : p.totalBaseSell ≠ 0 := by omega
  have hzero : ∀ x, 0 < x ∧ x ≤ u64 →
      launchLabReserves p x 0 shareFeeRate = .ok (base, quote, rate) :=
    fun x hx => launchLabReserves_of hreserves hx ⟨le_rfl, by norm_num⟩
  obtain ⟨hfits, rfl⟩ := (uncappedOut_eq_ok (hzero amount hamount)).1 hout
  obtain ⟨-, actual', sold, fee, hgraduate, hsold, hfee, hfilled⟩ :=
    (launchLabFill_eq_ok ⟨hamount.1.le, hamount.2⟩).1 hfill
  obtain ⟨⟨hafter, hrate⟩, total, htotal, hpair⟩ := (graduate_over hleft hsell hover).1 hgraduate
  obtain ⟨rfl, rfl⟩ := Prod.mk.inj hpair
  obtain ⟨rfl, rfl⟩ := Prod.mk.inj hfilled
  simp only [bind_eq_ok, unsigned_eq_ok, pure_eq_ok] at h
  obtain ⟨_, ⟨hminimum, rfl⟩, rfl⟩ := h
  rw [← hquote_eq]
  have hrate' : rate < 1000000 := by omega
  rcases hquote.1.eq_or_lt with rfl | hpos
  · -- the payment is zero, which is no amount
    obtain rfl := checkedPayment_zero hrate' hafter htotal
    apply iff_of_false _ (not_not.2 rfl)
    rintro ⟨-, -, hagain⟩
    rw [min_eq_left hamount.1.le, quoteLaunchlabExactIn] at hagain
    obtain ⟨_, hreserves', -⟩ := bind_eq_ok.1 hagain
    exact absurd (launchLabReserves_spec hreserves').1.1 (lt_irrefl 0)
  · obtain ⟨rfl, htotal₀, htotal₁⟩ := checkedPayment_pos hrate' hremaining hafter hpos htotal
    have hreaches : ∀ x, 0 ≤ x → (leftToSell p ≤ bought base quote (netPayment p rate x) ↔
        sellOutPayment p base quote rate (leftToSell p) ≤ x) :=
      fun x hx => reaches_iff hfits.fee hrate' hremaining hafter hpos hx
    have hle := (hreaches amount hamount.1.le).1 hover.le
    rw [min_eq_left hle]
    generalize sellOutPayment p base quote rate (leftToSell p) = total at *
    have hfits' := hfits.of_le hrate' hbase hpos htotal₀.le hle
    have hsoldOut := (hreaches total htotal₀.le).2 le_rfl
    apply iff_of_true _ hpos.ne'
    refine ⟨hle, ⟨⟨_, (uncappedOut_eq_ok (hzero total ⟨htotal₀, htotal₁⟩)).2 ⟨hfits', rfl⟩,
      hsoldOut⟩, ?_⟩, ?_⟩
    · -- an accepted amount is positive, so the equivalence above applies to it
      rintro x ⟨o, ho, hreached⟩
      obtain ⟨reserves, hreserves', -⟩ := bind_eq_ok.1 ho
      have hx := (launchLabReserves_spec hreserves').1
      obtain ⟨-, rfl⟩ := (uncappedOut_eq_ok (hzero x hx)).1 ho
      exact (hreaches x hx.1.le).1 hreached
    · -- the least payment may buy exactly what is left, and then the second quote is not capped
      have hgraduate' : launchLabGraduate p total base quote rate
          (bought base quote (netPayment p rate total)) = .ok (total, leftToSell p) := by
        rcases hsoldOut.eq_or_lt with heq | hlt
        · rw [graduate_within hleft hsell heq.ge, ← heq]
        · rw [graduate_over hleft hsell hlt]
          exact ⟨⟨hafter, hrate⟩, total, htotal, by rw [min_self]⟩
      have hfill' := (launchLabFill_eq_ok ⟨htotal₀.le, htotal₁⟩).2
        ⟨hfits', total, leftToSell p, fee, hgraduate', hsold, hfee, rfl⟩
      rw [quoteLaunchlabExactIn, launchLabReserves_of hreserves ⟨htotal₀, htotal₁⟩ hs, ok_bind]
      dsimp only
      rw [hfill', ok_bind]
      dsimp only
      rw [unsigned_of hminimum.1 hminimum.2]
      rfl

/-- A curve that has two hundred units left to sell. -/
def curveWith (virtualQuote : ℤ) : LaunchLabQuoteState :=
  { virtualBase := 1000
    virtualQuote := virtualQuote
    realBase := 0
    realQuote := 0
    totalBaseSell := 200
    curveType := 0
    tradeFeeRate := 2500
    platformFeeRate := 0
    creatorFeeRate := 0
    quoteTransferFee := ⟨100, 3⟩ }

theorem quoteLaunchlabExactIn_sells_out :
    ((128 : ℤ) ≤ 500 ∧
      IsLeast {x | ∃ o, uncappedOut (curveWith 500) x 0 = .ok o ∧ leftToSell (curveWith 500) ≤ o}
        128 ∧
      quoteLaunchlabExactIn (curveWith 500) 128 true 0 0 = .ok ⟨128, 200⟩) ↔
    (500 : ℤ) + 0 ≠ 0 :=
  quoteLaunchlabExactIn_sells_out_iff (p := curveWith 500) (q := ⟨128, 200⟩) (by decide)
    (show uncappedOut (curveWith 500) 500 0 = .ok 497 by rfl) (by decide) (by rfl)

/-- With an empty quote reserve they are free, and the free purchase cannot be quoted again. -/
theorem quoteLaunchlabExactIn_free :
    uncappedOut (curveWith 0) 10 0 = .ok 1000 ∧
      quoteLaunchlabExactIn (curveWith 0) 10 true = .ok ⟨0, 200⟩ ∧
      quoteLaunchlabExactIn (curveWith 0) 0 true = .error .amountIsZero ∧
      ¬ ∃ o, uncappedOut (curveWith 0) 0 0 = .ok o ∧ leftToSell (curveWith 0) ≤ o := by
  refine ⟨by rfl, by rfl, by rfl, ?_⟩
  rintro ⟨o, ho, -⟩
  have hzero : uncappedOut (curveWith 0) 0 0 = .error .amountIsZero := by rfl
  rw [hzero] at ho
  contradiction

end SolTrade.LaunchLab
