import SolTrade.LaunchLab.TransferFee
import SolTrade.Library.ConstantProduct

/-!
What a CPMM pool takes and pays in an exact-in swap.

The transfer fee of the input mint, the fees of the pool and the transfer fee of the output mint
follow each other. Each of them leaves more of more, so a larger amount never buys less.
-/

namespace SolTrade.Cpmm

open Library ConstantProduct
open Route (TokenTransferFee CachedCpmmState CpmmQuote quoteCachedCpmmExactIn)
open LaunchLab (ValidFee feeOn calculate_eq_ok feeOn_nonneg feeOn_le rest_mono)

/-! ### The amounts of a swap -/

section Amounts

variable (p : CachedCpmmState) (baseIn : Bool) (amount : ℤ)

def reserveIn : ℤ := if baseIn then p.baseReserve else p.quoteReserve

def reserveOut : ℤ := if baseIn then p.quoteReserve else p.baseReserve

def transferFeeIn : TokenTransferFee := if baseIn then p.baseTransferFee else p.quoteTransferFee

def transferFeeOut : TokenTransferFee := if baseIn then p.quoteTransferFee else p.baseTransferFee

/-- The creator's fee is taken from the input. -/
def creatorOnInput : Bool :=
  p.creatorFeeOn = 0 ∨ (p.creatorFeeOn = 1 ∧ baseIn = true) ∨ (p.creatorFeeOn = 2 ∧ baseIn = false)

def creatorRate : ℤ := if p.enableCreatorFee then p.creatorFeeRate else 0

/-- The rate of all that is taken from the input. -/
def inputRate : ℤ := p.tradeFeeRate + if creatorOnInput p baseIn then creatorRate p else 0

/-- The input after the transfer fee. -/
def netInput : ℤ := amount - feeOn (transferFeeIn p baseIn) amount

/-- The fee that is taken from the input. -/
def inputFee : ℤ := ceil (netInput p baseIn amount * inputRate p baseIn) 1000000

/-- What the curve gives for the rest. -/
def swapped : ℤ :=
  reserveOut p baseIn * (netInput p baseIn amount - inputFee p baseIn amount) /
    (reserveIn p baseIn + netInput p baseIn amount - inputFee p baseIn amount)

/-- The creator's part of the fee on the input. -/
def inputCreatorFee : ℤ :=
  if creatorOnInput p baseIn = true ∧ inputRate p baseIn ≠ 0 then
    inputFee p baseIn amount * creatorRate p / inputRate p baseIn
  else 0

def creatorFee : ℤ :=
  if creatorOnInput p baseIn then inputCreatorFee p baseIn amount
  else ceil (swapped p baseIn amount * creatorRate p) 1000000

/-- What the pool pays. -/
def grossOut : ℤ :=
  swapped p baseIn amount - if creatorOnInput p baseIn then 0 else creatorFee p baseIn amount

/-- What arrives. -/
def netOut : ℤ :=
  grossOut p baseIn amount - feeOn (transferFeeOut p baseIn) (grossOut p baseIn amount)

end Amounts

/-- The pools that are quoted. -/
structure ValidPool (p : CachedCpmmState) (baseIn : Bool) : Prop where
  creatorRate_nonneg : 0 ≤ creatorRate p
  tradeFeeRate_nonneg : 0 ≤ p.tradeFeeRate
  rates_lt : p.tradeFeeRate + creatorRate p < 1000000
  reserveIn_pos : 0 < reserveIn p baseIn
  reserveOut_pos : 0 < reserveOut p baseIn
  transferFeeIn_valid : ValidFee (transferFeeIn p baseIn)
  transferFeeOut_valid : ValidFee (transferFeeOut p baseIn)

variable {p : CachedCpmmState} {baseIn : Bool} {amount amount' slippageBps slippageBps' : ℤ}
  {q q' : CpmmQuote}

/-- A quote is computed from a valid pool, and this is what it says. -/
theorem quoteCachedCpmmExactIn_spec
    (h : quoteCachedCpmmExactIn p amount baseIn slippageBps = .ok q) :
    ValidPool p baseIn ∧ (0 < amount ∧ amount ≤ u64) ∧ (0 ≤ slippageBps ∧ slippageBps ≤ 9999) ∧
      0 ≤ netOut p baseIn amount ∧
      q = ⟨amount, netOut p baseIn amount, netOut p baseIn amount * (10000 - slippageBps) / 10000,
        inputFee p baseIn amount - inputCreatorFee p baseIn amount,
        creatorFee p baseIn amount⟩ := by
  simp only [quoteCachedCpmmExactIn, bind_eq_ok, unsigned_eq_ok, require_eq_ok, pure_eq_ok] at h
  obtain ⟨_, ⟨hamount, -⟩, _, hne, _, hs, _, ⟨hcreator, rfl⟩, _, ⟨htrade, rfl⟩, _, hrates, _, -, _,
    -, _, -, _, -, h⟩ := h
  have hsides : (if baseIn = true then
        (p.baseReserve, p.quoteReserve, p.baseTransferFee, p.quoteTransferFee)
      else (p.quoteReserve, p.baseReserve, p.quoteTransferFee, p.baseTransferFee)) =
      (reserveIn p baseIn, reserveOut p baseIn, transferFeeIn p baseIn,
        transferFeeOut p baseIn) := by
    cases baseIn <;> rfl
  rw [hsides] at h
  obtain ⟨_, ⟨hi, -⟩, _, hi₀, _, ⟨ho, -⟩, _, ho₀, _, hfeeIn, _, hfeeOut, _, ⟨hreceived, -⟩,
    rfl⟩ := h
  obtain ⟨hvalidIn, -, rfl⟩ := calculate_eq_ok.1 hfeeIn
  obtain ⟨hvalidOut, -, rfl⟩ := calculate_eq_ok.1 hfeeOut
  refine ⟨⟨?_, htrade.1, hrates, ?_, ?_, hvalidIn, hvalidOut⟩, ⟨?_, hamount.2⟩, hs, hreceived.1,
    rfl⟩
  · simp only [creatorRate]
    split
    · exact hcreator.1
    · exact le_rfl
  · exact lt_of_le_of_ne hi.1 hi₀.symm
  · exact lt_of_le_of_ne ho.1 ho₀.symm
  · exact lt_of_le_of_ne hamount.1 hne.symm

/-! ### Bounds -/

theorem ValidPool.inputRate_nonneg (hp : ValidPool p baseIn) : 0 ≤ inputRate p baseIn := by
  have := hp.creatorRate_nonneg
  have := hp.tradeFeeRate_nonneg
  unfold inputRate
  split <;> omega

theorem ValidPool.inputRate_lt (hp : ValidPool p baseIn) : inputRate p baseIn < 1000000 := by
  have := hp.creatorRate_nonneg
  have := hp.rates_lt
  unfold inputRate
  split <;> omega

theorem ValidPool.creatorRate_le_inputRate (hp : ValidPool p baseIn)
    (h : creatorOnInput p baseIn = true) : creatorRate p ≤ inputRate p baseIn := by
  simp [inputRate, h, hp.tradeFeeRate_nonneg]

theorem netInput_nonneg (hp : ValidPool p baseIn) (ha : 0 ≤ amount) :
    0 ≤ netInput p baseIn amount :=
  sub_nonneg.2 (feeOn_le hp.transferFeeIn_valid ha)

theorem inputFee_nonneg (hp : ValidPool p baseIn) (ha : 0 ≤ amount) :
    0 ≤ inputFee p baseIn amount :=
  Rounding.ceil_nonneg (by norm_num) (mul_nonneg (netInput_nonneg hp ha) hp.inputRate_nonneg)

theorem inputFee_le (hp : ValidPool p baseIn) (ha : 0 ≤ amount) :
    inputFee p baseIn amount ≤ netInput p baseIn amount :=
  Rounding.ceil_part_le (by norm_num) (netInput_nonneg hp ha) hp.inputRate_lt.le

theorem swapped_eq : swapped p baseIn amount = bought (reserveOut p baseIn) (reserveIn p baseIn)
    (netInput p baseIn amount - inputFee p baseIn amount) := by
  rw [swapped, bought, mul_comm, add_sub_assoc]

theorem swapped_nonneg (hp : ValidPool p baseIn) (ha : 0 ≤ amount) :
    0 ≤ swapped p baseIn amount := by
  have hpaid := sub_nonneg.2 (inputFee_le hp ha)
  have hi := hp.reserveIn_pos
  rw [swapped_eq]
  exact bought_nonneg hpaid hp.reserveOut_pos.le (by omega)

theorem swapped_lt (hp : ValidPool p baseIn) (ha : 0 ≤ amount) :
    swapped p baseIn amount < reserveOut p baseIn := by
  rw [swapped_eq]
  exact bought_lt (sub_nonneg.2 (inputFee_le hp ha)) hp.reserveOut_pos hp.reserveIn_pos

/-- The product of the reserves does not decrease. -/
theorem swapped_paid (hp : ValidPool p baseIn) (ha : 0 ≤ amount) :
    reserveIn p baseIn * reserveOut p baseIn ≤
      (reserveIn p baseIn + netInput p baseIn amount - inputFee p baseIn amount) *
        (reserveOut p baseIn - swapped p baseIn amount) := by
  have hpaid := sub_nonneg.2 (inputFee_le hp ha)
  have hi := hp.reserveIn_pos
  have hroom : 0 < reserveIn p baseIn + (netInput p baseIn amount - inputFee p baseIn amount) := by
    omega
  have hproduct : reserveOut p baseIn * reserveIn p baseIn ≤ _ := mul_le_mul_bought hroom
  rw [← swapped_eq] at hproduct
  calc reserveIn p baseIn * reserveOut p baseIn
      = reserveOut p baseIn * reserveIn p baseIn := mul_comm _ _
    _ ≤ _ := hproduct
    _ = _ := by ring

theorem inputCreatorFee_nonneg (hp : ValidPool p baseIn) (ha : 0 ≤ amount) :
    0 ≤ inputCreatorFee p baseIn amount := by
  unfold inputCreatorFee
  split
  · apply Int.ediv_nonneg _ hp.inputRate_nonneg
    exact mul_nonneg (inputFee_nonneg hp ha) hp.creatorRate_nonneg
  · exact le_rfl

/-- The creator's part is at most the fee. -/
theorem inputCreatorFee_le (hp : ValidPool p baseIn) (ha : 0 ≤ amount) :
    inputCreatorFee p baseIn amount ≤ inputFee p baseIn amount := by
  have hfee := inputFee_nonneg hp ha
  unfold inputCreatorFee
  split
  · rename_i h
    have hrate : 0 < inputRate p baseIn := lt_of_le_of_ne hp.inputRate_nonneg h.2.symm
    apply Int.ediv_le_of_le_mul hrate
    exact mul_le_mul_of_nonneg_left (hp.creatorRate_le_inputRate h.1) hfee
  · exact hfee

theorem outputCreatorFee_bounds (hp : ValidPool p baseIn) (ha : 0 ≤ amount) :
    0 ≤ ceil (swapped p baseIn amount * creatorRate p) 1000000 ∧
      ceil (swapped p baseIn amount * creatorRate p) 1000000 ≤ swapped p baseIn amount := by
  have hcreator := hp.creatorRate_nonneg
  have htrade := hp.tradeFeeRate_nonneg
  have hrates := hp.rates_lt
  constructor
  · exact Rounding.ceil_nonneg (by norm_num) (mul_nonneg (swapped_nonneg hp ha) hcreator)
  · exact Rounding.ceil_part_le (by norm_num) (swapped_nonneg hp ha) (by omega)

theorem creatorFee_nonneg (hp : ValidPool p baseIn) (ha : 0 ≤ amount) :
    0 ≤ creatorFee p baseIn amount := by
  unfold creatorFee
  split
  · exact inputCreatorFee_nonneg hp ha
  · exact (outputCreatorFee_bounds hp ha).1

theorem grossOut_bounds (hp : ValidPool p baseIn) (ha : 0 ≤ amount) :
    0 ≤ grossOut p baseIn amount ∧ grossOut p baseIn amount ≤ swapped p baseIn amount := by
  have hswapped := swapped_nonneg hp ha
  have hfee := outputCreatorFee_bounds hp ha
  unfold grossOut creatorFee
  cases creatorOnInput p baseIn <;> simp <;> omega

theorem netOut_le (hp : ValidPool p baseIn) (ha : 0 ≤ amount) :
    netOut p baseIn amount ≤ swapped p baseIn amount := by
  have hgross := grossOut_bounds hp ha
  have hfee := feeOn_nonneg hp.transferFeeOut_valid hgross.1
  unfold netOut
  omega

/-! ### A larger amount -/

theorem swapped_mono (hp : ValidPool p baseIn) (ha : 0 ≤ amount) (hle : amount ≤ amount') :
    swapped p baseIn amount ≤ swapped p baseIn amount' := by
  have hnet : netInput p baseIn amount ≤ netInput p baseIn amount' :=
    rest_mono hp.transferFeeIn_valid ha hle
  rw [swapped_eq, swapped_eq]
  apply bought_mono (sub_nonneg.2 (inputFee_le hp ha)) _ hp.reserveOut_pos hp.reserveIn_pos
  exact Rounding.sub_ceil_part_mono (by norm_num) hp.inputRate_lt.le hnet

theorem grossOut_mono (hp : ValidPool p baseIn) (ha : 0 ≤ amount) (hle : amount ≤ amount') :
    grossOut p baseIn amount ≤ grossOut p baseIn amount' := by
  have hswapped := swapped_mono hp ha hle
  have htrade := hp.tradeFeeRate_nonneg
  have hrates := hp.rates_lt
  unfold grossOut creatorFee
  cases creatorOnInput p baseIn with
  | true => simpa using hswapped
  | false => exact Rounding.sub_ceil_part_mono (by norm_num) (by omega) hswapped

theorem netOut_mono (hp : ValidPool p baseIn) (ha : 0 ≤ amount) (hle : amount ≤ amount') :
    netOut p baseIn amount ≤ netOut p baseIn amount' :=
  rest_mono hp.transferFeeOut_valid (grossOut_bounds hp ha).1 (grossOut_mono hp ha hle)

/-- What a quote takes and pays, with `n` the input after its transfer fee, `fee` what is taken from
it and `swapped` what the curve gives for the rest. -/
structure Conserved (p : CachedCpmmState) (baseIn : Bool) (amount : ℤ) (q : CpmmQuote)
    (n fee swapped : ℤ) : Prop where
  net_input : ∃ f, (transferFeeIn p baseIn).calculate amount = .ok f ∧ n = amount - f
  fee_nonneg : 0 ≤ fee
  fee_le : fee ≤ n
  trade_nonneg : 0 ≤ q.tradeFee
  creator_nonneg : 0 ≤ q.creatorFee
  fee_split : creatorOnInput p baseIn = true → q.tradeFee + q.creatorFee = fee
  fee_on_output : creatorOnInput p baseIn = false → q.tradeFee = fee ∧ q.creatorFee ≤ swapped
  swapped_eq : swapped = reserveOut p baseIn * (n - fee) / (reserveIn p baseIn + n - fee)
  lt_reserve : swapped < reserveOut p baseIn
  product_le : reserveIn p baseIn * reserveOut p baseIn ≤
    (reserveIn p baseIn + n - fee) * (reserveOut p baseIn - swapped)
  minimum_le : q.minimumAmountOut ≤ q.amountOut
  amountOut_le : q.amountOut ≤ swapped

theorem Conserved.of_valid (hp : ValidPool p baseIn) (ha : 0 ≤ amount ∧ amount ≤ u64)
    (hs : 0 ≤ slippageBps) (hout : 0 ≤ netOut p baseIn amount) :
    Conserved p baseIn amount
      ⟨amount, netOut p baseIn amount, netOut p baseIn amount * (10000 - slippageBps) / 10000,
        inputFee p baseIn amount - inputCreatorFee p baseIn amount, creatorFee p baseIn amount⟩
      (netInput p baseIn amount) (inputFee p baseIn amount) (swapped p baseIn amount) where
  net_input := ⟨_, calculate_eq_ok.2 ⟨hp.transferFeeIn_valid, ha, rfl⟩, rfl⟩
  fee_nonneg := inputFee_nonneg hp ha.1
  fee_le := inputFee_le hp ha.1
  trade_nonneg := sub_nonneg.2 (inputCreatorFee_le hp ha.1)
  creator_nonneg := creatorFee_nonneg hp ha.1
  fee_split := fun hin => by simp [creatorFee, hin]
  fee_on_output := fun hin => by
    simp [creatorFee, inputCreatorFee, hin, (outputCreatorFee_bounds hp ha.1).2]
  swapped_eq := rfl
  lt_reserve := swapped_lt hp ha.1
  product_le := swapped_paid hp ha.1
  minimum_le := by
    apply Int.ediv_le_of_le_mul (by norm_num)
    exact mul_le_mul_of_nonneg_left (by omega) hout
  amountOut_le := netOut_le hp ha.1

/-- A quote conserves what it takes and pays, and a larger amount is quoted no less. -/
theorem quoteCachedCpmmExactIn_conserves
    (h : quoteCachedCpmmExactIn p amount baseIn slippageBps = .ok q) :
    (∃ n fee swapped, Conserved p baseIn amount q n fee swapped) ∧
      ∀ b slippageBps' q', amount ≤ b →
        quoteCachedCpmmExactIn p b baseIn slippageBps' = .ok q' → q.amountOut ≤ q'.amountOut := by
  obtain ⟨hp, ⟨hpos, hmax⟩, hs, hout, rfl⟩ := quoteCachedCpmmExactIn_spec h
  refine ⟨⟨_, _, _, .of_valid hp ⟨hpos.le, hmax⟩ hs.1 hout⟩, ?_⟩
  intro b slippageBps' q' hle h'
  obtain ⟨-, -, -, -, rfl⟩ := quoteCachedCpmmExactIn_spec h'
  exact netOut_mono hp hpos.le hle

/-- A pool that takes the creator's fee from the output of a quote input. -/
def feesOnBothSides : CachedCpmmState :=
  { baseMint := .default
    baseReserve := 5000
    quoteReserve := 9000
    tradeFeeRate := 2500
    protocolFeeRate := 120000
    fundFeeRate := 40000
    creatorFeeRate := 1000
    creatorFeeOn := 1
    enableCreatorFee := true
    baseTransferFee := ⟨100, 5⟩
    quoteTransferFee := ⟨50, 1000⟩ }

theorem quoteCachedCpmmExactIn_conserves_feesOnBothSides :
    (∃ n fee swapped, Conserved feesOnBothSides false 1000 ⟨1000, 490, 485, 3, 1⟩ n fee swapped) ∧
      ∀ b slippageBps' q', 1000 ≤ b →
        quoteCachedCpmmExactIn feesOnBothSides b false slippageBps' = .ok q' →
        490 ≤ q'.amountOut := by
  have hquote : quoteCachedCpmmExactIn feesOnBothSides 1000 false 100 =
      .ok ⟨1000, 490, 485, 3, 1⟩ := by rfl
  exact quoteCachedCpmmExactIn_conserves hquote

end SolTrade.Cpmm
