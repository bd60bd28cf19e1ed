import SolTrade.Dlmm.Iteration

/-!
What the input buys in one bin.

A tier that is paid for gives all it has, the last one what is left buys, so a
bin pays at most each of its tiers. More input buys at least as much, and two
inputs that both leave the bin behind buy the same.
-/

namespace SolTrade.Dlmm

open Library

/-! ### The values fixed before the walk -/

/-- The amounts that the checks before the walk bound. -/
structure DlmmBin.InBounds (b : DlmmBin) : Prop where
  amountX : 0 ≤ b.amountX
  amountY : 0 ≤ b.amountY
  price : 0 < b.price
  openOrder : 0 ≤ b.openOrder
  processedOrder : 0 ≤ b.processedOrder

structure DlmmSwap.InBounds (c : DlmmSwap) : Prop where
  bins : ∀ b ∈ c.byId, b.InBounds
  baseFactor : 0 ≤ c.pool.staticFee.baseFactor
  binStep : 0 ≤ c.pool.binStep
  control : 0 ≤ c.pool.staticFee.control

section Prepare

variable {pool : DlmmPool} {bins : List DlmmBin} {loadedArrays : List ℤ} {amount timestamp : ℤ}
  {swapForY supportOrders strict exhaustive : Bool} {c : DlmmSwap} {s : DlmmState} {b : DlmmBin}

theorem uint_eq_ok {v : ℤ} {bits : ℕ} {u : Unit} : uint v bits = .ok u ↔ 0 ≤ v ∧ v < 2 ^ bits :=
  require_eq_ok

theorem checkBin_inBounds (h : checkBin b = .ok ()) (hp : b.price ≠ 0) : b.InBounds := by
  simp only [checkBin, bind_eq_ok, uint_eq_ok] at h
  obtain ⟨_, ⟨hx, -⟩, _, ⟨hy, -⟩, _, ⟨hprice, -⟩, _, ⟨hopen, -⟩, _, ⟨hprocessed, -⟩, -⟩ := h
  exact ⟨hx, hy, lt_of_le_of_ne hprice hp.symm, hopen, hprocessed⟩

theorem DlmmSwap.InBounds.of_prepare
    (h : dlmmPrepare pool bins loadedArrays amount timestamp swapForY supportOrders strict
      exhaustive = .ok (c, s)) : c.InBounds := by
  obtain ⟨hpool, -, hbins, rfl, -⟩ := dlmmPrepare_eq_ok.1 h
  obtain ⟨-, hall⟩ := checkBins_eq_ok.1 hbins
  simp only [checkPool, bind_eq_ok, uint_eq_ok] at hpool
  obtain ⟨_, -, _, -, _, -, _, ⟨hstep, -⟩, _, -, _, ⟨hfactor, -⟩, _, -, _, ⟨hcontrol, -⟩,
    -⟩ := hpool
  refine ⟨fun b hb => ?_, hfactor, hstep, hcontrol⟩
  obtain ⟨hmem, hprice⟩ := List.mem_filter.1 hb
  exact checkBin_inBounds (hall b hmem).2.2.2 (by simpa using hprice)

end Prepare

section Rate

variable {c : DlmmSwap}

/-- The fee rate of a bin is a tenth at most. -/
theorem DlmmSwap.InBounds.binRate (hb : c.InBounds) (i : ℤ) :
    0 ≤ binRate c i ∧ binRate c i ≤ 100000000 := by
  refine ⟨le_min (add_nonneg ?_ ?_) (by norm_num), min_le_right _ _⟩
  · have := hb.baseFactor
    have := hb.binStep
    positivity
  · exact Rounding.ceil_nonneg (by norm_num) (mul_nonneg (sq_nonneg _) hb.control)

theorem DlmmSwap.InBounds.tiers {b : DlmmBin} (hb : c.InBounds) (hmem : b ∈ c.byId) :
    ∀ r ∈ tiers c b, 0 ≤ r := by
  obtain ⟨hx, hy, -, hopen, hprocessed⟩ := hb.bins b hmem
  simp only [Dlmm.tiers, List.mem_cons, List.not_mem_nil, or_false, forall_eq_or_imp, forall_eq]
  refine ⟨?_, ?_, ?_⟩
  · unfold reserve
    split <;> assumption
  · split
    · exact hprocessed
    · exact le_rfl
  · split
    · exact hopen
    · exact le_rfl

end Rate

/-! ### Tier by tier -/

/-- What each tier pays. -/
def tierPayouts (numerator denominator : ℤ) : Fill → List ℤ → List ℤ
  | _, [] => []
  | f, r :: rest =>
      ((fillTier numerator denominator f r).out - f.out) ::
        tierPayouts numerator denominator (fillTier numerator denominator f r) rest

section Tier

variable {numerator denominator r : ℤ} {f g : Fill} {rs : List ℤ}

/-- The three things a tier can do. -/
theorem fillTier_cases (numerator denominator : ℤ) (f : Fill) (r : ℤ) :
    (f.left = 0 ∨ r = 0) ∧ fillTier numerator denominator f r = f ∨
      f.left ≠ 0 ∧ ceil (r * numerator) denominator ≤ f.left ∧
        fillTier numerator denominator f r =
          ⟨f.left - ceil (r * numerator) denominator, f.used + ceil (r * numerator) denominator,
            f.out + r⟩ ∨
      f.left ≠ 0 ∧ f.left < ceil (r * numerator) denominator ∧
        fillTier numerator denominator f r =
          ⟨0, f.used + f.left, f.out + f.left * denominator / numerator⟩ := by
  by_cases hskip : f.left = 0 ∨ r = 0
  · exact .inl ⟨hskip, if_pos hskip⟩
  · have hleft : f.left ≠ 0 := fun h => hskip (.inl h)
    rw [fillTier, if_neg hskip]
    rcases le_or_gt (ceil (r * numerator) denominator) f.left with hpaid | hshort
    · exact .inr (.inl ⟨hleft, hpaid, if_pos hpaid⟩)
    · exact .inr (.inr ⟨hleft, hshort, if_neg (not_le.2 hshort)⟩)

theorem ceil_zero_mul (numerator : ℤ) (hd : 0 < denominator) :
    ceil (0 * numerator) denominator = 0 := by
  rw [zero_mul]
  exact Rounding.ceil_zero hd

/-- The input in a bin is what is left and what is used. -/
structure Fill.Splits (f : Fill) (input : ℤ) : Prop where
  left_nonneg : 0 ≤ f.left
  used_nonneg : 0 ≤ f.used
  out_nonneg : 0 ≤ f.out
  sum_eq : f.left + f.used = input

/-- What is left buys no more than the tier it does not pay for. -/
theorem partial_le {left : ℤ} (hn : 0 < numerator) (hd : 0 < denominator)
    (h : left < ceil (r * numerator) denominator) : left * denominator / numerator ≤ r := by
  have hlt : left * denominator < r * numerator := (Rounding.lt_ceil_iff hd).1 h
  have hfloor := Rounding.floor_mul_le (left * denominator) hn
  exact le_of_mul_le_mul_right (hfloor.trans hlt.le) hn

theorem fillTier_splits {input : ℤ} (hn : 0 < numerator) (hd : 0 < denominator) (hr : 0 ≤ r)
    (h : f.Splits input) :
    (fillTier numerator denominator f r).Splits input ∧
      0 ≤ (fillTier numerator denominator f r).out - f.out ∧
      (fillTier numerator denominator f r).out - f.out ≤ r := by
  obtain ⟨hleft, hused, hout, hsum⟩ := h
  rcases fillTier_cases numerator denominator f r with ⟨-, heq⟩ | ⟨-, hpaid, heq⟩ | ⟨-, hshort, heq⟩
  · rw [heq, sub_self]
    exact ⟨⟨hleft, hused, hout, hsum⟩, le_rfl, hr⟩
  · have hneeded : 0 ≤ ceil (r * numerator) denominator :=
      Rounding.ceil_nonneg hd (mul_nonneg hr hn.le)
    rw [heq]
    refine ⟨⟨?_, ?_, ?_, ?_⟩, ?_, ?_⟩ <;> dsimp only <;> omega
  · have hpart := partial_le hn hd hshort
    have hnonneg : 0 ≤ f.left * denominator / numerator :=
      Rounding.floor_nonneg hn (mul_nonneg hleft hd.le)
    rw [heq]
    refine ⟨⟨?_, ?_, ?_, ?_⟩, ?_, ?_⟩ <;> dsimp only <;> omega

/-- Through all tiers the input stays split, and each tier pays at most what it
has. -/
theorem foldl_fillTier {input : ℤ} (hn : 0 < numerator) (hd : 0 < denominator)
    (hr : ∀ r ∈ rs, 0 ≤ r) (h : f.Splits input) :
    (rs.foldl (fillTier numerator denominator) f).Splits input ∧
      (rs.foldl (fillTier numerator denominator) f).out =
        f.out + (tierPayouts numerator denominator f rs).sum ∧
      List.Forall₂ (fun paid r => 0 ≤ paid ∧ paid ≤ r) (tierPayouts numerator denominator f rs)
        rs := by
  induction rs generalizing f with
  | nil => simpa [tierPayouts] using h
  | cons r rest ih =>
      obtain ⟨hr, hrest⟩ := List.forall_mem_cons.1 hr
      obtain ⟨hsplits, hpaid⟩ := fillTier_splits hn hd hr h
      obtain ⟨hend, hsum, hall⟩ := ih hrest hsplits
      refine ⟨hend, ?_, .cons hpaid hall⟩
      rw [List.foldl_cons, hsum, tierPayouts, List.sum_cons]
      ring

/-- A fill with at least as much input: it has bought at least as much, and the
same as long as the smaller input lasts. -/
structure Fill.Within (f g : Fill) : Prop where
  out_le : f.out ≤ g.out
  same : f.left ≠ 0 → f.used = g.used ∧ f.out = g.out ∧ f.left ≤ g.left

theorem fillTier_within {input input' : ℤ} (hn : 0 < numerator) (hd : 0 < denominator)
    (hr : 0 ≤ r) (hf : f.Splits input) (hg : g.Splits input') (h : f.Within g) :
    (fillTier numerator denominator f r).Within (fillTier numerator denominator g r) := by
  have hmore : g.out ≤ (fillTier numerator denominator g r).out :=
    sub_nonneg.1 (fillTier_splits hn hd hr hg).2.1
  obtain ⟨hout, hsame⟩ := h
  rcases fillTier_cases numerator denominator f r with
    ⟨hskip, hfeq⟩ | ⟨hleft, hpaid, hfeq⟩ | ⟨hleft, hshort, hfeq⟩
  · -- with input left the tier is empty, for the larger input as well
    rw [hfeq]
    refine ⟨hout.trans hmore, fun hleft => ?_⟩
    have hzero : fillTier numerator denominator g r = g := if_pos (.inr (hskip.resolve_left hleft))
    rw [hzero]
    exact hsame hleft
  · -- what pays for the whole tier is covered by the larger input too
    obtain ⟨hused, hout', hle⟩ := hsame hleft
    have hpos : 0 ≤ f.left := hf.left_nonneg
    rcases fillTier_cases numerator denominator g r with
      ⟨hskip, hgeq⟩ | ⟨-, -, hgeq⟩ | ⟨-, hshort', -⟩
    · obtain rfl : r = 0 := hskip.resolve_left (by omega)
      rw [hfeq, hgeq, ceil_zero_mul numerator hd]
      refine ⟨?_, fun _ => ⟨?_, ?_, ?_⟩⟩ <;> dsimp only <;> omega
    · rw [hfeq, hgeq]
      refine ⟨?_, fun _ => ⟨?_, ?_, ?_⟩⟩ <;> dsimp only <;> omega
    · omega
  · -- the smaller input ends in the tier, so only the output is compared
    obtain ⟨hused, hout', hle⟩ := hsame hleft
    have hpos : 0 ≤ f.left := hf.left_nonneg
    have hpart := partial_le hn hd hshort
    rw [hfeq]
    refine ⟨?_, fun h => absurd rfl h⟩
    dsimp only
    rcases fillTier_cases numerator denominator g r with
      ⟨hskip, -⟩ | ⟨-, -, hgeq⟩ | ⟨-, -, hgeq⟩
    · -- the tier is not empty, and the larger input is not used up
      have hzero := ceil_zero_mul numerator hd
      rcases hskip with hskip | rfl
      · omega
      · omega
    · rw [hgeq]
      dsimp only
      omega
    · have hmono : f.left * denominator / numerator ≤ g.left * denominator / numerator :=
        Int.ediv_le_ediv hn (mul_le_mul_of_nonneg_right hle hd.le)
      rw [hgeq]
      dsimp only
      omega

theorem foldl_fillTier_within {input input' : ℤ} (hn : 0 < numerator) (hd : 0 < denominator)
    (hr : ∀ r ∈ rs, 0 ≤ r) (hf : f.Splits input) (hg : g.Splits input') (h : f.Within g) :
    (rs.foldl (fillTier numerator denominator) f).Within
      (rs.foldl (fillTier numerator denominator) g) := by
  induction rs generalizing f g with
  | nil => exact h
  | cons r rest ih =>
      obtain ⟨hr, hrest⟩ := List.forall_mem_cons.1 hr
      exact ih hrest (fillTier_splits hn hd hr hf).1 (fillTier_splits hn hd hr hg).1
        (fillTier_within hn hd hr hf hg h)

end Tier

/-! ### One bin -/

/-- The input that a bin is offered. -/
def binInput (c : DlmmSwap) (s : DlmmState) : ℤ :=
  if feeInput c then s.remaining - ceil (s.remaining * binRate c s.current) precision
  else s.remaining

/-- The output of a bin after the fee. -/
def netOut (c : DlmmSwap) (current out : ℤ) : ℤ :=
  if feeInput c then out else out - ceil (out * binRate c current) precision

/-- What each tier of a bin pays. -/
def binPayouts (c : DlmmSwap) (s : DlmmState) (b : DlmmBin) : List ℤ :=
  tierPayouts (if c.swapForY then q64 else b.price) (if c.swapForY then b.price else q64)
    ⟨binInput c s, 0, 0⟩ (tiers c b)

section Bin

variable {c : DlmmSwap} {s t : DlmmState} {b : DlmmBin} {i out out' : ℤ}

theorem tradeTotal_eq (c : DlmmSwap) (s : DlmmState) (b : DlmmBin) :
    tradeTotal c s b = s.total + netOut c s.current (binFill c s b).out := rfl

theorem sub_fee (a rate : ℤ) :
    a - ceil (a * rate) precision = a * (precision - rate) / precision :=
  Rounding.sub_ceil_part a rate (by decide)

theorem sub_fee_mono (hb : c.InBounds) (i : ℤ) {a a' : ℤ} (h : a ≤ a') :
    a - ceil (a * binRate c i) precision ≤ a' - ceil (a' * binRate c i) precision := by
  have hrate : binRate c i ≤ precision := (hb.binRate i).2.trans (by decide)
  exact Rounding.sub_ceil_part_mono (by decide) hrate h

theorem sub_fee_nonneg (hb : c.InBounds) (i : ℤ) {a : ℤ} (h : 0 ≤ a) :
    0 ≤ a - ceil (a * binRate c i) precision := by
  simpa [ceil, precision] using sub_fee_mono hb i h

theorem sub_fee_le (hb : c.InBounds) (i : ℤ) {a : ℤ} (h : 0 ≤ a) :
    a - ceil (a * binRate c i) precision ≤ a :=
  sub_le_self a (Rounding.ceil_nonneg (by decide) (mul_nonneg h (hb.binRate i).1))

theorem binInput_nonneg (hb : c.InBounds) (hr : 0 ≤ s.remaining) : 0 ≤ binInput c s := by
  unfold binInput
  split
  · exact sub_fee_nonneg hb _ hr
  · exact hr

theorem binInput_mono (hb : c.InBounds) (hcurrent : s.current = t.current)
    (h : s.remaining ≤ t.remaining) : binInput c s ≤ binInput c t := by
  unfold binInput
  split
  · rw [hcurrent]
    exact sub_fee_mono hb _ h
  · exact h

theorem netOut_nonneg (hb : c.InBounds) (h : 0 ≤ out) : 0 ≤ netOut c i out := by
  unfold netOut
  split
  · exact h
  · exact sub_fee_nonneg hb _ h

theorem netOut_le (hb : c.InBounds) (h : 0 ≤ out) : netOut c i out ≤ out := by
  unfold netOut
  split
  · exact le_rfl
  · exact sub_fee_le hb _ h

theorem netOut_mono (hb : c.InBounds) (h : out ≤ out') : netOut c i out ≤ netOut c i out' := by
  unfold netOut
  split
  · exact h
  · exact sub_fee_mono hb _ h

theorem DlmmSwap.InBounds.prices_pos (hb : c.InBounds) (hmem : b ∈ c.byId) :
    0 < (if c.swapForY then q64 else b.price) ∧ 0 < (if c.swapForY then b.price else q64) := by
  have hprice := (hb.bins b hmem).price
  split
  · exact ⟨q64_pos, hprice⟩
  · exact ⟨hprice, q64_pos⟩

theorem Fill.Splits.start {input : ℤ} (h : 0 ≤ input) : (⟨input, 0, 0⟩ : Fill).Splits input :=
  ⟨h, le_rfl, le_rfl, add_zero input⟩

/-- What a bin does with the input it is offered: it splits it, and pays at most
what its tiers have. -/
theorem binFill_spec (hb : c.InBounds) (hmem : b ∈ c.byId) (hr : 0 ≤ s.remaining) :
    (binFill c s b).Splits (binInput c s) ∧ (binFill c s b).out = (binPayouts c s b).sum ∧
      List.Forall₂ (fun paid r => 0 ≤ paid ∧ paid ≤ r) (binPayouts c s b) (tiers c b) := by
  obtain ⟨hn, hd⟩ := hb.prices_pos hmem
  obtain ⟨hsplits, hout, hall⟩ :=
    foldl_fillTier hn hd (hb.tiers hmem) (Fill.Splits.start (binInput_nonneg hb hr))
  exact ⟨hsplits, hout.trans (zero_add _), hall⟩

theorem binFill_within (hb : c.InBounds) (hmem : b ∈ c.byId) (hcurrent : s.current = t.current)
    (hr : 0 ≤ s.remaining) (h : s.remaining ≤ t.remaining) :
    (binFill c s b).Within (binFill c t b) := by
  obtain ⟨hn, hd⟩ := hb.prices_pos hmem
  have hin := binInput_nonneg hb hr
  have hle := binInput_mono hb hcurrent h
  exact foldl_fillTier_within hn hd (hb.tiers hmem) (.start hin) (.start (hin.trans hle))
    ⟨le_rfl, fun _ => ⟨rfl, rfl, hle⟩⟩

/-- A bin that pays adds what it pays, after the fee. -/
theorem tradeTotal_bounds (hb : c.InBounds) (hmem : b ∈ c.byId) (hr : 0 ≤ s.remaining) :
    s.total ≤ tradeTotal c s b ∧ tradeTotal c s b ≤ s.total + (binPayouts c s b).sum := by
  obtain ⟨hsplits, hout, -⟩ := binFill_spec hb hmem hr
  have hlo := netOut_nonneg (i := s.current) hb hsplits.out_nonneg
  have hhi := netOut_le (i := s.current) hb hsplits.out_nonneg
  rw [tradeTotal_eq, ← hout]
  omega

/-- Input is left for the bins after the one left behind, whichever side the fee is
taken on: grossed up by the fee, what is used falls short of the input by one
unit at least. -/
theorem tradeRemaining_bounds (hb : c.InBounds) (hmem : b ∈ c.byId) (hr : 0 ≤ s.remaining)
    (hleft : (binFill c s b).left ≠ 0) :
    0 < tradeRemaining c s b ∧ tradeRemaining c s b ≤ s.remaining := by
  obtain ⟨⟨hleft', hused, -, hsum⟩, -⟩ := binFill_spec hb hmem hr
  obtain ⟨hrate, hrate'⟩ := hb.binRate s.current
  have hp : precision = 1000000000 := rfl
  have hnet : 0 < precision - binRate c s.current := by omega
  unfold tradeRemaining
  dsimp only
  unfold binInput at hsum
  split at hsum
  · -- the fee is on the input: the cost is the used part, grossed up
    rename_i hfee
    rw [if_pos hfee]
    have hcost : 0 ≤ ceil ((binFill c s b).used * precision) (precision - binRate c s.current) :=
      Rounding.ceil_nonneg hnet (mul_nonneg hused (by decide))
    have hlt : ceil ((binFill c s b).used * precision) (precision - binRate c s.current) ≤
        s.remaining - 1 := by
      rw [sub_fee] at hsum
      have hfloor := Rounding.floor_mul_le (s.remaining * (precision - binRate c s.current))
        (show 0 < precision by decide)
      refine (Rounding.ceil_le_iff hnet).2 ?_
      calc
        (binFill c s b).used * precision
          ≤ (s.remaining * (precision - binRate c s.current) / precision - 1) * precision :=
            mul_le_mul_of_nonneg_right (by omega) (by decide)
        _ ≤ s.remaining * (precision - binRate c s.current) - precision := by
            rw [sub_mul, one_mul]
            omega
        _ ≤ (s.remaining - 1) * (precision - binRate c s.current) := by
            rw [sub_mul, one_mul]
            omega
    omega
  · rename_i hfee
    rw [if_neg hfee]
    omega

end Bin

end SolTrade.Dlmm
