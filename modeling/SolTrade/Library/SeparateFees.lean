import Mathlib.Algebra.BigOperators.Group.List.Basic
import Mathlib.Algebra.Order.BigOperators.Group.List
import SolTrade.Library.Rounding

/-!
Any number of proportional fees, each rounded up on its own.

Together they exceed the one fee of the summed rates, but by less than one unit for each of them.
This is all that the roundings can do: `net` stays within its budget, with two fees it is the
largest amount that does, and neither `net` nor `rest` falls by more than the number of fees allows
when the amount grows.
-/

namespace SolTrade.Library.SeparateFees

open Rounding

def fees (d : ℤ) (rates : List ℤ) (n : ℤ) : ℤ := (rates.map fun r => (n * r + d - 1) / d).sum

/-- An amount with its fees on top. -/
def gross (d : ℤ) (rates : List ℤ) (n : ℤ) : ℤ := n + fees d rates n

/-- An amount with its fees taken off. -/
def rest (d : ℤ) (rates : List ℤ) (n : ℤ) : ℤ := n - fees d rates n

/-- One division by all rates. -/
def share (d : ℤ) (rates : List ℤ) (budget : ℤ) : ℤ := budget * d / (d + rates.sum)

/-- The share of a budget, less what its gross amount exceeds the budget by. -/
def net (d : ℤ) (rates : List ℤ) (budget : ℤ) : ℤ :=
  share d rates budget - max 0 (gross d rates (share d rates budget) - budget)

/-- What the roundings add to the fees, in parts of a unit. -/
def residues (d : ℤ) (rates : List ℤ) (n : ℤ) : ℤ := (rates.map fun r => -(n * r) % d).sum

variable {d m n a b q : ℤ} {rates : List ℤ}

@[simp] theorem fees_nil : fees d [] n = 0 := rfl

@[simp] theorem fees_cons {r : ℤ} : fees d (r :: rates) n = (n * r + d - 1) / d + fees d rates n :=
  List.sum_cons

@[simp] theorem residues_nil : residues d [] n = 0 := rfl

@[simp] theorem residues_cons {r : ℤ} :
    residues d (r :: rates) n = -(n * r) % d + residues d rates n :=
  List.sum_cons

theorem fees_mul (hd : 0 < d) (rates : List ℤ) (n : ℤ) :
    fees d rates n * d = n * rates.sum + residues d rates n := by
  induction rates with
  | nil => simp
  | cons r rates ih =>
      rw [fees_cons, residues_cons, List.sum_cons, add_mul, ih, ceil_mul_eq (n * r) hd]
      ring

theorem residues_nonneg (hd : 0 < d) (rates : List ℤ) (n : ℤ) : 0 ≤ residues d rates n := by
  induction rates with
  | nil => exact le_rfl
  | cons r rates ih =>
      rw [residues_cons]
      exact add_nonneg (Int.emod_nonneg _ hd.ne') ih

/-- A fee that is not charged is not rounded. -/
theorem residues_le_charged (hd : 0 < d) (rates : List ℤ) (n : ℤ) :
    residues d rates n ≤ rates.countP (· ≠ 0) * (d - 1) := by
  induction rates with
  | nil => simp
  | cons r rates ih =>
      rw [residues_cons]
      by_cases hr : r = 0
      · rw [List.countP_cons_of_neg (by simpa using hr), hr, mul_zero, neg_zero, Int.zero_emod,
          zero_add]
        exact ih
      · have hlt := Int.emod_lt_of_pos (-(n * r)) hd
        rw [List.countP_cons_of_pos (by simpa using hr)]
        push_cast
        linarith

theorem residues_le (hd : 0 < d) (rates : List ℤ) (n : ℤ) :
    residues d rates n ≤ rates.length * (d - 1) := by
  refine (residues_le_charged hd rates n).trans (mul_le_mul_of_nonneg_right ?_ (by omega))
  exact_mod_cast List.countP_le_length

/-- On one unit more than a multiple of the denominator every fee that is charged is rounded up. -/
theorem fees_mul_add_one (hrates : ∀ r ∈ rates, 0 ≤ r ∧ r < d) (k : ℤ) :
    fees d rates (k * d + 1) = k * rates.sum + rates.countP (· ≠ 0) := by
  induction rates with
  | nil => simp
  | cons r rates ih =>
      obtain ⟨⟨hnonneg, hless⟩, hrates⟩ := List.forall_mem_cons.1 hrates
      have hsplit : (k * d + 1) * r + d - 1 = (r + d - 1) + d * (k * r) := by ring
      rw [fees_cons, ih hrates, hsplit, Int.add_mul_ediv_left _ _ (by omega), List.sum_cons]
      by_cases hr : r = 0
      · rw [List.countP_cons_of_neg (by simpa using hr), hr,
          Int.ediv_eq_zero_of_lt (by omega) (by omega)]
        ring
      · have hone : (r + d - 1) / d = 1 := by
          rw [show r + d - 1 = (r - 1) + d * 1 by ring, Int.add_mul_ediv_left _ _ (by omega),
            Int.ediv_eq_zero_of_lt (by omega) (by omega), zero_add]
        rw [List.countP_cons_of_pos (by simpa using hr), hone]
        push_cast
        ring

theorem fees_mono (hd : 0 < d) (hrates : ∀ r ∈ rates, 0 ≤ r) (h : m ≤ n) :
    fees d rates m ≤ fees d rates n := by
  apply List.sum_le_sum
  intro r hr
  have hle : m * r ≤ n * r := mul_le_mul_of_nonneg_right h (hrates r hr)
  exact Int.ediv_le_ediv hd (by omega)

theorem gross_mono (hd : 0 < d) (hrates : ∀ r ∈ rates, 0 ≤ r) (h : m ≤ n) :
    gross d rates m ≤ gross d rates n :=
  add_le_add h (fees_mono hd hrates h)

/-- A net unit costs at least a gross unit. -/
theorem gross_add_le (hd : 0 < d) (hrates : ∀ r ∈ rates, 0 ≤ r) (h : m ≤ n) :
    gross d rates m + (n - m) ≤ gross d rates n := by
  have := fees_mono hd hrates h
  rw [gross, gross]
  omega

theorem gross_mul (hd : 0 < d) (rates : List ℤ) (n : ℤ) :
    gross d rates n * d = n * (d + rates.sum) + residues d rates n := by
  rw [gross, add_mul, fees_mul hd]
  ring

/-! ### The net amount of a budget -/

theorem share_mono (hd : 0 < d) (hrates : ∀ r ∈ rates, 0 ≤ r) (h : a ≤ b) :
    share d rates a ≤ share d rates b := by
  have := List.sum_nonneg hrates
  exact Int.ediv_le_ediv (by omega) (mul_le_mul_of_nonneg_right h hd.le)

/-- The gross amount of a share exceeds the budget by less than one unit for each fee. -/
theorem gross_share_le (hd : 0 < d) (hrates : ∀ r ∈ rates, 0 ≤ r) (hne : rates ≠ []) :
    gross d rates (share d rates b) + 1 ≤ b + rates.length := by
  have hsum := List.sum_nonneg hrates
  have hfloor : share d rates b * (d + rates.sum) ≤ b * d := floor_mul_le (b * d) (by omega)
  have hfees := fees_mul hd rates (share d rates b)
  have hresidues := residues_le hd rates (share d rates b)
  have hlength : (0 : ℤ) < rates.length := by exact_mod_cast List.length_pos_of_ne_nil hne
  have hlt : gross d rates (share d rates b) * d < (b + rates.length) * d := by
    rw [gross, add_mul, hfees]
    linarith
  have := lt_of_mul_lt_mul_right hlt hd.le
  omega

/-- The net amount and its fees stay within the budget. -/
theorem gross_net_le (hd : 0 < d) (hrates : ∀ r ∈ rates, 0 ≤ r) (b : ℤ) :
    gross d rates (net d rates b) ≤ b := by
  have hless : net d rates b ≤ share d rates b := sub_le_self _ (le_max_left _ _)
  have hfees := fees_mono hd hrates hless
  have hnet : net d rates b ≤ share d rates b - (gross d rates (share d rates b) - b) :=
    sub_le_sub_left (le_max_right _ _) _
  rw [gross] at hnet ⊢
  omega

/-- Of two fees the net amount is the largest whose gross amount the budget covers. -/
theorem le_net_iff (hd : 0 < d) (hrates : ∀ r ∈ rates, 0 ≤ r) (hlength : rates.length ≤ 2) :
    m ≤ net d rates b ↔ gross d rates m ≤ b := by
  have hD : 0 < d + rates.sum := by
    have := List.sum_nonneg hrates
    omega
  have hmax : ∀ k, gross d rates k ≤ b → k ≤ share d rates b := by
    intro k hk
    rw [share, le_floor_iff hD]
    calc k * (d + rates.sum) ≤ gross d rates k * d := by
          have := residues_nonneg hd rates k
          rw [gross_mul hd]
          omega
      _ ≤ b * d := mul_le_mul_of_nonneg_right hk hd.le
  -- the gross amount of the share exceeds the budget by at most one
  have hexcess : gross d rates (share d rates b) ≤ b + 1 := by
    have hfloor : share d rates b * (d + rates.sum) ≤ b * d := floor_mul_le (b * d) hD
    have hresidues := residues_le hd rates (share d rates b)
    have htwo : (rates.length : ℤ) * (d - 1) ≤ 2 * (d - 1) :=
      mul_le_mul_of_nonneg_right (by exact_mod_cast hlength) (by omega)
    have hlt : gross d rates (share d rates b) * d < (b + 2) * d := by
      rw [gross_mul hd]
      linarith
    have := lt_of_mul_lt_mul_right hlt hd.le
    omega
  rw [net]
  constructor
  · intro hm
    have := gross_add_le hd hrates (show m ≤ share d rates b by omega)
    omega
  · intro hm
    rcases (hmax m hm).lt_or_eq with hlt | heq
    · omega
    · rw [← heq]
      omega

/-- A larger budget with the same share has no smaller a net amount. -/
theorem net_mono_of_share_eq (h : a ≤ b) (hshare : share d rates a = share d rates b) :
    net d rates a ≤ net d rates b := by
  rw [net, net, hshare]
  omega

/-- With a larger budget the net amount falls by at most the number of fees, less two. -/
theorem net_fall (hd : 0 < d) (hrates : ∀ r ∈ rates, 0 ≤ r) (hlength : 2 ≤ rates.length)
    (h : a ≤ b) : net d rates a + 2 ≤ net d rates b + rates.length := by
  rcases (share_mono hd hrates h).lt_or_eq with hlt | heq
  · have hexcess := gross_share_le (b := b) hd hrates (List.ne_nil_of_length_pos (by omega))
    have hless : net d rates a ≤ share d rates a := sub_le_self _ (le_max_left _ _)
    rw [net] at hless ⊢
    rw [net]
    omega
  · have := net_mono_of_share_eq h heq
    omega

/-- Where the share grows by as much as the roundings can take, the net amount does not fall. -/
theorem net_mono_of_share_add_le (hd : 0 < d) (hrates : ∀ r ∈ rates, 0 ≤ r) (hne : rates ≠ [])
    (h : share d rates a + rates.length ≤ share d rates b + 1) :
    net d rates a ≤ net d rates b := by
  have hexcess := gross_share_le (b := b) hd hrates hne
  have hlength := List.length_pos_of_ne_nil hne
  rw [net, net]
  omega

/-! ### What is left of an amount -/

theorem rest_mul (hd : 0 < d) (rates : List ℤ) (n : ℤ) :
    rest d rates n * d = n * (d - rates.sum) - residues d rates n := by
  rw [rest, sub_mul, fees_mul hd]
  ring

/-- An amount that leaves `q` over by the summed rates leaves less by at most one unit for each
fee that is charged after the first. -/
theorem le_rest_add (hd : 0 < d) (h : q * d ≤ n * (d - rates.sum)) :
    q ≤ rest d rates n + (rates.countP (· ≠ 0) - 1 : ℕ) := by
  have hrest := rest_mul hd rates n
  have hresidues := residues_le_charged hd rates n
  rcases Nat.eq_zero_or_pos (rates.countP (· ≠ 0)) with hnone | hsome
  · rw [hnone, Nat.cast_zero, zero_mul] at hresidues
    rw [hnone]
    have hle : q * d ≤ rest d rates n * d := by omega
    simpa using le_of_mul_le_mul_right hle hd
  · have hlt : q * d < (rest d rates n + rates.countP (· ≠ 0)) * d := by
      have hcharged : (0 : ℤ) < rates.countP (· ≠ 0) := by exact_mod_cast hsome
      rw [add_mul]
      linarith
    have := lt_of_mul_lt_mul_right hlt hd.le
    omega

/-- What is left of a larger amount is smaller by less than one unit for each fee. -/
theorem rest_fall (hd : 0 < d) (hsum : rates.sum ≤ d) (hne : rates ≠ []) (h : m ≤ n) :
    rest d rates m + 1 ≤ rest d rates n + rates.length := by
  have hm := rest_mul hd rates m
  have hn := rest_mul hd rates n
  have hm₀ := residues_nonneg hd rates m
  have hn₁ := residues_le hd rates n
  have hlength : (0 : ℤ) < rates.length := by exact_mod_cast List.length_pos_of_ne_nil hne
  have hle : m * (d - rates.sum) ≤ n * (d - rates.sum) :=
    mul_le_mul_of_nonneg_right h (by omega)
  have hlt : rest d rates m * d < (rest d rates n + rates.length) * d := by
    rw [add_mul]
    linarith
  have := lt_of_mul_lt_mul_right hlt hd.le
  omega

end SolTrade.Library.SeparateFees
