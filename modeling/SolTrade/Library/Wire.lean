import Mathlib.Algebra.Ring.Nat
import Mathlib.Data.List.Forall2
import Mathlib.Data.List.Basic
import Mathlib.Tactic.Common

/-!
Readers of byte layouts.

A reader takes bytes off the front of its input. `Reads p bytes a` says that `p`
takes exactly these bytes and makes `a` of them, whatever follows; the rules
compose such facts along a layout.
-/

namespace SolTrade.Library.Wire

abbrev Parser := StateT (List UInt8) Option

variable {α β : Type}

/-! ### Little-endian integers -/

/-- `n` in `width` bytes, the least significant byte first. -/
def littleEndian : ℕ → ℕ → List UInt8
  | 0, _ => []
  | width + 1, n => UInt8.ofNat n :: littleEndian width (n / 256)

def littleEndianValue (bytes : List UInt8) : ℕ := bytes.foldr (fun b n => b.toNat + 256 * n) 0

@[simp] theorem length_littleEndian (width n : ℕ) : (littleEndian width n).length = width := by
  induction width generalizing n with
  | zero => rfl
  | succ width ih => rw [littleEndian, List.length_cons, ih]

theorem littleEndianValue_littleEndian {width n : ℕ} (h : n < 256 ^ width) :
    littleEndianValue (littleEndian width n) = n := by
  induction width generalizing n with
  | zero =>
      rw [Nat.pow_zero] at h
      show 0 = n
      omega
  | succ width ih =>
      have hdiv : n / 256 < 256 ^ width := Nat.div_lt_of_lt_mul (by rwa [Nat.pow_succ'] at h)
      show (UInt8.ofNat n).toNat + 256 * littleEndianValue (littleEndian width (n / 256)) = n
      rw [ih hdiv, UInt8.toNat_ofNat']
      omega

/-- A byte of the number in its place. -/
theorem toNat_getD_littleEndian {width k : ℕ} (hk : k < width) (n : ℕ) :
    ((littleEndian width n).getD k 0).toNat = n / 256 ^ k % 256 := by
  induction width generalizing k n with
  | zero => exact absurd hk (Nat.not_lt_zero k)
  | succ width ih =>
      cases k with
      | zero => simp [littleEndian, UInt8.toNat_ofNat']
      | succ k =>
          rw [littleEndian, List.getD_cons_succ, ih (Nat.lt_of_succ_lt_succ hk),
            Nat.div_div_eq_div_mul, ← Nat.pow_succ']

/-- The bits of a number are the bits of its bytes. -/
theorem testBit_littleEndian {width i : ℕ} (hi : i / 8 < width) (n : ℕ) :
    ((littleEndian width n).getD (i / 8) 0).toNat.testBit (i % 8) = n.testBit i := by
  have hbyte : (256 : ℕ) ^ (i / 8) = 2 ^ (8 * (i / 8)) := by rw [Nat.pow_mul]
  have hlow : i % 8 < 8 := Nat.mod_lt _ (by decide)
  rw [toNat_getD_littleEndian hi, hbyte, ← Nat.shiftRight_eq_div_pow,
    show (256 : ℕ) = 2 ^ 8 from rfl, Nat.testBit_mod_two_pow, Nat.testBit_shiftRight,
    Nat.div_add_mod, decide_eq_true hlow, Bool.true_and]

/-- `n.to_bytes(width, "little", signed=True)`. -/
def littleEndianSigned (width : ℕ) (n : ℤ) : List UInt8 :=
  littleEndian width (n % (256 ^ width : ℕ)).toNat

/-- `int.from_bytes(bytes, "little", signed=True)`. -/
def littleEndianSignedValue (bytes : List UInt8) : ℤ :=
  Int.bmod (littleEndianValue bytes) (256 ^ bytes.length)

@[simp] theorem length_littleEndianSigned (width : ℕ) (n : ℤ) :
    (littleEndianSigned width n).length = width := length_littleEndian _ _

theorem littleEndianSignedValue_littleEndianSigned {width : ℕ} {n : ℤ}
    (hlow : -(256 ^ width : ℕ) ≤ n * 2) (hhigh : n * 2 < (256 ^ width : ℕ)) :
    littleEndianSignedValue (littleEndianSigned width n) = n := by
  have hpos : (0 : ℤ) < (256 ^ width : ℕ) := by exact_mod_cast Nat.pow_pos (by decide)
  have hnonneg := Int.emod_nonneg n (Int.ne_of_gt hpos)
  have hlt := Int.emod_lt_of_pos n hpos
  rw [littleEndianSignedValue, length_littleEndianSigned, littleEndianSigned,
    littleEndianValue_littleEndian (by omega), Int.toNat_of_nonneg hnonneg, Int.emod_bmod,
    Int.bmod_eq_of_le_mul_two hlow hhigh]

/-! ### Readers -/

/-- The next `n` bytes. -/
def bytes (n : ℕ) : Parser (List UInt8) := fun input =>
  if n ≤ input.length then some (input.take n, input.drop n) else none

def unsignedInt (width : ℕ) : Parser ℕ := littleEndianValue <$> bytes width

/-- Runs a reader on an input that it has to use up. -/
def parseAll (p : Parser α) (input : List UInt8) : Option α :=
  match p.run input with
  | some (a, []) => some a
  | _ => none

/-- `p` takes these bytes off its input and makes `a` of them. -/
def Reads (p : Parser α) (encoded : List UInt8) (a : α) : Prop :=
  ∀ rest, p.run (encoded ++ rest) = some (a, rest)

theorem Reads.pure (a : α) : Reads (Pure.pure a) [] a := fun _ => rfl

theorem Reads.bind {p : Parser α} {f : α → Parser β} {first second : List UInt8} {a : α} {b : β}
    (hp : Reads p first a) (hf : Reads (f a) second b) : Reads (p >>= f) (first ++ second) b := by
  intro rest
  rw [StateT.run_bind, List.append_assoc, hp]
  exact hf rest

theorem Reads.map {p : Parser α} {encoded : List UInt8} {a : α} (hp : Reads p encoded a)
    (f : α → β) : Reads (f <$> p) encoded (f a) := by
  intro rest
  rw [StateT.run_map, hp]
  rfl

/-- A last step that takes nothing. -/
theorem Reads.then_pure {p : Parser α} {f : α → Parser β} {encoded : List UInt8} {a : α} {b : β}
    (hp : Reads p encoded a) (hf : Reads (f a) [] b) : Reads (p >>= f) encoded b := by
  have hboth := hp.bind hf
  rwa [List.append_nil] at hboth

theorem reads_bytes {n : ℕ} {encoded : List UInt8} (h : encoded.length = n) :
    Reads (bytes n) encoded encoded := by
  intro rest
  show (if n ≤ (encoded ++ rest).length then _ else _) = _
  rw [if_pos (by rw [List.length_append]; omega), ← h, List.take_left, List.drop_left]

theorem reads_unsignedInt {width n : ℕ} (h : n < 256 ^ width) :
    Reads (unsignedInt width) (littleEndian width n) n := by
  have hread := (reads_bytes (length_littleEndian width n)).map littleEndianValue
  rwa [littleEndianValue_littleEndian h] at hread

theorem reads_byte {n : ℕ} (h : n < 256) : Reads (unsignedInt 1) [UInt8.ofNat n] n :=
  @reads_unsignedInt 1 n h

/-- One reader for each element of a list. -/
theorem reads_mapM {γ : Type} {p : γ → Parser β} {encode : γ → List UInt8} {value : γ → β}
    {xs : List γ} (h : ∀ x ∈ xs, Reads (p x) (encode x) (value x)) :
    Reads (xs.mapM p) (xs.flatMap encode) (xs.map value) := by
  induction xs with
  | nil => exact .pure []
  | cons x xs ih =>
      rw [List.mapM_cons, List.flatMap_cons, List.map_cons]
      refine (h x List.mem_cons_self).bind ?_
      exact (ih fun y hy => h y (List.mem_cons_of_mem _ hy)).then_pure (.pure _)

/-- The same reader as often as the list is long. -/
def times (n : ℕ) (p : Parser α) : Parser (List α) := (List.replicate n ()).mapM fun _ => p

theorem reads_times {γ : Type} {p : Parser β} {encode : γ → List UInt8} {value : γ → β}
    {xs : List γ} (h : ∀ x ∈ xs, Reads p (encode x) (value x)) :
    Reads (times xs.length p) (xs.flatMap encode) (xs.map value) := by
  induction xs with
  | nil => exact .pure []
  | cons x xs ih =>
      rw [List.length_cons, times, List.replicate_succ, List.mapM_cons, List.flatMap_cons,
        List.map_cons]
      refine (h x List.mem_cons_self).bind ?_
      exact (ih fun y hy => h y (List.mem_cons_of_mem _ hy)).then_pure (.pure _)

theorem parseAll_of_reads {p : Parser α} {encoded : List UInt8} {a : α} (h : Reads p encoded a) :
    parseAll p encoded = some a := by
  have hrun := h []
  rw [List.append_nil] at hrun
  rw [parseAll, hrun]

end SolTrade.Library.Wire
