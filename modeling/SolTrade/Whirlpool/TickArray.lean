import Mathlib.Data.Nat.Bits
import SolTrade.AccountReader
import SolTrade.Library.Checked
import SolTrade.Whirlpool.Swap

/-!
The two encodings of a Whirlpool tick array.

The fixed encoding gives every slot its full width and stands the pool at its end. In the
dynamic one the pool and a bitmap come first, and a slot that is not initialized is its tag
alone: where a slot starts depends on all the tags before it.
-/

namespace SolTrade.Whirlpool

open Library Wire
open Clmm (ClmmTick minTick maxTick)
open PumpSwap (byteAt unsignedAt)

inductive TickArrayError where
  | invalidStart
  | unknownDiscriminator
  | identityMismatch
  | invalidTag
  | bitmapMismatch
  | truncatedTick
  | tickOutsideRange
  deriving DecidableEq

def TickArrayError.text : TickArrayError → String
  | invalidStart => "Invalid Whirlpool tick array start/spacing"
  | unknownDiscriminator => "Unknown Whirlpool array discriminator"
  | identityMismatch => "Whirlpool array identity mismatch"
  | invalidTag => "Invalid or truncated Whirlpool tick tag"
  | bitmapMismatch => "Whirlpool tick bitmap mismatch"
  | truncatedTick => "Truncated Whirlpool tick"
  | tickOutsideRange => "Whirlpool initialized tick outside range"

/-! ### The decoder -/

def fixedDiscriminator : List UInt8 := [69, 97, 189, 190, 110, 7, 66, 187]

def dynamicDiscriminator : List UInt8 := [17, 216, 246, 142, 225, 199, 218, 56]

@[simp] theorem length_fixedDiscriminator : fixedDiscriminator.length = 8 := rfl

@[simp] theorem length_dynamicDiscriminator : dynamicDiscriminator.length = 8 := rfl

section Decode

variable (d : List UInt8) (start spacing : ℤ)

def signedAt (offset width : ℕ) : ℤ := littleEndianSignedValue ((d.drop offset).take width)

/-- The bit of the slot in the bitmap of a dynamic array. -/
def bitmapBit (i : ℕ) : Bool := (byteAt d (44 + i / 8)).testBit (i % 8)

/-- The tick of the slot, from the bytes behind its tag. -/
def tickAt (i offset : ℕ) : ClmmTick where
  tick := start + i * spacing
  liquidityNet := signedAt d offset 16
  liquidityGross := unsignedAt d (offset + 16) 16

/-- One slot. The state is the ticks so far and the offset of the slot's tag. -/
def readSlot (fixed : Bool) (s : List ClmmTick × ℕ) (i : ℕ) :
    Except TickArrayError (List ClmmTick × ℕ) := do
  let (ticks, o) := s
  require (¬ (o ≥ d.length ∨ byteAt d o > 1)) .invalidTag
  let initialized := decide (byteAt d o = 1)
  let o := o + 1
  require (¬ (fixed = false ∧ bitmapBit d i ≠ initialized)) .bitmapMismatch
  if fixed ∨ initialized then
    require (¬ o + 112 > d.length) .truncatedTick
    if initialized then
      let tick := start + i * spacing
      require (minTick ≤ tick ∧ tick ≤ maxTick) .tickOutsideRange
      return (ticks ++ [tickAt d start spacing i o], o + 112)
    else return (ticks, o + 112)
  else return (ticks, o)

def readSlots (fixed : Bool) (count : ℕ) : Except TickArrayError (List ClmmTick × ℕ) :=
  (List.range count).foldlM (readSlot d start spacing fixed) ([], if fixed then 12 else 60)

def decodeWhirlpoolTicks (pool : Pubkey) : Except TickArrayError (List ClmmTick) := do
  require (¬ (¬ (1 ≤ spacing ∧ spacing ≤ 65535) ∨ start % (88 * spacing) ≠ 0)) .invalidStart
  let fixed := decide (d.take 8 = fixedDiscriminator)
  let dynamic := decide (d.take 8 = dynamicDiscriminator)
  require (fixed ∨ dynamic) .unknownDiscriminator
  let offset := if fixed then 9956 else 12
  require (¬ (d.length < offset + 32 ∨ d.length < 12 ∨ signedAt d 8 4 ≠ start ∨
    (d.drop offset).take 32 ≠ pool.toList)) .identityMismatch
  let (ticks, _) ← readSlots d start spacing fixed 88
  return ticks

end Decode

/-! ### The encodings -/

/-- A slot of an array. What is behind the two liquidities the decoder does not read. -/
structure TickSlot where
  initialized : Bool
  liquidityNet : ℤ
  liquidityGross : ℕ
  rest : List UInt8
  net_range : -(256 ^ 16 : ℕ) ≤ liquidityNet * 2 ∧ liquidityNet * 2 < (256 ^ 16 : ℕ)
  gross_lt : liquidityGross < 256 ^ 16
  length_rest : rest.length = 80

namespace TickSlot

def tag (s : TickSlot) : UInt8 := if s.initialized then 1 else 0

def content (s : TickSlot) : List UInt8 :=
  littleEndianSigned 16 s.liquidityNet ++ (littleEndian 16 s.liquidityGross ++ s.rest)

/-- The slot in an array of the fixed or of the dynamic encoding. -/
def entry (fixed : Bool) (s : TickSlot) : List UInt8 :=
  s.tag :: if fixed ∨ s.initialized then s.content else []

end TickSlot

structure TickArray where
  start : ℤ
  spacing : ℤ
  pool : Pubkey
  slots : Vector TickSlot 88
  start_range : -(256 ^ 4 : ℕ) ≤ start * 2 ∧ start * 2 < (256 ^ 4 : ℕ)

namespace TickArray

variable (a : TickArray)

/-- The bit of a slot is set when the slot is initialized. -/
def bitmap : ℕ := Nat.ofBits fun i : Fin 88 => (a.slots.get i).initialized

def entries (fixed : Bool) : List UInt8 := a.slots.toList.flatMap (TickSlot.entry fixed)

def fixedBytes : List UInt8 :=
  fixedDiscriminator ++ (littleEndianSigned 4 a.start ++ (a.entries true ++ a.pool.toList))

def dynamicBytes : List UInt8 :=
  dynamicDiscriminator ++ (littleEndianSigned 4 a.start ++ (a.pool.toList ++
    (littleEndian 16 a.bitmap ++ a.entries false)))

end TickArray

/-- The initialized ones of the slots, the first of which has the given number. -/
def initializedTicks (start spacing : ℤ) (slots : List TickSlot) (first : ℕ) : List ClmmTick :=
  (slots.zipIdx first).filterMap fun (s, i) =>
    if s.initialized then
      some { tick := start + i * spacing, liquidityNet := s.liquidityNet,
             liquidityGross := s.liquidityGross }
    else none

def InRange (ticks : List ClmmTick) : Prop := ∀ t ∈ ticks, minTick ≤ t.tick ∧ t.tick ≤ maxTick

instance : DecidablePred InRange := fun ticks => inferInstanceAs (Decidable (∀ t ∈ ticks, _))

/-- The initialized ticks of an array, unless the array or one of them lies outside the range. -/
def TickArray.ticks (a : TickArray) : Except TickArrayError (List ClmmTick) := do
  require ((1 ≤ a.spacing ∧ a.spacing ≤ 65535) ∧ a.start % (88 * a.spacing) = 0) .invalidStart
  let ticks := initializedTicks a.start a.spacing a.slots.toList 0
  require (InRange ticks) .tickOutsideRange
  return ticks

/-! ### Reading an encoding -/

section Read

variable {d : List UInt8} {start spacing : ℤ} {fixed : Bool} {slot : TickSlot}
  {slots : List TickSlot} {front back : List UInt8} {i offset : ℕ}

theorem TickSlot.length_content : slot.content.length = 112 := by
  simp [content, slot.length_rest]

theorem signedAt_append {width : ℕ} {n : ℤ} {rest : List UInt8} (hlen : front.length = offset)
    (hlow : -(256 ^ width : ℕ) ≤ n * 2) (hhigh : n * 2 < (256 ^ width : ℕ)) :
    signedAt (front ++ (littleEndianSigned width n ++ rest)) offset width = n := by
  rw [signedAt, List.drop_left' hlen, List.take_left' (length_littleEndianSigned width n),
    littleEndianSignedValue_littleEndianSigned hlow hhigh]

theorem byteAt_append (hlen : front.length = offset) (b : UInt8) (rest : List UInt8) :
    byteAt (front ++ b :: rest) offset = b.toNat := by
  simp [byteAt, ← hlen]

theorem tickAt_append (hlen : front.length = offset) :
    tickAt (front ++ (slot.content ++ back)) start spacing i offset =
      { tick := start + i * spacing, liquidityNet := slot.liquidityNet,
        liquidityGross := slot.liquidityGross } := by
  have hnet : signedAt (front ++ (slot.content ++ back)) offset 16 = slot.liquidityNet := by
    rw [TickSlot.content, List.append_assoc]
    exact signedAt_append hlen slot.net_range.1 slot.net_range.2
  have hgross : unsignedAt (front ++ (slot.content ++ back)) (offset + 16) 16 =
      slot.liquidityGross := by
    rw [TickSlot.content, List.append_assoc, List.append_assoc, ← List.append_assoc]
    exact AccountReader.unsignedAt_append _ (by simp [hlen]) slot.gross_lt
  rw [tickAt, hnet, hgross]

theorem TickSlot.toNat_tag : slot.tag.toNat = if slot.initialized then 1 else 0 := by
  unfold tag
  split <;> rfl

theorem initializedTicks_cons : initializedTicks start spacing (slot :: slots) i =
    initializedTicks start spacing [slot] i ++ initializedTicks start spacing slots (i + 1) := by
  simp only [initializedTicks, List.zipIdx_cons, List.zipIdx_nil]
  rw [← List.filterMap_append]
  rfl

theorem inRange_append {ts us : List ClmmTick} : InRange (ts ++ us) ↔ InRange ts ∧ InRange us :=
  List.forall_mem_append

/-- What is read of the slot that starts where the reader is. -/
theorem readSlot_entry (start spacing : ℤ) (ticks : List ClmmTick)
    (hd : d = front ++ (slot.entry fixed ++ back))
    (hbit : fixed = false → bitmapBit d i = slot.initialized) :
    readSlot d start spacing fixed (ticks, front.length) i =
      if InRange (initializedTicks start spacing [slot] i) then
        .ok (ticks ++ initializedTicks start spacing [slot] i,
          front.length + (slot.entry fixed).length)
      else .error .tickOutsideRange := by
  have htag : byteAt d front.length = if slot.initialized then 1 else 0 := by
    rw [hd, TickSlot.entry, List.cons_append, byteAt_append rfl, TickSlot.toNat_tag]
  have hvalid : ¬ (front.length ≥ d.length ∨ byteAt d front.length > 1) := by
    rw [htag, hd]
    simp [TickSlot.entry]
    split <;> decide
  have hinit : decide (byteAt d front.length = 1) = slot.initialized := by
    rw [htag]
    cases slot.initialized <;> rfl
  have hmatch : ¬ (fixed = false ∧ bitmapBit d i ≠ slot.initialized) := by
    rintro ⟨hf, hne⟩
    exact hne (hbit hf)
  simp only [readSlot, require_of hvalid, ok_bind, hinit, require_of hmatch]
  by_cases hwide : fixed ∨ slot.initialized
  · have hentry : slot.entry fixed = slot.tag :: slot.content := by
      rw [TickSlot.entry, if_pos hwide]
    have hroom : ¬ front.length + 1 + 112 > d.length := by
      rw [hd, hentry]
      simp [TickSlot.length_content]
      omega
    rw [if_pos hwide, require_of hroom, ok_bind, hentry, List.length_cons,
      TickSlot.length_content]
    cases hslot : slot.initialized with
    | false => simp [initializedTicks, hslot, InRange, Nat.add_assoc]
    | true =>
        have hticks : initializedTicks start spacing [slot] i =
            [tickAt d start spacing i (front.length + 1)] := by
          have hsplit : d = (front ++ [slot.tag]) ++ (slot.content ++ back) := by
            rw [hd, hentry]
            simp
          rw [hsplit, tickAt_append (by simp)]
          simp [initializedTicks, hslot]
        have hrange : InRange [tickAt d start spacing i (front.length + 1)] ↔
            minTick ≤ start + i * spacing ∧ start + i * spacing ≤ maxTick :=
          List.forall_mem_singleton
        simp only [hticks, hrange]
        by_cases hin : minTick ≤ start + i * spacing ∧ start + i * spacing ≤ maxTick
        · simp [require, hin, Nat.add_assoc]
        · simp [require, hin]
  · obtain ⟨hfixed, hslot⟩ := not_or.1 hwide
    rw [if_neg hwide]
    simp [TickSlot.entry, hfixed, initializedTicks, hslot, InRange]

/-- Reading on from the slot that starts where the reader is. -/
theorem readSlots_entries (start spacing : ℤ) (ticks : List ClmmTick)
    (hd : d = front ++ (slots.flatMap (TickSlot.entry fixed) ++ back))
    (hbits : ∀ p ∈ slots.zipIdx i, fixed = false → bitmapBit d p.2 = p.1.initialized) :
    (List.range' i slots.length).foldlM (readSlot d start spacing fixed) (ticks, front.length) =
      if InRange (initializedTicks start spacing slots i) then
        .ok (ticks ++ initializedTicks start spacing slots i,
          front.length + (slots.flatMap (TickSlot.entry fixed)).length)
      else .error .tickOutsideRange := by
  induction slots generalizing front ticks i with
  | nil => simp [initializedTicks, InRange, pure, Except.pure]
  | cons slot slots ih =>
      rw [List.zipIdx_cons, List.forall_mem_cons] at hbits
      have hfirst : d = front ++
          (slot.entry fixed ++ (slots.flatMap (TickSlot.entry fixed) ++ back)) := by
        rw [hd, List.flatMap_cons, List.append_assoc]
      have hrest : d = (front ++ slot.entry fixed) ++
          (slots.flatMap (TickSlot.entry fixed) ++ back) := by
        rw [hfirst, List.append_assoc]
      have hslot := readSlot_entry start spacing ticks hfirst hbits.1
      have hcons : initializedTicks start spacing (slot :: slots) i = _ := initializedTicks_cons
      rw [List.length_cons, List.range'_succ, List.foldlM_cons, hslot, hcons]
      by_cases hin : InRange (initializedTicks start spacing [slot] i)
      · rw [if_pos hin, ok_bind, ← List.length_append, ih _ hrest hbits.2]
        simp only [inRange_append, hin, true_and, List.append_assoc, List.flatMap_cons,
          List.length_append, Nat.add_assoc]
      · rw [if_neg hin, if_neg fun h => hin (inRange_append.1 h).1]
        rfl

end Read

/-! ### Both encodings -/

namespace TickArray

variable (a : TickArray)

theorem length_entries_fixed : (a.entries true).length = 9944 := by
  have hwidth : ∀ slot : TickSlot, (TickSlot.entry true slot).length = 113 := by
    intro slot
    simp [TickSlot.entry, TickSlot.length_content]
  simp [entries, List.length_flatMap, hwidth]

/-- The decoder on bytes with a header and the entries of the array. -/
theorem decode_layout (fixed : Bool) (d : List UInt8) {front back : List UInt8}
    (hdisc : d.take 8 = if fixed then fixedDiscriminator else dynamicDiscriminator)
    (hstart : signedAt d 8 4 = a.start)
    (hlen : (if fixed then 9956 else 12) + 32 ≤ d.length)
    (hpool : (d.drop (if fixed then 9956 else 12)).take 32 = a.pool.toList)
    (hd : d = front ++ (a.entries fixed ++ back))
    (hfront : front.length = if fixed then 12 else 60)
    (hbits : ∀ p ∈ a.slots.toList.zipIdx, fixed = false → bitmapBit d p.2 = p.1.initialized) :
    decodeWhirlpoolTicks d a.start a.spacing a.pool = a.ticks := by
  have hfixed : decide (d.take 8 = fixedDiscriminator) = fixed := by
    rw [hdisc]
    cases fixed <;> rfl
  have hknown : fixed ∨ decide (d.take 8 = dynamicDiscriminator) := by
    rw [hdisc]
    cases fixed <;> decide
  have hidentity : ¬ (d.length < (if fixed then 9956 else 12) + 32 ∨ d.length < 12 ∨
      signedAt d 8 4 ≠ a.start ∨
      (d.drop (if fixed then 9956 else 12)).take 32 ≠ a.pool.toList) := by
    simp only [hstart, hpool, ne_eq, not_true_eq_false, or_false]
    omega
  have hread := readSlots_entries a.start a.spacing [] hd hbits
  rw [Vector.length_toList, ← List.range_eq_range', hfront, List.nil_append] at hread
  have hvalid : ¬ (¬ (1 ≤ a.spacing ∧ a.spacing ≤ 65535) ∨ a.start % (88 * a.spacing) ≠ 0) ↔
      (1 ≤ a.spacing ∧ a.spacing ≤ 65535) ∧ a.start % (88 * a.spacing) = 0 := by
    rw [not_or, not_not, not_not]
  simp only [decodeWhirlpoolTicks, hvalid, hfixed, require_of hknown, require_of hidentity, ok_bind,
    readSlots, hread, ticks]
  congr 1
  funext
  by_cases hin : InRange (initializedTicks a.start a.spacing a.slots.toList 0)
  · simp [require, hin]
  · simp [require, hin]

theorem decode_fixed : decodeWhirlpoolTicks a.fixedBytes a.start a.spacing a.pool = a.ticks := by
  have hbytes : a.fixedBytes = (fixedDiscriminator ++ littleEndianSigned 4 a.start) ++
      (a.entries true ++ a.pool.toList) := by
    rw [fixedBytes, List.append_assoc]
  apply a.decode_layout true a.fixedBytes (List.take_left' rfl)
  · exact signedAt_append rfl a.start_range.1 a.start_range.2
  · simp [hbytes, a.length_entries_fixed]
  · rw [hbytes, ← List.append_assoc]
    show ((_ ++ a.pool.toList).drop 9956).take 32 = _
    rw [List.drop_left' (by simp [a.length_entries_fixed]), List.take_of_length_le (by simp)]
  · exact hbytes
  · simp
  · exact fun _ _ h => absurd h (by decide)

theorem bitmapBit_dynamicBytes (i : Fin 88) :
    bitmapBit a.dynamicBytes i = (a.slots.get i).initialized := by
  have hbytes : a.dynamicBytes = (dynamicDiscriminator ++ littleEndianSigned 4 a.start ++
      a.pool.toList) ++ (littleEndian 16 a.bitmap ++ a.entries false) := by
    simp [dynamicBytes]
  have hfront : (dynamicDiscriminator ++ littleEndianSigned 4 a.start ++
      a.pool.toList).length = 44 := by simp
  have hbyte : i.val / 8 < 16 := by omega
  have hat : a.dynamicBytes.getD (44 + i.val / 8) 0 =
      (littleEndian 16 a.bitmap).getD (i.val / 8) 0 := by
    rw [hbytes, ← hfront, List.getD_append_right _ _ _ _ (Nat.le_add_right _ _),
      Nat.add_sub_cancel_left, List.getD_append _ _ _ _ (by rwa [length_littleEndian])]
  rw [bitmapBit, byteAt, hat, testBit_littleEndian hbyte, bitmap, Nat.testBit_ofBits_lt _ _ i.isLt]

theorem decode_dynamic :
    decodeWhirlpoolTicks a.dynamicBytes a.start a.spacing a.pool = a.ticks := by
  have hbytes : a.dynamicBytes = (dynamicDiscriminator ++ littleEndianSigned 4 a.start ++
      a.pool.toList ++ littleEndian 16 a.bitmap) ++ (a.entries false ++ []) := by
    simp [dynamicBytes]
  apply a.decode_layout false a.dynamicBytes (List.take_left' rfl)
  · exact signedAt_append rfl a.start_range.1 a.start_range.2
  · simp [hbytes]
    omega
  · rw [dynamicBytes, ← List.append_assoc]
    show ((_ ++ (a.pool.toList ++ _)).drop 12).take 32 = _
    rw [List.drop_left' (by simp), List.take_left' (by simp)]
  · exact hbytes
  · simp
  · rintro ⟨slot, i⟩ hslot -
    obtain ⟨hi, hget⟩ := List.mem_zipIdx' hslot
    rw [Vector.length_toList] at hi
    rw [a.bitmapBit_dynamicBytes ⟨i, hi⟩]
    simp only [hget]
    rfl

/-- The ticks of an array come in ascending order. -/
theorem ascending_initializedTicks {start spacing : ℤ} (hspacing : 0 < spacing)
    (slots : List TickSlot) (first : ℕ) :
    ((initializedTicks start spacing slots first).map ClmmTick.tick).Pairwise (· < ·) ∧
      ∀ t ∈ initializedTicks start spacing slots first, start + first * spacing ≤ t.tick := by
  induction slots generalizing first with
  | nil => simp [initializedTicks]
  | cons slot slots ih =>
      obtain ⟨hsorted, hlow⟩ := ih (first + 1)
      have hnext : start + (first + 1 : ℕ) * spacing = start + first * spacing + spacing := by
        push_cast
        ring
      rw [initializedTicks_cons]
      cases hslot : slot.initialized with
      | false =>
          have hnone : initializedTicks start spacing [slot] first = [] := by
            simp [initializedTicks, hslot]
          rw [hnone, List.nil_append]
          refine ⟨hsorted, fun t ht => ?_⟩
          have h := hlow t ht
          omega
      | true =>
          have hone : ∃ t : ClmmTick, initializedTicks start spacing [slot] first = [t] ∧
              t.tick = start + first * spacing := by
            simp [initializedTicks, hslot]
          obtain ⟨t, hone, htick⟩ := hone
          rw [hone, List.singleton_append]
          refine ⟨List.pairwise_cons.2 ⟨?_, hsorted⟩, ?_⟩
          · intro _ hmem
            obtain ⟨u, hu, rfl⟩ := List.mem_map.1 hmem
            have h := hlow u hu
            omega
          · intro u hu
            rcases List.mem_cons.1 hu with rfl | hu
            · exact htick.ge
            · have h := hlow u hu
              omega

end TickArray

/-! ### What the dynamic decoder accepts -/

section Accepted

variable {d : List UInt8} {start spacing : ℤ} {s s' : List ClmmTick × ℕ} {i n : ℕ}

/-- Where the tag of a slot stands, by the tags before it. -/
def tagOffset (d : List UInt8) : ℕ → ℕ
  | 0 => 60
  | i + 1 => tagOffset d i + 1 + if byteAt d (tagOffset d i) = 1 then 112 else 0

/-- The slot has a tag, and its bit says the same. -/
structure TagAgrees (d : List UInt8) (i : ℕ) : Prop where
  inside : tagOffset d i < d.length
  tag : byteAt d (tagOffset d i) ≤ 1
  bit : bitmapBit d i = true ↔ byteAt d (tagOffset d i) = 1

theorem readSlot_dynamic_ok (ho : s.2 = tagOffset d i)
    (h : readSlot d start spacing false s i = .ok s') :
    TagAgrees d i ∧ s'.2 = tagOffset d (i + 1) ∧
      s'.1 = s.1 ++
        if bitmapBit d i then [tickAt d start spacing i (tagOffset d i + 1)] else [] := by
  obtain ⟨ticks, o⟩ := s
  obtain rfl : o = tagOffset d i := ho
  simp only [readSlot, bind_eq_ok, require_eq_ok] at h
  obtain ⟨-, htag, -, hbit, h⟩ := h
  obtain ⟨hinside, htag⟩ := not_or.1 htag
  have hsame : bitmapBit d i = decide (byteAt d (tagOffset d i) = 1) :=
    not_not.1 fun hne => hbit ⟨trivial, hne⟩
  have hagrees : TagAgrees d i :=
    ⟨Nat.lt_of_not_ge hinside, Nat.le_of_not_gt htag, by rw [hsame, decide_eq_true_iff]⟩
  by_cases hset : byteAt d (tagOffset d i) = 1
  · simp only [hset, decide_true, or_true, if_true, bind_eq_ok, require_eq_ok, pure_eq_ok] at h
    obtain ⟨-, -, -, -, rfl⟩ := h
    rw [tagOffset, if_pos hset, if_pos (hagrees.bit.2 hset)]
    exact ⟨hagrees, rfl, rfl⟩
  · simp only [hset, decide_false, or_self, Bool.false_eq_true, if_false, pure_eq_ok] at h
    subst h
    rw [tagOffset, if_neg hset, if_neg (mt hagrees.bit.1 hset), List.append_nil]
    exact ⟨hagrees, rfl, rfl⟩

/-- The slots read so far agree with the bitmap, and the ticks are those whose bits are set. -/
theorem readSlots_dynamic_ok (h : readSlots d start spacing false n = .ok s) :
    (∀ i < n, TagAgrees d i) ∧ s.2 = tagOffset d n ∧
      s.1 = ((List.range n).filter (bitmapBit d)).map fun i =>
        tickAt d start spacing i (tagOffset d i + 1) := by
  induction n generalizing s with
  | zero =>
      obtain rfl : _ = s := pure_eq_ok.1 h
      exact ⟨fun i hi => absurd hi (Nat.not_lt_zero i), rfl, rfl⟩
  | succ n ih =>
      rw [readSlots, List.range_succ, List.foldlM_append, bind_eq_ok] at h
      obtain ⟨read, hread, hlast⟩ := h
      obtain ⟨hagree, hoffset, hticks⟩ := ih hread
      rw [List.foldlM_cons, bind_eq_ok] at hlast
      obtain ⟨last, hslot, hlast⟩ := hlast
      obtain rfl : last = s := pure_eq_ok.1 hlast
      obtain ⟨hlast, hnext, happend⟩ := readSlot_dynamic_ok hoffset hslot
      refine ⟨?_, hnext, ?_⟩
      · intro i hi
        rcases Nat.lt_succ_iff_lt_or_eq.1 hi with hi | rfl
        · exact hagree i hi
        · exact hlast
      · rw [happend, hticks, List.range_succ, List.filter_append, List.map_append,
          List.append_cancel_left_eq]
        cases hbit : bitmapBit d n with
        | false => simp [hbit]
        | true => simp [hbit]

theorem decode_dynamic_ok {pool : Pubkey} {ticks : List ClmmTick}
    (hdisc : d.take 8 = dynamicDiscriminator)
    (h : decodeWhirlpoolTicks d start spacing pool = .ok ticks) :
    (∀ i < 88, TagAgrees d i) ∧
      ticks = ((List.range 88).filter (bitmapBit d)).map fun i =>
        tickAt d start spacing i (tagOffset d i + 1) := by
  have hfixed : decide (d.take 8 = fixedDiscriminator) = false := by
    rw [hdisc]
    rfl
  simp only [decodeWhirlpoolTicks, hfixed, bind_eq_ok, require_eq_ok] at h
  obtain ⟨-, -, -, -, -, -, s, hread, hticks⟩ := h
  obtain ⟨hagree, -, hspec⟩ := readSlots_dynamic_ok hread
  exact ⟨hagree, (pure_eq_ok.1 hticks).symm.trans hspec⟩

end Accepted

/-- Both encodings of an array decode to its initialized ticks in ascending order, with their
liquidities; and in every array of the dynamic encoding that is accepted, the bitmap and the tags
of the slots say the same. -/
theorem decodeWhirlpoolTicks_encodings :
    (∀ a : TickArray,
      decodeWhirlpoolTicks a.fixedBytes a.start a.spacing a.pool = a.ticks ∧
      decodeWhirlpoolTicks a.dynamicBytes a.start a.spacing a.pool = a.ticks ∧
      ∀ ticks, a.ticks = .ok ticks →
        ticks = initializedTicks a.start a.spacing a.slots.toList 0 ∧
        (ticks.map ClmmTick.tick).Pairwise (· < ·)) ∧
    ∀ (d : List UInt8) (start spacing : ℤ) (pool : Pubkey) (ticks : List ClmmTick),
      d.take 8 = dynamicDiscriminator →
      decodeWhirlpoolTicks d start spacing pool = .ok ticks →
      (∀ i < 88, TagAgrees d i) ∧
        ticks = ((List.range 88).filter (bitmapBit d)).map fun i =>
          tickAt d start spacing i (tagOffset d i + 1) := by
  refine ⟨fun a => ⟨a.decode_fixed, a.decode_dynamic, ?_⟩, ?_⟩
  · intro ticks h
    simp only [TickArray.ticks, bind_eq_ok, require_eq_ok, pure_eq_ok] at h
    obtain ⟨-, hvalid, -, -, rfl⟩ := h
    exact ⟨rfl, (TickArray.ascending_initializedTicks (by omega) _ _).1⟩
  · intro d start spacing pool ticks hdisc h
    exact decode_dynamic_ok hdisc h

def sampleSlot (initialized : Bool) : TickSlot where
  initialized := initialized
  liquidityNet := -5
  liquidityGross := 7
  rest := List.replicate 80 0
  net_range := by decide
  gross_lt := by decide
  length_rest := rfl

/-- An array whose fourth slot alone is initialized. -/
def sampleArray : TickArray where
  start := -88
  spacing := 1
  pool := Pubkey.default
  slots := Vector.ofFn fun i => sampleSlot (i = 3)
  start_range := by decide

theorem decodeWhirlpoolTicks_encodings_sample :
    decodeWhirlpoolTicks sampleArray.dynamicBytes (-88) 1 Pubkey.default =
      .ok [{ tick := -85, liquidityNet := -5, liquidityGross := 7 }] ∧
    ∀ i < 88, TagAgrees sampleArray.dynamicBytes i := by
  have hticks : sampleArray.ticks =
      .ok [{ tick := -85, liquidityNet := -5, liquidityGross := 7 }] := by rfl
  have hdecode := (decodeWhirlpoolTicks_encodings.1 sampleArray).2.1.trans hticks
  have hdisc : sampleArray.dynamicBytes.take 8 = dynamicDiscriminator := List.take_left' rfl
  exact ⟨hdecode, (decodeWhirlpoolTicks_encodings.2 _ _ _ _ _ hdisc hdecode).1⟩

end SolTrade.Whirlpool
