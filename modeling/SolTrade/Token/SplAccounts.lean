import SolTrade.AccountReader
import SolTrade.Library.Base58
import SolTrade.PumpSwap.FeeConfig

/-!
The decoders of token accounts and mints, and the layout that the token program writes.

In the layout an option has its full width whether it is set or not. The decoders move on by the
width of an option only where it is set, so every field behind an unset one is read too early.
-/

namespace SolTrade.Token

open Library Wire
open PumpSwap (byteAt unsignedAt decodeMintSupply)

inductive SplError where
  | invalidTokenAccountLength
  | invalidMintLength
  deriving DecidableEq

def SplError.text : SplError → String
  | invalidTokenAccountLength => "Invalid token account data length"
  | invalidMintLength => "Invalid mint data length"

structure TokenAccount where
  mint : String
  owner : String
  amount : ℕ
  delegate : Option String
  state : ℕ
  isNative : Option ℕ
  delegatedAmount : ℕ
  closeAuthority : Option String
  deriving DecidableEq

structure Mint where
  mintAuthority : Option String
  supply : ℕ
  decimals : ℕ
  isInitialized : Bool
  freezeAuthority : Option String
  deriving DecidableEq

/-! ### The decoders -/

section Decode

variable (base58Encode : List UInt8 → String) (data : List UInt8)

def keyBytes (offset : ℕ) : List UInt8 := (data.drop offset).take 32

def keyText (offset : ℕ) : String := base58Encode (keyBytes data offset)

/-- An option at the offset, and the offset that the decoder goes on from. -/
def readOption {α : Type} (value : ℕ → α) (width offset : ℕ) : Option α × ℕ :=
  if unsignedAt data offset 4 ≠ 0 then (some (value (offset + 4)), offset + 4 + width)
  else (none, offset + 4)

def TokenAccount.decode : Except SplError TokenAccount := do
  require (¬ data.length < 165) .invalidTokenAccountLength
  let (delegate, offset) := readOption data (keyText base58Encode data) 32 72
  let (isNative, amountOffset) := readOption data (unsignedAt data · 8) 8 (offset + 1)
  let (closeAuthority, _) := readOption data (keyText base58Encode data) 32 (amountOffset + 8)
  return {
    mint := keyText base58Encode data 0
    owner := keyText base58Encode data 32
    amount := unsignedAt data 64 8
    delegate := delegate
    state := byteAt data offset
    isNative := isNative
    delegatedAmount := unsignedAt data amountOffset 8
    closeAuthority := closeAuthority }

def Mint.decode : Except SplError Mint := do
  require (¬ data.length < 82) .invalidMintLength
  let (mintAuthority, offset) := readOption data (keyText base58Encode data) 32 0
  let (freezeAuthority, _) := readOption data (keyText base58Encode data) 32 (offset + 10)
  return {
    mintAuthority := mintAuthority
    supply := unsignedAt data offset 8
    decimals := byteAt data (offset + 8)
    isInitialized := byteAt data (offset + 9) ≠ 0
    freezeAuthority := freezeAuthority }

end Decode

/-! ### The layout -/

section Layout

variable (base58Encode : List UInt8 → String) (data : List UInt8)

/-- The option at a fixed offset. -/
def optionAt {α : Type} (value : ℕ → α) (offset : ℕ) : Option α :=
  if unsignedAt data offset 4 ≠ 0 then some (value (offset + 4)) else none

/-- An account with every field at its place in the layout. -/
structure LaidOut (a : TokenAccount) : Prop where
  mint : a.mint = keyText base58Encode data 0
  owner : a.owner = keyText base58Encode data 32
  amount : a.amount = unsignedAt data 64 8
  delegate : a.delegate = optionAt data (keyText base58Encode data) 72
  state : a.state = byteAt data 108
  isNative : a.isNative = optionAt data (unsignedAt data · 8) 109
  delegatedAmount : a.delegatedAmount = unsignedAt data 121 8
  closeAuthority : a.closeAuthority = optionAt data (keyText base58Encode data) 129

/-- A mint with its supply and its decimals where they are read elsewhere. -/
structure Mint.LaidOut (m : Mint) : Prop where
  supply : decodeMintSupply data = some m.supply
  decimals : m.decimals = byteAt data 44

/-- The decoder finds every field of the account at its place. -/
def DecodesAsLaidOut : Prop :=
  ∃ a, TokenAccount.decode base58Encode data = .ok a ∧ LaidOut base58Encode data a

def Mint.DecodesAsLaidOut : Prop :=
  ∃ m, Mint.decode base58Encode data = .ok m ∧ Mint.LaidOut data m

/-- By how much the state is read too early. -/
def stateShift : ℕ := if unsignedAt data 72 4 = 0 then 32 else 0

/-- By how much the delegated amount is read too early. -/
def amountShift : ℕ :=
  stateShift data + if unsignedAt data (109 - stateShift data) 4 = 0 then 8 else 0

/-- The fields that are read too early have the values that stand at their places. -/
def AccountCoincides : Prop :=
  byteAt data (108 - stateShift data) = byteAt data 108 ∧
  optionAt data (unsignedAt data · 8) (109 - stateShift data) =
    optionAt data (unsignedAt data · 8) 109 ∧
  unsignedAt data (121 - amountShift data) 8 = unsignedAt data 121 8 ∧
  optionAt data (keyBytes data) (129 - amountShift data) = optionAt data (keyBytes data) 129

/-- The mint authority is set, or supply and decimals stand behind its tag as well. -/
def MintCoincides : Prop :=
  unsignedAt data 0 4 ≠ 0 ∨
    unsignedAt data 4 8 = unsignedAt data 36 8 ∧ byteAt data 12 = byteAt data 44

end Layout

variable {base58Encode : List UInt8 → String} {data : List UInt8} {α : Type} {value : ℕ → α}
  {width offset : ℕ} {a : TokenAccount}

@[simp] theorem readOption_fst :
    (readOption data value width offset).1 = optionAt data value offset := by
  unfold readOption optionAt
  split <;> rfl

theorem readOption_snd : (readOption data value width offset).2 =
    offset + 4 + width - if unsignedAt data offset 4 = 0 then width else 0 := by
  by_cases htag : unsignedAt data offset 4 = 0
  · simp [readOption, htag]
  · simp [readOption, htag]

theorem stateShift_le : stateShift data ≤ 32 := by
  unfold stateShift
  split <;> omega

/-- What the decoder makes of an account, by the offsets that it reads. -/
theorem decode_eq (hlen : 165 ≤ data.length) : TokenAccount.decode base58Encode data = .ok {
    mint := keyText base58Encode data 0
    owner := keyText base58Encode data 32
    amount := unsignedAt data 64 8
    delegate := optionAt data (keyText base58Encode data) 72
    state := byteAt data (108 - stateShift data)
    isNative := optionAt data (unsignedAt data · 8) (109 - stateShift data)
    delegatedAmount := unsignedAt data (121 - amountShift data) 8
    closeAuthority := optionAt data (keyText base58Encode data) (129 - amountShift data) } := by
  have hshift : stateShift data ≤ 32 := stateShift_le
  have hstate : (readOption data (keyText base58Encode data) 32 72).2 = 108 - stateShift data := by
    rw [readOption_snd, stateShift]
  have hnative : (readOption data (unsignedAt data · 8) 8 (109 - stateShift data)).2 =
      121 - amountShift data := by
    rw [readOption_snd, amountShift]
    split <;> omega
  have hshift' : amountShift data ≤ 40 := by
    unfold amountShift
    split <;> omega
  have hnext : 108 - stateShift data + 1 = 109 - stateShift data := by omega
  have hclose : 121 - amountShift data + 8 = 129 - amountShift data := by omega
  rw [TokenAccount.decode, require_of (by omega), ok_bind]
  simp only [readOption_fst, hstate, hnext, hnative, hclose, pure, Except.pure]

/-- The text of a key determines its bytes. -/
def KeyTextInjective (base58Encode : List UInt8 → String) : Prop :=
  ∀ a b : List UInt8, a.length = 32 → b.length = 32 → base58Encode a = base58Encode b → a = b

theorem length_keyBytes (h : offset + 32 ≤ data.length) : (keyBytes data offset).length = 32 := by
  simp [keyBytes]
  omega

theorem optionAt_keyText_iff (hinj : KeyTextInjective base58Encode) {i j : ℕ}
    (hi : i + 36 ≤ data.length) (hj : j + 36 ≤ data.length) :
    optionAt data (keyText base58Encode data) i = optionAt data (keyText base58Encode data) j ↔
      optionAt data (keyBytes data) i = optionAt data (keyBytes data) j := by
  have hkey : keyText base58Encode data (i + 4) = keyText base58Encode data (j + 4) ↔
      keyBytes data (i + 4) = keyBytes data (j + 4) :=
    ⟨hinj _ _ (length_keyBytes (by omega)) (length_keyBytes (by omega)), congrArg base58Encode⟩
  unfold optionAt
  split <;> split <;> simp [hkey]

theorem laidOut_iff (hinj : KeyTextInjective base58Encode) (hlen : 165 ≤ data.length) :
    DecodesAsLaidOut base58Encode data ↔ AccountCoincides data := by
  have hbefore : 129 - amountShift data + 36 ≤ data.length := by omega
  have hclose := optionAt_keyText_iff hinj hbefore (j := 129) (by omega)
  rw [DecodesAsLaidOut, decode_eq hlen, AccountCoincides, ← hclose]
  generalize stateShift data = early, amountShift data = earlier
  constructor
  · rintro ⟨a, ha, h⟩
    obtain rfl := Except.ok.inj ha
    exact ⟨h.state, h.isNative, h.delegatedAmount, h.closeAuthority⟩
  · rintro ⟨hstate, hnative, hdelegated, hauthority⟩
    exact ⟨_, rfl, {
      mint := rfl
      owner := rfl
      amount := rfl
      delegate := rfl
      state := hstate
      isNative := hnative
      delegatedAmount := hdelegated
      closeAuthority := hauthority }⟩

theorem decode_mint_eq (base58Encode : List UInt8 → String) (hlen : 82 ≤ data.length) :
    ∃ m, Mint.decode base58Encode data = .ok m ∧
      m.supply = unsignedAt data (if unsignedAt data 0 4 = 0 then 4 else 36) 8 ∧
      m.decimals = byteAt data (if unsignedAt data 0 4 = 0 then 12 else 44) := by
  have hoffset : (readOption data (keyText base58Encode data) 32 0).2 =
      if unsignedAt data 0 4 = 0 then 4 else 36 := by
    rw [readOption_snd]
    split <;> rfl
  have hdecimals : (if unsignedAt data 0 4 = 0 then 4 else 36) + 8 =
      if unsignedAt data 0 4 = 0 then 12 else 44 := by split <;> rfl
  rw [Mint.decode, require_of (by omega), ok_bind]
  simp only [readOption_fst, hoffset, hdecimals]
  exact ⟨_, rfl, rfl, rfl⟩

theorem mint_laidOut_iff (hlen : 82 ≤ data.length) :
    Mint.DecodesAsLaidOut base58Encode data ↔ MintCoincides data := by
  obtain ⟨m, hm, hsupply, hdecimals⟩ := decode_mint_eq base58Encode hlen
  have hread : decodeMintSupply data = some (unsignedAt data 36 8) := if_neg (by omega)
  have hlaid : Mint.LaidOut data m ↔ MintCoincides data := by
    unfold MintCoincides
    by_cases htag : unsignedAt data 0 4 = 0
    · rw [if_pos htag] at hsupply hdecimals
      simp only [htag, ne_eq, not_true_eq_false, false_or]
      constructor
      · rintro ⟨hs, hd⟩
        rw [hread, Option.some.injEq, hsupply] at hs
        exact ⟨hs.symm, hdecimals.symm.trans hd⟩
      · rintro ⟨hs, hd⟩
        exact ⟨by rw [hread, hsupply, hs], hdecimals.trans hd⟩
    · rw [if_neg htag] at hsupply hdecimals
      exact iff_of_true ⟨by rw [hread, hsupply], hdecimals⟩ (.inl htag)
  rw [← hlaid]
  constructor
  · rintro ⟨m', hm', h⟩
    obtain rfl := Except.ok.inj (hm.symm.trans hm')
    exact h
  · exact fun h => ⟨m, hm, h⟩

/-! ### Option tags -/

/-- With both options set nothing is read too early. -/
theorem AccountCoincides.of_set (hdelegate : unsignedAt data 72 4 ≠ 0)
    (hnative : unsignedAt data 109 4 ≠ 0) : AccountCoincides data := by
  have hstate : stateShift data = 0 := if_neg hdelegate
  have hamount : amountShift data = 0 := by
    simp [amountShift, hstate, hnative]
  rw [AccountCoincides, hstate, hamount]
  exact ⟨rfl, rfl, rfl, rfl⟩

/-- An initialized account with the tags, and with a delegated amount of one. -/
def accountWith (delegateTag nativeTag : ℕ) : List UInt8 :=
  List.replicate 72 0 ++ (littleEndian 4 delegateTag ++ (List.replicate 32 0 ++ (1 ::
    (littleEndian 4 nativeTag ++ (List.replicate 8 0 ++ (1 :: List.replicate 43 0))))))

theorem length_accountWith (d n : ℕ) : (accountWith d n).length = 165 := by
  simp [accountWith]

theorem delegateTag_accountWith {d : ℕ} (n : ℕ) (hd : d < 256 ^ 4) :
    unsignedAt (accountWith d n) 72 4 = d :=
  AccountReader.unsignedAt_append _ List.length_replicate hd

theorem nativeTag_accountWith (d : ℕ) {n : ℕ} (hn : n < 256 ^ 4) :
    unsignedAt (accountWith d n) 109 4 = n := by
  have hfront : (List.replicate 72 0 ++ littleEndian 4 d ++
      (List.replicate 32 0 ++ [(1 : UInt8)])).length = 109 := by simp
  have h := AccountReader.unsignedAt_append (List.replicate 8 0 ++ (1 :: List.replicate 43 0))
    hfront hn
  rwa [List.append_assoc, List.append_assoc, List.append_assoc] at h

theorem not_coincides_accountWith {d n : ℕ} (hd : d < 256 ^ 4) (hn : n < 256 ^ 4)
    (h : d = 0 ∨ n = 0) : ¬ AccountCoincides (accountWith d n) := by
  have hdelegate := delegateTag_accountWith n hd
  rintro ⟨hstate, -, hdelegated, -⟩
  by_cases hd₀ : d = 0
  · -- the state is read from the key of the unset delegate
    rw [stateShift, if_pos (hdelegate.trans hd₀)] at hstate
    exact Nat.zero_ne_one hstate
  · -- the delegated amount is read from the unset native reserve
    have hshift : stateShift (accountWith d n) = 0 := if_neg (hdelegate.trans_ne hd₀)
    have hnative := (nativeTag_accountWith d hn).trans (h.resolve_left hd₀)
    rw [amountShift, hshift, if_pos hnative] at hdelegated
    exact Nat.zero_ne_one hdelegated

/-- An initialized mint with the tag, without supply and with one decimal. -/
def mintWith (authorityTag : ℕ) : List UInt8 :=
  littleEndian 4 authorityTag ++ (List.replicate 40 0 ++ (1 :: 1 :: List.replicate 36 0))

theorem length_mintWith (tag : ℕ) : (mintWith tag).length = 82 := by
  simp [mintWith]

theorem authorityTag_mintWith {tag : ℕ} (htag : tag < 256 ^ 4) :
    unsignedAt (mintWith tag) 0 4 = tag :=
  AccountReader.unsignedAt_append _ List.length_nil htag

theorem not_coincides_mintWith : ¬ MintCoincides (mintWith 0) := by
  rintro (hset | ⟨-, hdecimals⟩)
  · exact hset (authorityTag_mintWith (by decide))
  · exact Nat.zero_ne_one hdecimals

/-- An account is decoded as it is laid out exactly when the delegate and the native reserve are
both set or the bytes that are read too early say the same; a mint exactly when its authority is
set or supply and decimals stand behind the tag as well. Of the option tags only these decide. -/
theorem decode_laidOut_iff (hinj : KeyTextInjective base58Encode) :
    (∀ data : List UInt8, 165 ≤ data.length →
      (DecodesAsLaidOut base58Encode data ↔ AccountCoincides data)) ∧
    (∀ data : List UInt8, 82 ≤ data.length →
      (Mint.DecodesAsLaidOut base58Encode data ↔ MintCoincides data)) ∧
    (∀ delegateTag nativeTag : ℕ, delegateTag < 256 ^ 4 → nativeTag < 256 ^ 4 →
      ((∀ data : List UInt8, 165 ≤ data.length → unsignedAt data 72 4 = delegateTag →
        unsignedAt data 109 4 = nativeTag → DecodesAsLaidOut base58Encode data) ↔
        delegateTag ≠ 0 ∧ nativeTag ≠ 0)) ∧
    ∀ authorityTag : ℕ, authorityTag < 256 ^ 4 →
      ((∀ data : List UInt8, 82 ≤ data.length → unsignedAt data 0 4 = authorityTag →
        Mint.DecodesAsLaidOut base58Encode data) ↔ authorityTag ≠ 0) := by
  refine ⟨fun _ => laidOut_iff hinj, fun _ => mint_laidOut_iff, ?_, ?_⟩
  · intro d n hd hn
    constructor
    · intro h
      by_contra hunset
      have hlen := (length_accountWith d n).ge
      have hlaid := h _ hlen (delegateTag_accountWith n hd) (nativeTag_accountWith d hn)
      exact not_coincides_accountWith hd hn (by omega) ((laidOut_iff hinj hlen).1 hlaid)
    · rintro ⟨hd₀, hn₀⟩ data hlen hdelegate hnative
      exact (laidOut_iff hinj hlen).2
        (.of_set (hdelegate.trans_ne hd₀) (hnative.trans_ne hn₀))
  · intro tag htag
    constructor
    · rintro h rfl
      have hlen := (length_mintWith 0).ge
      have hlaid := h _ hlen (authorityTag_mintWith htag)
      exact not_coincides_mintWith ((mint_laidOut_iff hlen).1 hlaid)
    · intro htag₀ data hlen hauthority
      exact (mint_laidOut_iff hlen).2 (.inl (hauthority.trans_ne htag₀))

theorem keyTextInjective_base58 : KeyTextInjective Base58.encode :=
  fun _ _ ha hb => Base58.encode_inj (ha.trans hb.symm)

theorem decode_laidOut_iff_base58 :
    KeyTextInjective Base58.encode ∧
    (DecodesAsLaidOut Base58.encode (accountWith 1 1) ↔ AccountCoincides (accountWith 1 1)) :=
  ⟨keyTextInjective_base58,
    (decode_laidOut_iff keyTextInjective_base58).1 _ (length_accountWith 1 1).ge⟩

/-- The state of an initialized account without a delegate is read as uninitialized, and one
decimal of a mint without an authority as none. -/
theorem decode_unset_options :
    (∃ a, TokenAccount.decode Base58.encode (accountWith 0 0) = .ok a ∧
      a.state = 0 ∧ byteAt (accountWith 0 0) 108 = 1) ∧
    (∃ m, Mint.decode Base58.encode (mintWith 0) = .ok m ∧
      m.decimals = 0 ∧ byteAt (mintWith 0) 44 = 1) ∧
    ¬ DecodesAsLaidOut Base58.encode (accountWith 0 0) ∧
    ¬ Mint.DecodesAsLaidOut Base58.encode (mintWith 0) := by
  have hlen := (length_accountWith 0 0).ge
  have hmint := (length_mintWith 0).ge
  obtain ⟨m, hm, -, hdecimals⟩ := decode_mint_eq Base58.encode hmint
  refine ⟨⟨_, decode_eq hlen, rfl, rfl⟩, ⟨m, hm, hdecimals, rfl⟩, ?_, ?_⟩
  · rw [laidOut_iff keyTextInjective_base58 hlen]
    exact not_coincides_accountWith (by decide) (by decide) (.inl rfl)
  · rw [mint_laidOut_iff hmint]
    exact not_coincides_mintWith

end SolTrade.Token
