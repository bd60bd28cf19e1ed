import SolTrade.Token.HookAccounts

/-!
The two readers of a mint's extensions, and what they say of its transfer hook.

Each reader is a walk over the same entries: the fee reader collects them, the resolver
keeps the program of the hook. The resolver also goes on where the fee reader rejects, so
the entries are those of a mint that the fee reader takes.
-/

namespace SolTrade.Token

open Library Tlv
open PumpSwap (byteAt keyAt unsignedAt)

/-! ### The steps of the walks -/

section Steps

variable {d : List UInt8} {offset : ℕ} {extensions extensions' : Extensions}
  {active : Option Pubkey} {entry : ℕ × List UInt8} {entries : List (ℕ × List UInt8)}

/-- What the fee reader does with an entry. -/
def addExtension (extensions : Extensions) (entry : ℕ × List UInt8) :
    Except MintError Extensions :=
  if (extensions.ofKind entry.1).isSome then .error .duplicateExtension
  else if entry.1 ≠ 19 ∧ (extensionLengths.lookup entry.1).isNone then
    .error .unsupportedExtension
  else if entry.1 ≠ 19 ∧ extensionLengths.lookup entry.1 ≠ some entry.2.length then
    .error .invalidExtensionSize
  else .ok (extensions ++ [entry])

/-- What the resolver does with it. -/
def activate (active : Option Pubkey) (entry : ℕ × List UInt8) :
    Except HookError (Option Pubkey) :=
  if entry.1 = 14 then
    if active.isSome ∨ entry.2.length ≠ 64 then .error .invalidHookExtension
    else .ok (some (keyAt entry.2 32))
  else .ok active

theorem length_value (hfits : next d offset ≤ d.length) :
    (value d offset).length = number d (offset + 2) := by
  unfold next at hfits
  unfold value
  simp only [List.length_take, List.length_drop]
  omega

theorem keyAt_value (hlength : (value d offset).length = 64) :
    keyAt (value d offset) 32 = keyAt d (offset + 36) := by
  unfold keyAt
  congr 1
  ext i
  have hi := i.isLt
  have hwidth : (d.drop (offset + 4)).take (number d (offset + 2)) = value d offset := rfl
  have hat : 32 + i.val < (value d offset).length := by omega
  have hkeep : 32 + i.val < number d (offset + 2) := by
    rw [← hwidth, List.length_take] at hlength
    omega
  rw [← hwidth]
  simp only [List.getD_eq_getElem?_getD, List.getElem?_take, hkeep, if_true, List.getElem?_drop]
  congr 3
  omega

theorem unsignedAt_two : unsignedAt d offset 2 = number d offset := rfl

theorem room_of_not_ended (h : ¬ Ended d offset) :
    offset + 2 ≤ d.length ∧ number d offset ≠ 0 := by
  unfold Ended at h
  rw [not_or] at h
  exact ⟨by omega, h.2⟩

theorem readExtensions_ended (h : Ended d offset) :
    readExtensions d offset extensions = .ok extensions := by
  rw [readExtensions, unsignedAt_two]
  split
  · rcases h with hshort | hkind
    · simp [hshort]
    · simp [hkind]
  · rfl

theorem readExtensions_entry (h : ¬ Ended d offset) (hfits : next d offset ≤ d.length) :
    readExtensions d offset extensions =
      addExtension extensions (number d offset, value d offset) >>=
        readExtensions d (next d offset) := by
  obtain ⟨hroom, hkind⟩ := room_of_not_ended h
  have hnext : offset + 4 + number d (offset + 2) ≤ d.length := hfits
  rw [readExtensions]
  dsimp only
  rw [unsignedAt_two, unsignedAt_two, if_pos (by omega), if_neg (by omega), if_neg hkind,
    if_neg (by omega)]
  simp only [Nat.not_lt.2 hnext, or_false]
  unfold addExtension
  rw [length_value hfits]
  simp only [ite_error_bind, ok_bind]
  rfl

theorem next_le_of_readExtensions (h : ¬ Ended d offset)
    (hread : readExtensions d offset extensions = .ok extensions') : next d offset ≤ d.length := by
  obtain ⟨hroom, hkind⟩ := room_of_not_ended h
  by_contra hlong
  have hlong : d.length < offset + 4 + number d (offset + 2) := not_le.1 hlong
  rw [readExtensions] at hread
  dsimp only at hread
  rw [unsignedAt_two, unsignedAt_two, if_pos (by omega), if_neg (by omega), if_neg hkind] at hread
  split at hread
  · contradiction
  · simp [hlong] at hread

theorem activeHook_ended (h : Ended d offset) : activeHook d offset active = .ok active := by
  rw [activeHook, unsignedAt_two]
  split
  · rcases h with hshort | hkind
    · omega
    · exact if_pos hkind
  · rfl

theorem activeHook_entry (h : ¬ Ended d offset) (hfits : next d offset ≤ d.length) :
    activeHook d offset active =
      activate active (number d offset, value d offset) >>= activeHook d (next d offset) := by
  obtain ⟨hroom, hkind⟩ := room_of_not_ended h
  have hnext : offset + 4 + number d (offset + 2) ≤ d.length := hfits
  rw [activeHook]
  dsimp only
  rw [unsignedAt_two, unsignedAt_two, if_pos (by omega), if_neg hkind, if_neg (Nat.not_lt.2 hnext)]
  unfold activate
  rw [length_value hfits]
  split
  · rw [ite_error_bind]
    split
    · rfl
    · rename_i hgood
      have hlength : number d (offset + 2) = 64 := by
        by_contra hne
        exact hgood (.inr hne)
      rw [keyAt_value ((length_value hfits).trans hlength)]
      rfl
  · rfl

end Steps

/-! ### The two readings -/

section Readings

variable {d : List UInt8} {extensions extensions' : Extensions} {entry : ℕ × List UInt8}
  {entries : List (ℕ × List UInt8)} {epoch : ℤ}

/-- The program that the extensions name. -/
def hookOf (extensions : Extensions) : Option Pubkey :=
  (extensions.ofKind 14).map fun e => keyAt e 32

/-- An extension of the hook has its fixed size. -/
def HookSized (extensions : Extensions) : Prop := ∀ e ∈ extensions.ofKind 14, e.length = 64

theorem ofKind_append : Extensions.ofKind (extensions ++ [entry]) 14 =
    (extensions.ofKind 14).or (if entry.1 = 14 then some entry.2 else none) := by
  obtain ⟨kind, bytes⟩ := entry
  unfold Extensions.ofKind
  rw [List.lookup_append]
  congr 1
  by_cases hkind : kind = 14
  · simp [hkind]
  · have hne : (14 == kind) = false := beq_false_of_ne (Ne.symm hkind)
    simp [List.lookup_cons, hkind, hne]

/-- One entry leaves the readers in agreement. -/
theorem activate_of_addExtension (hsized : HookSized extensions)
    (h : addExtension extensions entry = .ok extensions') :
    activate (hookOf extensions) entry = .ok (hookOf extensions') ∧ HookSized extensions' := by
  unfold addExtension at h
  split at h
  · contradiction
  split at h
  · contradiction
  split at h
  · contradiction
  rename_i hnew _ hsize
  obtain rfl : extensions ++ [entry] = extensions' := by simpa using h
  unfold activate hookOf HookSized
  rw [ofKind_append]
  by_cases hkind : entry.1 = 14
  · have hnone : extensions.ofKind 14 = none := by
      rw [hkind] at hnew
      simpa using hnew
    have hlength : entry.2.length = 64 := by
      rw [hkind] at hsize
      by_contra hne
      exact hsize ⟨by decide, fun h => hne (Option.some_inj.1 h).symm⟩
    simp [hkind, hnone, hlength]
  · simp only [hkind, if_false, Option.or_none]
    exact ⟨trivial, hsized⟩

theorem activate_of_addExtensions (hsized : HookSized extensions)
    (h : entries.foldlM addExtension extensions = .ok extensions') :
    entries.foldlM activate (hookOf extensions) = .ok (hookOf extensions') ∧
      HookSized extensions' := by
  induction entries generalizing extensions with
  | nil =>
      obtain rfl : extensions = extensions' := by simpa using h
      exact ⟨rfl, hsized⟩
  | cons entry entries ih =>
      rw [List.foldlM_cons] at h
      obtain ⟨middle, hentry, hrest⟩ := bind_eq_ok.1 h
      obtain ⟨hactive, hsized⟩ := activate_of_addExtension hsized hentry
      rw [List.foldlM_cons, hactive]
      exact ih hsized hrest

/-- On a mint whose extensions the fee reader takes, the resolver finds the program that
the extensions name. -/
theorem activeHook_of_readExtensions (h : readExtensions d 166 [] = .ok extensions) :
    activeHook d 166 none = .ok (hookOf extensions) ∧ HookSized extensions := by
  have hread : ∀ o s, ¬ Ended d o → next d o ≤ d.length →
      readExtensions d o s = addExtension s (number d o, value d o) >>=
        readExtensions d (next d o) := fun _ _ => readExtensions_entry
  have hreject : ∀ o s r, ¬ Ended d o → readExtensions d o s = .ok r → next d o ≤ d.length :=
    fun _ _ _ => next_le_of_readExtensions
  have hactive : ∀ o s, ¬ Ended d o → next d o ≤ d.length →
      activeHook d o s = activate s (number d o, value d o) >>= activeHook d (next d o) :=
    fun _ _ => activeHook_entry
  have hreadEnd : ∀ o s, Ended d o → readExtensions d o s = .ok (id s) :=
    fun _ _ => readExtensions_ended
  have hactiveEnd : ∀ o s, Ended d o → activeHook d o s = .ok (id s) :=
    fun _ _ => activeHook_ended
  obtain ⟨entries, hentries⟩ := exists_entries hread hreject h
  have hfold : entries.foldlM addExtension [] = .ok extensions := by
    have hwalk := walk_of_entries hreadEnd hread hentries []
    rw [h] at hwalk
    simpa using hwalk.symm
  rw [walk_of_entries hactiveEnd hactive hentries none]
  have hnone : HookSized [] := by
    intro e he
    simp [Extensions.ofKind] at he
  obtain ⟨hsteps, hsized⟩ := activate_of_addExtensions hnone hfold
  have hsteps : entries.foldlM activate none = .ok (hookOf extensions) := hsteps
  rw [hsteps]
  exact ⟨rfl, hsized⟩

/-- The key of an extension of the fixed size is zero when its bytes are. -/
theorem keyAt_eq_default {e : List UInt8} (hsize : e.length = 64) :
    keyAt e 32 = .default ↔ ¬ ∃ b ∈ e.drop 32, b ≠ 0 := by
  unfold keyAt Pubkey.default
  rw [Vector.ext_iff]
  simp only [not_exists, not_and, not_not]
  constructor
  · intro h b hb
    obtain ⟨i, hi, rfl⟩ := List.getElem_of_mem hb
    rw [List.length_drop] at hi
    have hat := h i (by omega)
    rw [List.getElem_drop]
    simpa [List.getD_eq_getElem?_getD, hsize, show 32 + i < 64 by omega] using hat
  · intro h i hi
    have hlt : 32 + i < e.length := by omega
    have hmem : e[32 + i] ∈ e.drop 32 := by
      refine List.mem_drop_iff_getElem.2 ⟨i, by omega, ?_⟩
      simp [Nat.add_comm]
    have hzero := h _ hmem
    simpa [List.getD_eq_getElem?_getD, hsize, show 32 + i < 64 by omega] using hzero

end Readings

/-! ### What the readers say -/

section Agreement

variable {d : List UInt8} {extensions : Extensions} {epoch : ℤ} {fee : Route.TokenTransferFee}

theorem feeOfExtensions_ok (hsized : HookSized extensions)
    (h : feeOfExtensions extensions epoch = .ok fee) :
    ∀ p ∈ hookOf extensions, p = .default := by
  unfold feeOfExtensions at h
  obtain ⟨_, -, h⟩ := bind_eq_ok.1 h
  obtain ⟨_, -, h⟩ := bind_eq_ok.1 h
  obtain ⟨_, hhook, -⟩ := bind_eq_ok.1 h
  rw [require_eq_ok] at hhook
  intro p hp
  obtain ⟨e, he, rfl⟩ := Option.mem_map.1 hp
  exact (keyAt_eq_default (hsized e he)).2 (hhook e he)

theorem feeOfExtensions_hook (hsized : HookSized extensions)
    (h : feeOfExtensions extensions epoch = .error .activeTransferHook) :
    ∃ p ∈ hookOf extensions, p ≠ .default := by
  by_contra hnone
  have hzero : ∀ e ∈ extensions.ofKind 14, ¬ ∃ b ∈ e.drop 32, b ≠ 0 := by
    intro e he
    rw [← keyAt_eq_default (hsized e he)]
    by_contra hne
    exact hnone ⟨_, Option.mem_map_of_mem _ he, hne⟩
  revert h
  unfold feeOfExtensions
  refine bind_ne_error (require_ne_error (by decide)) fun _ => ?_
  refine bind_ne_error (require_ne_error (by decide)) fun _ => ?_
  rw [require_of hzero, ok_bind]
  split
  · exact pure_ne_error
  · exact bind_ne_error (require_ne_error (by decide)) fun _ => pure_ne_error

/-- A mint that the fee reader takes has its extensions read, or has none. -/
theorem tokenTransferFee_ok (h : tokenTransferFeeForEpoch d token2022Program epoch = .ok fee) :
    d.length = 82 ∨ ∃ extensions, readExtensions d 166 [] = .ok extensions ∧
      feeOfExtensions extensions epoch = .ok fee := by
  unfold tokenTransferFeeForEpoch at h
  obtain ⟨_, -, h⟩ := bind_eq_ok.1 h
  obtain ⟨_, -, h⟩ := bind_eq_ok.1 h
  obtain ⟨_, -, h⟩ := bind_eq_ok.1 h
  rw [if_neg (by decide +kernel)] at h
  split at h
  · exact .inl ‹_›
  · obtain ⟨_, -, h⟩ := bind_eq_ok.1 h
    exact .inr (bind_eq_ok.1 h)

theorem readExtensions_ne_hook {offset : ℕ} :
    readExtensions d offset extensions ≠ .error .activeTransferHook := by
  induction hleft : d.length - offset using Nat.strong_induction_on generalizing offset extensions
    with
  | _ left ih =>
      rw [readExtensions]
      split
      · dsimp only
        refine ite_ne_error (by simp) (ite_ne_error (by simp) (ite_ne_error (by simp) ?_))
        refine ite_ne_error (by simp) (ite_ne_error (by simp) (ite_ne_error (by simp) ?_))
        exact ih _ (by omega) rfl
      · simp

theorem tokenTransferFee_hook
    (h : tokenTransferFeeForEpoch d token2022Program epoch = .error .activeTransferHook) :
    ∃ extensions, readExtensions d 166 [] = .ok extensions ∧
      feeOfExtensions extensions epoch = .error .activeTransferHook := by
  by_contra hnone
  revert h
  unfold tokenTransferFeeForEpoch
  refine bind_ne_error ?_ fun _ => ?_
  · cases unsigned epoch u64 <;> simp [Except.mapError]
  refine bind_ne_error (require_ne_error (by decide)) fun _ => ?_
  refine bind_ne_error (require_ne_error (by decide)) fun _ => ?_
  rw [if_neg (by decide +kernel)]
  refine ite_ne_error pure_ne_error ?_
  refine bind_ne_error (require_ne_error (by decide)) fun _ => ?_
  rw [ne_eq, bind_eq_error]
  rintro (hread | ⟨extensions, hread, hfee⟩)
  · exact readExtensions_ne_hook hread
  · exact hnone ⟨extensions, hread, hfee⟩

/-- Without room for an entry the resolver finds nothing. -/
theorem activeHook_of_short (h : d.length = 82) : activeHook d 166 none = .ok none :=
  activeHook_ended (.inl (by omega))

/-- A resolver that succeeds found the program of the hook in the mint. -/
theorem resolveHookAccounts_ok
    {findProgramAddress : List (List UInt8) → Pubkey → Option (Pubkey × ℕ)}
    {hook : Pubkey} {executeAccounts : List Pubkey} {executeData : List UInt8}
    {accountData : Pubkey → Option (List UInt8)} {mint mintOwner validation validationOwner : Pubkey}
    {validationData : List UInt8} {metas : List AccountMeta}
    (h : resolveHookAccounts findProgramAddress hook executeAccounts executeData accountData mint
      mintOwner d validation validationOwner validationData = .ok metas) :
    activeHook d 166 none = .ok (some hook) ∧ hook ≠ .default := by
  unfold resolveHookAccounts at h
  obtain ⟨_, -, h⟩ := bind_eq_ok.1 h
  obtain ⟨_, -, h⟩ := bind_eq_ok.1 h
  obtain ⟨active, hactive, h⟩ := bind_eq_ok.1 h
  obtain ⟨_, hprogram, -⟩ := bind_eq_ok.1 h
  rw [require_eq_ok, not_or, not_not] at hprogram
  rw [hactive, hprogram.1]
  exact ⟨rfl, hprogram.2⟩

/-- A program that the resolver finds in a mint that the fee reader takes is no program. -/
theorem active_of_accepted {program : Pubkey}
    (haccept : tokenTransferFeeForEpoch d token2022Program epoch = .ok fee)
    (hactive : activeHook d 166 none = .ok (some program)) : program = .default := by
  rcases tokenTransferFee_ok haccept with hshort | ⟨extensions, hread, hfee⟩
  · rw [activeHook_of_short hshort] at hactive
    simp at hactive
  · obtain ⟨hfound, hsized⟩ := activeHook_of_readExtensions hread
    rw [hfound, Except.ok.injEq] at hactive
    exact feeOfExtensions_ok hsized hfee program hactive

/-- The fee reader and the resolver agree on the hook of a mint. A mint that the fee reader
takes has no accounts to resolve, a program that the resolver finds makes the fee reader
reject the mint, and where the fee reader rejects a mint for its hook, the resolver finds
the program. On a mint whose extensions are read, they read the same program. -/
theorem fee_reader_agrees_with_hook_resolver
    (findProgramAddress : List (List UInt8) → Pubkey → Option (Pubkey × ℕ)) (d : List UInt8)
    (epoch : ℤ) :
    (∀ fee, tokenTransferFeeForEpoch d token2022Program epoch = .ok fee →
      ∀ hook executeAccounts executeData accountData mint mintOwner validation validationOwner
        validationData, ∃ e, resolveHookAccounts findProgramAddress hook executeAccounts executeData
          accountData mint mintOwner d validation validationOwner validationData = .error e) ∧
      (∀ program, activeHook d 166 none = .ok (some program) → program ≠ .default →
        ∃ e, tokenTransferFeeForEpoch d token2022Program epoch = .error e) ∧
      (tokenTransferFeeForEpoch d token2022Program epoch = .error .activeTransferHook →
        ∃ program, activeHook d 166 none = .ok (some program) ∧ program ≠ .default) ∧
      (∀ extensions, readExtensions d 166 [] = .ok extensions →
        activeHook d 166 none = .ok (hookOf extensions)) := by
  refine ⟨?_, ?_, ?_, fun extensions hread => (activeHook_of_readExtensions hread).1⟩
  · intro fee haccept hook executeAccounts executeData accountData mint mintOwner validation
      validationOwner validationData
    cases hresolve : resolveHookAccounts findProgramAddress hook executeAccounts executeData
      accountData mint mintOwner d validation validationOwner validationData with
    | error e => exact ⟨e, rfl⟩
    | ok metas =>
        obtain ⟨hactive, hne⟩ := resolveHookAccounts_ok hresolve
        exact absurd (active_of_accepted haccept hactive) hne
  · intro program hactive hne
    cases hfee : tokenTransferFeeForEpoch d token2022Program epoch with
    | error e => exact ⟨e, rfl⟩
    | ok fee => exact absurd (active_of_accepted hfee hactive) hne
  · intro hreject
    obtain ⟨extensions, hread, hfee⟩ := tokenTransferFee_hook hreject
    obtain ⟨hactive, hsized⟩ := activeHook_of_readExtensions hread
    obtain ⟨program, hprogram, hne⟩ := feeOfExtensions_hook hsized hfee
    exact ⟨program, by rw [hactive, hprogram], hne⟩

end Agreement

section Sample

/-- A mint with a transfer hook whose program ends in the byte. -/
def hookedMint (last : UInt8) : List UInt8 :=
  List.replicate 45 0 ++ [1] ++ List.replicate 119 0 ++ [1] ++ [14, 0, 64, 0] ++
    List.replicate 63 0 ++ [last]

theorem fee_reader_agrees_with_hook_resolver_sample :
    (∃ e, resolveHookAccounts (fun _ _ => none) .default [] [] (fun _ => none) .default
      token2022Program (hookedMint 0) .default .default [] = .error e) ∧
      (∃ e, tokenTransferFeeForEpoch (hookedMint 1) token2022Program 0 = .error e) ∧
      ∃ program, activeHook (hookedMint 1) 166 none = .ok (some program) ∧ program ≠ .default := by
  obtain ⟨haccept, -, -, -⟩ :=
    fee_reader_agrees_with_hook_resolver (fun _ _ => none) (hookedMint 0) 0
  obtain ⟨-, hactive, hreject, -⟩ :=
    fee_reader_agrees_with_hook_resolver (fun _ _ => none) (hookedMint 1) 0
  obtain ⟨program, hprogram, hne⟩ := hreject (by decide +kernel)
  exact ⟨haccept {} (by decide +kernel) _ _ _ _ _ _ _ _ _, hactive program hprogram hne,
    program, hprogram, hne⟩

end Sample

end SolTrade.Token
