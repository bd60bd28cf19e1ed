import SolTrade.Token.HookAccounts

/-!
What the resolved accounts of a hook may do.

An entry of the list is resolved among the keys before it: the accounts of the transfer, and
those of the earlier entries. None of them signs, and none is writable that the caller or an
earlier entry has made readonly.
-/

namespace SolTrade.Token

open Library
open PumpSwap (byteAt keyAt unsignedAt)

/-! ### What an entry refers to -/

/-- What a seed of a configuration stands for. -/
inductive SeedUse where
  | literal (offset length : ℕ)
  | instruction (start length : ℕ)
  | accountKey (index : ℕ)
  | accountData (index start length : ℕ)
  deriving DecidableEq

namespace SeedUse

def width : SeedUse → ℕ
  | literal _ length => 2 + length
  | instruction _ _ => 3
  | accountKey _ => 2
  | accountData _ _ _ => 4

def account? : SeedUse → Option ℕ
  | literal _ _ => none
  | instruction _ _ => none
  | accountKey index => some index
  | accountData index _ _ => some index

/-- The bytes of the seed, if the account that it refers to is among the keys. -/
def value (executeData : List UInt8) (accountData : Pubkey → Option (List UInt8))
    (config : List UInt8) (keys : List Pubkey) : SeedUse → Option (List UInt8)
  | literal offset length => some ((config.drop offset).take length)
  | instruction start length => some ((executeData.drop start).take length)
  | accountKey index => keys[index]?.map Vector.toList
  | .accountData index start length =>
      (keys[index]?.bind accountData).map fun data => (data.drop start).take length

end SeedUse

def seedUse (config : List UInt8) (offset : ℕ) : Option SeedUse :=
  match byteAt config offset with
  | 1 => some (.literal (offset + 2) (byteAt config (offset + 1)))
  | 2 => some (.instruction (byteAt config (offset + 1)) (byteAt config (offset + 2)))
  | 3 => some (.accountKey (byteAt config (offset + 1)))
  | 4 => some (.accountData (byteAt config (offset + 1)) (byteAt config (offset + 2))
      (byteAt config (offset + 3)))
  | _ => none

/-- The seeds of a configuration from the offset on, up to a zero. -/
def seedUses (config : List UInt8) : ℕ → ℕ → List SeedUse
  | 0, _ => []
  | left + 1, offset =>
      if offset < 32 ∧ byteAt config offset ≠ 0 then
        match seedUse config offset with
        | none => []
        | some use => use :: seedUses config left (offset + use.width)
      else []

/-- The indices by which an entry refers to accounts: of its program, of its seeds and of the
account that its key is read from. -/
def accountIndices (item : List UInt8) : List ℕ :=
  let config := (item.drop 1).take 32
  if byteAt item 0 = 2 then if byteAt config 0 = 2 then [byteAt config 1] else []
  else if byteAt item 0 = 1 ∨ 128 ≤ byteAt item 0 then
    (if 128 ≤ byteAt item 0 then [byteAt item 0 - 128] else []) ++
      (seedUses config 32 0).filterMap SeedUse.account?
  else []

section Resolve

variable {findProgramAddress : List (List UInt8) → Pubkey → Option (Pubkey × ℕ)}
  {hook : Pubkey} {executeAccounts : List Pubkey} {executeData : List UInt8}
  {accountData : Pubkey → Option (List UInt8)} {config item : List UInt8} {keys : List Pubkey}
  {offset after left : ℕ} {seed : List UInt8} {key : Pubkey}

/-- A seed is what its configuration stands for. -/
theorem readSeed_ok (h : readSeed executeData accountData config keys offset = .ok (seed, after)) :
    ∃ use, seedUse config offset = some use ∧ after = offset + use.width ∧
      use.value executeData accountData config keys = some seed := by
  unfold readSeed at h
  by_cases h1 : byteAt config offset = 1
  · rw [if_pos h1] at h
    obtain ⟨-, -, h⟩ := bind_eq_ok.1 h
    cases h
    exact ⟨.literal (offset + 2) (byteAt config (offset + 1)), by simp [seedUse, h1],
      Nat.add_assoc _ _ _, rfl⟩
  rw [if_neg h1] at h
  by_cases h2 : byteAt config offset = 2
  · rw [if_pos h2] at h
    obtain ⟨-, -, h⟩ := bind_eq_ok.1 h
    obtain ⟨-, -, h⟩ := bind_eq_ok.1 h
    cases h
    exact ⟨.instruction (byteAt config (offset + 1)) (byteAt config (offset + 2)),
      by simp [seedUse, h2], rfl, rfl⟩
  rw [if_neg h2] at h
  by_cases h3 : byteAt config offset = 3
  · rw [if_pos h3] at h
    obtain ⟨-, -, h⟩ := bind_eq_ok.1 h
    cases hkey : keys[byteAt config (offset + 1)]? with
    | none => simp [hkey] at h
    | some key =>
        rw [hkey] at h
        cases h
        exact ⟨.accountKey (byteAt config (offset + 1)), by simp [seedUse, h3], rfl,
          by simp [SeedUse.value, hkey]⟩
  rw [if_neg h3] at h
  by_cases h4 : byteAt config offset = 4
  · rw [if_pos h4] at h
    obtain ⟨-, -, h⟩ := bind_eq_ok.1 h
    cases hkey : keys[byteAt config (offset + 1)]? with
    | none => simp [hkey] at h
    | some key =>
        cases hdata : accountData key with
        | none => simp [hkey, hdata] at h
        | some data =>
            simp only [hkey, hdata, bind_eq_ok] at h
            obtain ⟨-, -, h⟩ := h
            cases h
            exact ⟨.accountData (byteAt config (offset + 1)) (byteAt config (offset + 2))
              (byteAt config (offset + 3)), by simp [seedUse, h4], rfl,
              by simp [SeedUse.value, hkey, hdata]⟩
  rw [if_neg h4] at h
  cases h

/-- The seeds of a configuration are what it stands for. -/
theorem readSeeds_ok {seeds seeds' : List (List UInt8)}
    (h : readSeeds executeData accountData config keys left offset seeds = .ok (after, seeds')) :
    ∃ read, seeds' = seeds ++ read ∧
      (seedUses config left offset).map (SeedUse.value executeData accountData config keys) =
        read.map some := by
  induction left generalizing offset seeds with
  | zero =>
      cases h
      exact ⟨[], by simp, rfl⟩
  | succ left ih =>
      rw [readSeeds] at h
      rw [seedUses]
      by_cases hmore : offset < 32 ∧ byteAt config offset ≠ 0
      · rw [if_pos hmore, bind_eq_ok] at h
        obtain ⟨⟨seed, next⟩, hseed, hrest⟩ := h
        obtain ⟨use, huse, rfl, hvalue⟩ := readSeed_ok hseed
        obtain ⟨read, rfl, hread⟩ := ih hrest
        refine ⟨seed :: read, by simp, ?_⟩
        rw [if_pos hmore, huse]
        simp [hvalue, hread]
      · rw [if_neg hmore] at h
        cases h
        exact ⟨[], by simp, by simp [hmore]⟩

/-- A seed that has a value refers to one of the keys. -/
theorem SeedUse.account_lt {use : SeedUse} {index : ℕ}
    (h : use.value executeData accountData config keys = some seed)
    (hindex : use.account? = some index) : index < keys.length := by
  by_contra hge
  have hnone : keys[index]? = none := List.getElem?_eq_none (Nat.le_of_not_lt hge)
  cases use with
  | literal => cases hindex
  | instruction => cases hindex
  | accountKey =>
      cases hindex
      simp [value, hnone] at h
  | accountData =>
      cases hindex
      simp [value, hnone] at h

theorem readSeeds_indices {seeds : List (List UInt8)}
    (h : readSeeds executeData accountData config keys left offset [] = .ok (after, seeds)) :
    ∀ index ∈ (seedUses config left offset).filterMap SeedUse.account?, index < keys.length := by
  intro index hindex
  obtain ⟨use, huse, haccount⟩ := List.mem_filterMap.1 hindex
  obtain ⟨read, -, hread⟩ := readSeeds_ok h
  have hvalue : use.value executeData accountData config keys ∈ read.map some := by
    rw [← hread]
    exact List.mem_map_of_mem huse
  obtain ⟨seed, -, hseed⟩ := List.mem_map.1 hvalue
  exact SeedUse.account_lt hseed.symm haccount

/-- An entry that is resolved refers to the keys before it only. -/
theorem resolveKey_indices
    (h : resolveKey findProgramAddress hook executeData accountData item keys = .ok key) :
    ∀ index ∈ accountIndices item, index < keys.length := by
  intro index hindex
  unfold accountIndices at hindex
  unfold resolveKey at h
  generalize (item.drop 1).take 32 = config at h hindex
  by_cases hzero : byteAt item 0 = 0
  · simp [hzero] at hindex
  simp only [if_neg hzero] at h
  by_cases hkey : byteAt item 0 = 2
  · simp only [if_pos hkey] at h hindex
    by_cases hone : byteAt config 0 = 1
    · simp [hone] at hindex
    by_cases htwo : byteAt config 0 = 2
    · -- the key is read from the data of an account
      rw [if_pos htwo, List.mem_singleton] at hindex
      rw [if_neg hone, if_pos htwo] at h
      obtain ⟨-, -, h⟩ := bind_eq_ok.1 h
      by_contra hge
      rw [hindex, Nat.not_lt] at hge
      simp [List.getElem?_eq_none hge] at h
    · simp [htwo] at hindex
  simp only [if_neg hkey] at h hindex
  by_cases hseeds : byteAt item 0 = 1 ∨ 128 ≤ byteAt item 0
  · rw [if_pos hseeds] at h hindex
    by_cases hexternal : 128 ≤ byteAt item 0
    · rw [if_pos hexternal] at h hindex
      cases hprogram : keys[byteAt item 0 - 128]? with
      | none =>
          simp only [hprogram, bind_eq_ok] at h
          obtain ⟨_, hnone, -⟩ := h
          cases hnone
      | some program =>
          simp only [hprogram, bind_eq_ok] at h
          obtain ⟨_, -, ⟨offset, seeds⟩, hread, -⟩ := h
          obtain ⟨hlt, -⟩ := List.getElem?_eq_some_iff.1 hprogram
          rw [List.singleton_append] at hindex
          rcases List.mem_cons.1 hindex with hprogram | hindex
          · rwa [hprogram]
          · exact readSeeds_indices hread index hindex
    · rw [if_neg hexternal] at h hindex
      obtain ⟨_, -, h⟩ := bind_eq_ok.1 h
      obtain ⟨⟨offset, seeds⟩, hread, -⟩ := bind_eq_ok.1 h
      exact readSeeds_indices hread index hindex
  · simp [hseeds] at hindex

/-! ### A run over the entries -/

/-- What holds of the accounts that the entries taken so far have been resolved to. -/
structure ResolvedEntries (executeAccounts : List Pubkey) (taken : List (List UInt8))
    (s : List AccountMeta × List Pubkey) : Prop where
  length : s.1.length = taken.length
  keys : s.2 = executeAccounts ++ s.1.map AccountMeta.pubkey
  unsigned : ∀ m ∈ s.1, m.isSigner = false
  readonly : ∀ m ∈ s.1, m.pubkey ∈ executeAccounts → m.isWritable = false
  firstWritable : ∀ m ∈ s.1, m.isWritable = true →
    ∃ first, s.1.find? (·.pubkey = m.pubkey) = some first ∧ first.isWritable = true
  indices : ∀ i item, taken[i]? = some item → ∀ index ∈ accountIndices item,
    index < executeAccounts.length + i

/-- An entry adds one account. It does not sign, is readonly if the transfer has it, and is only
made writable again if an earlier entry has made it so. -/
theorem resolveEntry_ok {s s' : List AccountMeta × List Pubkey}
    (hfive : executeAccounts.length = 5)
    (hkeys : s.2 = executeAccounts ++ s.1.map AccountMeta.pubkey)
    (h : resolveEntry findProgramAddress hook executeAccounts executeData accountData s item =
      .ok s') :
    ∃ m : AccountMeta, s' = (s.1 ++ [m], s.2 ++ [m.pubkey]) ∧ m.isSigner = false ∧
      (m.pubkey ∈ executeAccounts → m.isWritable = false) ∧
      (m.isWritable = true → m.pubkey ∈ s.1.map AccountMeta.pubkey →
        ∃ n ∈ s.1, n.pubkey = m.pubkey ∧ n.isWritable = true) ∧
      ∀ index ∈ accountIndices item, index < s.2.length := by
  obtain ⟨resolved, keys⟩ := s
  obtain ⟨-, -, h⟩ := bind_eq_ok.1 h
  obtain ⟨key, hkey, h⟩ := bind_eq_ok.1 h
  have hearlier : keys.drop 5 = resolved.map AccountMeta.pubkey := by
    rw [show keys = _ from hkeys, ← hfive, List.drop_left]
  rw [pure_eq_ok, hearlier] at h
  refine ⟨_, h.symm, rfl, ?_, ?_, resolveKey_indices hkey⟩
  · intro hexecute
    simp [show key ∈ executeAccounts from hexecute]
  · intro hwritable hbefore
    simp only [show key ∈ resolved.map AccountMeta.pubkey from hbefore, if_true,
      decide_eq_true_eq] at hwritable
    exact hwritable.2

theorem find?_pubkey_append {resolved : List AccountMeta} {m first : AccountMeta} {key : Pubkey}
    (h : resolved.find? (·.pubkey = key) = some first) :
    (resolved ++ [m]).find? (·.pubkey = key) = some first := by
  rw [List.find?_append, h, Option.some_or]

theorem ResolvedEntries.step {taken : List (List UInt8)} {s s' : List AccountMeta × List Pubkey}
    (hfive : executeAccounts.length = 5) (hs : ResolvedEntries executeAccounts taken s)
    (h : resolveEntry findProgramAddress hook executeAccounts executeData accountData s item =
      .ok s') :
    ResolvedEntries executeAccounts (taken ++ [item]) s' := by
  obtain ⟨m, rfl, hunsigned, hreadonly, hearlier, hindices⟩ := resolveEntry_ok hfive hs.keys h
  constructor
  · simp [hs.length]
  · simp [hs.keys]
  · rw [List.forall_mem_append, List.forall_mem_singleton]
    exact ⟨hs.unsigned, hunsigned⟩
  · rw [List.forall_mem_append, List.forall_mem_singleton]
    exact ⟨hs.readonly, hreadonly⟩
  · rw [List.forall_mem_append, List.forall_mem_singleton]
    constructor
    · intro n hn hwritable
      obtain ⟨first, hfirst, hw⟩ := hs.firstWritable n hn hwritable
      exact ⟨first, find?_pubkey_append hfirst, hw⟩
    · intro hwritable
      by_cases hbefore : m.pubkey ∈ s.1.map AccountMeta.pubkey
      · obtain ⟨n, hn, hsame, hw⟩ := hearlier hwritable hbefore
        obtain ⟨first, hfirst, hw⟩ := hs.firstWritable n hn hw
        rw [hsame] at hfirst
        exact ⟨first, find?_pubkey_append hfirst, hw⟩
      · -- the entry is itself the first with its key
        have hnone : s.1.find? (·.pubkey = m.pubkey) = none := by
          rw [List.find?_eq_none]
          intro n hn hsame
          exact hbefore (List.mem_map.2 ⟨n, hn, of_decide_eq_true hsame⟩)
        refine ⟨m, ?_, hwritable⟩
        rw [List.find?_append, hnone]
        simp
  · intro i item' hitem index hindex
    by_cases hi : i < taken.length
    · rw [List.getElem?_append_left hi] at hitem
      exact hs.indices i item' hitem index hindex
    · rw [List.getElem?_append_right (Nat.le_of_not_lt hi)] at hitem
      obtain ⟨hlast, rfl⟩ : i - taken.length = 0 ∧ item = item' := by
        simpa [List.getElem?_singleton] using hitem
      have hindex := hindices index hindex
      rw [hs.keys, List.length_append, List.length_map, hs.length] at hindex
      omega

/-- The entry of the validation account with the number. -/
def entryAt (validationData : List UInt8) (i : ℕ) : List UInt8 :=
  (validationData.drop (16 + 35 * i)).take 35

variable {mint mintOwner validation validationOwner : Pubkey}
  {mintData validationData : List UInt8} {metas : List AccountMeta}

/-- The list is made of one account for each entry, then the program and the validation account. -/
theorem resolveHookAccounts_entries
    (h : resolveHookAccounts findProgramAddress hook executeAccounts executeData accountData mint
      mintOwner mintData validation validationOwner validationData = .ok metas) :
    executeAccounts.length = 5 ∧ executeAccounts[4]? = some validation ∧
    ∃ s : List AccountMeta × List Pubkey,
      ResolvedEntries executeAccounts
        ((List.range (unsignedAt validationData 12 4)).map (entryAt validationData)) s ∧
      metas = s.1 ++ [⟨hook, false, false⟩, ⟨validation, false, false⟩] := by
  simp only [resolveHookAccounts, bind_eq_ok, require_eq_ok] at h
  obtain ⟨-, -, -, -, -, -, -, -, -, -, -, -, -, horder, -, -, -, -, s, hrun, hmetas⟩ := h
  simp only [not_or, not_not] at horder
  obtain ⟨hfive, -, hvalidation⟩ := horder
  have hempty : ResolvedEntries executeAccounts [] ([], executeAccounts) := by
    constructor <;> simp
  have hs := foldlM_ok_induction (fun _ _ _ _ hs hstep => hs.step hfive hstep) hempty hrun
  exact ⟨hfive, hvalidation, s, hs, (pure_eq_ok.1 hmetas).symm⟩

/-- No account of a hook signs, none is writable that the transfer has, and a writable one is
writable where it first occurs. An entry refers to the five accounts of the transfer and to the
entries before it; and there is one account for each entry before the program and the
validation account. -/
theorem resolveHookAccounts_privileges
    (h : resolveHookAccounts findProgramAddress hook executeAccounts executeData accountData mint
      mintOwner mintData validation validationOwner validationData = .ok metas) :
    (∀ m ∈ metas, m.isSigner = false) ∧
    executeAccounts.length = 5 ∧
    (∀ m ∈ metas, m.pubkey ∈ executeAccounts → m.isWritable = false) ∧
    (∀ m ∈ metas, m.isWritable = true →
      ∃ first, metas.find? (·.pubkey = m.pubkey) = some first ∧ first.isWritable = true) ∧
    (∀ i < unsignedAt validationData 12 4,
      ∀ index ∈ accountIndices (entryAt validationData i), index < 5 + i) ∧
    ∃ resolved, resolved.length = unsignedAt validationData 12 4 ∧
      metas = resolved ++ [⟨hook, false, false⟩, ⟨validation, false, false⟩] := by
  obtain ⟨hfive, -, ⟨resolved, keys⟩, hs, rfl⟩ := resolveHookAccounts_entries h
  refine ⟨?_, hfive, ?_, ?_, ?_, resolved, by simpa using hs.length, rfl⟩
  · rw [List.forall_mem_append]
    exact ⟨hs.unsigned, by simp⟩
  · rw [List.forall_mem_append]
    exact ⟨hs.readonly, by simp⟩
  · rw [List.forall_mem_append]
    refine ⟨?_, by simp⟩
    intro m hm hwritable
    obtain ⟨first, hfirst, hw⟩ := hs.firstWritable m hm hwritable
    refine ⟨first, ?_, hw⟩
    rw [List.find?_append, hfirst, Option.some_or]
  · intro i hi index hindex
    have hitem : ((List.range (unsignedAt validationData 12 4)).map
        (entryAt validationData))[i]? = some (entryAt validationData i) := by
      rw [List.getElem?_map, List.getElem?_range hi, Option.map_some]
    rw [← hfive]
    exact hs.indices i _ hitem index hindex

end Resolve

section Sample

def sampleMint : List UInt8 :=
  List.replicate 45 0 ++ [1] ++ List.replicate 119 0 ++ [1] ++ [14, 0, 64, 0] ++
    List.replicate 63 0 ++ [1]

/-- A key that is given, and one that the program at the sixth place derives from the mint; both
ask to be writable. -/
def sampleValidation : List UInt8 :=
  executeDiscriminator ++ [74, 0, 0, 0, 2, 0, 0, 0] ++
    ([0] ++ (Pubkey.ofNat 7).toList ++ [0, 1]) ++
    ([133] ++ [3, 1] ++ List.replicate 30 0 ++ [0, 1])

theorem resolveHookAccounts_privileges_sample :
    accountIndices (entryAt sampleValidation 1) = [5, 1] ∧
    ∃ metas, resolveHookAccounts (fun _ _ => some (.ofNat 9, 0)) (.ofNat 1)
        [.ofNat 2, .ofNat 3, .ofNat 4, .ofNat 5, .ofNat 9] [] (fun _ => none) (.ofNat 3)
        token2022Program sampleMint (.ofNat 9) (.ofNat 1) sampleValidation = .ok metas ∧
      (metas.map AccountMeta.isWritable = [true, false, false, false]) ∧
      ∀ index ∈ accountIndices (entryAt sampleValidation 1), index < 5 + 1 := by
  have hresolve : resolveHookAccounts (fun _ _ => some (.ofNat 9, 0)) (.ofNat 1)
      [.ofNat 2, .ofNat 3, .ofNat 4, .ofNat 5, .ofNat 9] [] (fun _ => none) (.ofNat 3)
      token2022Program sampleMint (.ofNat 9) (.ofNat 1) sampleValidation =
      .ok [⟨.ofNat 7, false, true⟩, ⟨.ofNat 9, false, false⟩, ⟨.ofNat 1, false, false⟩,
        ⟨.ofNat 9, false, false⟩] := by decide +kernel
  obtain ⟨-, -, -, -, hindices, -⟩ := resolveHookAccounts_privileges hresolve
  exact ⟨by decide +kernel, _, hresolve, rfl, hindices 1 (by decide +kernel)⟩

end Sample

end SolTrade.Token
