import SolTrade.Serialization.V1

/-!
The accounts of a compiled message.

The merged privileges of an account are the union of those of its uses, and the
position of an account among the keys shows its privileges.
-/

namespace SolTrade.Serialization

open Library

/-- A use of an account, with the privileges asked for it. -/
abbrev AccountUse := Pubkey × Bool × Bool

def instructionUses (ix : Instruction) : List AccountUse :=
  (ix.programId, false, false) :: ix.accounts.map fun a => (a.pubkey, a.isSigner, a.isWritable)

/-- All uses of accounts; the payer signs and is written. -/
def accountUses (payer : Pubkey) (instructions : List Instruction) : List AccountUse :=
  instructions.flatMap instructionUses ++ [(payer, true, true)]

/-- Some use asks for the account's signature. -/
def Signs (uses : List AccountUse) (key : Pubkey) : Prop := ∃ u ∈ uses, u.1 = key ∧ u.2.1 = true

def Writes (uses : List AccountUse) (key : Pubkey) : Prop := ∃ u ∈ uses, u.1 = key ∧ u.2.2 = true

/-- The account occurs. -/
def Occurs (uses : List AccountUse) (key : Pubkey) : Prop := ∃ u ∈ uses, u.1 = key

/-! ### Merging -/

/-- The privileges are those of the uses. -/
structure Recorded (accounts : Privileges) (uses : List AccountUse) : Prop where
  occurs : ∀ key, Occurs uses key ↔ ∃ p, accounts.lookup key = some p
  privileges : ∀ key p, accounts.lookup key = some p →
    (p.1 = true ↔ Signs uses key) ∧ (p.2 = true ↔ Writes uses key)

section Recording

variable {accounts : Privileges} {uses uses' : List AccountUse} {key k : Pubkey} {s w : Bool}

theorem occurs_append : Occurs (uses ++ uses') key ↔ Occurs uses key ∨ Occurs uses' key := by
  simp [Occurs, or_and_right, exists_or]

theorem signs_append : Signs (uses ++ uses') key ↔ Signs uses key ∨ Signs uses' key := by
  simp [Signs, or_and_right, exists_or]

theorem writes_append : Writes (uses ++ uses') key ↔ Writes uses key ∨ Writes uses' key := by
  simp [Writes, or_and_right, exists_or]

theorem lookup_addAccount_self :
    (addAccount accounts k s w).lookup k =
      some (s || ((accounts.lookup k).getD (false, false)).1,
        w || ((accounts.lookup k).getD (false, false)).2) :=
  AList.lookup_insert accounts

theorem lookup_addAccount_of_ne (h : key ≠ k) :
    (addAccount accounts k s w).lookup key = accounts.lookup key :=
  AList.lookup_insert_ne h

theorem Recorded.add (h : Recorded accounts uses) :
    Recorded (addAccount accounts k s w) (uses ++ [(k, s, w)]) := by
  have hone : ∀ key, key ≠ k → ¬ Occurs [(k, s, w)] key := by
    rintro key hne ⟨u, hu, rfl⟩
    rw [List.mem_singleton] at hu
    exact hne (by rw [hu])
  refine ⟨fun key => ?_, fun key p hp => ?_⟩
  · by_cases hk : key = k
    · subst hk
      rw [lookup_addAccount_self]
      exact iff_of_true ⟨(key, s, w), by simp, rfl⟩ ⟨_, rfl⟩
    · rw [lookup_addAccount_of_ne hk, occurs_append, or_iff_left (hone key hk)]
      exact h.occurs key
  · rw [signs_append, writes_append]
    by_cases hk : key = k
    · subst hk
      rw [lookup_addAccount_self] at hp
      cases hp
      -- a key that was not there had no privileges
      have hprior : (((accounts.lookup key).getD (false, false)).1 = true ↔ Signs uses key) ∧
          (((accounts.lookup key).getD (false, false)).2 = true ↔ Writes uses key) := by
        cases hlookup : accounts.lookup key with
        | some q => exact h.privileges key q hlookup
        | none =>
            have hnew : ¬ Occurs uses key := fun hocc => by
              obtain ⟨q, hq⟩ := (h.occurs key).1 hocc
              rw [hlookup] at hq
              cases hq
            constructor
            · exact iff_of_false nofun fun ⟨u, hu, hkey, _⟩ => hnew ⟨u, hu, hkey⟩
            · exact iff_of_false nofun fun ⟨u, hu, hkey, _⟩ => hnew ⟨u, hu, hkey⟩
      rw [Bool.or_eq_true, Bool.or_eq_true, hprior.1, hprior.2, or_comm, or_comm (a := w = true)]
      simp [Signs, Writes]
    · rw [lookup_addAccount_of_ne hk] at hp
      have hold := h.privileges key p hp
      rw [or_iff_left fun ⟨u, hu, hkey, _⟩ => hone key hk ⟨u, hu, hkey⟩,
        or_iff_left fun ⟨u, hu, hkey, _⟩ => hone key hk ⟨u, hu, hkey⟩]
      exact hold

theorem Recorded.addInstruction (h : Recorded accounts uses) (ix : Instruction) :
    Recorded (addInstruction accounts ix) (uses ++ instructionUses ix) := by
  have hmetas : ∀ (metas : List AccountMeta) {accounts : Privileges} {uses : List AccountUse},
      Recorded accounts uses →
      Recorded
        (metas.foldl (fun accounts a => addAccount accounts a.pubkey a.isSigner a.isWritable)
          accounts)
        (uses ++ metas.map fun a => (a.pubkey, a.isSigner, a.isWritable)) := by
    intro metas
    induction metas with
    | nil =>
        intro accounts uses h
        rwa [List.map_nil, List.append_nil]
    | cons a metas ih =>
        intro accounts uses h
        have hrest := ih (h.add (k := a.pubkey) (s := a.isSigner) (w := a.isWritable))
        rwa [List.append_assoc, List.singleton_append] at hrest
  have hprogram := hmetas ix.accounts (h.add (k := ix.programId) (s := false) (w := false))
  rwa [List.append_assoc, List.singleton_append] at hprogram

theorem recorded_empty : Recorded ∅ [] where
  occurs key := iff_of_false (fun ⟨_, hu, _⟩ => nomatch hu) fun ⟨p, hp⟩ => by
    rw [AList.lookup_empty] at hp
    cases hp
  privileges key p hp := by
    rw [AList.lookup_empty] at hp
    cases hp

theorem recorded_collectAccounts (payer : Pubkey) (instructions : List Instruction) :
    Recorded (collectAccounts payer instructions) (accountUses payer instructions) := by
  have hall : ∀ (rest : List Instruction) {accounts : Privileges} {uses : List AccountUse},
      Recorded accounts uses →
      Recorded (rest.foldl addInstruction accounts) (uses ++ rest.flatMap instructionUses) := by
    intro rest
    induction rest with
    | nil =>
        intro accounts uses h
        rwa [List.flatMap_nil, List.append_nil]
    | cons ix rest ih =>
        intro accounts uses h
        have hrest := ih (h.addInstruction ix)
        rwa [List.append_assoc] at hrest
  exact (hall instructions recorded_empty).add

end Recording

/-! ### Ordering -/

section Order

variable {payer key : Pubkey} {accounts : Privileges} {uses : List AccountUse} {p : Bool × Bool}

/-- The accounts other than the payer that have the privileges `p`. -/
def withPrivileges (payer : Pubkey) (accounts : Privileges) (p : Bool × Bool) : List Pubkey :=
  ((accounts.erase payer).keys.insertionSort fun a b => a.bytes ≤ b.bytes).filter
    fun k => (accounts.erase payer).lookup k = some p

theorem orderAccounts_eq (payer : Pubkey) (accounts : Privileges) :
    orderAccounts payer accounts =
      { signedWritable := payer :: withPrivileges payer accounts (true, true)
        signedReadonly := withPrivileges payer accounts (true, false)
        unsignedWritable := withPrivileges payer accounts (false, true)
        unsignedReadonly := withPrivileges payer accounts (false, false) } := rfl

theorem mem_withPrivileges :
    key ∈ withPrivileges payer accounts p ↔ key ≠ payer ∧ accounts.lookup key = some p := by
  rw [withPrivileges, List.mem_filter, List.mem_insertionSort, decide_eq_true_eq,
    ← AList.mem_keys]
  by_cases hk : key = payer
  · subst hk
    simp [AList.lookup_erase]
  · rw [AList.lookup_erase_ne hk]
    refine ⟨fun h => ⟨hk, h.2⟩, fun h => ⟨?_, h.2⟩⟩
    rw [AList.mem_erase]
    exact ⟨hk, AList.lookup_isSome.1 (by rw [h.2]; rfl)⟩

theorem nodup_withPrivileges : (withPrivileges payer accounts p).Nodup :=
  ((List.perm_insertionSort _ _).nodup_iff.2 (AList.keys_nodup _)).filter _

/-- The order goes through the four privileges. -/
theorem keys_orderAccounts (payer : Pubkey) (accounts : Privileges) :
    (orderAccounts payer accounts).keys =
      payer :: [(true, true), (true, false), (false, true), (false, false)].flatMap
        (withPrivileges payer accounts) := by
  simp [orderAccounts_eq, AccountOrder.keys]

theorem nodup_keys (payer : Pubkey) (accounts : Privileges) :
    (orderAccounts payer accounts).keys.Nodup := by
  rw [keys_orderAccounts, List.nodup_cons, List.nodup_flatMap]
  refine ⟨?_, fun _ _ => nodup_withPrivileges, ?_⟩
  · rw [List.mem_flatMap]
    rintro ⟨p, -, hp⟩
    exact (mem_withPrivileges.1 hp).1 rfl
  · have hdistinct : [(true, true), (true, false), (false, true), (false, false)].Nodup := by
      decide
    refine List.Pairwise.imp (fun {p q} hne key hp hq => hne ?_) hdistinct
    exact Option.some.inj ((mem_withPrivileges.1 hp).2.symm.trans (mem_withPrivileges.1 hq).2)

/-- The keys are the payer and the accounts that occur. -/
theorem mem_keys (h : Recorded accounts uses) (hpayer : Occurs uses payer) :
    key ∈ (orderAccounts payer accounts).keys ↔ Occurs uses key := by
  rw [keys_orderAccounts, List.mem_cons, List.mem_flatMap]
  constructor
  · rintro (rfl | ⟨p, -, hp⟩)
    · exact hpayer
    · exact (h.occurs key).2 ⟨p, (mem_withPrivileges.1 hp).2⟩
  · intro hocc
    obtain ⟨⟨s, w⟩, hp⟩ := (h.occurs key).1 hocc
    by_cases hk : key = payer
    · exact .inl hk
    · exact .inr ⟨(s, w), by cases s <;> cases w <;> simp, mem_withPrivileges.2 ⟨hk, hp⟩⟩

/-- Among distinct keys, those of a first part are the ones at its positions. -/
theorem lt_length_iff_mem {first second : List Pubkey} (hnodup : (first ++ second).Nodup) {i : ℕ}
    (hi : (first ++ second)[i]? = some key) : i < first.length ↔ key ∈ first := by
  constructor
  · intro hlt
    rw [List.getElem?_append_left hlt] at hi
    exact List.mem_of_getElem? hi
  · intro hmem
    by_contra hge
    rw [List.getElem?_append_right (not_lt.1 hge)] at hi
    exact (List.nodup_append.1 hnodup).2.2 key hmem key (List.mem_of_getElem? hi) rfl

/-- The payer signs and is written. -/
def PayerUsed (payer : Pubkey) (uses : List AccountUse) : Prop :=
  Signs uses payer ∧ Writes uses payer

theorem PayerUsed.occurs (h : PayerUsed payer uses) : Occurs uses payer :=
  h.1.imp fun _ hu => ⟨hu.1, hu.2.1⟩

/-- An account with the privileges `p` that is not the payer asks for exactly these. -/
theorem privileges_of_mem (h : Recorded accounts uses)
    (hmem : key ∈ withPrivileges payer accounts p) :
    (p.1 = true ↔ Signs uses key) ∧ (p.2 = true ↔ Writes uses key) :=
  h.privileges key p (mem_withPrivileges.1 hmem).2

theorem mem_signed (h : Recorded accounts uses) (hpayer : PayerUsed payer uses)
    (hkey : key ∈ (orderAccounts payer accounts).keys) :
    key ∈ (orderAccounts payer accounts).signedWritable ++
        (orderAccounts payer accounts).signedReadonly ↔ Signs uses key := by
  rw [orderAccounts_eq, List.mem_append, List.mem_cons]
  constructor
  · rintro ((rfl | hmem) | hmem)
    · exact hpayer.1
    · exact (privileges_of_mem h hmem).1.1 rfl
    · exact (privileges_of_mem h hmem).1.1 rfl
  · intro hsigns
    by_cases hk : key = payer
    · exact .inl (.inl hk)
    · obtain ⟨⟨s, w⟩, hp⟩ := (h.occurs key).1 ((mem_keys h hpayer.occurs).1 hkey)
      have hs : s = true := (h.privileges key _ hp).1.2 hsigns
      subst hs
      cases w with
      | true => exact .inl (.inr (mem_withPrivileges.2 ⟨hk, hp⟩))
      | false => exact .inr (mem_withPrivileges.2 ⟨hk, hp⟩)

theorem mem_written (h : Recorded accounts uses) (hpayer : PayerUsed payer uses)
    (hkey : key ∈ (orderAccounts payer accounts).keys) :
    key ∈ (orderAccounts payer accounts).signedWritable ∨
        key ∈ (orderAccounts payer accounts).unsignedWritable ↔ Writes uses key := by
  rw [orderAccounts_eq, List.mem_cons]
  constructor
  · rintro ((rfl | hmem) | hmem)
    · exact hpayer.2
    · exact (privileges_of_mem h hmem).2.1 rfl
    · exact (privileges_of_mem h hmem).2.1 rfl
  · intro hwrites
    by_cases hk : key = payer
    · exact .inl (.inl hk)
    · obtain ⟨⟨s, w⟩, hp⟩ := (h.occurs key).1 ((mem_keys h hpayer.occurs).1 hkey)
      have hw : w = true := (h.privileges key _ hp).2.2 hwrites
      subst hw
      cases s with
      | true => exact .inl (.inr (mem_withPrivileges.2 ⟨hk, hp⟩))
      | false => exact .inr (mem_withPrivileges.2 ⟨hk, hp⟩)

/-- The position of a key shows its privileges. -/
theorem position_privileges (h : Recorded accounts uses) (hpayer : PayerUsed payer uses) {i : ℕ}
    (hi : (orderAccounts payer accounts).keys[i]? = some key) :
    (i < (orderAccounts payer accounts).required ↔ Signs uses key) ∧
      (i < (orderAccounts payer accounts).required -
            (orderAccounts payer accounts).signedReadonly.length ∨
          (orderAccounts payer accounts).required ≤ i ∧
            i < (orderAccounts payer accounts).keys.length -
              (orderAccounts payer accounts).unsignedReadonly.length ↔ Writes uses key) := by
  have hnodup := nodup_keys payer accounts
  have hkey := List.mem_of_getElem? hi
  have hsigned := mem_signed h hpayer hkey
  have hwritten := mem_written h hpayer hkey
  generalize orderAccounts payer accounts = o at *
  obtain ⟨sw, sr, uw, ur⟩ := o
  simp only [AccountOrder.keys, AccountOrder.required, List.length_append] at *
  -- the positions before the end of each part
  have h₁ := @lt_length_iff_mem key sw (sr ++ uw ++ ur) (by simpa using hnodup) i (by simpa using hi)
  have h₂ := @lt_length_iff_mem key (sw ++ sr) (uw ++ ur) (by simpa using hnodup) i
    (by simpa using hi)
  have h₃ := @lt_length_iff_mem key (sw ++ sr ++ uw) ur hnodup i hi
  have hdisjoint : key ∈ uw → key ∉ sw ++ sr := fun huw hs => by
    have hne := (List.nodup_append.1 (List.nodup_append.1 hnodup).1).2.2
    exact hne key hs key huw rfl
  rw [List.length_append] at h₂
  simp only [List.length_append] at h₃
  refine ⟨h₂.trans hsigned, ?_⟩
  rw [← hwritten]
  have hfirst : i < sw.length + sr.length - sr.length ↔ key ∈ sw := by
    rw [Nat.add_sub_cancel]
    exact h₁
  rw [hfirst, Nat.add_sub_cancel, h₃, ← not_lt, h₂]
  constructor
  · rintro (hsw | ⟨hnot, hin⟩)
    · exact .inl hsw
    · exact .inr ((List.mem_append.1 hin).resolve_left hnot)
  · rintro (hsw | huw)
    · exact .inl hsw
    · exact .inr ⟨hdisjoint huw, List.mem_append_right _ huw⟩

end Order

end SolTrade.Serialization
