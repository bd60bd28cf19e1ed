import SolTrade.Library.FirstMentions
import SolTrade.Library.KeyedTable
import SolTrade.Serialization.Roundtrip

/-!
The transaction builder of the performance tools.

The header says how many signers there are, the account keys stand in the order of
their first mention after the fee payer, and the signatures in the order of the
signers' keys.
-/

namespace SolTrade.Perf

open Library Wire FirstMentions Serialization

structure OptimizedInstruction where
  programId : Pubkey
  /-- The key of an account, whether it signs and whether it is written. -/
  accounts : List AccountUse
  data : List UInt8
deriving DecidableEq

structure OptimizedTransaction where
  signatures : List (List UInt8)
  message : List UInt8
  instructions : List OptimizedInstruction
  recentBlockhash : List UInt8
  feePayer : Pubkey
deriving DecidableEq

inductive BuildError where
  | structError
  | stopIteration
deriving DecidableEq

/-- `struct.pack("<B", n)`. -/
def packByte (n : ℕ) : Except BuildError (List UInt8) := do
  require (n < 256) .structError
  return [UInt8.ofNat n]

/-- `struct.pack("<H", n)`. -/
def packShort (n : ℕ) : Except BuildError (List UInt8) := do
  require (n < 256 ^ 2) .structError
  return littleEndian 2 n

/-- A builder. Its signers are a dictionary from a public key to a secret key. -/
structure TransactionBuilder where
  instructions : List OptimizedInstruction := []
  signers : List (Pubkey × List UInt8) := []
  distinct : (signers.map Prod.fst).Nodup := by decide

namespace TransactionBuilder

def addInstruction (self : TransactionBuilder) (instruction : OptimizedInstruction) :
    TransactionBuilder := { self with instructions := self.instructions ++ [instruction] }

def addSigner (self : TransactionBuilder) (pubkey : Pubkey) (secretKey : List UInt8) :
    TransactionBuilder where
  instructions := self.instructions
  signers := KeyedTable.put Prod.fst self.signers (pubkey, secretKey)
  distinct := KeyedTable.nodup_put self.distinct

/-- The account keys of a message. -/
def accountKeys (feePayer : Pubkey) (instructions : List OptimizedInstruction) : List Pubkey :=
  instructions.foldl (fun keys ix =>
    ix.accounts.foldl (fun keys account => mention keys account.1) (mention keys ix.programId))
    [feePayer]

def packInstruction (keys : List Pubkey) (ix : OptimizedInstruction) :
    Except BuildError (List UInt8) := do
  let program ← packByte (keys.idxOf ix.programId)
  let count ← packByte ix.accounts.length
  let indices ← ix.accounts.mapM fun account => packByte (keys.idxOf account.1)
  let length ← packShort ix.data.length
  return program ++ count ++ indices.flatten ++ length ++ ix.data

def buildMessage (self : TransactionBuilder) (recentBlockhash : List UInt8) (feePayer : Pubkey) :
    Except BuildError (List UInt8) := do
  let numRequiredSignatures ← packByte self.signers.length
  let keys := accountKeys feePayer self.instructions
  let keyCount ← packShort keys.length
  let instructionCount ← packShort self.instructions.length
  let packed ← self.instructions.mapM (packInstruction keys)
  return [0] ++ numRequiredSignatures ++ [0] ++ [0] ++ keyCount ++ keys.flatMap Vector.toList ++
    recentBlockhash ++ instructionCount ++ packed.flatten

/-- The seed of a secret key. -/
def seed (secretKey : List UInt8) : List UInt8 :=
  if secretKey.length = 64 then secretKey.take 32 else secretKey

/-- `sorted(self._signers)`. -/
def sortedSigners (self : TransactionBuilder) : List Pubkey :=
  (self.signers.map Prod.fst).insertionSort fun a b => a.bytes ≤ b.bytes

/-- The seed that a key signs with. -/
def seedOf (self : TransactionBuilder) (pubkey : Pubkey) : List UInt8 :=
  seed (((KeyedTable.lookup Prod.fst self.signers pubkey).map Prod.snd).getD [])

/-- The keys that have a signature, in the order of the signatures. -/
def signingOrder (self : TransactionBuilder) : List Pubkey :=
  self.sortedSigners.filter fun pubkey => (self.seedOf pubkey).length = 32

section Build

-- `sign` makes the signature of a message with the key of a seed
variable (sign : List UInt8 → List UInt8 → List UInt8)

def signMessage (self : TransactionBuilder) (message : List UInt8) : List (List UInt8) :=
  self.signingOrder.map fun pubkey => sign (self.seedOf pubkey) message

/-- The fee payer is the first signer if none is given. -/
def payer (self : TransactionBuilder) : Option Pubkey → Except BuildError Pubkey
  | some feePayer => .ok feePayer
  | none =>
      match self.signers with
      | [] => .error .stopIteration
      | signer :: _ => .ok signer.1

def build (self : TransactionBuilder) (recentBlockhash : List UInt8) (feePayer : Option Pubkey) :
    Except BuildError OptimizedTransaction := do
  let feePayer ← self.payer feePayer
  let message ← self.buildMessage recentBlockhash feePayer
  return {
    signatures := self.signMessage sign message
    message
    instructions := self.instructions
    recentBlockhash
    feePayer }

end Build

end TransactionBuilder

/-! ### What a message says -/

/-- The header and the account keys. -/
structure MessageHead where
  numRequiredSignatures : ℕ
  numReadonlySigned : ℕ
  numReadonlyUnsigned : ℕ
  keys : List Pubkey
deriving DecidableEq

namespace MessageHead

/-- The privileges that the header gives to an account by its position. -/
def isSigner (head : MessageHead) (key : Pubkey) : Bool :=
  head.keys.idxOf key < head.numRequiredSignatures

def isWritable (head : MessageHead) (key : Pubkey) : Bool :=
  head.keys.idxOf key < head.numRequiredSignatures - head.numReadonlySigned ∨
    head.numRequiredSignatures ≤ head.keys.idxOf key ∧
      head.keys.idxOf key < head.keys.length - head.numReadonlyUnsigned

end MessageHead

def readHead : Parser MessageHead := do
  let version ← unsignedInt 1
  if version ≠ 0 then failure
  let numRequiredSignatures ← unsignedInt 1
  let numReadonlySigned ← unsignedInt 1
  let numReadonlyUnsigned ← unsignedInt 1
  let count ← unsignedInt 2
  let keys ← times count readPubkey
  return { numRequiredSignatures, numReadonlySigned, numReadonlyUnsigned, keys }

/-- What the beginning of a message says. -/
def headOf (message : List UInt8) : Option MessageHead := (readHead.run message).map Prod.fst

/-- The accounts of all instructions, as they are used. -/
def usedAccounts (instructions : List OptimizedInstruction) : List AccountUse :=
  instructions.flatMap OptimizedInstruction.accounts

/-- The same accounts, each with the privileges of all its uses. The fee payer signs and is
written. -/
def mergedAccounts (feePayer : Pubkey) (instructions : List OptimizedInstruction) :
    List AccountUse :=
  (usedAccounts instructions).map fun account =>
    (account.1,
      account.1 = feePayer || (usedAccounts instructions).any fun u => u.1 = account.1 && u.2.1,
      account.1 = feePayer || (usedAccounts instructions).any fun u => u.1 = account.1 && u.2.2)

/-- The first keys are the signers in the order of the signatures, and the privileges of the
accounts can be told from their positions. -/
def Coherent (builder : TransactionBuilder) (tx : OptimizedTransaction)
    (accounts : List AccountUse) : Prop :=
  ∃ head, headOf tx.message = some head ∧
    (∀ key, key ∈ head.keys.take head.numRequiredSignatures ↔ key ∈ builder.signers.map Prod.fst) ∧
    head.keys.take head.numRequiredSignatures = builder.signingOrder ∧
    ∀ account ∈ accounts,
      head.isSigner account.1 = account.2.1 ∧ head.isWritable account.1 = account.2.2

/-! ### The account keys -/

/-- The keys that an instruction mentions, in the order in which it does. -/
def OptimizedInstruction.mentions (ix : OptimizedInstruction) : List Pubkey :=
  ix.programId :: ix.accounts.map Prod.fst

/-- The keys that a message mentions: the fee payer comes first. -/
def mentions (feePayer : Pubkey) (instructions : List OptimizedInstruction) : List Pubkey :=
  feePayer :: instructions.flatMap OptimizedInstruction.mentions

section Message

variable {builder : TransactionBuilder} {feePayer key : Pubkey}
  {instructions : List OptimizedInstruction} {recentBlockhash message : List UInt8}
  {accounts : List AccountUse}

open TransactionBuilder

theorem accountKeys_eq :
    accountKeys feePayer instructions = firsts (mentions feePayer instructions) := by
  have hall : ∀ keys, instructions.foldl (fun keys ix =>
      ix.accounts.foldl (fun keys account => mention keys account.1) (mention keys ix.programId))
      keys = (instructions.flatMap OptimizedInstruction.mentions).foldl mention keys := by
    induction instructions with
    | nil => exact fun _ => rfl
    | cons ix instructions ih =>
        intro keys
        rw [List.flatMap_cons, List.foldl_append, List.foldl_cons, ih]
        refine congrArg (List.foldl mention · _) ?_
        exact List.foldl_map.symm
  exact hall [feePayer]

theorem mem_accountKeys :
    key ∈ accountKeys feePayer instructions ↔ key ∈ mentions feePayer instructions := by
  rw [accountKeys_eq, mem_firsts]

theorem nodup_accountKeys : (accountKeys feePayer instructions).Nodup := by
  rw [accountKeys_eq]
  exact nodup_firsts

theorem mem_mentions_of_used {account : AccountUse} (h : account ∈ usedAccounts instructions) :
    account.1 ∈ mentions feePayer instructions := by
  obtain ⟨ix, hix, haccount⟩ := List.mem_flatMap.1 h
  refine List.mem_cons_of_mem _ (List.mem_flatMap.2 ⟨ix, hix, ?_⟩)
  exact List.mem_cons_of_mem _ (List.mem_map_of_mem haccount)

/-! ### The head of a message -/

/-- The head is read back from the message. -/
theorem headOf_buildMessage (h : builder.buildMessage recentBlockhash feePayer = .ok message) :
    headOf message = some ⟨builder.signers.length, 0, 0,
      accountKeys feePayer builder.instructions⟩ := by
  simp only [buildMessage, packByte, packShort, bind_eq_ok, require_eq_ok, pure_eq_ok,
    exists_const] at h
  obtain ⟨_, ⟨hsigners, rfl⟩, _, ⟨hkeys, rfl⟩, count, -, packed, -, rfl⟩ := h
  have hread : Reads (times (accountKeys feePayer builder.instructions).length readPubkey)
      ((accountKeys feePayer builder.instructions).flatMap Vector.toList)
      ((accountKeys feePayer builder.instructions).map id) :=
    reads_times fun key _ => reads_pubkey key
  rw [List.map_id] at hread
  have hhead : Reads readHead ([UInt8.ofNat 0] ++ ([UInt8.ofNat builder.signers.length] ++
      ([UInt8.ofNat 0] ++ ([UInt8.ofNat 0] ++
        (littleEndian 2 (accountKeys feePayer builder.instructions).length ++
          (accountKeys feePayer builder.instructions).flatMap Vector.toList)))))
      ⟨builder.signers.length, 0, 0, accountKeys feePayer builder.instructions⟩ := by
    unfold readHead
    refine (reads_byte (by decide)).bind ?_
    rw [if_neg (not_not.2 rfl)]
    refine (reads_byte hsigners).bind ?_
    refine (reads_byte (by decide)).bind ((reads_byte (by decide)).bind ?_)
    exact (reads_unsignedInt hkeys).bind (hread.then_pure (.pure _))
  have hrun := hhead (recentBlockhash ++ (count ++ packed.flatten))
  have happend : [0] ++ [UInt8.ofNat builder.signers.length] ++ [0] ++ [0] ++
      littleEndian 2 (accountKeys feePayer builder.instructions).length ++
      (accountKeys feePayer builder.instructions).flatMap Vector.toList ++ recentBlockhash ++
      count ++ packed.flatten =
      ([UInt8.ofNat 0] ++ ([UInt8.ofNat builder.signers.length] ++
      ([UInt8.ofNat 0] ++ ([UInt8.ofNat 0] ++
        (littleEndian 2 (accountKeys feePayer builder.instructions).length ++
          (accountKeys feePayer builder.instructions).flatMap Vector.toList))))) ++
      (recentBlockhash ++ (count ++ packed.flatten)) := by simp
  rw [happend, headOf, hrun]
  rfl

/-! ### The order of the signers -/

theorem mem_sortedSigners : key ∈ builder.sortedSigners ↔ key ∈ builder.signers.map Prod.fst :=
  (List.perm_insertionSort _ _).mem_iff

theorem length_sortedSigners : builder.sortedSigners.length = builder.signers.length :=
  (List.perm_insertionSort _ _).length_eq.trans (List.length_map _)

theorem sortedSigners_sorted :
    builder.sortedSigners.Pairwise fun a b => a.bytes < b.bytes := by
  have htotal : Std.Total fun a b : Pubkey => a.bytes ≤ b.bytes := ⟨fun a b => le_total _ _⟩
  have htrans : IsTrans Pubkey fun a b : Pubkey => a.bytes ≤ b.bytes := ⟨fun a b c => le_trans⟩
  have hnodup : builder.sortedSigners.Nodup :=
    (List.perm_insertionSort _ _).nodup_iff.2 builder.distinct
  refine (List.pairwise_insertionSort _ _).imp₂ (fun a b hle hne => ?_) hnodup
  exact lt_of_le_of_ne hle fun heq => hne (Pubkey.bytes_injective heq)

/-- Every signer can sign. -/
def SeedsValid (builder : TransactionBuilder) : Prop :=
  ∀ key ∈ builder.signers.map Prod.fst, (builder.seedOf key).length = 32

/-- Whatever is mentioned before a signer is a signer with a smaller key, and all are mentioned. -/
def SignersLead (builder : TransactionBuilder) (feePayer : Pubkey) : Prop :=
  ∀ key ∈ builder.signers.map Prod.fst,
    key ∈ mentions feePayer builder.instructions ∧
      ∀ before ∈ mentions feePayer builder.instructions,
        (mentions feePayer builder.instructions).idxOf before <
            (mentions feePayer builder.instructions).idxOf key →
          before ∈ builder.signers.map Prod.fst ∧ before.bytes < key.bytes

theorem take_accountKeys_iff :
    (accountKeys feePayer builder.instructions).take builder.signers.length =
      builder.sortedSigners ↔ SignersLead builder feePayer := by
  rw [← length_sortedSigners, take_eq_iff nodup_accountKeys sortedSigners_sorted
    fun a b hab hba => lt_asymm hab hba]
  unfold SignersLead
  simp only [mem_sortedSigners, mem_accountKeys]
  refine forall_congr' fun key => forall_congr' fun _ => and_congr_right fun hkey =>
    forall_congr' fun before => forall_congr' fun hbefore => ?_
  rw [accountKeys_eq, idxOf_firsts_lt_iff hbefore hkey]

/-- The first keys are the signers in the order of the signatures. -/
theorem signersFirst_iff :
    ((∀ key, key ∈ (accountKeys feePayer builder.instructions).take builder.signers.length ↔
        key ∈ builder.signers.map Prod.fst) ∧
      (accountKeys feePayer builder.instructions).take builder.signers.length =
        builder.signingOrder) ↔ SeedsValid builder ∧ SignersLead builder feePayer := by
  rw [← take_accountKeys_iff]
  constructor
  · rintro ⟨hmem, horder⟩
    have hseeds : SeedsValid builder := by
      intro key hkey
      have hsigns := (hmem key).2 hkey
      rw [horder] at hsigns
      exact of_decide_eq_true (List.mem_filter.1 hsigns).2
    refine ⟨hseeds, horder.trans (List.filter_eq_self.2 fun key hkey => ?_)⟩
    exact decide_eq_true (hseeds key (mem_sortedSigners.1 hkey))
  · rintro ⟨hseeds, htake⟩
    rw [htake]
    refine ⟨fun key => mem_sortedSigners, (List.filter_eq_self.2 fun key hkey => ?_).symm⟩
    exact decide_eq_true (hseeds key (mem_sortedSigners.1 hkey))

/-- Every account is written, and it signs if and only if it is a signer. -/
def PrivilegesFit (builder : TransactionBuilder) (accounts : List AccountUse) : Prop :=
  ∀ account ∈ accounts,
    (account.2.1 = true ↔ account.1 ∈ builder.signers.map Prod.fst) ∧ account.2.2 = true

theorem coherent_iff {tx : OptimizedTransaction}
    (h : builder.buildMessage recentBlockhash feePayer = .ok tx.message)
    (haccounts : ∀ account ∈ accounts, account.1 ∈ mentions feePayer builder.instructions) :
    Coherent builder tx accounts ↔
      (SeedsValid builder ∧ SignersLead builder feePayer) ∧ PrivilegesFit builder accounts := by
  unfold Coherent
  rw [headOf_buildMessage h]
  simp only [Option.some.injEq, exists_eq_left']
  rw [← and_assoc, signersFirst_iff]
  refine and_congr_right fun hfirst => forall_congr' fun account => forall_congr' fun haccount => ?_
  obtain ⟨hmem, -⟩ := signersFirst_iff.2 hfirst
  have hkey := mem_accountKeys.2 (haccounts account haccount)
  have hsigner : MessageHead.isSigner ⟨builder.signers.length, 0, 0,
      accountKeys feePayer builder.instructions⟩ account.1 = true ↔
      account.1 ∈ builder.signers.map Prod.fst := by
    rw [← hmem, List.mem_take_iff_idxOf_lt hkey]
    exact decide_eq_true_iff
  have hwritable : MessageHead.isWritable ⟨builder.signers.length, 0, 0,
      accountKeys feePayer builder.instructions⟩ account.1 = true := by
    have hlt := List.idxOf_lt_length_of_mem hkey
    have hside := lt_or_ge ((accountKeys feePayer builder.instructions).idxOf account.1)
      builder.signers.length
    exact decide_eq_true (hside.imp id fun hge => ⟨hge, hlt⟩)
  rw [hwritable, Bool.eq_iff_iff, hsigner, eq_comm (a := true)]
  exact and_congr_left fun _ => iff_comm

theorem mem_mentions_of_merged {account : AccountUse}
    (h : account ∈ mergedAccounts feePayer instructions) :
    account.1 ∈ mentions feePayer instructions := by
  obtain ⟨used, hused, rfl⟩ := List.mem_map.1 h
  have hmention : used.1 ∈ mentions feePayer instructions := mem_mentions_of_used hused
  exact hmention

theorem build_eq_ok {sign : List UInt8 → List UInt8 → List UInt8} {payer : Option Pubkey}
    {tx : OptimizedTransaction} (h : builder.build sign recentBlockhash payer = .ok tx) :
    builder.payer payer = .ok tx.feePayer ∧
      builder.buildMessage recentBlockhash tx.feePayer = .ok tx.message ∧
      tx.signatures = builder.signingOrder.map fun key => sign (builder.seedOf key) tx.message := by
  simp only [build, bind_eq_ok, pure_eq_ok] at h
  obtain ⟨_, hpayer, _, hmessage, rfl⟩ := h
  exact ⟨hpayer, hmessage, rfl⟩

end Message

/-! ### Built transactions -/

/-- What is built is coherent if and only if every signer has a seed, the signers lead the order of
the mentions, and every account is written and signs if it is a signer: for the uses as they are,
and for those of an account taken together. -/
theorem build_coherent_iff (builder : TransactionBuilder)
    (sign : List UInt8 → List UInt8 → List UInt8) (recentBlockhash : List UInt8)
    (feePayer : Option Pubkey) (tx : OptimizedTransaction)
    (hbuild : builder.build sign recentBlockhash feePayer = .ok tx) :
    tx.signatures = (builder.signingOrder.map fun key => sign (builder.seedOf key) tx.message) ∧
    (Coherent builder tx (usedAccounts builder.instructions) ↔
      (SeedsValid builder ∧ SignersLead builder tx.feePayer) ∧
        PrivilegesFit builder (usedAccounts builder.instructions)) ∧
    (Coherent builder tx (mergedAccounts tx.feePayer builder.instructions) ↔
      (SeedsValid builder ∧ SignersLead builder tx.feePayer) ∧
        PrivilegesFit builder (mergedAccounts tx.feePayer builder.instructions)) := by
  obtain ⟨-, hmessage, hsignatures⟩ := build_eq_ok hbuild
  exact ⟨hsignatures, coherent_iff hmessage fun _ h => mem_mentions_of_used h,
    coherent_iff hmessage fun _ h => mem_mentions_of_merged h⟩

/-- A transfer: the fee payer signs and pays, and a program is called with two accounts. -/
def transfer (payer recipient : Pubkey) (writable : Bool) : TransactionBuilder where
  instructions :=
    [{ programId := Pubkey.ofNat 9
       accounts := [(payer, true, true), (recipient, false, writable)]
       data := [2] }]
  signers := [(payer, List.replicate 32 7)]
  distinct := List.nodup_singleton _

theorem build_coherent_iff_transfer :
    ∃ tx, (transfer (Pubkey.ofNat 1) (Pubkey.ofNat 2) true).build (fun _ _ => []) [] none = .ok tx ∧
      (Coherent (transfer (Pubkey.ofNat 1) (Pubkey.ofNat 2) true) tx
          (usedAccounts (transfer (Pubkey.ofNat 1) (Pubkey.ofNat 2) true).instructions) ↔
        (SeedsValid (transfer (Pubkey.ofNat 1) (Pubkey.ofNat 2) true) ∧
          SignersLead (transfer (Pubkey.ofNat 1) (Pubkey.ofNat 2) true) tx.feePayer) ∧
          PrivilegesFit (transfer (Pubkey.ofNat 1) (Pubkey.ofNat 2) true)
            (usedAccounts (transfer (Pubkey.ofNat 1) (Pubkey.ofNat 2) true).instructions)) := by
  obtain ⟨tx, hbuild⟩ := exists_of_isOk (x := (transfer (Pubkey.ofNat 1) (Pubkey.ofNat 2)
    true).build (fun _ _ => []) [] none) (by decide)
  exact ⟨tx, hbuild, (build_coherent_iff _ _ _ _ tx hbuild).2.1⟩

/-- Another signer with a smaller key, who is not mentioned at all. -/
def cosigned : TransactionBuilder :=
  (transfer (Pubkey.ofNat 2) (Pubkey.ofNat 3) true).addSigner (Pubkey.ofNat 1)
    (List.replicate 32 8)

/-- A read-only recipient is written in the message, and the first two keys of a message that two
sign are not those of the signers. -/
theorem build_not_coherent :
    (∃ tx, (transfer (Pubkey.ofNat 1) (Pubkey.ofNat 2) false).build (fun _ _ => []) [] none =
        .ok tx ∧ tx.feePayer = Pubkey.ofNat 1 ∧
      ¬ Coherent (transfer (Pubkey.ofNat 1) (Pubkey.ofNat 2) false) tx
        (mergedAccounts tx.feePayer
          (transfer (Pubkey.ofNat 1) (Pubkey.ofNat 2) false).instructions)) ∧
    ∃ tx, cosigned.build (fun _ _ => []) [] none = .ok tx ∧ tx.feePayer = Pubkey.ofNat 2 ∧
      ¬ Coherent cosigned tx [] := by
  constructor
  · obtain ⟨tx, hbuild⟩ := exists_of_isOk (x := (transfer (Pubkey.ofNat 1) (Pubkey.ofNat 2)
      false).build (fun _ _ => []) [] none) (by decide)
    obtain ⟨hpayer, hmessage, -⟩ := build_eq_ok hbuild
    have hpayer : Pubkey.ofNat 1 = tx.feePayer := Except.ok.inj hpayer
    refine ⟨tx, hbuild, hpayer.symm, fun h => ?_⟩
    have hfit := ((coherent_iff hmessage fun _ h => mem_mentions_of_merged h).1 h).2
    rw [← hpayer] at hfit
    exact absurd (hfit (Pubkey.ofNat 2, false, false) (by decide)).2 (by decide)
  · obtain ⟨tx, hbuild⟩ := exists_of_isOk (x := cosigned.build (fun _ _ => []) [] none) (by decide)
    obtain ⟨hpayer, hmessage, -⟩ := build_eq_ok hbuild
    have hpayer : Pubkey.ofNat 2 = tx.feePayer := Except.ok.inj hpayer
    refine ⟨tx, hbuild, hpayer.symm, fun h => ?_⟩
    have hlead := ((coherent_iff hmessage fun _ h => absurd h List.not_mem_nil).1 h).1.2
    rw [← hpayer] at hlead
    exact absurd (hlead (Pubkey.ofNat 1) (by decide)).1 (by decide)

end SolTrade.Perf
