import SolTrade.Serialization.Accounts

/-!
What a compiled message says.

The decoder reads every part of the layout back. With the order of the accounts
this gives the meaning of a compiled message, and its metadata pass the checks of
the signer.
-/

namespace SolTrade.Serialization

open Library Wire

/-! ### Keys and configuration -/

theorem reads_pubkey (key : Pubkey) : Reads readPubkey key.toList key := by
  have hlen : key.toList.length = 32 := Vector.length_toList
  refine (reads_bytes hlen).then_pure ?_
  rw [dif_pos hlen]
  exact .pure key

/-- The bytes of an optional value. -/
def optionalBytes (value : Option ℤ) (width : ℕ) : List UInt8 :=
  match value with
  | none => []
  | some v => littleEndian width v.toNat

theorem reads_optional {value : Option ℤ} {width : ℕ}
    (h : ∀ v ∈ value, 0 ≤ v ∧ v < 2 ^ (8 * width)) :
    Reads (readOptional value.isSome width) (optionalBytes value width) value := by
  cases value with
  | none => exact .pure none
  | some v =>
      obtain ⟨hnonneg, hlt⟩ := h v rfl
      obtain ⟨n, rfl⟩ := Int.eq_ofNat_of_zero_le hnonneg
      have hbound : n < 256 ^ width := by
        rw [show (256 : ℕ) = 2 ^ 8 by rfl, ← pow_mul]
        exact_mod_cast hlt
      rw [readOptional, if_pos Option.isSome_some]
      exact (reads_unsignedInt hbound).map fun n : ℕ => some (n : ℤ)

theorem packValue_eq_ok {value : Option ℤ} {bit width : ℕ} {packed packed' : ℕ × List UInt8}
    (h : packValue value bit width packed = .ok packed') :
    packed' = (packed.1 ||| (if value.isSome then bit else 0),
        packed.2 ++ optionalBytes value width) ∧
      ∀ v ∈ value, 0 ≤ v ∧ v < 2 ^ (8 * width) := by
  cases value with
  | none =>
      cases h
      simp [optionalBytes]
  | some v =>
      simp only [packValue, bind_eq_ok, require_eq_ok, pure_eq_ok] at h
      obtain ⟨_, hrange, _, -, rfl⟩ := h
      refine ⟨rfl, fun v' hv' => ?_⟩
      cases hv'
      exact hrange

/-- The mask of the values that are present. -/
def presenceMask (priority units size heap : Bool) : ℕ :=
  (((0 ||| if priority then 3 else 0) ||| if units then 4 else 0) ||| if size then 8 else 0) |||
    if heap then 16 else 0

theorem presenceMask_bits : ∀ priority units size heap : Bool,
    decide (presenceMask priority units size heap &&& 3 = 3) = priority ∧
    decide (presenceMask priority units size heap &&& 4 = 4) = units ∧
    decide (presenceMask priority units size heap &&& 8 = 8) = size ∧
    decide (presenceMask priority units size heap &&& 16 = 16) = heap ∧
    presenceMask priority units size heap < 256 ^ 4 := by decide

theorem reads_config {config : V1Config} {mask : ℕ} {values : List UInt8}
    (h : packConfig config = .ok (mask, values)) :
    mask < 256 ^ 4 ∧ Reads (readConfig mask) values config := by
  obtain ⟨priority, units, size, heap⟩ := config
  simp only [packConfig, bind_eq_ok] at h
  obtain ⟨p₁, h₁, p₂, h₂, p₃, h₃, h₄⟩ := h
  obtain ⟨rfl, hpriority⟩ := packValue_eq_ok h₁
  obtain ⟨rfl, hunits⟩ := packValue_eq_ok h₂
  obtain ⟨rfl, hsize⟩ := packValue_eq_ok h₃
  obtain ⟨heq, hheap⟩ := packValue_eq_ok h₄
  obtain ⟨hmask, rfl⟩ := Prod.mk.inj heq
  obtain ⟨hb₁, hb₂, hb₃, hb₄, hlt⟩ :=
    presenceMask_bits priority.isSome units.isSome size.isSome heap.isSome
  obtain rfl : mask = presenceMask priority.isSome units.isSome size.isSome heap.isSome := hmask
  refine ⟨hlt, ?_⟩
  rw [readConfig, hb₁, hb₂, hb₃, hb₄, List.nil_append, List.append_assoc, List.append_assoc]
  refine (reads_optional hpriority).bind ?_
  refine (reads_optional hunits).bind ?_
  refine (reads_optional hsize).bind ?_
  exact (reads_optional hheap).then_pure (.pure _)

/-! ### Instructions -/

section Instructions

variable {keys : List Pubkey} {ix : Instruction} {instructions : List Instruction}

/-- An instruction with its accounts as positions among the keys. -/
def indexed (keys : List Pubkey) (ix : Instruction) : DecodedV1Instruction :=
  { programIndex := keys.idxOf ix.programId
    accountIndexes := ix.accounts.map fun a => keys.idxOf a.pubkey
    data := ix.data }

def headerOf (keys : List Pubkey) (ix : Instruction) : List UInt8 :=
  UInt8.ofNat (keys.idxOf ix.programId) :: UInt8.ofNat ix.accounts.length ::
    littleEndian 2 ix.data.length

def payloadOf (keys : List Pubkey) (ix : Instruction) : List UInt8 :=
  ix.accounts.map (fun a => UInt8.ofNat (keys.idxOf a.pubkey)) ++ ix.data

/-- The limits of an instruction. -/
def Fits (ix : Instruction) : Prop := ix.accounts.length ≤ 255 ∧ ix.data.length ≤ 65535

theorem packInstruction_eq_ok {packed : List UInt8 × List UInt8}
    (h : packInstruction keys ix = .ok packed) :
    (headerOf keys ix, payloadOf keys ix) = packed ∧ Fits ix := by
  simp only [packInstruction, bind_eq_ok, require_eq_ok, pure_eq_ok] at h
  obtain ⟨_, -, _, hlimits, rfl⟩ := h
  exact ⟨rfl, by rw [Fits]; omega⟩

theorem packInstructions_eq_ok {packed : List (List UInt8 × List UInt8)}
    (h : instructions.mapM (packInstruction keys) = .ok packed) :
    packed = instructions.map (fun ix => (headerOf keys ix, payloadOf keys ix)) ∧
      ∀ ix ∈ instructions, Fits ix := by
  have hall := mapM_eq_ok.1 h
  clear h
  induction hall with
  | nil => exact ⟨rfl, fun _ hix => nomatch hix⟩
  | cons hix _ ih =>
      obtain ⟨rfl, hfits⟩ := packInstruction_eq_ok hix
      obtain ⟨rfl, hrest⟩ := ih
      exact ⟨rfl, List.forall_mem_cons.2 ⟨hfits, hrest⟩⟩

variable (hkeys : keys.length ≤ 64)

include hkeys

theorem idxOf_lt_256 (key : Pubkey) : keys.idxOf key < 256 := by
  have hle : keys.idxOf key ≤ keys.length := List.idxOf_le_length
  omega

theorem reads_header (hix : Fits ix) :
    Reads readHeader (headerOf keys ix)
      (keys.idxOf ix.programId, ix.accounts.length, ix.data.length) := by
  have haccounts : ix.accounts.length < 256 := by have := hix.1; omega
  have hdata : ix.data.length < 256 ^ 2 := by have := hix.2; omega
  have hheader : headerOf keys ix = [UInt8.ofNat (keys.idxOf ix.programId)] ++
      ([UInt8.ofNat ix.accounts.length] ++ littleEndian 2 ix.data.length) := rfl
  rw [hheader]
  refine (reads_byte (idxOf_lt_256 hkeys ix.programId)).bind ((reads_byte haccounts).bind ?_)
  exact (reads_unsignedInt hdata).then_pure (.pure _)

theorem reads_payload :
    Reads (readPayload (keys.idxOf ix.programId, ix.accounts.length, ix.data.length))
      (payloadOf keys ix) (indexed keys ix) := by
  have hbyte : ∀ a ∈ ix.accounts, Reads (unsignedInt 1)
      [UInt8.ofNat (keys.idxOf a.pubkey)] (keys.idxOf a.pubkey) :=
    fun a _ => reads_byte (idxOf_lt_256 hkeys a.pubkey)
  have haccounts := reads_times hbyte
  rw [← List.map_eq_flatMap] at haccounts
  have hdata : Reads (bytes ix.data.length) ix.data ix.data := reads_bytes rfl
  exact haccounts.bind (hdata.then_pure (Reads.pure (indexed keys ix)))

end Instructions

/-! ### The message -/

section Message

variable {order : AccountOrder} {mask : ℕ} {values blockhash : List UInt8} {config : V1Config}
  {instructions : List Instruction}

/-- What the decoder makes of a message. -/
def decodedMessage (order : AccountOrder) (blockhash : List UInt8) (config : V1Config)
    (instructions : List Instruction) : DecodedV1Message :=
  { requiredSignatures := order.required
    readonlySigned := order.signedReadonly.length
    readonlyUnsigned := order.unsignedReadonly.length
    blockhash
    keys := order.keys
    config
    instructions := instructions.map (indexed order.keys) }

theorem decode_layoutMessage (hkeys : order.keys.length ≤ 64) (hblockhash : blockhash.length = 32)
    (hcount : instructions.length ≤ 64) (hmask : mask < 256 ^ 4)
    (hconfig : Reads (readConfig mask) values config) (hfits : ∀ ix ∈ instructions, Fits ix) :
    decodeV1Message (layoutMessage order mask values blockhash
        (instructions.map fun ix => (headerOf order.keys ix, payloadOf order.keys ix))) =
      some (decodedMessage order blockhash config instructions) := by
  apply parseAll_of_reads
  have hparts : order.signedReadonly.length ≤ 64 ∧ order.unsignedReadonly.length ≤ 64 ∧
      order.required ≤ 64 := by
    simp only [AccountOrder.keys, List.length_append] at hkeys
    rw [AccountOrder.required]
    omega
  have hlayout : layoutMessage order mask values blockhash
      (instructions.map fun ix => (headerOf order.keys ix, payloadOf order.keys ix)) =
      [UInt8.ofNat 129] ++ ([UInt8.ofNat order.required] ++
        ([UInt8.ofNat order.signedReadonly.length] ++
        ([UInt8.ofNat order.unsignedReadonly.length] ++ (littleEndian 4 mask ++ (blockhash ++
        ([UInt8.ofNat instructions.length] ++ ([UInt8.ofNat order.keys.length] ++
        (order.keys.flatMap Vector.toList ++ (values ++
        (instructions.flatMap (headerOf order.keys) ++
          instructions.flatMap (payloadOf order.keys))))))))))) := by
    simp [layoutMessage, List.flatMap_map]
  rw [hlayout, readMessage]
  refine (reads_byte (by decide)).bind ?_
  rw [if_neg (not_not.2 rfl)]
  refine (reads_byte (by omega)).bind ?_
  refine (reads_byte (by omega)).bind ((reads_byte (by omega)).bind ?_)
  refine (reads_unsignedInt hmask).bind ((reads_bytes hblockhash).bind ?_)
  refine (reads_byte (by omega)).bind ((reads_byte (by omega)).bind ?_)
  have hread : Reads (times order.keys.length readPubkey) (order.keys.flatMap Vector.toList)
      (order.keys.map id) := reads_times fun key _ => reads_pubkey key
  rw [List.map_id] at hread
  refine hread.bind (hconfig.bind ?_)
  refine (reads_times fun ix hix => reads_header hkeys (hfits ix hix)).bind ?_
  rw [List.mapM_map]
  exact (reads_mapM fun ix _ => reads_payload hkeys).then_pure (.pure _)

/-- The pieces of equal length in a list are its slices. -/
theorem slice_flatMap {f : Pubkey → List UInt8} {width : ℕ} (hf : ∀ key, (f key).length = width)
    {keys : List Pubkey} {i : ℕ} {key : Pubkey} (h : keys[i]? = some key) (rest : List UInt8) :
    ((keys.flatMap f ++ rest).drop (width * i)).take width = f key := by
  induction keys generalizing i with
  | nil => cases h
  | cons k keys ih =>
      rw [List.flatMap_cons, List.append_assoc]
      cases i with
      | zero =>
          cases h
          rw [Nat.mul_zero, List.drop_zero, List.take_left' (hf key)]
      | succ i =>
          rw [Nat.mul_succ, Nat.add_comm, ← List.drop_drop, List.drop_left' (hf k)]
          exact ih h

theorem signerMetadata_layoutMessage {packed : List (List UInt8 × List UInt8)}
    (hblockhash : blockhash.length = 32) (hfirst : order.signedWritable ≠ [])
    (hkeys : order.keys.length ≤ 64) (hrequired : order.required ≤ 12)
    (hsize : (layoutMessage order mask values blockhash packed).length + order.required * 64 ≤
      4096) :
    SignerMetadata ⟨layoutMessage order mask values blockhash packed, order.keys,
      order.required⟩ := by
  have hlayout : layoutMessage order mask values blockhash packed =
      ([129, UInt8.ofNat order.required, UInt8.ofNat order.signedReadonly.length,
          UInt8.ofNat order.unsignedReadonly.length] ++ littleEndian 4 mask ++ blockhash ++
        [UInt8.ofNat packed.length, UInt8.ofNat order.keys.length]) ++
      (order.keys.flatMap Vector.toList ++
        (values ++ packed.flatMap Prod.fst ++ packed.flatMap Prod.snd)) := by
    simp [layoutMessage]
  have hpos : 0 < order.signedWritable.length := List.length_pos_iff.2 hfirst
  have hparts : order.signedReadonly.length < order.required ∧
      order.required ≤ order.keys.length ∧
      order.unsignedReadonly.length ≤ order.keys.length - order.required := by
    simp only [AccountOrder.keys, AccountOrder.required, List.length_append]
    omega
  have hbytes : (order.keys.flatMap Vector.toList).length = 32 * order.keys.length := by
    simp [List.length_flatMap, Nat.mul_comm]
  have hfields : [129, UInt8.ofNat order.required, UInt8.ofNat order.signedReadonly.length,
        UInt8.ofNat order.unsignedReadonly.length] ++ littleEndian 4 mask ++ blockhash ++
      [UInt8.ofNat packed.length, UInt8.ofNat order.keys.length] =
      129 :: UInt8.ofNat order.required :: UInt8.ofNat order.signedReadonly.length ::
        UInt8.ofNat order.unsignedReadonly.length :: (littleEndian 4 mask ++ blockhash ++
          [UInt8.ofNat packed.length, UInt8.ofNat order.keys.length]) := by simp
  have hlast : (littleEndian 4 mask ++ blockhash ++
      [UInt8.ofNat packed.length, UInt8.ofNat order.keys.length])[37]? =
        some (UInt8.ofNat order.keys.length) := by
    rw [List.getElem?_append_right (by simp [hblockhash])]
    simp [hblockhash]
  rw [hfields] at hlayout
  generalize htail : littleEndian 4 mask ++ blockhash ++
    [UInt8.ofNat packed.length, UInt8.ofNat order.keys.length] = tail at hlayout hlast
  have hlen : tail.length = 38 := by
    rw [← htail]
    simp [hblockhash]
  have hsr : (UInt8.ofNat order.signedReadonly.length).toNat = order.signedReadonly.length := by
    rw [UInt8.toNat_ofNat']
    omega
  have hur : (UInt8.ofNat order.unsignedReadonly.length).toNat =
      order.unsignedReadonly.length := by
    rw [UInt8.toNat_ofNat']
    omega
  rw [SignerMetadata]
  dsimp only
  rw [hlayout] at hsize ⊢
  simp only [List.length_append, List.length_cons, hbytes, hlen] at hsize ⊢
  refine ⟨by omega, hkeys, by omega, by omega, rfl, rfl, ?_, ?_, ?_, ?_⟩
  · rw [List.cons_append, List.cons_append, List.cons_append, List.cons_append]
    show (tail ++ _)[37]? = _
    rwa [List.getElem?_append_left (by omega)]
  · show (UInt8.ofNat order.signedReadonly.length).toNat < _
    omega
  · show (UInt8.ofNat order.unsignedReadonly.length).toNat ≤ _
    omega
  · rintro ⟨key, i⟩ hmem
    have hi := List.mem_zipIdx_iff_getElem?.1 hmem
    have hslice := slice_flatMap (f := Vector.toList) (fun _ => Vector.length_toList) hi
      (values ++ packed.flatMap Prod.fst ++ packed.flatMap Prod.snd)
    rw [← List.drop_drop, List.drop_left' (by simp [hlen])]
    exact hslice

end Message

/-! ### A compiled message -/

section Compiled

variable {payer key : Pubkey} {instructions : List Instruction} {keys : List Pubkey}

theorem payerUsed (payer : Pubkey) (instructions : List Instruction) :
    PayerUsed payer (accountUses payer instructions) :=
  ⟨⟨(payer, true, true), by simp [accountUses], rfl, rfl⟩,
    ⟨(payer, true, true), by simp [accountUses], rfl, rfl⟩⟩

theorem signs_accountUses :
    Signs (accountUses payer instructions) key ↔
      key = payer ∨ ∃ ix ∈ instructions, ∃ a ∈ ix.accounts, a.pubkey = key ∧ a.isSigner = true := by
  constructor
  · rintro ⟨u, hu, rfl, hs⟩
    rcases List.mem_append.1 hu with hu | hu
    · obtain ⟨ix, hix, hu⟩ := List.mem_flatMap.1 hu
      rcases List.mem_cons.1 hu with rfl | hu
      · cases hs
      · obtain ⟨a, ha, rfl⟩ := List.mem_map.1 hu
        exact .inr ⟨ix, hix, a, ha, rfl, hs⟩
    · rw [List.mem_singleton] at hu
      exact .inl (by rw [hu])
  · rintro (rfl | ⟨ix, hix, a, ha, rfl, hs⟩)
    · exact (payerUsed key instructions).1
    · refine ⟨(a.pubkey, a.isSigner, a.isWritable), ?_, rfl, hs⟩
      refine List.mem_append_left _ (List.mem_flatMap.2 ⟨ix, hix, List.mem_cons_of_mem _ ?_⟩)
      exact List.mem_map.2 ⟨a, ha, rfl⟩

theorem occurs_program {ix : Instruction} (hix : ix ∈ instructions) :
    Occurs (accountUses payer instructions) ix.programId :=
  ⟨(ix.programId, false, false),
    List.mem_append_left _ (List.mem_flatMap.2 ⟨ix, hix, List.mem_cons_self⟩), rfl⟩

theorem occurs_account {ix : Instruction} (hix : ix ∈ instructions) {a : AccountMeta}
    (ha : a ∈ ix.accounts) : Occurs (accountUses payer instructions) a.pubkey :=
  ⟨(a.pubkey, a.isSigner, a.isWritable), List.mem_append_left _ (List.mem_flatMap.2
    ⟨ix, hix, List.mem_cons_of_mem _ (List.mem_map.2 ⟨a, ha, rfl⟩)⟩), rfl⟩

/-- Positions of keys resolve to these keys. -/
theorem resolve_indexed {ix : Instruction} (hprogram : ix.programId ∈ keys)
    (haccounts : ∀ a ∈ ix.accounts, a.pubkey ∈ keys) :
    (indexed keys ix).resolve keys =
      some (ix.programId, ix.accounts.map (·.pubkey), ix.data) := by
  have hall : ∀ metas : List AccountMeta, (∀ a ∈ metas, a.pubkey ∈ keys) →
      (metas.map fun a => keys.idxOf a.pubkey).mapM (fun i => keys[i]?) =
        some (metas.map (·.pubkey)) := by
    intro metas hmetas
    induction metas with
    | nil => rfl
    | cons a metas ih =>
        obtain ⟨ha, hrest⟩ := List.forall_mem_cons.1 hmetas
        rw [List.map_cons, List.mapM_cons, List.getElem?_idxOf ha, ih hrest]
        rfl
  rw [DecodedV1Instruction.resolve, indexed]
  dsimp only
  rw [List.getElem?_idxOf hprogram, hall ix.accounts haccounts]
  rfl

/-- What success of the compilation says. -/
theorem compileV1Message_eq_ok {b58decode : String → Except ValueError (List UInt8)}
    {recentBlockhash : Blockhash} {config : V1Config} {compiled : CompiledV1Message}
    (h : compileV1Message b58decode payer instructions recentBlockhash config = .ok compiled) :
    ∃ order mask values blockhash, order = orderAccounts payer (collectAccounts payer instructions) ∧
      instructions.length ≤ 64 ∧ order.keys.length ≤ 64 ∧ order.required ≤ 12 ∧
      recentBlockhash.decode b58decode = .ok blockhash ∧ blockhash.length = 32 ∧
      packConfig config = .ok (mask, values) ∧ (∀ ix ∈ instructions, Fits ix) ∧
      compiled = ⟨layoutMessage order mask values blockhash
          (instructions.map fun ix => (headerOf order.keys ix, payloadOf order.keys ix)),
        order.keys, order.required⟩ ∧
      compiled.message.length + order.required * 64 ≤ 4096 := by
  simp only [compileV1Message, bind_eq_ok, require_eq_ok, pure_eq_ok] at h
  obtain ⟨_, hcount, _, hlimits, blockhash, hdecode, _, hblockhash, ⟨mask, values⟩, hconfig,
    packed, hpacked, _, hsize, rfl⟩ := h
  obtain ⟨rfl, hfits⟩ := packInstructions_eq_ok hpacked
  exact ⟨_, mask, values, blockhash, rfl, hcount, by omega, by omega, hdecode, hblockhash,
    hconfig, hfits, rfl, hsize⟩

end Compiled

/-- A compiled message: the keys are distinct with the payer first, those that must
sign are the payer and the signers of the instructions, the header gives every key
the union of the privileges of its uses, and the decoder reads back the
instructions, the blockhash and the configuration. Signing never finds its metadata
wrong. -/
theorem compileV1Message_sound {b58decode : String → Except ValueError (List UInt8)}
    {payer : Pubkey} {instructions : List Instruction} {recentBlockhash : Blockhash}
    {config : V1Config} {compiled : CompiledV1Message}
    (h : compileV1Message b58decode payer instructions recentBlockhash config = .ok compiled) :
    (compiled.accountKeys.Nodup ∧ compiled.accountKeys[0]? = some payer) ∧
    (∀ key, key ∈ compiled.accountKeys.take compiled.requiredSignatures ↔
      key = payer ∨ ∃ ix ∈ instructions, ∃ a ∈ ix.accounts, a.pubkey = key ∧ a.isSigner = true) ∧
    (∃ d, decodeV1Message compiled.message = some d ∧ d.keys = compiled.accountKeys ∧
      d.requiredSignatures = compiled.requiredSignatures ∧
      d.readonlySigned < d.requiredSignatures ∧
      d.requiredSignatures + d.readonlyUnsigned ≤ d.keys.length ∧
      (∀ key, key ∈ d.keys ↔ Occurs (accountUses payer instructions) key) ∧
      (∀ i key, d.keys[i]? = some key →
        (d.isSigner i = true ↔ Signs (accountUses payer instructions) key) ∧
        (d.isWritable i = true ↔ Writes (accountUses payer instructions) key)) ∧
      (∀ ix ∈ d.instructions, ix.programIndex < d.keys.length ∧
        ∀ i ∈ ix.accountIndexes, i < d.keys.length) ∧
      d.instructions.map (·.resolve d.keys) = instructions.map (fun ix =>
        some (ix.programId, ix.accounts.map (·.pubkey), ix.data)) ∧
      recentBlockhash.decode b58decode = .ok d.blockhash ∧ d.config = config) ∧
    ∀ verify signers,
      signV1Transaction verify compiled signers ≠ .error (.value .invalidV1SignerMetadata) := by
  obtain ⟨order, mask, values, blockhash, horder, hcount, hkeys, hrequired, hdecode, hblockhash,
    hconfig, hfits, rfl, hsize⟩ := compileV1Message_eq_ok h
  obtain ⟨hmask, hreads⟩ := reads_config hconfig
  have hrec := recorded_collectAccounts payer instructions
  have hpayer := payerUsed payer instructions
  have hnodup : order.keys.Nodup := horder ▸ nodup_keys payer _
  have hmem : ∀ key, key ∈ order.keys ↔ Occurs (accountUses payer instructions) key :=
    fun key => horder ▸ mem_keys hrec hpayer.occurs
  have hposition : ∀ i key, order.keys[i]? = some key → _ :=
    fun i key hi => position_privileges hrec hpayer (horder ▸ hi)
  rw [← horder] at hposition
  have hpos : 0 < order.signedWritable.length := by
    rw [horder]
    exact Nat.succ_pos _
  refine ⟨⟨hnodup, by rw [horder]; rfl⟩, fun key => ?_, ⟨_, decode_layoutMessage hkeys hblockhash
    hcount hmask hreads hfits, rfl, rfl, ?_, ?_, hmem, fun i key hi => ?_, fun ix hix => ?_, ?_,
    hdecode, rfl⟩, fun verify signers => ?_⟩
  · -- the keys that must sign are those before the end of the signed part
    refine Iff.trans ?_ signs_accountUses
    constructor
    · intro hkey
      obtain ⟨i, hi⟩ := List.mem_iff_getElem?.1 hkey
      rw [List.getElem?_take] at hi
      split at hi
      · exact (hposition i key hi).1.1 ‹_›
      · cases hi
    · intro hsigns
      have hocc : Occurs (accountUses payer instructions) key :=
        hsigns.imp fun _ hu => ⟨hu.1, hu.2.1⟩
      obtain ⟨i, hi⟩ := List.mem_iff_getElem?.1 ((hmem key).2 hocc)
      have hlt := (hposition i key hi).1.2 hsigns
      refine List.mem_of_getElem? (i := i) ?_
      rw [List.getElem?_take, if_pos hlt, hi]
  · show order.signedReadonly.length < order.signedWritable.length + order.signedReadonly.length
    omega
  · simp only [decodedMessage, AccountOrder.keys, AccountOrder.required, List.length_append]
    omega
  · obtain ⟨hsigner, hwritable⟩ := hposition i key hi
    refine ⟨?_, ?_⟩
    · rw [DecodedV1Message.isSigner, decide_eq_true_eq]
      exact hsigner
    · rw [DecodedV1Message.isWritable, decide_eq_true_eq]
      exact hwritable
  · obtain ⟨source, hsource, rfl⟩ := List.mem_map.1 hix
    refine ⟨List.idxOf_lt_length_iff.2 ((hmem _).2 (occurs_program hsource)), fun i hi => ?_⟩
    obtain ⟨a, ha, rfl⟩ := List.mem_map.1 hi
    exact List.idxOf_lt_length_iff.2 ((hmem _).2 (occurs_account hsource ha))
  · show (instructions.map (indexed order.keys)).map _ = _
    rw [List.map_map]
    apply List.map_congr_left
    intro ix hix
    exact resolve_indexed ((hmem _).2 (occurs_program hix))
      fun a ha => (hmem _).2 (occurs_account hix ha)
  · have hmetadata := signerMetadata_layoutMessage hblockhash (List.length_pos_iff.1 hpos) hkeys
      hrequired hsize
    rw [signV1Transaction, require_of hmetadata, ok_bind]
    refine bind_ne_error (mapM_ne_error (fun key => ?_) _) fun signatures => pure_ne_error
    split
    · simp
    · dsimp only
      split <;> simp

/-- A transfer from the payer to an account that the payer's own instruction also
reads, with a compute limit. -/
theorem compileV1Message_sound_transfer :
    ∃ compiled, compileV1Message (fun _ => .error .invalidBlockhash) (Vector.replicate 32 9)
        [⟨.default, [2, 0, 0, 0, 5, 0, 0, 0, 0, 0, 0, 0],
          [⟨Vector.replicate 32 9, true, true⟩, ⟨Vector.replicate 32 7, false, true⟩]⟩,
         ⟨Vector.replicate 32 3, [1], [⟨Vector.replicate 32 7, false, false⟩]⟩]
        (.raw (List.replicate 32 4)) { computeUnitLimit := some 300000 } = .ok compiled ∧
      compiled.accountKeys[0]? = some (Vector.replicate 32 9) := by
  obtain ⟨compiled, h⟩ := exists_of_isOk
    (x := compileV1Message (fun _ => .error .invalidBlockhash) (Vector.replicate 32 9)
      [⟨.default, [2, 0, 0, 0, 5, 0, 0, 0, 0, 0, 0, 0],
        [⟨Vector.replicate 32 9, true, true⟩, ⟨Vector.replicate 32 7, false, true⟩]⟩,
       ⟨Vector.replicate 32 3, [1], [⟨Vector.replicate 32 7, false, false⟩]⟩]
      (.raw (List.replicate 32 4)) { computeUnitLimit := some 300000 }) (by decide +kernel)
  exact ⟨compiled, h, (compileV1Message_sound h).1.2⟩

end SolTrade.Serialization
