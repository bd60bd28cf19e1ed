import SolTrade.PumpSwap.CachedPool
import SolTrade.Route.PumpMultiHop
import SolTrade.Route.RouteSound

/-!
The official execution of a Pump route: one instruction that goes through two or three venues.

A route that does not support it is executed leg by leg instead. Which of the two is chosen is
decided before anything is submitted.
-/

namespace SolTrade.Route

open Library Wire
open Token (token2022Program)
open PumpSwap (CachedPumpSwap)

/-! ### Selection -/

inductive PumpRouteExecution where
  | auto
  | official
  | sequential
  deriving DecidableEq

structure PumpRouteOptions where
  execution : PumpRouteExecution := .auto
  minimumOutputAmount : Option ℤ := none
  buybackRecipient : Option Pubkey := none

/-- `type(n) is int and 0 < n < 1 << 64`. -/
def PositiveU64 (n : ℤ) : Prop := 0 < n ∧ n ≤ u64

instance : DecidablePred PositiveU64 := fun _ => inferInstanceAs (Decidable (_ ∧ _))

/-- Goes on from a mint, past the mints that it has seen, with the token program that the hop
before has left it in. -/
def checkHops :
    List PumpMultiHop → Pubkey → List Pubkey → Option Pubkey → Except PumpRouteError Unit
  | [], _, _, _ => .ok ()
  | h :: hops, current, seen, previous => do
      require (∀ p ∈ [h.baseTokenProgram, h.quoteTokenProgram],
        p = tokenProgram ∨ p = token2022Program) .unknownTokenProgram
      let buy : Bool := current = h.quoteMint
      require (buy = true ∨ current = h.baseMint) .disconnectedRoute
      let next := if buy then h.baseMint else h.quoteMint
      let program := if buy then h.quoteTokenProgram else h.baseTokenProgram
      require (∀ p ∈ previous, p = program) .inconsistentTokenProgram
      require (next ∉ seen) .assetCycle
      require (¬ (.default = h.address ∨ .default = h.baseVault ∨ .default = h.quoteVault ∨
        h.baseVault = h.quoteVault)) .incompleteVenue
      checkHops hops next (next :: seen)
        (some (if buy then h.baseTokenProgram else h.quoteTokenProgram))

section Select

variable (find : ProgramAddress) (options : PumpRouteOptions)
  (user inputMint outputMint : Pubkey) (amount : ℤ) (hops : List PumpMultiHop)

/-- The official instruction. -/
def officialInstruction : Except PumpRouteError Instruction := do
  require (2 ≤ hops.length ∧ hops.length ≤ 3) .unsupportedHops
  match options.minimumOutputAmount, options.buybackRecipient with
  | some minimum, some recipient =>
      require (¬ (user = .default ∨ inputMint = outputMint)) .invalidEndpoints
      checkHops hops inputMint [inputMint] none
      let (accounts, remaining) ←
        derivePumpMultiHopAccounts find user inputMint outputMint recipient hops
      buildPumpUpgradeInstruction .ammMultiHopSwap accounts [amount, minimum] none remaining
  | _, _ => .error .missingLimits

/-- No instruction stands for the sequential execution. -/
def selectPumpRoute : Except PumpRouteError (Option Instruction) := do
  require (PositiveU64 amount) .routeInput
  if options.execution = .sequential then return none
  else
    require (∀ minimum ∈ options.minimumOutputAmount, PositiveU64 minimum) .routeMinimum
    require (options.buybackRecipient ≠ some .default) .missingBuybackRecipient
    if options.execution = .auto ∧ (¬ (2 ≤ hops.length ∧ hops.length ≤ 3) ∨
        options.minimumOutputAmount = none ∨ options.buybackRecipient = none) then
      return none
    else
      match officialInstruction find options user inputMint outputMint amount hops with
      | .ok ix => return some ix
      | .error e => if options.execution = .auto then return none else .error e

end Select

/-! ### Routes through venues -/

/-- The hop gives one mint for another: a purchase gives its base mint for its quote mint. -/
def Exchanges (buy : Bool) (given got : Pubkey) (h : PumpMultiHop) : Prop :=
  if buy then h.quoteMint = given ∧ h.baseMint = got else h.baseMint = given ∧ h.quoteMint = got

/-- The hops lead from one mint to another in one direction. -/
inductive Leads (buy : Bool) : Pubkey → List PumpMultiHop → Pubkey → Prop
  | done (mint : Pubkey) : Leads buy mint [] mint
  | hop {mint next last : Pubkey} {h : PumpMultiHop} {hops : List PumpMultiHop}
      (hexchange : Exchanges buy mint next h) (hrest : Leads buy next hops last) :
      Leads buy mint (h :: hops) last

/-- The venue is the one that the programs derive from its mints. -/
inductive Canonical (find : ProgramAddress) (h : PumpMultiHop) : Prop
  | curve (hvenue : h.venue = .curve) (hopen : h.complete = false)
      (haddress : h.address = canonicalCurve find h.baseMint)
      (hbase : h.baseVault =
        associatedTokenAddress find h.address h.baseMint h.baseTokenProgram)
      (hquote : h.quoteVault =
        associatedTokenAddress find h.address h.quoteMint h.quoteTokenProgram)
  | pool (hvenue : h.venue = .pool) (hindex : h.index = 0)
      (hcreator : h.creator = some (poolAuthority find h.baseMint))
      (haddress : h.address = canonicalPool find h)

theorem checkVenue_eq_ok {find : ProgramAddress} {h : PumpMultiHop} :
    checkVenue find h = .ok () ↔ Canonical find h := by
  unfold checkVenue
  constructor
  · intro hok
    split at hok
    · rename_i hvenue
      simp only [require_eq_ok, not_or, not_not] at hok
      obtain ⟨hopen, haddress, hbase, hquote⟩ := hok
      rw [← haddress] at hbase hquote
      exact .curve hvenue (Bool.eq_false_iff.2 hopen) haddress hbase hquote
    · rename_i hvenue
      simp only [require_eq_ok, not_or, not_not] at hok
      exact .pool hvenue hok.1 hok.2.1 hok.2.2
    · contradiction
  · intro hcanonical
    cases hcanonical with
    | curve hvenue hopen haddress hbase hquote =>
        rw [haddress] at hbase hquote
        simp [hvenue, hopen, haddress, hbase, hquote]
    | pool hvenue hindex hcreator haddress => simp [hvenue, hindex, hcreator, ← haddress]

section Walk

variable {find : ProgramAddress} {count i : ℕ} {hops : List PumpMultiHop} {current last : Pubkey}
  {buy : Bool} {side side' : Option Bool} {metas : List AccountMeta}

/-- What every hop of a walk has passed. -/
def Passed (find : ProgramAddress) (buy : Bool) (count : ℕ) (p : PumpMultiHop × ℕ) : Prop :=
  p.1.mayhem = false ∧ p.1.baseMint ≠ p.1.quoteMint ∧ Canonical find p.1 ∧
    (p.1.cashback = true → p.2 = if buy then 0 else count - 1)

/-- A walk that succeeds leads on in one direction. -/
theorem walkHops_ok (h : walkHops find count hops i current side = .ok (last, side', metas)) :
    metas = hops.flatMap PumpMultiHop.metas ∧ (∀ b ∈ side, side' = some b) ∧
      (hops ≠ [] → side'.isSome) ∧ ∀ buy ∈ side', Leads buy current hops last ∧
        ∀ p ∈ hops.zipIdx i, Passed find buy count p := by
  induction hops generalizing i current side metas with
  | nil =>
      cases h
      exact ⟨rfl, fun b hb => hb, fun hne => absurd rfl hne, fun buy _ => ⟨.done _, by simp⟩⟩
  | cons hop hops ih =>
      simp only [walkHops, bind_eq_ok, require_eq_ok, pure_eq_ok, Prod.mk.injEq] at h
      obtain ⟨_, hvenue, _, hconnected, _, hside, _, hcashback, _, hcanonical, ⟨last', side'', rest⟩,
        hrest, rfl, rfl, rfl⟩ := h
      obtain ⟨rfl, hkept, -, hleads⟩ := ih hrest
      generalize hbuy : decide (current = hop.quoteMint) = buy at *
      have hlast : side'' = some buy := hkept buy rfl
      subst hlast
      simp only [not_or, Bool.not_eq_true] at hvenue
      have hexchange : Exchanges buy current (if buy then hop.baseMint else hop.quoteMint) hop := by
        cases buy with
        | true => exact ⟨(of_decide_eq_true hbuy).symm, rfl⟩
        | false => exact ⟨(hconnected.resolve_left Bool.false_ne_true).symm, rfl⟩
      refine ⟨rfl, fun b hb => ?_, fun _ => rfl, fun b hb => ?_⟩
      · rcases hside with hnone | hsome
        · rw [hnone] at hb
          cases hb
        · rw [hsome] at hb
          exact hb
      · obtain rfl := Option.some_inj.1 hb
        obtain ⟨hon, hpassed⟩ := hleads buy rfl
        refine ⟨.hop hexchange hon, ?_⟩
        rw [List.zipIdx_cons, List.forall_mem_cons]
        exact ⟨⟨hvenue.1, hvenue.2, checkVenue_eq_ok.1 hcanonical, hcashback⟩, hpassed⟩

end Walk

/-! ### The assets of a route -/

/-- The token that the hop gives and the one that it gets, each a mint and its program. -/
def PumpMultiHop.trade (h : PumpMultiHop) (buy : Bool) : (Pubkey × Pubkey) × (Pubkey × Pubkey) :=
  if buy then ((h.quoteMint, h.quoteTokenProgram), (h.baseMint, h.baseTokenProgram))
  else ((h.baseMint, h.baseTokenProgram), (h.quoteMint, h.quoteTokenProgram))

/-- The trades of the hops on from a mint. -/
def trades : Pubkey → List PumpMultiHop → List ((Pubkey × Pubkey) × (Pubkey × Pubkey))
  | _, [] => []
  | current, h :: hops =>
      let trade := h.trade (current = h.quoteMint)
      trade :: trades trade.2.1 hops

/-- The hops go on with the tokens that they get, and get no mint that has been seen. -/
theorem checkHops_ok {hops : List PumpMultiHop} {current : Pubkey} {seen : List Pubkey}
    {previous : Option Pubkey} (h : checkHops hops current seen previous = .ok ()) :
    (trades current hops).IsChain (fun a b => a.2 = b.1) ∧
      (∀ t ∈ (trades current hops).head?, t.1.1 = current ∧ ∀ p ∈ previous, p = t.1.2) ∧
      ((trades current hops).map (·.2.1)).Nodup ∧
      ∀ mint ∈ (trades current hops).map (·.2.1), mint ∉ seen := by
  induction hops generalizing current seen previous with
  | nil => exact ⟨.nil, by simp [trades], List.nodup_nil, by simp [trades]⟩
  | cons hop hops ih =>
      simp only [checkHops, bind_eq_ok, require_eq_ok] at h
      obtain ⟨_, -, _, hconnected, _, hprogram, _, hfresh, _, -, hrest⟩ := h
      generalize htrade : hop.trade (current = hop.quoteMint) = trade
      have hgiven : trade.1.1 = current := by
        rw [← htrade, PumpMultiHop.trade]
        split
        · rename_i hbuy
          exact (of_decide_eq_true hbuy).symm
        · rename_i hbuy
          exact (hconnected.resolve_left hbuy).symm
      have hnext : (if decide (current = hop.quoteMint) = true then hop.baseMint
          else hop.quoteMint) = trade.2.1 := by
        rw [← htrade, PumpMultiHop.trade]
        split <;> rfl
      have hpaid : (if decide (current = hop.quoteMint) = true then hop.quoteTokenProgram
          else hop.baseTokenProgram) = trade.1.2 := by
        rw [← htrade, PumpMultiHop.trade]
        split <;> rfl
      have hleft : (if decide (current = hop.quoteMint) = true then hop.baseTokenProgram
          else hop.quoteTokenProgram) = trade.2.2 := by
        rw [← htrade, PumpMultiHop.trade]
        split <;> rfl
      rw [hnext] at hfresh hrest
      rw [hpaid] at hprogram
      rw [hleft] at hrest
      obtain ⟨hchain, hhead, hnodup, hunseen⟩ := ih hrest
      simp only [trades, htrade, List.map_cons, List.head?_cons]
      refine ⟨?_, ?_, ?_, ?_⟩
      · refine List.isChain_cons.2 ⟨fun t ht => ?_, hchain⟩
        obtain ⟨hmint, hprogram⟩ := hhead t ht
        exact Prod.ext hmint.symm (hprogram _ rfl)
      · rintro _ ⟨⟩
        exact ⟨hgiven, hprogram⟩
      · refine List.nodup_cons.2 ⟨fun hmem => ?_, hnodup⟩
        exact hunseen _ hmem List.mem_cons_self
      · rw [List.forall_mem_cons]
        exact ⟨hfresh, fun mint hmint hseen => hunseen mint hmint (List.mem_cons_of_mem _ hseen)⟩

/-! ### The instruction -/

/-- The accounts of the wallet and of the buyback that a multi-hop swap uses, and the five accounts
of each venue. -/
structure MultiHopSwap where
  amount : ℕ
  minimum : ℕ
  user : Pubkey
  userIn : Pubkey
  userOut : Pubkey
  buyback : Pubkey
  venues : List (List Pubkey)
  deriving DecidableEq

/-- The accounts, five at a time. -/
def readVenues : List AccountMeta → Option (List (List Pubkey))
  | [] => some []
  | base :: quote :: address :: baseVault :: quoteVault :: rest => do
      let venues ← readVenues rest
      return [base.pubkey, quote.pubkey, address.pubkey, baseVault.pubkey, quoteVault.pubkey] ::
        venues
  | _ => none

def readMultiHopArguments : Parser (ℕ × ℕ) := do
  guard ((← bytes 8) = PumpUpgrade.ammMultiHopSwap.spec.discriminator)
  let amount ← unsignedInt 8
  let minimum ← unsignedInt 8
  return (amount, minimum)

/-- What the program reads from its instruction. -/
def readMultiHopSwap (ix : Instruction) : Option MultiHopSwap := do
  guard (ix.programId = pumpSwapProgram)
  let (amount, minimum) ← parseAll readMultiHopArguments ix.data
  match ix.accounts with
  | user :: userIn :: userOut :: _ :: _ :: _ :: buyback :: rest => do
      let venues ← readVenues (rest.drop 9)
      return ⟨amount, minimum, user.pubkey, userIn.pubkey, userOut.pubkey, buyback.pubkey, venues⟩
  | _ => none

def PumpMultiHop.keys (h : PumpMultiHop) : List Pubkey :=
  [h.baseMint, h.quoteMint, h.address, h.baseVault, h.quoteVault]

theorem readVenues_metas (hops : List PumpMultiHop) :
    readVenues (hops.flatMap PumpMultiHop.metas) = some (hops.map PumpMultiHop.keys) := by
  induction hops with
  | nil => rfl
  | cons h hops ih =>
      rw [List.flatMap_cons]
      simp only [PumpMultiHop.metas, List.cons_append, List.nil_append, readVenues]
      rw [ih]
      rfl

theorem reads_multiHopArguments {amount minimum : ℤ} (hamount : PositiveU64 amount)
    (hminimum : PositiveU64 minimum) :
    parseAll readMultiHopArguments (PumpUpgrade.ammMultiHopSwap.spec.discriminator ++
        [amount, minimum].flatMap fun n => littleEndian 8 n.toNat) =
      some (amount.toNat, minimum.toNat) := by
  have hrange {n : ℤ} (hn : PositiveU64 n) : n.toNat < 256 ^ 8 :=
    Ledger.toNat_lt ⟨hn.1.le, hn.2⟩
  have hdata : [amount, minimum].flatMap (fun n => littleEndian 8 n.toNat) =
      littleEndian 8 amount.toNat ++ (littleEndian 8 minimum.toNat ++ []) := rfl
  rw [hdata, ← List.nil_append (littleEndian 8 amount.toNat ++ _)]
  apply parseAll_of_reads
  refine (reads_bytes (n := 8) rfl).bind ?_
  refine Reads.bind (a := ()) (fun rest => ?_) ?_
  · rfl
  · exact (reads_unsignedInt (hrange hamount)).bind ((reads_unsignedInt (hrange hminimum)).bind
      (.pure _))

section Official

variable {find : ProgramAddress} {options : PumpRouteOptions} {user inputMint outputMint : Pubkey}
  {amount : ℤ} {hops : List PumpMultiHop} {ix : Instruction}

/-- The accounts of a multi-hop swap before those of its venues. -/
def multiHopKeys (find : ProgramAddress) (user userIn userOut buyback : Pubkey) :
    List AccountMeta :=
  [⟨user, true, true⟩, ⟨userIn, false, true⟩, ⟨userOut, false, true⟩,
    ⟨pda find pumpSwapProgram "global_config", false, false⟩,
    ⟨pda find PumpFun.feeProgram "fee_config" (some pumpSwapProgram), false, false⟩,
    ⟨pda find pumpSwapProgram "user_volume_accumulator" (some user), false, true⟩,
    ⟨buyback, false, true⟩, ⟨tokenProgram, false, false⟩, ⟨token2022Program, false, false⟩,
    ⟨.default, false, false⟩, ⟨pda find pumpSwapProgram "__event_authority", false, false⟩,
    ⟨pumpSwapProgram, false, false⟩, ⟨pumpFunProgram, false, false⟩,
    ⟨pda find pumpFunProgram "global", false, false⟩,
    ⟨pda find PumpFun.feeProgram "fee_config" (some pumpFunProgram), false, false⟩,
    ⟨pda find pumpFunProgram "__event_authority", false, false⟩]

/-- The derived accounts are those that the instruction names. -/
theorem derivePumpMultiHopAccounts_ok {recipient : Pubkey} {accounts : NamedAccounts}
    {remaining : List AccountMeta}
    (h : derivePumpMultiHopAccounts find user inputMint outputMint recipient hops =
      .ok (accounts, remaining)) :
    ∃ buy first last, (hops.map normalizeHop).head? = some first ∧
      (hops.map normalizeHop).getLast? = some last ∧
      Leads buy (normalizeQuote inputMint) (hops.map normalizeHop) (normalizeQuote outputMint) ∧
      (∀ p ∈ (hops.map normalizeHop).zipIdx, Passed find buy hops.length p) ∧
      remaining = (hops.map normalizeHop).flatMap PumpMultiHop.metas ∧
      multiHopAccounts.mapM (namedAccount accounts) = .ok (multiHopKeys find user
        (associatedTokenAddress find user (normalizeQuote inputMint) (first.trade buy).1.2)
        (associatedTokenAddress find user (normalizeQuote outputMint) (last.trade buy).2.2)
        (associatedTokenAddress find recipient (if buy then first else last).quoteMint
          (if buy then first else last).quoteTokenProgram)) := by
  unfold derivePumpMultiHopAccounts at h
  obtain ⟨_, hsome, h⟩ := bind_eq_ok.1 h
  obtain ⟨⟨current, side, metas⟩, hwalk, h⟩ := bind_eq_ok.1 h
  obtain ⟨_, houtput, h⟩ := bind_eq_ok.1 h
  rw [require_eq_ok] at hsome houtput
  obtain ⟨hmetas, -, hside, hleads⟩ := walkHops_ok hwalk
  have hne : hops.map normalizeHop ≠ [] := by
    rw [Ne, List.map_eq_nil_iff]
    exact fun hnil => hsome (.inl hnil)
  obtain ⟨buy, hbuy⟩ := Option.isSome_iff_exists.1 (hside hne)
  obtain ⟨hroute, hpassed⟩ := hleads buy hbuy
  rw [houtput] at hroute
  rw [List.length_map] at hpassed
  split at h
  · rename_i first last hfirst hlast
    rw [pure_eq_ok, Prod.mk.injEq] at h
    obtain ⟨rfl, rfl⟩ := h
    refine ⟨buy, first, last, hfirst, hlast, hroute, hpassed, hmetas, ?_⟩
    obtain rfl := hbuy
    cases buy <;> rfl
  · contradiction

theorem buildPumpUpgradeInstruction_ok {name : PumpUpgrade} {accounts : NamedAccounts}
    {amounts : List ℤ} {partialFill : Option Bool} {remaining : List AccountMeta}
    (h : buildPumpUpgradeInstruction name accounts amounts partialFill remaining = .ok ix) :
    ∃ keys, name.spec.accounts.mapM (namedAccount accounts) = .ok keys ∧
      ix = ⟨name.spec.program, name.spec.discriminator ++
        amounts.flatMap (fun n => littleEndian 8 n.toNat) ++
          (partialFill.map fun fill : Bool => if fill then (1 : UInt8) else 0).toList,
        keys ++ remaining⟩ := by
  simp only [buildPumpUpgradeInstruction, bind_eq_ok] at h
  obtain ⟨_, -, _, -, h⟩ := h
  split at h
  · simp only [bind_eq_ok, pure_eq_ok] at h
    obtain ⟨_, -, _, -, keys, hkeys, _, -, rfl⟩ := h
    exact ⟨keys, hkeys, rfl⟩
  · simp only [bind_eq_ok, pure_eq_ok] at h
    obtain ⟨_, -, _, -, keys, hkeys, _, -, rfl⟩ := h
    exact ⟨keys, hkeys, rfl⟩

/-- What the official execution of a route says: the program reads the amounts, the associated
accounts of the wallet for the tokens that the route gives and gets, that of the buyback recipient
for the currency, and the venues in their order. -/
structure OfficialRoute (find : ProgramAddress) (options : PumpRouteOptions)
    (user inputMint outputMint : Pubkey) (amount : ℤ) (hops : List PumpMultiHop)
    (ix : Instruction) : Prop where
  hops_length : 2 ≤ hops.length ∧ hops.length ≤ 3
  endpoints : user ≠ .default ∧ inputMint ≠ outputMint
  tokens : (trades inputMint hops).IsChain (fun a b => a.2 = b.1)
  assets : (inputMint :: (trades inputMint hops).map (·.2.1)).Nodup
  route : ∃ buy first last minimum recipient,
    options.minimumOutputAmount = some minimum ∧ options.buybackRecipient = some recipient ∧
      (hops.map normalizeHop).head? = some first ∧
      (hops.map normalizeHop).getLast? = some last ∧
      Leads buy (normalizeQuote inputMint) (hops.map normalizeHop) (normalizeQuote outputMint) ∧
      (∀ p ∈ (hops.map normalizeHop).zipIdx, Passed find buy hops.length p) ∧
      readMultiHopSwap ix = some {
        amount := amount.toNat
        minimum := minimum.toNat
        user
        userIn :=
          associatedTokenAddress find user (normalizeQuote inputMint) (first.trade buy).1.2
        userOut :=
          associatedTokenAddress find user (normalizeQuote outputMint) (last.trade buy).2.2
        buyback := associatedTokenAddress find recipient
          (if buy then first else last).quoteMint (if buy then first else last).quoteTokenProgram
        venues := (hops.map normalizeHop).map PumpMultiHop.keys }
  signers : ∀ a ∈ ix.accounts, a.isSigner = true → a.pubkey = user

theorem readMultiHopSwap_keys {data : List UInt8} {minimum : ℤ} {userIn userOut buyback : Pubkey}
    {venues : List PumpMultiHop}
    (hdata : parseAll readMultiHopArguments data = some (amount.toNat, minimum.toNat)) :
    readMultiHopSwap ⟨pumpSwapProgram, data,
        multiHopKeys find user userIn userOut buyback ++ venues.flatMap PumpMultiHop.metas⟩ =
      some ⟨amount.toNat, minimum.toNat, user, userIn, userOut, buyback,
        venues.map PumpMultiHop.keys⟩ := by
  simp only [readMultiHopSwap, hdata, guard, if_true]
  change (readVenues (venues.flatMap PumpMultiHop.metas) >>= fun found =>
    some (MultiHopSwap.mk _ _ _ _ _ _ found)) = _
  rw [readVenues_metas]
  rfl

theorem signer_multiHopKeys {userIn userOut buyback : Pubkey} {a : AccountMeta}
    (ha : a ∈ multiHopKeys find user userIn userOut buyback) (hsigner : a.isSigner = true) :
    a.pubkey = user := by
  simp only [multiHopKeys, List.mem_cons, List.not_mem_nil, or_false] at ha
  rcases ha with rfl | ha
  · rfl
  · rcases ha with rfl | rfl | rfl | rfl | rfl | rfl | rfl | rfl | rfl | rfl | rfl | rfl | rfl | rfl |
      rfl <;> contradiction

theorem officialInstruction_ok (hamount : PositiveU64 amount)
    (hminimum : ∀ minimum ∈ options.minimumOutputAmount, PositiveU64 minimum)
    (h : officialInstruction find options user inputMint outputMint amount hops = .ok ix) :
    OfficialRoute find options user inputMint outputMint amount hops ix := by
  unfold officialInstruction at h
  obtain ⟨_, hlength, h⟩ := bind_eq_ok.1 h
  split at h
  · rename_i minimum recipient hmin hrecipient
    simp only [bind_eq_ok, require_eq_ok] at h
    obtain ⟨_, hendpoints, _, hchecked, ⟨accounts, remaining⟩, hderived, hbuilt⟩ := h
    obtain ⟨hchain, hhead, hnodup, hfresh⟩ := checkHops_ok hchecked
    obtain ⟨buy, first, last, hfirst, hlast, hleads, hpassed, rfl, hkeys⟩ :=
      derivePumpMultiHopAccounts_ok hderived
    obtain ⟨keys, hkeys', rfl⟩ := buildPumpUpgradeInstruction_ok hbuilt
    obtain rfl : keys = _ := Except.ok.inj (hkeys'.symm.trans hkeys)
    rw [not_or] at hendpoints
    refine ⟨require_eq_ok.1 hlength, hendpoints, hchain, ?_, ?_, ?_⟩
    · refine List.nodup_cons.2 ⟨fun hmem => ?_, hnodup⟩
      exact hfresh _ hmem List.mem_cons_self
    · refine ⟨buy, first, last, minimum, recipient, hmin, hrecipient, hfirst, hlast, hleads,
        hpassed, ?_⟩
      have hdata := reads_multiHopArguments hamount (hminimum minimum hmin)
      rw [← List.append_nil (PumpUpgrade.ammMultiHopSwap.spec.discriminator ++ _)] at hdata
      exact readMultiHopSwap_keys hdata
    · intro a ha hsigner
      rcases List.mem_append.1 ha with hkey | hvenue
      · exact signer_multiHopKeys hkey hsigner
      · obtain ⟨hop, -, hmeta⟩ := List.mem_flatMap.1 hvenue
        simp only [PumpMultiHop.metas, List.mem_cons, List.not_mem_nil, or_false] at hmeta
        rcases hmeta with rfl | rfl | rfl | rfl | rfl <;> contradiction
  · contradiction

/-- The official execution is selected with its instruction, after the checks of the amounts. -/
theorem selectPumpRoute_eq_some
    (h : selectPumpRoute find options user inputMint outputMint amount hops = .ok (some ix)) :
    PositiveU64 amount ∧ (∀ minimum ∈ options.minimumOutputAmount, PositiveU64 minimum) ∧
      officialInstruction find options user inputMint outputMint amount hops = .ok ix := by
  unfold selectPumpRoute at h
  obtain ⟨_, hamount, h⟩ := bind_eq_ok.1 h
  rw [require_eq_ok] at hamount
  split at h
  · cases h
  · obtain ⟨_, hminimum, h⟩ := bind_eq_ok.1 h
    obtain ⟨_, -, h⟩ := bind_eq_ok.1 h
    rw [require_eq_ok] at hminimum
    split at h
    · cases h
    · split at h
      · rename_i built hofficial
        obtain rfl := Option.some_inj.1 (Except.ok.inj h)
        exact ⟨hamount, hminimum, hofficial⟩
      · split at h <;> cases h

/-- A route that is executed officially. -/
theorem selectPumpRoute_official
    (h : selectPumpRoute find options user inputMint outputMint amount hops = .ok (some ix)) :
    OfficialRoute find options user inputMint outputMint amount hops ix := by
  obtain ⟨hamount, hminimum, hofficial⟩ := selectPumpRoute_eq_some h
  exact officialInstruction_ok hamount hminimum hofficial

/-! ### The choice -/

/-- What is raised before a choice is made. -/
def unconditional : List PumpRouteError := [.routeInput, .routeMinimum, .missingBuybackRecipient]

section Unconditional

variable {e : PumpRouteError}

theorem require_ne {p : Prop} [Decidable p] {e' : PumpRouteError} (he : e ∈ unconditional)
    (h : e' ∉ unconditional) : require p e' ≠ .error e :=
  require_ne_error fun heq => h (heq ▸ he)

theorem checkHops_ne (he : e ∈ unconditional) {current : Pubkey} {seen : List Pubkey}
    {previous : Option Pubkey} : checkHops hops current seen previous ≠ .error e := by
  induction hops generalizing current seen previous with
  | nil => simp [checkHops]
  | cons hop hops ih =>
      refine bind_ne_error (require_ne he (by decide)) fun _ => ?_
      refine bind_ne_error (require_ne he (by decide)) fun _ => ?_
      refine bind_ne_error (require_ne he (by decide)) fun _ => ?_
      refine bind_ne_error (require_ne he (by decide)) fun _ => ?_
      exact bind_ne_error (require_ne he (by decide)) fun _ => ih

theorem checkVenue_ne (he : e ∈ unconditional) {h : PumpMultiHop} :
    checkVenue find h ≠ .error e := by
  unfold checkVenue
  split
  · exact require_ne he (by decide)
  · exact require_ne he (by decide)
  · rintro ⟨⟩
    exact absurd he (by decide)

theorem walkHops_ne (he : e ∈ unconditional) {count i : ℕ} {current : Pubkey}
    {side : Option Bool} : walkHops find count hops i current side ≠ .error e := by
  induction hops generalizing i current side with
  | nil => simp [walkHops]
  | cons hop hops ih =>
      refine bind_ne_error (require_ne he (by decide)) fun _ => ?_
      refine bind_ne_error (require_ne he (by decide)) fun _ => ?_
      refine bind_ne_error (require_ne he (by decide)) fun _ => ?_
      refine bind_ne_error (require_ne he (by decide)) fun _ => ?_
      exact bind_ne_error (checkVenue_ne he) fun _ => bind_ne_error ih fun _ => pure_ne_error

theorem derivePumpMultiHopAccounts_ne (he : e ∈ unconditional) {recipient : Pubkey} :
    derivePumpMultiHopAccounts find user inputMint outputMint recipient hops ≠ .error e := by
  refine bind_ne_error (require_ne he (by decide)) fun _ => ?_
  refine bind_ne_error (walkHops_ne he) fun _ => ?_
  refine bind_ne_error (require_ne he (by decide)) fun _ => ?_
  split
  · exact pure_ne_error
  · rintro ⟨⟩
    exact absurd he (by decide)

theorem namedAccount_ne (he : e ∈ unconditional) {accounts : NamedAccounts} (a : PumpAccount) :
    namedAccount accounts a ≠ .error e := by
  unfold namedAccount
  split
  · simp
  · rintro ⟨⟩
    simp [unconditional] at he

theorem buildPumpUpgradeInstruction_ne (he : e ∈ unconditional) {name : PumpUpgrade}
    {accounts : NamedAccounts} {amounts : List ℤ} {partialFill : Option Bool}
    {remaining : List AccountMeta} :
    buildPumpUpgradeInstruction name accounts amounts partialFill remaining ≠ .error e := by
  refine bind_ne_error (require_ne he (by decide)) fun _ => ?_
  refine bind_ne_error (require_ne he (by decide)) fun _ => ?_
  apply ite_ne_error
  all_goals
    refine bind_ne_error (require_ne he (by decide)) fun _ => ?_
    refine bind_ne_error (require_ne he (by decide)) fun _ => ?_
    refine bind_ne_error (mapM_ne_error (namedAccount_ne he) _) fun _ => ?_
    exact bind_ne_error (require_ne he (by decide)) fun _ => pure_ne_error

theorem officialInstruction_ne (he : e ∈ unconditional) :
    officialInstruction find options user inputMint outputMint amount hops ≠ .error e := by
  refine bind_ne_error (require_ne he (by decide)) fun _ => ?_
  split
  · refine bind_ne_error (require_ne he (by decide)) fun _ => ?_
    refine bind_ne_error (checkHops_ne he) fun _ => ?_
    exact bind_ne_error (derivePumpMultiHopAccounts_ne he) fun _ =>
      buildPumpUpgradeInstruction_ne he
  · rintro ⟨⟩
    exact absurd he (by decide)

end Unconditional

/-- The automatic choice takes the official execution where it is possible, and the sequential one
where asking for the official one would raise; what is wrong with the request itself it raises. -/
theorem selectPumpRoute_auto :
    selectPumpRoute find { options with execution := .auto } user inputMint outputMint amount hops =
      match selectPumpRoute find { options with execution := .official } user inputMint outputMint
          amount hops with
      | .ok selected => .ok selected
      | .error e => if e ∈ unconditional then .error e else .ok none := by
  have hsame : officialInstruction find { options with execution := .official } user inputMint
      outputMint amount hops = officialInstruction find { options with execution := .auto } user
        inputMint outputMint amount hops := rfl
  unfold selectPumpRoute
  rw [hsame]
  by_cases hamount : PositiveU64 amount
  · by_cases hminimum : ∀ minimum ∈ options.minimumOutputAmount, PositiveU64 minimum
    · by_cases hbuyback : options.buybackRecipient ≠ some .default
      · simp only [require_of hamount, require_of hminimum, require_of hbuyback, ok_bind,
          reduceCtorEq, if_false, if_true, false_and, true_and]
        cases hofficial : officialInstruction find { options with execution := .auto } user inputMint
          outputMint amount hops with
        | ok ix =>
            have hroute := officialInstruction_ok hamount hminimum hofficial
            obtain ⟨_, _, _, minimum, recipient, hmin, hrecipient, -⟩ := hroute.route
            rw [if_neg (by simp [hroute.hops_length, hmin, hrecipient])]
            rfl
        | error e =>
            have hnot : e ∉ unconditional := fun he => officialInstruction_ne he hofficial
            simp only [hnot, if_false]
            exact ite_self _
      · simp only [require_of hamount, require_of hminimum, require_of_not hbuyback, ok_bind,
          error_bind, reduceCtorEq, if_false]
        rfl
    · simp only [require_of hamount, require_of_not hminimum, ok_bind, error_bind, reduceCtorEq,
        if_false]
      rfl
  · simp only [require_of_not hamount, error_bind]
    rfl

end Official

/-! ### Preparation from the current state -/

/-- What a route needs to know of a curve. -/
structure PumpCurve where
  mint : Pubkey
  quote : Pubkey
  tokenProgram : Pubkey
  quoteTokenProgram : Pubkey
  isMayhemMode : Bool
  isCashbackCoin : Bool
  complete : Bool

/-- The reads of a snapshot. -/
structure PumpSnapshot where
  owner : Pubkey → Except PumpRouteError Pubkey
  cachedPumpfun : PoolTradeHint → Except PumpRouteError PumpCurve
  cachedPumpswap : PoolTradeHint → Except PumpRouteError CachedPumpSwap

section Prepare

variable (find : ProgramAddress) (temporaryAccount : Pubkey → String → Pubkey)
  (snapshot : PumpSnapshot) (options : PumpRouteOptions)

/-- The addresses that are derived from others, under the programs. -/
def addresses : Derivation := ⟨associatedTokenAddress find, temporaryAccount⟩

def PumpCurve.hop (s : PumpCurve) (h : PoolTradeHint) : PumpMultiHop where
  venue := .curve
  baseMint := s.mint
  quoteMint := s.quote
  address := h.pool
  baseVault := associatedTokenAddress find h.pool s.mint s.tokenProgram
  quoteVault := associatedTokenAddress find h.pool s.quote s.quoteTokenProgram
  baseTokenProgram := s.tokenProgram
  quoteTokenProgram := s.quoteTokenProgram
  mayhem := s.isMayhemMode
  cashback := s.isCashbackCoin
  complete := s.complete

def poolHop (s : CachedPumpSwap) (h : PoolTradeHint) : PumpMultiHop where
  venue := .pool
  baseMint := s.pool.baseMint
  quoteMint := s.pool.quoteMint
  address := h.pool
  baseVault := s.pool.poolBaseTokenAccount
  quoteVault := s.pool.poolQuoteTokenAccount
  baseTokenProgram := s.baseTokenProgram
  quoteTokenProgram := s.quoteTokenProgram
  mayhem := s.pool.isMayhemMode
  cashback := s.pool.isCashbackCoin
  complete := true
  index := s.pool.index
  creator := some s.pool.creator

def noTransferFee (fee : TokenTransferFee) : Bool := fee.basisPoints = 0 ∨ fee.maximumFee = 0

/-- The venues of the hints, each with its owner. There are none where the hints are disconnected
or a pool trades a mint with a transfer fee. -/
def readHops (recipient : Pubkey) :
    Option PoolTradeHint → List (PoolTradeHint × Pubkey) →
      Except PumpRouteError (Option (List PumpMultiHop))
  | _, [] => .ok (some [])
  | previous, (h, program) :: rest =>
      if ∃ p ∈ previous, p.outputMint ≠ h.inputMint then .ok none
      else if program = pumpFunProgram then do
        let s ← snapshot.cachedPumpfun h
        let hops ← readHops recipient (some h) rest
        return hops.map (s.hop find h :: ·)
      else do
        let s ← snapshot.cachedPumpswap h
        require (s.disableFlags &&& (if h.inputMint = s.pool.quoteMint then 8 else 16) = 0)
          .pumpSwapDirectionDisabled
        require (recipient ∈ s.buybackFeeRecipients) .staleBuybackRecipient
        if noTransferFee s.baseTransferFee = false ∨ noTransferFee s.quoteTransferFee = false then
          return none
        else
          let hops ← readHops recipient (some h) rest
          return hops.map (poolHop s h :: ·)

/-- Nothing stands for the sequential execution of the hints. -/
def prepareOfficialPumpRoute (hints : List PoolTradeHint) (payer : Pubkey) (amount : ℤ)
    (nativeSettlement : Bool := false) : Except PumpRouteError (Option PreparedCachedRoute) := do
  match hints.head?, hints.getLast? with
  | some firstHint, some lastHint =>
      let source := firstHint.inputMint
      let target := lastHint.outputMint
      let select := selectPumpRoute find options payer source target amount
      let fallback : Except PumpRouteError (Option PreparedCachedRoute) := do
        let _ ← select []
        return none
      match options.minimumOutputAmount, options.buybackRecipient with
      | some minimum, some recipient =>
          if options.execution = .sequential ∨ nativeSettlement = true ∨
              ¬ (2 ≤ hints.length ∧ hints.length ≤ 3) then fallback
          else
            let programs ← hints.mapM fun h => snapshot.owner h.pool
            if ∃ p ∈ programs, p ≠ pumpFunProgram ∧ p ≠ pumpSwapProgram then fallback
            else
              match ← readHops find snapshot recipient none (hints.zip programs) with
              | none => fallback
              | some hops =>
                  match hops.head?, hops.getLast? with
                  | some first, some last =>
                      let buy : Bool := source = first.quoteMint
                      let currency := if buy then first else last
                      if currency.venue = .curve ∧ currency.quoteMint = wsolTokenAccount then
                        fallback
                      else
                        match ← select hops with
                        | none => return none
                        | some ix =>
                            let create (owner mint program : Pubkey) :=
                              createAssociatedTokenAccountIdempotent
                                (addresses find temporaryAccount) payer owner mint program
                            return some {
                              legs := []
                              setupInstructions :=
                                [create payer source (if buy then first.quoteTokenProgram
                                    else first.baseTokenProgram),
                                  create payer target (if buy then last.baseTokenProgram
                                    else last.quoteTokenProgram),
                                  create recipient currency.quoteMint currency.quoteTokenProgram]
                              swapInstructions := [ix]
                              minimumNetAmountOut := minimum
                              estimatedIntermediateResiduals := [] }
                  | _, _ => fallback
      | _, _ => fallback
  | _, _ => .error .pumpRouteRequiresHops

end Prepare

/-- The venue of a hint, as the snapshot has it. -/
inductive ReadHop (find : ProgramAddress) (snapshot : PumpSnapshot) (recipient : Pubkey)
    (h : PoolTradeHint) : PumpMultiHop → Prop
  | curve (s : PumpCurve) (hread : snapshot.cachedPumpfun h = .ok s) :
      ReadHop find snapshot recipient h (s.hop find h)
  | pool (s : CachedPumpSwap) (hread : snapshot.cachedPumpswap h = .ok s)
      (henabled : s.disableFlags &&& (if h.inputMint = s.pool.quoteMint then 8 else 16) = 0)
      (hcurrent : recipient ∈ s.buybackFeeRecipients)
      (hfree : noTransferFee s.baseTransferFee = true ∧ noTransferFee s.quoteTransferFee = true) :
      ReadHop find snapshot recipient h (poolHop s h)

theorem ReadHop.address {find : ProgramAddress} {snapshot : PumpSnapshot} {recipient : Pubkey}
    {h : PoolTradeHint} {hop : PumpMultiHop} (hread : ReadHop find snapshot recipient h hop) :
    hop.address = h.pool := by
  cases hread with
  | curve s hread => rfl
  | pool s hread henabled hcurrent hfree => rfl

section Prepared

variable {find : ProgramAddress} {temporaryAccount : Pubkey → String → Pubkey}
  {snapshot : PumpSnapshot} {options : PumpRouteOptions} {payer recipient : Pubkey} {amount : ℤ}

theorem readHops_ok {previous : Option PoolTradeHint} {ps : List (PoolTradeHint × Pubkey)}
    {hops : List PumpMultiHop}
    (h : readHops find snapshot recipient previous ps = .ok (some hops)) :
    (∀ p ∈ previous, ∀ q ∈ ps.head?, p.outputMint = q.1.inputMint) ∧
      (ps.map (·.1)).IsChain (fun a b => a.outputMint = b.inputMint) ∧
      List.Forall₂ (fun p hop => ReadHop find snapshot recipient p.1 hop) ps hops := by
  induction ps generalizing previous hops with
  | nil =>
      cases h
      exact ⟨by simp, .nil, .nil⟩
  | cons p ps ih =>
      obtain ⟨hint, program⟩ := p
      rw [readHops] at h
      split at h
      · cases h
      · rename_i hconnected
        have hprevious : ∀ p ∈ previous, p.outputMint = hint.inputMint := fun p hp => by
          by_contra hne
          exact hconnected ⟨p, hp, hne⟩
        -- Either kind of venue goes on with the hints that are left.
        have hgo {hop : PumpMultiHop} (hread : ReadHop find snapshot recipient hint hop)
            {found : Option (List PumpMultiHop)}
            (hrest : readHops find snapshot recipient (some hint) ps = .ok found)
            (hmap : found.map (hop :: ·) = some hops) :
            (∀ p ∈ previous, ∀ q ∈ ((hint, program) :: ps).head?, p.outputMint = q.1.inputMint) ∧
              (((hint, program) :: ps).map (·.1)).IsChain
                (fun a b => a.outputMint = b.inputMint) ∧
              List.Forall₂ (fun p hop => ReadHop find snapshot recipient p.1 hop)
                ((hint, program) :: ps) hops := by
          obtain ⟨rest, rfl, rfl⟩ := Option.map_eq_some_iff.1 hmap
          obtain ⟨hhead, hchain, hreads⟩ := ih hrest
          refine ⟨fun p hp q hq => ?_, ?_, .cons hread hreads⟩
          · cases hq
            exact hprevious p hp
          · rw [List.map_cons, List.isChain_cons]
            refine ⟨fun next hnext => ?_, hchain⟩
            rw [List.head?_map, Option.mem_map] at hnext
            obtain ⟨q, hq, rfl⟩ := hnext
            exact hhead hint rfl q hq
        split at h
        · obtain ⟨s, hs, h⟩ := bind_eq_ok.1 h
          obtain ⟨found, hrest, h⟩ := bind_eq_ok.1 h
          exact hgo (.curve s hs) hrest (pure_eq_ok.1 h)
        · obtain ⟨s, hs, h⟩ := bind_eq_ok.1 h
          obtain ⟨_, henabled, h⟩ := bind_eq_ok.1 h
          obtain ⟨_, hcurrent, h⟩ := bind_eq_ok.1 h
          rw [require_eq_ok] at henabled hcurrent
          split at h
          · cases h
          · rename_i hfee
            rw [not_or, Bool.not_eq_false, Bool.not_eq_false] at hfee
            obtain ⟨found, hrest, h⟩ := bind_eq_ok.1 h
            exact hgo (.pool s hs henabled hcurrent hfee) hrest (pure_eq_ok.1 h)

/-- The account that the instruction creates for its owner, if it creates one. -/
def createdAccount (ix : Instruction) : Option Pubkey := do
  guard (ix.programId = associatedTokenProgram ∧ ix.data = [1])
  let account ← ix.accounts[1]?
  return account.pubkey

/-- A prepared route is one instruction through the venues of its hints, as the snapshot has them,
for the minimum that was asked for. The accounts that it creates are those of the wallet and of the
buyback that the instruction uses. -/
structure PreparedOfficialRoute (find : ProgramAddress) (snapshot : PumpSnapshot)
    (options : PumpRouteOptions) (payer : Pubkey) (amount : ℤ) (hints : List PoolTradeHint)
    (route : PreparedCachedRoute) : Prop where
  connected : hints.IsChain fun a b => a.outputMint = b.inputMint
  minimum : options.minimumOutputAmount = some route.minimumNetAmountOut
  executed : ∃ recipient source target hops ix,
    options.buybackRecipient = some recipient ∧
      hints.head?.map (·.inputMint) = some source ∧
      hints.getLast?.map (·.outputMint) = some target ∧
      List.Forall₂ (ReadHop find snapshot recipient) hints hops ∧
      OfficialRoute find options payer source target amount hops ix ∧
      route.swapInstructions = [ix] ∧
      (normalizeQuote source = source → normalizeQuote target = target →
        (∀ hop ∈ hops, normalizeHop hop = hop) → ∃ swap, readMultiHopSwap ix = some swap ∧
          route.setupInstructions.map createdAccount =
            [some swap.userIn, some swap.userOut, some swap.buyback])

/-- The direction of a route is that of its first hop. -/
theorem Leads.direction {buy : Bool} {mint last : Pubkey} {hops : List PumpMultiHop}
    {first : PumpMultiHop} (hleads : Leads buy mint hops last) (hfirst : hops.head? = some first)
    (hdistinct : first.baseMint ≠ first.quoteMint) : decide (mint = first.quoteMint) = buy := by
  cases hleads with
  | done => cases hfirst
  | hop hexchange hrest =>
      cases hfirst
      cases buy with
      | true => exact decide_eq_true hexchange.1.symm
      | false => exact decide_eq_false fun heq => hdistinct (hexchange.1.trans heq)

/-- What the program reads of a route whose venues are as it takes them. -/
theorem OfficialRoute.read_of_normal {source target recipient : Pubkey} {hops : List PumpMultiHop}
    {first last : PumpMultiHop} {ix : Instruction}
    (hofficial : OfficialRoute find options payer source target amount hops ix)
    (hrecipient : options.buybackRecipient = some recipient) (hfirst : hops.head? = some first)
    (hlast : hops.getLast? = some last) (hsource : normalizeQuote source = source)
    (htarget : normalizeQuote target = target) (hnormal : ∀ hop ∈ hops, normalizeHop hop = hop)
    {buy : Bool} (hbuy : decide (source = first.quoteMint) = buy) :
    ∃ swap, readMultiHopSwap ix = some swap ∧
      swap.userIn = associatedTokenAddress find payer source (first.trade buy).1.2 ∧
      swap.userOut = associatedTokenAddress find payer target (last.trade buy).2.2 ∧
      swap.buyback = associatedTokenAddress find recipient
        (if buy then first else last).quoteMint (if buy then first else last).quoteTokenProgram := by
  obtain ⟨b, first', last', minimum', recipient', -, hrecipient', hfirst', hlast', hleads, hpassed,
    hswap⟩ := hofficial.route
  have hmap : hops.map normalizeHop = hops :=
    (List.map_congr_left hnormal).trans (List.map_id hops)
  rw [hmap] at hfirst' hlast' hleads hpassed hswap
  obtain rfl := Option.some_inj.1 (hfirst.symm.trans hfirst')
  obtain rfl := Option.some_inj.1 (hlast.symm.trans hlast')
  obtain rfl := Option.some_inj.1 (hrecipient.symm.trans hrecipient')
  have hdistinct : first.baseMint ≠ first.quoteMint := by
    have hmem : (first, 0) ∈ hops.zipIdx := by
      rw [List.mk_mem_zipIdx_iff_getElem?, ← List.head?_eq_getElem?]
      exact hfirst
    exact (hpassed _ hmem).2.1
  rw [hsource] at hleads
  obtain rfl : buy = b := hbuy.symm.trans (hleads.direction hfirst hdistinct)
  refine ⟨_, hswap, ?_⟩
  rw [hsource, htarget]
  exact ⟨rfl, rfl, rfl⟩

theorem prepareOfficialPumpRoute_route {hints : List PoolTradeHint} {nativeSettlement : Bool}
    {route : PreparedCachedRoute}
    (h : prepareOfficialPumpRoute find temporaryAccount snapshot options hints payer amount
      nativeSettlement = .ok (some route)) :
    PreparedOfficialRoute find snapshot options payer amount hints route := by
  unfold prepareOfficialPumpRoute at h
  split at h
  case h_2 => cases h
  rename_i firstHint lastHint hfirstHint hlastHint
  -- Falling back prepares no route.
  have hfallback {x : Except PumpRouteError (Option Instruction)} :
      (x >>= fun _ => pure none) ≠ Except.ok (some route) := by
    rw [Ne, bind_eq_ok]
    rintro ⟨_, -, hnone⟩
    cases hnone
  split at h
  case h_2 => exact absurd h hfallback
  rename_i minimum recipient hminimum hrecipient
  split at h
  · exact absurd h hfallback
  obtain ⟨programs, hprograms, h⟩ := bind_eq_ok.1 h
  split at h
  · exact absurd h hfallback
  obtain ⟨found, hread, h⟩ := bind_eq_ok.1 h
  split at h
  · exact absurd h hfallback
  rename_i hops
  split at h
  case h_2 => exact absurd h hfallback
  rename_i first last hfirst hlast
  extract_lets buy currency at h
  split at h
  · exact absurd h hfallback
  obtain ⟨selected, hselected, h⟩ := bind_eq_ok.1 h
  split at h
  · cases h
  rename_i ix
  obtain rfl := Option.some_inj.1 (pure_eq_ok.1 h)
  have hlength : hints.length = programs.length := (mapM_eq_ok.1 hprograms).length_eq
  have hzip : (hints.zip programs).map (·.1) = hints := List.map_fst_zip hlength.le
  obtain ⟨-, hchain, hreads⟩ := readHops_ok hread
  obtain ⟨hamount, hpositive, hbuilt⟩ := selectPumpRoute_eq_some hselected
  have hofficial := officialInstruction_ok hamount hpositive hbuilt
  refine ⟨hzip ▸ hchain, hminimum, recipient, firstHint.inputMint, lastHint.outputMint, hops, ix,
    hrecipient, by rw [hfirstHint]; rfl, by rw [hlastHint]; rfl, ?_, hofficial, rfl, ?_⟩
  · rw [← List.forall₂_map_left_iff, hzip] at hreads
    exact hreads
  · intro hsource htarget hnormal
    obtain ⟨swap, hswap, huserIn, huserOut, hbuyback⟩ := hofficial.read_of_normal hrecipient hfirst
      hlast hsource htarget hnormal (show _ = buy from rfl)
    refine ⟨swap, hswap, ?_⟩
    rw [huserIn, huserOut, hbuyback]
    simp only [currency]
    cases buy <;> rfl

end Prepared

/-! ### Two curves in a row -/

/-- Every address is made of all the bytes of its seeds. -/
def curveFind : ProgramAddress := fun seeds _ =>
  (Vector.replicate 32 (seeds.flatten.foldl (fun sum byte => 3 * sum + byte + 1) 0), 255)

/-- The curve of a mint, for the mint that it is bought with. -/
def curveOf (mint quote : Pubkey) : PumpCurve :=
  ⟨mint, quote, tokenProgram, tokenProgram, false, false, false⟩

def twoCurveHints : List PoolTradeHint :=
  [⟨canonicalCurve curveFind (sampleKey 5), sampleKey 6, sampleKey 5, none⟩,
    ⟨canonicalCurve curveFind (sampleKey 7), sampleKey 5, sampleKey 7, none⟩]

def twoCurveHops : List PumpMultiHop :=
  twoCurveHints.map fun h => (curveOf h.outputMint h.inputMint).hop curveFind h

def twoCurveSnapshot : PumpSnapshot where
  owner _ := .ok pumpFunProgram
  cachedPumpfun h := .ok (curveOf h.outputMint h.inputMint)
  cachedPumpswap _ := .error (.unreadable "Invalid PumpSwap pool layout")

def twoCurveOptions : PumpRouteOptions := ⟨.official, some 900, some (sampleKey 9)⟩

theorem selectPumpRoute_official_twoCurves :
    ∃ ix, selectPumpRoute curveFind twoCurveOptions (sampleKey 3) (sampleKey 6) (sampleKey 7) 1000
        twoCurveHops = .ok (some ix) ∧
      OfficialRoute curveFind twoCurveOptions (sampleKey 3) (sampleKey 6) (sampleKey 7) 1000
        twoCurveHops ix := by
  obtain ⟨ix, h⟩ := exists_of_isSome (show ((selectPumpRoute curveFind twoCurveOptions
    (sampleKey 3) (sampleKey 6) (sampleKey 7) 1000 twoCurveHops).toOption.bind id).isSome = true by
    decide +kernel)
  exact ⟨ix, h, selectPumpRoute_official h⟩

theorem prepareOfficialPumpRoute_route_twoCurves :
    ∃ route, prepareOfficialPumpRoute curveFind (fun _ _ => sampleKey 4) twoCurveSnapshot
        twoCurveOptions twoCurveHints (sampleKey 3) 1000 = .ok (some route) ∧
      PreparedOfficialRoute curveFind twoCurveSnapshot twoCurveOptions (sampleKey 3) 1000
        twoCurveHints route := by
  obtain ⟨route, h⟩ := exists_of_isSome (show ((prepareOfficialPumpRoute curveFind
    (fun _ _ => sampleKey 4) twoCurveSnapshot twoCurveOptions twoCurveHints (sampleKey 3)
    1000).toOption.bind id).isSome = true by decide +kernel)
  exact ⟨route, h, prepareOfficialPumpRoute_route h⟩

end SolTrade.Route
