import SolTrade.Client.ExecuteTransaction
import SolTrade.Library.DurableNonce

/-!
How often a call can land.

The providers of a call get transactions that differ in nothing but the tip. With a durable nonce
all of them rest on one hash of it; without one, a tip makes two transactions that can both land.
-/

namespace SolTrade.Client

open Library Wire NonceLedger
open Route (systemProgram)
open Trading (FeeCall GasFeeStrategyValue StrategyKey TradeType)

/-- The nonce that an instruction advances. -/
def advancedBy (ix : Instruction) : Option Pubkey :=
  if ix.programId = systemProgram ∧ ix.data = littleEndian 4 4 then
    ix.accounts.head?.map AccountMeta.pubkey
  else none

/-- The nonce on which a transaction may rest: the one that its first instruction advances. -/
def Transaction.nonce {η κ : Type} (t : Transaction η κ) : Option Pubkey :=
  t.instructions.head?.bind advancedBy

/-- What a ledger reads from a transaction. -/
def signed {η : Type} (κ : Type) (Durable : η → Prop) : Signed (Transaction η κ) Pubkey η :=
  ⟨Transaction.blockhash, Transaction.nonce, Durable⟩

def Plan.transactions {η κ : Type} : Plan η κ → List (Transaction η κ)
  | .simulated _ => []
  | .submitted sends => sends.map Send.transaction
  | .raw transaction => [transaction]

/-- The middlewares leave the instructions as they are. -/
def TradingClient.Transparent (client : TradingClient) : Prop :=
  ∀ manager ∈ client.middlewareManager, ∀ m ∈ manager, ∀ ixs protocolName isBuy,
    m.processFullInstructions ixs protocolName isBuy = .ok ixs

/-- The middlewares leave the first instruction in its place. -/
def TradingClient.KeepsFirst (client : TradingClient) : Prop :=
  ∀ manager ∈ client.middlewareManager, ∀ m ∈ manager, ∀ first rest protocolName isBuy result,
    m.processFullInstructions (first :: rest) protocolName isBuy = .ok result →
      result.head? = some first

section Middlewares

variable {process : InstructionMiddleware → List Instruction → Except String (List Instruction)}
  {middlewares : List InstructionMiddleware} {ixs result : List Instruction}

theorem applyMiddlewares_transparent (h : ∀ m ∈ middlewares, process m ixs = .ok ixs) :
    applyMiddlewares process middlewares ixs = .ok ixs := by
  induction middlewares with
  | nil => rfl
  | cons m rest ih =>
      rw [applyMiddlewares, h m List.mem_cons_self, ok_bind,
        ih fun m hm => h m (List.mem_cons_of_mem _ hm)]
      split <;> rfl

theorem applyMiddlewares_head? {first : Instruction} (h : ∀ m ∈ middlewares, ∀ rest result,
      process m (first :: rest) = .ok result → result.head? = some first)
    (hfirst : ixs.head? = some first)
    (hok : applyMiddlewares process middlewares ixs = .ok result) :
    result.head? = some first := by
  induction middlewares generalizing ixs with
  | nil =>
      cases hok
      exact hfirst
  | cons m rest ih =>
      obtain ⟨ixs, rfl⟩ := List.head?_eq_some_iff.1 hfirst
      obtain ⟨next, hnext, hok⟩ := bind_eq_ok.1 hok
      have hhead := h m List.mem_cons_self _ _ hnext
      split at hok
      · cases hok
        exact hhead
      · exact ih (fun m hm => h m (List.mem_cons_of_mem _ hm)) hhead hok

end Middlewares

namespace TradingClient

variable {η κ τ : Type} {client : TradingClient} {libraries : Libraries η κ τ} {call : Call κ τ}
  {recipient : Option Pubkey} {ixs wired : List Instruction} {send : Send η κ}
  {blockhash : String} {cfg : SwqosConfig} {created : Except String String}

theorem Transparent.apply (h : client.Transparent) :
    client.applyFullMiddlewares ixs call.tradeType call.dexType = .ok ixs := by
  simp only [applyFullMiddlewares]
  split
  case h_1 manager dexType hmanager hdex =>
    exact applyMiddlewares_transparent fun m hm => h manager hmanager m hm _ _ _
  case h_2 => rfl

theorem KeepsFirst.head? (h : client.KeepsFirst) {first : Instruction} {result : List Instruction}
    (hfirst : ixs.head? = some first)
    (hok : client.applyFullMiddlewares ixs call.tradeType call.dexType = .ok result) :
    result.head? = some first := by
  simp only [applyFullMiddlewares] at hok
  split at hok
  case h_1 manager dexType hmanager hdex =>
    exact applyMiddlewares_head? (fun m hm rest result => h manager hmanager m hm first rest _ _
      result) hfirst hok
  case h_2 =>
    cases hok
    exact hfirst

/-! ### Wiring -/

theorem forPositive_of_nonpos {n : ℤ} {instruction : ℤ → Except CallError Instruction}
    (h : ¬ 0 < n) : forPositive n instruction = .ok [] := if_neg h

theorem exists_of_forPositive {n : ℤ} {instruction : ℤ → Except CallError Instruction}
    {made : List Instruction} (h : 0 < n) (hok : forPositive n instruction = .ok made) :
    ∃ ix, instruction n = .ok ix ∧ made = [ix] := by
  rw [forPositive, if_pos h] at hok
  obtain ⟨ix, hix, hmade⟩ := bind_eq_ok.1 hok
  exact ⟨ix, hix, (Except.ok.inj hmade).symm⟩

theorem forPositive_mem {n : ℤ} {instruction : ℤ → Except CallError Instruction}
    {made : List Instruction} {ix : Instruction} (hok : forPositive n instruction = .ok made)
    (hix : ix ∈ made) : 0 < n ∧ instruction n = .ok ix := by
  by_cases h : 0 < n
  · obtain ⟨ix', hix', rfl⟩ := exists_of_forPositive h hok
    rw [List.mem_singleton.1 hix]
    exact ⟨h, hix'⟩
  · rw [forPositive_of_nonpos h] at hok
    cases hok
    cases hix

/-- A tip is a transfer of lamports. -/
theorem exists_transfer_of_mem {tipLamports : ℤ} {tip : List Instruction} {ix : Instruction}
    (hok : client.tipInstructions call recipient tipLamports = .ok tip) (hix : ix ∈ tip) :
    ∃ account, Builder.transfer client.payer account tipLamports = .ok ix := by
  cases recipient with
  | none =>
      cases hok
      cases hix
  | some account =>
      rw [tipInstructions] at hok
      split at hok
      · exact ⟨account, mapError_eq_ok.1 (forPositive_mem hok hix).2⟩
      · cases hok
        cases hix

/-- What is wired is the nonce, the tip and a budget that does not depend on the tip account. -/
theorem wiring_eq_ok (hok : client.wiring libraries call recipient = .ok wired) :
    ∃ fees tip price limit, gasForTrade libraries call.tradeType call.gasFeeStrategy = .ok fees ∧
      client.tipInstructions call recipient fees.2.2 = .ok tip ∧
      forPositive fees.1 setComputeUnitPrice = .ok price ∧
      forPositive fees.2.1 setComputeUnitLimit = .ok limit ∧
      wired = (call.durableNonce.map fun info =>
        advanceNonceAccount info.nonceAccount info.authority).toList ++ tip ++ price ++ limit := by
  obtain ⟨⟨unitPrice, unitLimit, tipLamports⟩, hfees, hok⟩ := bind_eq_ok.1 hok
  obtain ⟨tip, htip, hok⟩ := bind_eq_ok.1 hok
  obtain ⟨price, hprice, hok⟩ := bind_eq_ok.1 hok
  obtain ⟨limit, hlimit, hok⟩ := bind_eq_ok.1 hok
  refine ⟨_, tip, price, limit, hfees, htip, hprice, hlimit, ?_⟩
  rw [← Except.ok.inj hok]
  cases call.durableNonce <;> rfl

/-- The call pays a tip where a tip account is known. -/
def PaysTip (libraries : Libraries η κ τ) (call : Call κ τ) : Prop :=
  call.withTip = true ∧
    ∃ fees, gasForTrade libraries call.tradeType call.gasFeeStrategy = .ok fees ∧ 0 < fees.2.2

/-- The wiring of a provider that gets no tip is that of any other one. -/
theorem wiring_of_not_paysTip (h : ¬ PaysTip libraries call) :
    client.wiring libraries call recipient = client.wiring libraries call none := by
  refine bind_congr_ok fun ⟨unitPrice, unitLimit, tipLamports⟩ hfees => ?_
  have htip : client.tipInstructions call recipient tipLamports = .ok [] := by
    cases recipient with
    | none => rfl
    | some account =>
        rw [tipInstructions]
        split
        case isTrue hwith => exact forPositive_of_nonpos fun hpos => h ⟨hwith, _, hfees, hpos⟩
        case isFalse => rfl
  simp only [htip]
  rfl

/-- A tip is one instruction more. -/
theorem length_wiring_of_paysTip (h : PaysTip libraries call) {account : Pubkey}
    {wired' : List Instruction}
    (hok : client.wiring libraries call (some account) = .ok wired)
    (hok' : client.wiring libraries call none = .ok wired') :
    wired.length = wired'.length + 1 := by
  obtain ⟨hwith, fees, hfees, hpos⟩ := h
  obtain ⟨fees₁, tip, price, limit, hfees₁, htip, hprice, hlimit, rfl⟩ := wiring_eq_ok hok
  obtain ⟨fees₂, tip', price', limit', hfees₂, htip', hprice', hlimit', rfl⟩ := wiring_eq_ok hok'
  obtain rfl := Except.ok.inj (hfees.symm.trans hfees₁)
  obtain rfl := Except.ok.inj (hfees.symm.trans hfees₂)
  obtain rfl := Except.ok.inj (hprice.symm.trans hprice')
  obtain rfl := Except.ok.inj (hlimit.symm.trans hlimit')
  obtain rfl := Except.ok.inj htip'
  rw [tipInstructions, if_pos hwith] at htip
  obtain ⟨ix, -, rfl⟩ := exists_of_forPositive hpos htip
  simp only [List.length_append, List.length_singleton, List.length_nil]
  omega

/-! ### The transactions of the providers -/

theorem buildTransaction_eq_ok {bytes : List UInt8} {t : Transaction η κ}
    (hok : client.buildTransaction libraries call ixs blockhash = .ok (t, bytes)) :
    ∃ hash, libraries.hashFromString blockhash = .ok hash ∧
      t = ⟨client.payer, ixs, hash, call.addressLookupTableAccount⟩ := by
  obtain ⟨hash, hhash, hok⟩ := bind_eq_ok.1 hok
  obtain ⟨signed, -, hok⟩ := bind_eq_ok.1 hok
  split at hok
  · cases hok
  · obtain ⟨rfl, -⟩ := Prod.mk.inj (Except.ok.inj hok)
    exact ⟨hash, mapError_eq_ok.1 hhash, rfl⟩

/-- A provider is wired with its tip account, if it has one and the call pays tips. -/
theorem prepareSend_eq_ok
    (hok : client.prepareSend libraries call blockhash cfg created = .ok send) :
    ∃ recipient wired result hash, client.wiring libraries call recipient = .ok wired ∧
      client.applyFullMiddlewares (wired ++ call.instructions) call.tradeType call.dexType =
        .ok result ∧
      libraries.hashFromString blockhash = .ok hash ∧
      send.transaction = ⟨client.payer, result, hash, call.addressLookupTableAccount⟩ ∧
      (recipient.isSome ↔ call.withTip = true ∧ cfg.type ≠ .default ∧
        ∃ account, created = .ok account ∧ account ≠ "") := by
  obtain ⟨tipAccount, hcreated, hok⟩ := bind_eq_ok.1 hok
  obtain ⟨recipient, hrecipient, hok⟩ := bind_eq_ok.1 hok
  obtain ⟨ixs, hixs, hok⟩ := bind_eq_ok.1 hok
  obtain ⟨⟨t, bytes⟩, ht, hok⟩ := bind_eq_ok.1 hok
  obtain ⟨wired, hwired, hixs⟩ := bind_eq_ok.1 hixs
  obtain ⟨hash, hhash, rfl⟩ := buildTransaction_eq_ok ht
  have hcreated : created = .ok tipAccount := mapError_eq_ok.1 hcreated
  refine ⟨recipient, wired, ixs, hash, hwired, mapError_eq_ok.1 hixs, hhash, ?_, ?_⟩
  · rw [← Except.ok.inj hok]
  · subst hcreated
    have hrecipient := mapError_eq_ok.1 hrecipient
    rw [tipRecipientFor] at hrecipient
    split at hrecipient
    case isTrue h =>
      obtain ⟨key, -, rfl⟩ := map_eq_ok.1 hrecipient
      exact ⟨fun _ => ⟨h.1, h.2.1, tipAccount, rfl, h.2.2⟩, fun _ => rfl⟩
    case isFalse h =>
      obtain rfl := Except.ok.inj hrecipient
      refine ⟨nofun, fun ⟨hwith, htype, account, haccount, hne⟩ => absurd ⟨hwith, htype, ?_⟩ h⟩
      rwa [Except.ok.inj haccount]

variable {createClient : ℕ → SwqosConfig → Except String String} {sends : List (Send η κ)}
  {Durable : η → Prop} {info : DurableNonceInfo} {planned : Plan η κ}

/-- Each provider of a call has a transaction. -/
def Prepares (client : TradingClient) (libraries : Libraries η κ τ) (call : Call κ τ)
    (createClient : ℕ → SwqosConfig → Except String String) (blockhash : String)
    (sends : List (Send η κ)) : Prop :=
  List.Forall₂ (fun (entry : SwqosConfig × ℕ) send =>
    client.prepareSend libraries call blockhash entry.1 (createClient entry.2 entry.1) = .ok send)
    (client.submissionConfigs call).zipIdx sends

/-- The transactions of the providers have one hash. -/
theorem plan_submitted (hok : client.plan libraries call createClient = .ok (.submitted sends)) :
    ∃ blockhash, effectiveBlockhash call = some blockhash ∧
      client.Prepares libraries call createClient blockhash sends := by
  rw [plan] at hok
  cases hhash : effectiveBlockhash call with
  | none =>
      rw [hhash] at hok
      cases hok
  | some blockhash =>
      rw [hhash] at hok
      obtain ⟨wired, -, hok⟩ := bind_eq_ok.1 hok
      obtain ⟨⟨t, bytes⟩, -, hok⟩ := bind_eq_ok.1 hok
      dsimp only at hok
      split at hok
      · cases hok
      split at hok
      · cases hok
      obtain ⟨-, -, hok⟩ := bind_eq_ok.1 hok
      obtain ⟨prepared, hprepared, hok⟩ := bind_eq_ok.1 hok
      obtain rfl : prepared = sends := by
        cases Except.ok.inj hok
        rfl
      exact ⟨blockhash, rfl, mapM_eq_ok.1 hprepared⟩

theorem Prepares.exists_send
    (hsends : client.Prepares libraries call createClient blockhash sends) {i : ℕ}
    (hcfg : (client.submissionConfigs call)[i]? = some cfg) :
    ∃ send ∈ sends,
      client.prepareSend libraries call blockhash cfg (createClient i cfg) = .ok send := by
  have hentry : (cfg, i) ∈ (client.submissionConfigs call).zipIdx :=
    List.mem_zipIdx_iff_getElem?.2 hcfg
  exact exists_of_forall₂ hsends.flip hentry

/-! ### Nonces -/

theorem advancedBy_advanceNonceAccount (nonce authority : Pubkey) :
    advancedBy (advanceNonceAccount nonce authority) = some nonce := by
  simp [advancedBy, advanceNonceAccount]

theorem advancedBy_of_length {ix : Instruction} (h : ix.data.length ≠ 4) :
    advancedBy ix = none := by
  refine if_neg fun hdata => h ?_
  rw [hdata.2, length_littleEndian]

/-- The tip and the budget advance no nonce. -/
theorem advancedBy_wiring (hnonce : call.durableNonce = none)
    (hok : client.wiring libraries call recipient = .ok wired) :
    ∀ ix ∈ wired, advancedBy ix = none := by
  obtain ⟨fees, tip, price, limit, -, htip, hprice, hlimit, rfl⟩ := wiring_eq_ok hok
  intro ix hix
  simp only [hnonce, Option.map_none, Option.toList_none, List.nil_append,
    List.mem_append] at hix
  obtain (hix | hix) | hix := hix
  · obtain ⟨account, htransfer⟩ := exists_transfer_of_mem htip hix
    obtain ⟨-, -, htransfer⟩ := bind_eq_ok.1 htransfer
    rw [← Except.ok.inj htransfer]
    exact advancedBy_of_length (by simp [Route.fundAccount])
  · obtain ⟨-, hprice⟩ := forPositive_mem hprice hix
    obtain ⟨-, -, hprice⟩ := bind_eq_ok.1 hprice
    rw [← Except.ok.inj hprice]
    exact advancedBy_of_length (by simp)
  · obtain ⟨-, hlimit⟩ := forPositive_mem hlimit hix
    obtain ⟨-, -, hlimit⟩ := bind_eq_ok.1 hlimit
    rw [← Except.ok.inj hlimit]
    exact advancedBy_of_length (by simp)

theorem nonce_of_wiring {hash : η} (hnonce : call.durableNonce = none)
    (hplain : ∀ ix ∈ call.instructions, advancedBy ix = none)
    (hok : client.wiring libraries call recipient = .ok wired) :
    (Transaction.mk client.payer (wired ++ call.instructions) hash
      call.addressLookupTableAccount).nonce = none := by
  rw [Transaction.nonce, Option.bind_eq_none_iff]
  intro ix hix
  obtain hix | hix := List.mem_append.1 (List.mem_of_mem_head? hix)
  · exact advancedBy_wiring hnonce hok ix hix
  · exact hplain ix hix

/-- A provider's transaction in full, where the middlewares are transparent. -/
theorem prepareSend_transparent (htransparent : client.Transparent)
    (hok : client.prepareSend libraries call blockhash cfg created = .ok send) :
    ∃ recipient wired hash, client.wiring libraries call recipient = .ok wired ∧
      libraries.hashFromString blockhash = .ok hash ∧
      send.transaction = ⟨client.payer, wired ++ call.instructions, hash,
        call.addressLookupTableAccount⟩ ∧
      (recipient.isSome ↔ call.withTip = true ∧ cfg.type ≠ .default ∧
        ∃ account, created = .ok account ∧ account ≠ "") := by
  obtain ⟨recipient, wired, result, hash, hwired, hresult, hhash, ht, hrecipient⟩ :=
    prepareSend_eq_ok hok
  obtain rfl := Except.ok.inj (htransparent.apply.symm.trans hresult)
  exact ⟨recipient, wired, hash, hwired, hhash, ht, hrecipient⟩

/-- With a durable nonce at most one transaction of a call lands. -/
theorem plan_landsOnce_of_nonce (hnonce : call.durableNonce = some info)
    (htext : info.nonceHash ≠ "")
    (hdurable : ∀ h, libraries.hashFromString info.nonceHash = .ok h → Durable h)
    (hkeeps : client.KeepsFirst)
    (hok : client.plan libraries call createClient = .ok planned) :
    LandsOnce (signed κ Durable) planned.transactions := by
  cases planned with
  | simulated t => exact landsOnce_of_eq fun _ ht => nomatch ht
  | raw t =>
      refine landsOnce_of_eq fun u hu v hv => ?_
      rw [List.mem_singleton.1 hu, List.mem_singleton.1 hv]
  | submitted sends =>
      obtain ⟨blockhash, heffective, hsends⟩ := plan_submitted hok
      obtain rfl : info.nonceHash = blockhash := by
        simpa [effectiveBlockhash, hnonce, htext] using heffective
      have hrests : ∀ t ∈ (Plan.submitted sends).transactions,
          libraries.hashFromString info.nonceHash = .ok t.blockhash ∧
            t.nonce = some info.nonceAccount := by
        intro t ht
        obtain ⟨send, hsend, rfl⟩ := List.mem_map.1 ht
        obtain ⟨entry, -, hentry⟩ := exists_of_forall₂ hsends hsend
        obtain ⟨recipient, wired, result, hash, hwired, hresult, hhash, ht, -⟩ :=
          prepareSend_eq_ok hentry
        obtain ⟨fees, tip, price, limit, -, -, -, -, rfl⟩ := wiring_eq_ok hwired
        rw [ht]
        refine ⟨hhash, ?_⟩
        rw [Transaction.nonce, hkeeps.head? (by rw [hnonce]; rfl) hresult]
        exact advancedBy_advanceNonceAccount info.nonceAccount info.authority
      refine landsOnce_of_nonce (fun t ht => hdurable _ (hrests t ht).1)
        (fun t ht => (hrests t ht).2) fun t ht u hu => ?_
      exact Except.ok.inj ((hrests t ht).1.symm.trans (hrests u hu).1)

/-- Hashes are texts, and the one hash of a nonce is "nonce". -/
def sampleLibraries : Libraries String Unit ℕ where
  hashFromString := .ok
  pubkeyFromString _ := .ok (.ofNat 7)
  sign t := .ok (t.instructions.flatMap Instruction.data)
  lamports tip := some tip

/-- `LoggingMiddleware`, without its log. -/
def loggingMiddleware : InstructionMiddleware where
  processProtocolInstructions ixs _ _ := .ok ixs
  processFullInstructions ixs _ _ := .ok ixs

/-- A middleware that puts an instruction behind the others. -/
def appendingMiddleware (ix : Instruction) : InstructionMiddleware where
  processProtocolInstructions ixs _ _ := .ok ixs
  processFullInstructions ixs _ _ := .ok (ixs ++ [ix])

def sampleClient (swqosTypes : List Trading.SwqosType) : TradingClient where
  payer := .ofNat 1
  config := .new "https://rpc.example" (swqosTypes.map fun type => { type, region := "Default" })
  middlewareManager := some [loggingMiddleware]

theorem sampleClient_transparent (swqosTypes : List Trading.SwqosType) :
    (sampleClient swqosTypes).Transparent := by
  rintro manager hmanager m hm ixs protocolName isBuy
  cases hmanager
  obtain rfl := List.mem_singleton.1 hm
  rfl

def sampleCall (blockhash : Option String) (durableNonce : Option DurableNonceInfo) : Call Unit ℕ where
  instructions := [⟨.ofNat 9, [1], []⟩]
  blockhash := blockhash
  waitConfirmed := false
  withTip := true
  durableNonce := durableNonce
  dexType := some .pumpFun

/-- A client whose second middleware puts an instruction behind those of the call. -/
def appendingClient (swqosTypes : List Trading.SwqosType) : TradingClient :=
  { sampleClient swqosTypes with
    middlewareManager := some [loggingMiddleware, appendingMiddleware ⟨.ofNat 8, [2], []⟩] }

theorem appendingClient_keepsFirst (swqosTypes : List Trading.SwqosType) :
    (appendingClient swqosTypes).KeepsFirst := by
  rintro manager hmanager m hm first rest protocolName isBuy result hok
  cases hmanager
  rcases List.mem_pair.1 hm with rfl | rfl
  · cases hok
    rfl
  · cases hok
    rfl

theorem plan_landsOnce_of_nonce_threeProviders :
    ∃ sends, (appendingClient [.jito, .helius]).plan sampleLibraries
        (sampleCall none (some ⟨.ofNat 2, .ofNat 1, "nonce"⟩)) (fun _ _ => .ok "tip") =
          .ok (.submitted sends) ∧ sends.length = 3 ∧
      LandsOnce (signed Unit (· = "nonce")) (Plan.submitted sends).transactions := by
  obtain ⟨sends, hok, hlength⟩ : ∃ sends, (appendingClient [.jito, .helius]).plan sampleLibraries
      (sampleCall none (some ⟨.ofNat 2, .ofNat 1, "nonce"⟩)) (fun _ _ => .ok "tip") =
        .ok (.submitted sends) ∧ sends.length = 3 := ⟨_, rfl, rfl⟩
  refine ⟨sends, hok, hlength, plan_landsOnce_of_nonce rfl ?_ (fun _ h => ?_) ?_ hok⟩
  · decide
  · exact (Except.ok.inj h).symm
  · exact appendingClient_keepsFirst _

theorem getElem?_of_mem_submissionConfigs (hwith : call.withTip = true) {entry : SwqosConfig × ℕ}
    (hentry : entry ∈ (client.submissionConfigs call).zipIdx) :
    client.config.swqosConfigs[entry.2]? = some entry.1 := by
  rw [submissionConfigs, if_pos hwith] at hentry
  split at hentry
  · exact List.mem_zipIdx_iff_getElem?.1 hentry
  · cases hentry

theorem submissionConfigs_of_tipped (hwith : call.withTip = true)
    (hcfg : cfg ∈ client.config.swqosConfigs) (htype : cfg.type ≠ .default) :
    client.submissionConfigs call = client.config.swqosConfigs := by
  rw [submissionConfigs, if_pos hwith, if_pos]
  exact List.any_eq_true.2 ⟨cfg, hcfg, by simpa using htype⟩

/-- Without a tip for any of them, all providers get the same transaction. -/
theorem eq_of_not_tipped (htransparent : client.Transparent)
    (huntipped : ¬ (PaysTip libraries call ∧ ∃ i cfg account,
      client.config.swqosConfigs[i]? = some cfg ∧ cfg.type ≠ .default ∧
        createClient i cfg = .ok account ∧ account ≠ ""))
    {entry : SwqosConfig × ℕ} (hentry : entry ∈ (client.submissionConfigs call).zipIdx)
    (hok : client.prepareSend libraries call blockhash entry.1 (createClient entry.2 entry.1) =
      .ok send) :
    ∃ wired hash, client.wiring libraries call none = .ok wired ∧
      libraries.hashFromString blockhash = .ok hash ∧
      send.transaction = ⟨client.payer, wired ++ call.instructions, hash,
        call.addressLookupTableAccount⟩ := by
  obtain ⟨recipient, wired, hash, hwired, hhash, ht, hrecipient⟩ :=
    prepareSend_transparent htransparent hok
  refine ⟨wired, hash, ?_, hhash, ht⟩
  by_cases hpays : PaysTip libraries call
  · cases recipient with
    | none => exact hwired
    | some account =>
        obtain ⟨hwith, htype, account, haccount, hne⟩ := hrecipient.1 rfl
        exact absurd ⟨hpays, entry.2, entry.1, account,
          getElem?_of_mem_submissionConfigs hwith hentry, htype, haccount, hne⟩ huntipped
  · rw [← wiring_of_not_paysTip hpays, hwired]

theorem transaction_eq_of_not_tipped (htransparent : client.Transparent)
    (hsends : client.Prepares libraries call createClient blockhash sends)
    (huntipped : ¬ (PaysTip libraries call ∧ ∃ i cfg account,
      client.config.swqosConfigs[i]? = some cfg ∧ cfg.type ≠ .default ∧
        createClient i cfg = .ok account ∧ account ≠ ""))
    {other : Send η κ} (hsend : send ∈ sends) (hother : other ∈ sends) :
    send.transaction = other.transaction := by
  obtain ⟨entry, hentry, hprepared⟩ := exists_of_forall₂ hsends hsend
  obtain ⟨entry', hentry', hprepared'⟩ := exists_of_forall₂ hsends hother
  obtain ⟨wired, hash, hwired, hhash, ht⟩ :=
    eq_of_not_tipped htransparent huntipped hentry hprepared
  obtain ⟨wired', hash', hwired', hhash', ht'⟩ :=
    eq_of_not_tipped htransparent huntipped hentry' hprepared'
  rw [ht, ht', Except.ok.inj (hwired.symm.trans hwired'),
    Except.ok.inj (hhash.symm.trans hhash')]

theorem landsOnce_of_not_tipped (htransparent : client.Transparent)
    (hsends : client.Prepares libraries call createClient blockhash sends)
    (huntipped : ¬ (PaysTip libraries call ∧ ∃ i cfg account,
      client.config.swqosConfigs[i]? = some cfg ∧ cfg.type ≠ .default ∧
        createClient i cfg = .ok account ∧ account ≠ "")) :
    LandsOnce (signed κ Durable) (Plan.submitted sends).transactions := by
  refine landsOnce_of_eq fun t ht u hu => ?_
  obtain ⟨send, hsend, rfl⟩ := List.mem_map.1 ht
  obtain ⟨other, hother, rfl⟩ := List.mem_map.1 hu
  exact transaction_eq_of_not_tipped htransparent hsends huntipped hsend hother

/-- Without one, at most one transaction of a call lands if and only if none of its providers
gets a tip: with a tip there is the one of the default provider besides. -/
theorem plan_landsOnce_iff (hnonce : call.durableNonce = none)
    (hrecent : ∀ text, call.blockhash = some text →
      ∀ h, libraries.hashFromString text = .ok h → ¬ Durable h)
    (hplain : ∀ ix ∈ call.instructions, advancedBy ix = none)
    (htransparent : client.Transparent)
    (hok : client.plan libraries call createClient = .ok (.submitted sends)) :
    LandsOnce (signed κ Durable) (Plan.submitted sends).transactions ↔
      ¬ (PaysTip libraries call ∧ ∃ i cfg account, client.config.swqosConfigs[i]? = some cfg ∧
        cfg.type ≠ .default ∧ createClient i cfg = .ok account ∧ account ≠ "") := by
  obtain ⟨blockhash, heffective, hsends⟩ := plan_submitted hok
  have hblockhash : call.blockhash = some blockhash := by
    simpa [effectiveBlockhash, hnonce] using heffective
  constructor
  · rintro hlands ⟨hpays, i, cfg, account, hcfg, htype, haccount, hne⟩
    have hconfigs := submissionConfigs_of_tipped hpays.1 (List.mem_of_getElem? hcfg) htype
    obtain ⟨other, hother, hdefault⟩ := client.config.defaulted
    obtain ⟨j, hj⟩ := List.mem_iff_getElem?.1 hother
    obtain ⟨tipped, htipped, htippedOk⟩ := hsends.exists_send (hconfigs ▸ hcfg)
    obtain ⟨plain, hplainMem, hplainOk⟩ := hsends.exists_send (hconfigs ▸ hj)
    obtain ⟨recipient, wired, hash, hwired, hhash, ht, hrecipient⟩ :=
      prepareSend_transparent htransparent htippedOk
    obtain ⟨recipient', wired', hash', hwired', hhash', ht', hrecipient'⟩ :=
      prepareSend_transparent htransparent hplainOk
    obtain rfl := Except.ok.inj (hhash.symm.trans hhash')
    have heq : tipped.transaction = plain.transaction := by
      refine eq_of_landsOnce (hrecent blockhash hblockhash hash hhash) hlands
        (List.mem_map_of_mem htipped) (List.mem_map_of_mem hplainMem) ?_ ?_ ?_ ?_
      · rw [ht]
        rfl
      · rw [ht']
        rfl
      · rw [ht]
        exact nonce_of_wiring hnonce hplain hwired
      · rw [ht']
        exact nonce_of_wiring hnonce hplain hwired'
    -- the one of the default provider has no tip
    have hsome := hrecipient.2 ⟨hpays.1, htype, account, haccount, hne⟩
    obtain ⟨key, rfl⟩ := Option.isSome_iff_exists.1 hsome
    obtain rfl : recipient' = none := by
      rw [← Option.not_isSome_iff_eq_none, hrecipient']
      exact fun h => h.2.1 hdefault
    have hlength := length_wiring_of_paysTip hpays hwired hwired'
    rw [ht, ht', Transaction.mk.injEq] at heq
    have hwiredEq := List.append_cancel_right heq.2.1
    rw [hwiredEq] at hlength
    omega
  · exact landsOnce_of_not_tipped htransparent hsends

theorem plan_landsOnce_iff_twoProviders :
    ∃ sends, (sampleClient [.jito]).plan sampleLibraries (sampleCall (some "block") none)
        (fun _ _ => .ok "tip") = .ok (.submitted sends) ∧
      ¬ LandsOnce (signed Unit (· = "nonce")) (Plan.submitted sends).transactions := by
  obtain ⟨sends, hok⟩ : ∃ sends, (sampleClient [.jito]).plan sampleLibraries
      (sampleCall (some "block") none) (fun _ _ => .ok "tip") = .ok (.submitted sends) := ⟨_, rfl⟩
  refine ⟨sends, hok, fun hlands => (plan_landsOnce_iff rfl ?_ ?_ ?_ hok).1 hlands ?_⟩
  · intro text htext h hh
    cases htext
    cases hh
    decide
  · decide +kernel
  · exact sampleClient_transparent _
  · refine ⟨⟨rfl, (100000, 200000, 100000), rfl, by decide⟩, 0,
      { type := .jito, region := "Default" }, "tip", rfl, ?_, rfl, ?_⟩
    · decide
    · decide

/-! ### Strategies by provider -/

/-- The call may leave a tip at the normal strategy of the default provider. -/
def SetsDefaultTip [Zero τ] : FeeCall τ → Prop
  | .set key value => key.swqosType = .default ∧ key.strategyType = .normal ∧ value.tip ≠ 0
  | .updateBuyTip tip | .updateSellTip tip => tip ≠ 0
  | _ => False

section Strategies

variable [Zero τ] {calls : List (FeeCall τ)} {tradeType : TradeType}
  {value : GasFeeStrategyValue τ}

theorem tip_of_verdict {c : FeeCall τ} (hc : ¬ SetsDefaultTip c)
    (hset : c.verdict ⟨.default, tradeType, .normal⟩ = some (some value)) : value.tip = 0 := by
  cases c with
  | setGlobalFeeStrategy =>
      cases tradeType <;> simp [FeeCall.verdict] at hset <;> simp [← hset]
  | setHighLowFeeStrategies =>
      simp only [FeeCall.verdict] at hset
      split at hset <;> cases hset
  | set key value' =>
      simp only [FeeCall.verdict] at hset
      split at hset
      · rename_i hkey
        subst hkey
        cases hset
        by_contra hne
        exact hc ⟨rfl, rfl, hne⟩
      · split at hset <;> cases hset
  | delete | deleteAll =>
      simp only [FeeCall.verdict] at hset
      split at hset <;> cases hset
  | updateBuyTip | updateSellTip | clear => cases hset

theorem tip_retip {c : FeeCall τ} {key : StrategyKey} (hc : ¬ SetsDefaultTip c)
    (h : value.tip = 0) : (c.retip key value).tip = 0 := by
  cases c with
  | updateBuyTip tip | updateSellTip tip =>
      rw [FeeCall.retip]
      split
      · exact not_not.1 hc
      · exact h
  | _ => exact h

/-- The default provider has no tip unless a call sets it one. -/
theorem tip_of_get_after (hcalls : ∀ c ∈ calls, ¬ SetsDefaultTip c)
    (hget : (FeeCall.after calls).get ⟨.default, tradeType, .normal⟩ = some value) :
    value.tip = 0 := by
  obtain ⟨pre, call, post, old, rfl, hset, -, rfl⟩ := FeeCall.get_after_iff.1 hget
  have hpost : ∀ c ∈ post, ¬ SetsDefaultTip c := fun c hc => hcalls c (by simp [hc])
  have hold := tip_of_verdict (hcalls call (by simp)) hset
  clear hget hset hcalls
  induction post generalizing old with
  | nil => exact hold
  | cons c post ih =>
      rw [List.forall_mem_cons] at hpost
      exact ih _ hpost.2 (tip_retip hpost.1 hold)

theorem not_paysTip_of_common (hcalls : ∀ c ∈ calls, ¬ SetsDefaultTip c)
    (hgas : call.gasFeeStrategy = some (.common (FeeCall.after calls)))
    (hzero : libraries.lamports 0 = some 0) : ¬ PaysTip libraries call := by
  rintro ⟨-, fees, hfees, hpos⟩
  rw [hgas, gasForTrade] at hfees
  set tradeType : TradeType := if call.tradeType = .buy then .buy else .sell
  cases hget : (FeeCall.after calls).get ⟨.default, tradeType, .normal⟩ with
  | none =>
      rw [hget] at hfees
      cases hfees
  | some value =>
      rw [hget, Option.bind_some, tip_of_get_after hcalls hget, hzero] at hfees
      obtain rfl := Except.ok.inj hfees
      exact lt_irrefl 0 hpos

/-- A call's fees are those of the default provider, so the tips that the others have are not
paid: all providers get the same transaction, and it lands once. -/
theorem plan_untipped (hcalls : ∀ c ∈ calls, ¬ SetsDefaultTip c)
    (hgas : call.gasFeeStrategy = some (.common (FeeCall.after calls)))
    (hzero : libraries.lamports 0 = some 0) (htransparent : client.Transparent)
    (hok : client.plan libraries call createClient = .ok (.submitted sends)) :
    (∀ send ∈ sends, ∃ wired, client.wiring libraries call none = .ok wired ∧
      send.transaction.instructions = wired ++ call.instructions) ∧
    (∀ send ∈ sends, ∀ other ∈ sends, send.transaction = other.transaction) ∧
    LandsOnce (signed κ Durable) (Plan.submitted sends).transactions := by
  obtain ⟨blockhash, -, hsends⟩ := plan_submitted hok
  have hpays := not_paysTip_of_common hcalls hgas hzero
  refine ⟨fun send hsend => ?_, fun send hsend other hother => ?_,
    landsOnce_of_not_tipped htransparent hsends fun h => hpays h.1⟩
  swap
  · exact transaction_eq_of_not_tipped htransparent hsends (fun h => hpays h.1) hsend hother
  obtain ⟨entry, hentry, hprepared⟩ := exists_of_forall₂ hsends hsend
  obtain ⟨wired, hash, hwired, -, ht⟩ :=
    eq_of_not_tipped htransparent (fun h => hpays h.1) hentry hprepared
  exact ⟨wired, hwired, by rw [ht]⟩

end Strategies

/-- The tip of 5000 that the strategies have for the provider is not paid. -/
theorem plan_untipped_oneProvider :
    let call := { sampleCall (some "block") none with
      gasFeeStrategy := some (.common (FeeCall.after
        [.set ⟨.jito, .buy, .normal⟩ ⟨200000, 100, 5000⟩,
          .set ⟨.default, .buy, .normal⟩ ⟨200000, 100, 0⟩])) }
    ∃ sends, (sampleClient [.jito]).plan sampleLibraries call (fun _ _ => .ok "tip") =
        .ok (.submitted sends) ∧
      (∀ send ∈ sends, ∀ other ∈ sends, send.transaction = other.transaction) ∧
      LandsOnce (signed Unit (· = "nonce")) (Plan.submitted sends).transactions := by
  intro call
  obtain ⟨sends, hok⟩ : ∃ sends, (sampleClient [.jito]).plan sampleLibraries call
      (fun _ _ => .ok "tip") = .ok (.submitted sends) := ⟨_, rfl⟩
  refine ⟨sends, hok, (plan_untipped ?_ rfl rfl ?_ hok).2⟩
  · simp [SetsDefaultTip]
  · exact sampleClient_transparent _

end TradingClient

end SolTrade.Client
