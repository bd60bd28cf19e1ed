import Mathlib.Data.List.Perm.Basic
import SolTrade.Client.LandsOnce

/-!
What a call answers.

The providers answer in any order. A call that waits neither for them all nor for a confirmation
takes the first signature that comes; any other one takes every signature, in the order of the
providers, and asks for their confirmations one after the other.
-/

namespace SolTrade.Client

open Library

structure Simulation where
  unitsConsumed : Option ℕ
  logs : Option (List String)
  deriving DecidableEq

structure TradeResult where
  success : Bool
  signatures : List String
  error : Option CallError := none
  simulation : Option Simulation := none
  deriving DecidableEq

/-- What a call hears: of a simulation, of the node, and of every provider in the order in which
they answer; and of a signature, whether it was confirmed. -/
structure Answers where
  simulated : Except String (Option String × Simulation)
  sentRaw : Except String String
  sent : ℕ → Except String String
  order : List ℕ
  pollForConfirmation : String → Bool × Option String

namespace Answers

variable (answers : Answers)

/-- `asyncio.as_completed`, until a signature comes. -/
def firstCompleted : List ℕ → List String × List String
  | [] => ([], [])
  | i :: rest =>
      match answers.sent i with
      | .ok signature => ([signature], [])
      | .error e =>
          let (submitResults, errors) := firstCompleted rest
          (submitResults, e :: errors)

/-- `asyncio.gather`. -/
def gather : List ℕ → List String × List String
  | [] => ([], [])
  | i :: rest =>
      let (submitResults, errors) := gather rest
      match answers.sent i with
      | .ok signature => (signature :: submitResults, errors)
      | .error e => (submitResults, e :: errors)

/-- The first confirmed signature ends the loop; else the last error counts. -/
def confirmAny : List String → Option String → Bool × Option String
  | [], lastConfirmError => (false, lastConfirmError)
  | signature :: rest, _ =>
      match answers.pollForConfirmation signature with
      | (true, _) => (true, none)
      | (false, confirmError) => confirmAny rest confirmError

end Answers

/-- `error or fallback`. -/
def orElse (error : Option String) (fallback : String) : String :=
  match error with
  | some text => if text = "" then fallback else text
  | none => fallback

def failed (error : String) : TradeResult :=
  { success := false, signatures := [], error := some (.text error) }

section

variable {η κ τ : Type} (call : Call κ τ) (answers : Answers)

/-- The signatures of a call, confirmed if it asks for that. -/
def confirmed (signatures : List String) : TradeResult :=
  if call.waitConfirmed then
    match answers.confirmAny signatures none with
    | (true, _) => { success := true, signatures }
    | (false, error) =>
        { success := false, signatures,
          error := some (.text (orElse error "transaction confirmation failed")) }
  else { success := true, signatures }

def submitSends (sends : ℕ) : TradeResult :=
  let (submitResults, errors) :=
    if call.waitConfirmed = false ∧ call.waitForAllSubmits = false then
      answers.firstCompleted answers.order
    else answers.gather (List.range sends)
  if submitResults = [] then
    failed (orElse (some ("; ".intercalate errors)) "All SWQOS submissions failed")
  else confirmed call answers submitResults

def submitPlan : Plan η κ → TradeResult
  | .simulated _ =>
      match answers.simulated with
      | .ok (err, simulation) =>
          { success := err.isNone, signatures := [],
            error := err.map fun err => .text ("Simulation failed: " ++ err)
            simulation := some simulation }
      | .error e => failed e
  | .raw _ =>
      match answers.sentRaw with
      | .ok signature => confirmed call answers [signature]
      | .error e => failed e
  | .submitted sends => submitSends call answers sends.length

/-- `_execute_transaction`. -/
def TradingClient.executeTransaction (client : TradingClient) (libraries : Libraries η κ τ)
    (createClient : ℕ → SwqosConfig → Except String String) : TradeResult :=
  match client.plan libraries call createClient with
  | .ok planned => submitPlan call answers planned
  | .error e => { success := false, signatures := [], error := some e }

end

/-! ### Signatures -/

namespace Answers

variable {answers : Answers} {signatures : List String} {indices : List ℕ}

/-- The signatures that the providers have given. -/
def acknowledged (answers : Answers) (indices : List ℕ) : List String :=
  indices.filterMap fun i => (answers.sent i).toOption

theorem mem_acknowledged {signature : String} :
    signature ∈ answers.acknowledged indices ↔ ∃ i ∈ indices, answers.sent i = .ok signature := by
  rw [acknowledged, List.mem_filterMap]
  constructor
  · rintro ⟨i, hi, hsent⟩
    cases hanswer : answers.sent i with
    | error e =>
        rw [hanswer] at hsent
        cases hsent
    | ok signature' =>
        rw [hanswer] at hsent
        exact ⟨i, hi, hanswer.trans (congrArg _ (Option.some.inj hsent))⟩
  · rintro ⟨i, hi, hsent⟩
    exact ⟨i, hi, by rw [hsent]; rfl⟩

theorem gather_fst : (answers.gather indices).1 = answers.acknowledged indices := by
  induction indices with
  | nil => rfl
  | cons i rest ih =>
      rw [acknowledged, List.filterMap_cons] at *
      rw [gather]
      cases answers.sent i with
      | error e => exact ih
      | ok signature => exact congrArg (signature :: ·) ih

theorem firstCompleted_fst :
    (answers.firstCompleted indices).1 = (answers.acknowledged indices).take 1 := by
  induction indices with
  | nil => rfl
  | cons i rest ih =>
      rw [acknowledged, List.filterMap_cons] at *
      rw [firstCompleted]
      cases answers.sent i with
      | error e => exact ih
      | ok signature => rfl

theorem confirmAny_fst {error : Option String} :
    (answers.confirmAny signatures error).1 = true ↔
      ∃ signature ∈ signatures, (answers.pollForConfirmation signature).1 = true := by
  induction signatures generalizing error with
  | nil => simp [confirmAny]
  | cons signature rest ih =>
      rw [confirmAny]
      simp only [List.mem_cons, exists_eq_or_imp]
      split
      · rename_i hpoll
        simp [hpoll]
      · rename_i hpoll
        simp [hpoll, ih]

theorem confirmAny_none_fst : (answers.confirmAny signatures none).1 = true ↔
    ∃ signature ∈ signatures, (answers.pollForConfirmation signature).1 = true :=
  confirmAny_fst

end Answers

variable {η κ τ : Type} {call : Call κ τ} {answers : Answers} {signatures : List String}
  {sends : List (Send η κ)}

@[simp] theorem confirmed_signatures :
    (confirmed call answers signatures).signatures = signatures := by
  rw [confirmed]
  split
  · split <;> rfl
  · rfl

theorem confirmed_success : (confirmed call answers signatures).success = true ↔
    (call.waitConfirmed = true →
      ∃ signature ∈ signatures, (answers.pollForConfirmation signature).1 = true) := by
  rw [confirmed]
  split
  · rename_i hwait
    rw [← Answers.confirmAny_none_fst]
    split
    all_goals
      rename_i hconfirm
      simp [hwait, hconfirm]
  · rename_i hwait
    simp [hwait]

/-- The signatures that a call returns. -/
def taken (call : Call κ τ) (answers : Answers) (sends : ℕ) : List String :=
  if call.waitConfirmed = false ∧ call.waitForAllSubmits = false then
    (answers.acknowledged answers.order).take 1
  else answers.acknowledged (List.range sends)

/-- A call fails where nothing was taken, and else has all that was taken. -/
theorem submitSends_eq (call : Call κ τ) (answers : Answers) (n : ℕ) :
    ∃ error, submitSends call answers n =
    if taken call answers n = [] then failed error
    else confirmed call answers (taken call answers n) := by
  have htaken : (if call.waitConfirmed = false ∧ call.waitForAllSubmits = false then
      answers.firstCompleted answers.order
    else answers.gather (List.range n)).1 = taken call answers n := by
    rw [taken]
    split
    · exact Answers.firstCompleted_fst
    · exact Answers.gather_fst
  rw [submitSends]
  split
  rename_i submitResults errors hresults
  rw [hresults] at htaken
  obtain rfl : submitResults = taken call answers n := htaken
  exact ⟨_, rfl⟩

theorem mem_taken (n : ℕ) (horder : answers.order.Perm (List.range n)) {signature : String}
    (h : signature ∈ taken call answers n) : ∃ i < n, answers.sent i = .ok signature := by
  rw [taken] at h
  split at h
  · obtain ⟨i, hi, hsent⟩ := Answers.mem_acknowledged.1 (List.mem_of_mem_take h)
    exact ⟨i, List.mem_range.1 (horder.mem_iff.1 hi), hsent⟩
  · obtain ⟨i, hi, hsent⟩ := Answers.mem_acknowledged.1 h
    exact ⟨i, List.mem_range.1 hi, hsent⟩

theorem taken_eq_nil (call : Call κ τ) (n : ℕ) (horder : answers.order.Perm (List.range n)) :
    taken call answers n = [] ↔ ∀ i < n, ∃ e, answers.sent i = .error e := by
  have hnone : answers.acknowledged (List.range n) = [] ↔
      ∀ i < n, ∃ e, answers.sent i = .error e := by
    rw [List.eq_nil_iff_forall_not_mem]
    constructor
    · intro h i hi
      cases hsent : answers.sent i with
      | error e => exact ⟨e, rfl⟩
      | ok signature =>
          exact absurd (Answers.mem_acknowledged.2 ⟨i, List.mem_range.2 hi, hsent⟩) (h signature)
    · intro h signature hmem
      obtain ⟨i, hi, hsent⟩ := Answers.mem_acknowledged.1 hmem
      obtain ⟨e, herror⟩ := h i (List.mem_range.1 hi)
      rw [herror] at hsent
      cases hsent
  rw [taken]
  split
  · have hperm : (answers.acknowledged answers.order).Perm
        (answers.acknowledged (List.range n)) := horder.filterMap _
    rw [List.take_eq_nil_iff, or_iff_right one_ne_zero, ← hnone]
    exact ⟨fun h => (h ▸ hperm).nil_eq.symm, fun h => (h ▸ hperm).eq_nil⟩
  · exact hnone

/-- What a call answers once it has handed its transactions to the providers, in whatever order
they end: all signatures, or the first that came; and a success where one was given and, if that is
asked for, confirmed. -/
theorem executeTransaction_submitted {client : TradingClient} {libraries : Libraries η κ τ}
    {createClient : ℕ → SwqosConfig → Except String String}
    (hok : client.plan libraries call createClient = .ok (.submitted sends))
    (horder : answers.order.Perm (List.range sends.length)) :
    let result := TradingClient.executeTransaction call answers client libraries createClient
    result.signatures = taken call answers sends.length ∧
      (result.signatures = [] ↔ ∀ i < sends.length, ∃ e, answers.sent i = .error e) ∧
      (result.success = true ↔ ∃ i < sends.length, ∃ signature,
        answers.sent i = .ok signature ∧ (call.waitConfirmed = true →
          (answers.pollForConfirmation signature).1 = true)) := by
  intro result
  obtain ⟨error, hsubmit⟩ := submitSends_eq call answers sends.length
  have hresult : result = submitSends call answers sends.length := by
    show TradingClient.executeTransaction call answers client libraries createClient = _
    rw [TradingClient.executeTransaction, hok]
    rfl
  have hnil := taken_eq_nil call sends.length horder
  have hsignatures : result.signatures = taken call answers sends.length := by
    rw [hresult, hsubmit]
    split
    · rename_i hempty
      exact hempty.symm
    · exact confirmed_signatures
  refine ⟨hsignatures, by rw [hsignatures, hnil], ?_⟩
  rw [hresult, hsubmit]
  split
  · rename_i hempty
    refine ⟨fun h => (nomatch h), fun ⟨i, hi, signature, hsent, _⟩ => ?_⟩
    obtain ⟨e, herror⟩ := hnil.1 hempty i hi
    rw [herror] at hsent
    cases hsent
  · rename_i htaken
    rw [confirmed_success]
    constructor
    · intro hconfirmed
      cases hwait : call.waitConfirmed with
      | false =>
          obtain ⟨signature, hmem⟩ := List.exists_mem_of_ne_nil _ htaken
          obtain ⟨i, hi, hsent⟩ := mem_taken sends.length horder hmem
          exact ⟨i, hi, signature, hsent, fun h => nomatch h⟩
      | true =>
          obtain ⟨signature, hmem, hpoll⟩ := hconfirmed hwait
          obtain ⟨i, hi, hsent⟩ := mem_taken sends.length horder hmem
          exact ⟨i, hi, signature, hsent, fun _ => hpoll⟩
    · rintro ⟨i, hi, signature, hsent, hpoll⟩ hwait
      refine ⟨signature, ?_, hpoll hwait⟩
      rw [taken, if_neg (by simp [hwait])]
      exact Answers.mem_acknowledged.2 ⟨i, List.mem_range.2 hi, hsent⟩

theorem executeTransaction_submitted_twoProviders :
    let answers : Answers := {
      simulated := .error "", sentRaw := .error "",
      sent := fun i => if i = 0 then .error "timeout" else .ok "signature",
      order := [1, 0], pollForConfirmation := fun _ => (true, none) }
    let result := TradingClient.executeTransaction
      (TradingClient.sampleCall (some "block") none) answers (TradingClient.sampleClient [.jito])
      TradingClient.sampleLibraries (fun _ _ => .ok "tip")
    result.success = true ∧ result.signatures = ["signature"] := by
  intro answers result
  obtain ⟨sends, hok, hlength⟩ : ∃ sends, (TradingClient.sampleClient [.jito]).plan
      TradingClient.sampleLibraries (TradingClient.sampleCall (some "block") none)
      (fun _ _ => .ok "tip") = .ok (.submitted sends) ∧ sends.length = 2 := ⟨_, rfl, rfl⟩
  have horder : answers.order.Perm (List.range sends.length) := by
    rw [hlength]
    exact List.Perm.swap 0 1 []
  obtain ⟨hsignatures, -, hsuccess⟩ := executeTransaction_submitted hok horder
  refine ⟨hsuccess.2 ⟨1, by omega, "signature", rfl, fun h => (nomatch h)⟩, ?_⟩
  exact hsignatures.trans rfl

end SolTrade.Client
