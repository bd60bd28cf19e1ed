import SolTrade.Library.KeyedTable
import SolTrade.Library.Runs
import SolTrade.Trading.Types

/-!
The gas fees by provider, trade and strategy.

A provider has for a trade either the normal strategy or strategies with a high and a low tip: to
set one kind ends the other. A method holds the lock for as long as it runs, so a run is a sequence
of calls. Tips are stored and not computed with, and may be of any type with a zero.
-/

namespace SolTrade.Trading

open Library

inductive GasFeeStrategyType where
  | normal
  | lowTipHighCuPrice
  | highTipLowCuPrice
  deriving DecidableEq

/-- `for strategy_type in GasFeeStrategyType`. -/
def GasFeeStrategyType.all : List GasFeeStrategyType :=
  [normal, lowTipHighCuPrice, highTipLowCuPrice]

theorem GasFeeStrategyType.mem_all (t : GasFeeStrategyType) : t ∈ all := by cases t <;> decide

structure GasFeeStrategyValue (τ : Type) where
  cuLimit : ℤ
  cuPrice : ℤ
  tip : τ
  deriving DecidableEq

structure StrategyKey where
  swqosType : SwqosType
  tradeType : TradeType
  strategyType : GasFeeStrategyType
  deriving DecidableEq

structure StrategyResult (τ : Type) where
  swqosType : SwqosType
  strategyType : GasFeeStrategyType
  value : GasFeeStrategyValue τ

/-- `_strategies`, in the order in which the keys came. -/
abbrev GasFeeStrategy (τ : Type) := List (StrategyKey × GasFeeStrategyValue τ)

namespace GasFeeStrategy

variable {τ : Type}

/-- `_strategies.pop(key, None)`. -/
def deleteInternal (self : GasFeeStrategy τ) (key : StrategyKey) : GasFeeStrategy τ :=
  self.filter fun entry => entry.1 ≠ key

def setInternal (self : GasFeeStrategy τ) (key : StrategyKey) (value : GasFeeStrategyValue τ) :
    GasFeeStrategy τ :=
  let self :=
    if key.strategyType = .normal then
      (self.deleteInternal { key with strategyType := .lowTipHighCuPrice }).deleteInternal
        { key with strategyType := .highTipLowCuPrice }
    else self.deleteInternal { key with strategyType := .normal }
  KeyedTable.put Prod.fst self (key, value)

def get (self : GasFeeStrategy τ) (key : StrategyKey) : Option (GasFeeStrategyValue τ) :=
  (KeyedTable.lookup Prod.fst self key).map Prod.snd

def setGlobalFeeStrategy [Zero τ] (self : GasFeeStrategy τ) (buyCuLimit sellCuLimit buyCuPrice
    sellCuPrice : ℤ) (buyTip sellTip : τ) : GasFeeStrategy τ :=
  let self := (SwqosType.all.filter (· ≠ .default)).foldl (fun self swqosType =>
    (self.setInternal ⟨swqosType, .buy, .normal⟩ ⟨buyCuLimit, buyCuPrice, buyTip⟩).setInternal
      ⟨swqosType, .sell, .normal⟩ ⟨sellCuLimit, sellCuPrice, sellTip⟩) self
  (self.setInternal ⟨.default, .buy, .normal⟩ ⟨buyCuLimit, buyCuPrice, 0⟩).setInternal
    ⟨.default, .sell, .normal⟩ ⟨sellCuLimit, sellCuPrice, 0⟩

def setHighLowFeeStrategies (self : GasFeeStrategy τ) (swqosTypes : List SwqosType)
    (tradeType : TradeType) (cuLimit lowCuPrice highCuPrice : ℤ) (lowTip highTip : τ) :
    GasFeeStrategy τ :=
  swqosTypes.foldl (fun self swqosType =>
    let self := self.deleteInternal ⟨swqosType, tradeType, .normal⟩
    let self := self.setInternal ⟨swqosType, tradeType, .lowTipHighCuPrice⟩
      ⟨cuLimit, highCuPrice, lowTip⟩
    self.setInternal ⟨swqosType, tradeType, .highTipLowCuPrice⟩
      ⟨cuLimit, lowCuPrice, highTip⟩) self

def deleteAll (self : GasFeeStrategy τ) (swqosType : SwqosType) (tradeType : TradeType) :
    GasFeeStrategy τ :=
  GasFeeStrategyType.all.foldl (fun self strategyType =>
    self.deleteInternal ⟨swqosType, tradeType, strategyType⟩) self

def getStrategies (self : GasFeeStrategy τ) (tradeType : TradeType) : List (StrategyResult τ) :=
  (self.filter fun entry => entry.1.tradeType = tradeType).map fun entry =>
    ⟨entry.1.swqosType, entry.1.strategyType, entry.2⟩

/-- `update_buy_tip` and `update_sell_tip`. -/
def updateTip (self : GasFeeStrategy τ) (tradeType : TradeType) (tip : τ) : GasFeeStrategy τ :=
  self.map fun entry =>
    if entry.1.tradeType = tradeType then (entry.1, { entry.2 with tip }) else entry

end GasFeeStrategy

/-- The calls that change the strategies. -/
inductive FeeCall (τ : Type) where
  | setGlobalFeeStrategy (buyCuLimit sellCuLimit buyCuPrice sellCuPrice : ℤ) (buyTip sellTip : τ)
  | setHighLowFeeStrategies (swqosTypes : List SwqosType) (tradeType : TradeType)
      (cuLimit lowCuPrice highCuPrice : ℤ) (lowTip highTip : τ)
  | set (key : StrategyKey) (value : GasFeeStrategyValue τ)
  | delete (key : StrategyKey)
  | deleteAll (swqosType : SwqosType) (tradeType : TradeType)
  | updateBuyTip (buyTip : τ)
  | updateSellTip (sellTip : τ)
  | clear

namespace FeeCall

variable {τ : Type} [Zero τ]

def apply (self : GasFeeStrategy τ) : FeeCall τ → GasFeeStrategy τ
  | setGlobalFeeStrategy buyCuLimit sellCuLimit buyCuPrice sellCuPrice buyTip sellTip =>
      self.setGlobalFeeStrategy buyCuLimit sellCuLimit buyCuPrice sellCuPrice buyTip sellTip
  | setHighLowFeeStrategies swqosTypes tradeType cuLimit lowCuPrice highCuPrice lowTip highTip =>
      self.setHighLowFeeStrategies swqosTypes tradeType cuLimit lowCuPrice highCuPrice lowTip
        highTip
  | set key value => self.setInternal key value
  | delete key => self.deleteInternal key
  | deleteAll swqosType tradeType => self.deleteAll swqosType tradeType
  | updateBuyTip buyTip => self.updateTip .buy buyTip
  | updateSellTip sellTip => self.updateTip .sell sellTip
  | clear => []

/-- The strategies after a run. -/
def after (calls : List (FeeCall τ)) : GasFeeStrategy τ := Runs.run apply [] calls

end FeeCall

/-! ### What a call says of a key -/

/-- A provider does not have both for one trade. -/
def StrategyKey.Excludes (key other : StrategyKey) : Prop :=
  key.swqosType = other.swqosType ∧ key.tradeType = other.tradeType ∧
    ¬ (key.strategyType = .normal ↔ other.strategyType = .normal)

instance (key other : StrategyKey) : Decidable (key.Excludes other) :=
  inferInstanceAs (Decidable (_ ∧ _ ∧ _))

theorem StrategyKey.Excludes.symm {key other : StrategyKey} (h : key.Excludes other) :
    other.Excludes key :=
  ⟨h.1.symm, h.2.1.symm, fun hiff => h.2.2 hiff.symm⟩

namespace FeeCall

variable {τ : Type} [Zero τ]

/-- What the call leaves at the key, if it sets or ends it. -/
def verdict (key : StrategyKey) : FeeCall τ → Option (Option (GasFeeStrategyValue τ))
  | setGlobalFeeStrategy buyCuLimit sellCuLimit buyCuPrice sellCuPrice buyTip sellTip =>
      match key.tradeType, key.strategyType with
      | .buy, .normal =>
          some (some ⟨buyCuLimit, buyCuPrice, if key.swqosType = .default then 0 else buyTip⟩)
      | .sell, .normal =>
          some (some ⟨sellCuLimit, sellCuPrice, if key.swqosType = .default then 0 else sellTip⟩)
      | .buy, _ | .sell, _ => some none
      | _, _ => none
  | setHighLowFeeStrategies swqosTypes tradeType cuLimit lowCuPrice highCuPrice lowTip highTip =>
      if key.swqosType ∈ swqosTypes ∧ key.tradeType = tradeType then
        match key.strategyType with
        | .normal => some none
        | .lowTipHighCuPrice => some (some ⟨cuLimit, highCuPrice, lowTip⟩)
        | .highTipLowCuPrice => some (some ⟨cuLimit, lowCuPrice, highTip⟩)
      else none
  | set key' value =>
      if key = key' then some (some value) else if key'.Excludes key then some none else none
  | delete key' => if key = key' then some none else none
  | deleteAll swqosType tradeType =>
      if key.swqosType = swqosType ∧ key.tradeType = tradeType then some none else none
  | clear => some none
  | updateBuyTip _ | updateSellTip _ => none

/-- What the call makes of a value that it leaves at the key. -/
def retip (key : StrategyKey) (value : GasFeeStrategyValue τ) : FeeCall τ → GasFeeStrategyValue τ
  | updateBuyTip tip => if key.tradeType = .buy then { value with tip } else value
  | updateSellTip tip => if key.tradeType = .sell then { value with tip } else value
  | _ => value

end FeeCall

/-! ### Single entries -/

namespace GasFeeStrategy

variable {τ : Type} {s : GasFeeStrategy τ} {key key' : StrategyKey} {value : GasFeeStrategyValue τ}

/-- Every key has one value. -/
def Keyed (s : GasFeeStrategy τ) : Prop := (s.map Prod.fst).Nodup

theorem get_eq_some (h : s.Keyed) : s.get key = some value ↔ (key, value) ∈ s := by
  rw [get, Option.map_eq_some_iff]
  constructor
  · rintro ⟨⟨key', value'⟩, hfound, rfl⟩
    obtain ⟨hmem, rfl⟩ := (KeyedTable.lookup_eq_some h).1 hfound
    exact hmem
  · intro hmem
    exact ⟨(key, value), (KeyedTable.lookup_eq_some h).2 ⟨hmem, rfl⟩, rfl⟩

/-- Two tables that hold the same at a key. -/
theorem get_congr {s' : GasFeeStrategy τ} (h : s.Keyed) (h' : s'.Keyed)
    (hmem : ∀ value, (key, value) ∈ s ↔ (key', value) ∈ s') : s.get key = s'.get key' := by
  ext value
  rw [get_eq_some h, get_eq_some h', hmem]

theorem Keyed.delete (h : s.Keyed) : (s.deleteInternal key).Keyed :=
  h.sublist (List.filter_sublist.map _)

theorem Keyed.set (h : s.Keyed) : (s.setInternal key value).Keyed := by
  rw [setInternal]
  apply KeyedTable.nodup_put
  split
  · exact h.delete.delete
  · exact h.delete

theorem get_deleteInternal (h : s.Keyed) :
    (s.deleteInternal key).get key' = if key' = key then none else s.get key' := by
  split
  · subst key'
    rw [Option.eq_none_iff_forall_ne_some]
    intro value hget
    have hmem := (get_eq_some h.delete).1 hget
    simp [deleteInternal] at hmem
  · rename_i hne
    exact get_congr h.delete h fun value => by simp [deleteInternal, hne]

theorem get_put (h : s.Keyed) : GasFeeStrategy.get (KeyedTable.put Prod.fst s (key, value)) key' =
    if key' = key then some value else s.get key' := by
  have hput : GasFeeStrategy.Keyed (KeyedTable.put Prod.fst s (key, value)) :=
    KeyedTable.nodup_put h
  split
  · subst key'
    rw [get_eq_some hput, KeyedTable.mem_put]
    exact .inl rfl
  · rename_i hne
    refine get_congr hput h fun value' => ?_
    rw [KeyedTable.mem_put]
    simp [hne]

/-- A key is set, and those that it excludes are ended. -/
theorem get_setInternal (h : s.Keyed) : (s.setInternal key value).get key' =
    if key' = key then some value else if key.Excludes key' then none else s.get key' := by
  obtain ⟨swqosType, tradeType, strategyType⟩ := key
  obtain ⟨swqosType', tradeType', strategyType'⟩ := key'
  rw [setInternal]
  split
  · rename_i hnormal
    obtain rfl : strategyType = .normal := hnormal
    rw [get_put h.delete.delete, get_deleteInternal h.delete, get_deleteInternal h]
    cases strategyType' <;> simp [StrategyKey.Excludes, eq_comm]
  · rename_i hnormal
    rw [get_put h.delete, get_deleteInternal h]
    cases strategyType' <;> simp [StrategyKey.Excludes, eq_comm]
    all_goals grind

theorem Keyed.updateTip {tradeType : TradeType} {tip : τ} (h : s.Keyed) :
    (s.updateTip tradeType tip).Keyed := by
  have hkeys : (s.updateTip tradeType tip).map Prod.fst = s.map Prod.fst := by
    rw [GasFeeStrategy.updateTip, List.map_map]
    apply List.map_congr_left
    intro entry _
    show (if _ then _ else _ : StrategyKey × _).1 = _
    split <;> rfl
  rw [Keyed, hkeys]
  exact h

theorem get_updateTip {tradeType : TradeType} {tip : τ} (h : s.Keyed) :
    (s.updateTip tradeType tip).get key' = (s.get key').map fun value =>
      if key'.tradeType = tradeType then { value with tip } else value := by
  ext value
  rw [get_eq_some h.updateTip, Option.map_eq_some_iff, updateTip, List.mem_map]
  constructor
  · rintro ⟨⟨key, old⟩, hmem, heq⟩
    obtain rfl : key = key' := by
      have hkey := congrArg Prod.fst heq
      dsimp only at hkey
      split at hkey <;> exact hkey
    refine ⟨old, (get_eq_some h).2 hmem, ?_⟩
    have hvalue := congrArg Prod.snd heq
    dsimp only at hvalue ⊢
    rw [← hvalue]
    split <;> rfl
  · rintro ⟨old, hget, rfl⟩
    refine ⟨(key', old), (get_eq_some h).1 hget, ?_⟩
    dsimp only
    split <;> rfl

/-- A loop over providers, each of which sets or ends keys of its own. -/
theorem get_foldl {f : GasFeeStrategy τ → SwqosType → GasFeeStrategy τ}
    {w : StrategyKey → Option (Option (GasFeeStrategyValue τ))}
    (hkeyed : ∀ s : GasFeeStrategy τ, ∀ t, s.Keyed → (f s t).Keyed)
    (hget : ∀ s : GasFeeStrategy τ, ∀ t key, s.Keyed → (f s t).get key =
      if key.swqosType = t then (w key).getD (s.get key) else s.get key)
    (types : List SwqosType) (h : s.Keyed) :
    (types.foldl f s).Keyed ∧ ∀ key, (types.foldl f s).get key =
      if key.swqosType ∈ types then (w key).getD (s.get key) else s.get key := by
  induction types generalizing s with
  | nil => exact ⟨h, fun key => rfl⟩
  | cons t types ih =>
      obtain ⟨hlast, hrest⟩ := ih (hkeyed s t h)
      refine ⟨hlast, fun key => ?_⟩
      rw [List.foldl_cons, hrest, hget s t key h]
      cases w key with
      | none => simp
      | some r => by_cases ht : key.swqosType = t <;> simp [ht]

theorem setHighLow_spec {types : List SwqosType} {tradeType : TradeType}
    {cuLimit lowCuPrice highCuPrice : ℤ} {lowTip highTip : τ} (h : s.Keyed) :
    (s.setHighLowFeeStrategies types tradeType cuLimit lowCuPrice highCuPrice lowTip
        highTip).Keyed ∧
      ∀ key, (s.setHighLowFeeStrategies types tradeType cuLimit lowCuPrice highCuPrice lowTip
          highTip).get key =
        if key.swqosType ∈ types then
          (if key.tradeType = tradeType then
            match key.strategyType with
            | .normal => some none
            | .lowTipHighCuPrice => some (some ⟨cuLimit, highCuPrice, lowTip⟩)
            | .highTipLowCuPrice => some (some ⟨cuLimit, lowCuPrice, highTip⟩)
          else none).getD (s.get key)
        else s.get key := by
  refine get_foldl (fun s t h => h.delete.set.set) (fun s t key h => ?_) types h
  rw [get_setInternal h.delete.set, get_setInternal h.delete, get_deleteInternal h]
  obtain ⟨swqosType, trade, strategyType⟩ := key
  by_cases ht : swqosType = t
  · subst ht
    by_cases htrade : trade = tradeType
    · subst htrade
      cases strategyType <;> simp [StrategyKey.Excludes]
    · simp [StrategyKey.Excludes, htrade, Ne.symm htrade]
  · simp [StrategyKey.Excludes, ht, Ne.symm ht]

theorem setGlobal_spec [Zero τ] {buyCuLimit sellCuLimit buyCuPrice sellCuPrice : ℤ}
    {buyTip sellTip : τ} (h : s.Keyed) :
    (s.setGlobalFeeStrategy buyCuLimit sellCuLimit buyCuPrice sellCuPrice buyTip sellTip).Keyed ∧
      ∀ key, (s.setGlobalFeeStrategy buyCuLimit sellCuLimit buyCuPrice sellCuPrice buyTip
          sellTip).get key =
        ((FeeCall.setGlobalFeeStrategy buyCuLimit sellCuLimit buyCuPrice sellCuPrice buyTip
          sellTip).verdict key).getD (s.get key) := by
  have hproviders := get_foldl (f := fun self swqosType =>
      (self.setInternal ⟨swqosType, .buy, .normal⟩ ⟨buyCuLimit, buyCuPrice, buyTip⟩).setInternal
        ⟨swqosType, .sell, .normal⟩ ⟨sellCuLimit, sellCuPrice, sellTip⟩)
    (w := fun key => match key.tradeType, key.strategyType with
      | .buy, .normal => some (some ⟨buyCuLimit, buyCuPrice, buyTip⟩)
      | .sell, .normal => some (some ⟨sellCuLimit, sellCuPrice, sellTip⟩)
      | .buy, _ | .sell, _ => some none
      | _, _ => none)
    (fun s t h => h.set.set) (fun s t key h => ?_) (SwqosType.all.filter (· ≠ .default)) h
  · obtain ⟨hkeyed, hget⟩ := hproviders
    refine ⟨hkeyed.set.set, fun key => ?_⟩
    rw [setGlobalFeeStrategy, get_setInternal hkeyed.set, get_setInternal hkeyed, hget]
    obtain ⟨swqosType, tradeType, strategyType⟩ := key
    have hmem : swqosType ∈ SwqosType.all.filter (· ≠ .default) ↔ swqosType ≠ .default := by
      simp [SwqosType.mem_all]
    by_cases hdefault : swqosType = .default
    · subst hdefault
      cases tradeType <;> cases strategyType <;>
        simp [StrategyKey.Excludes, FeeCall.verdict]
    · cases tradeType <;> cases strategyType <;>
        simp [StrategyKey.Excludes, FeeCall.verdict, SwqosType.mem_all, hdefault,
          Ne.symm hdefault]
  · rw [get_setInternal h.set, get_setInternal h]
    obtain ⟨swqosType, tradeType, strategyType⟩ := key
    by_cases ht : swqosType = t
    · subst ht
      cases tradeType <;> cases strategyType <;> simp [StrategyKey.Excludes]
    · simp [StrategyKey.Excludes, ht, Ne.symm ht]

theorem deleteAll_spec {swqosType : SwqosType} {tradeType : TradeType} (h : s.Keyed) :
    (s.deleteAll swqosType tradeType).Keyed ∧ ∀ key, (s.deleteAll swqosType tradeType).get key =
      if key.swqosType = swqosType ∧ key.tradeType = tradeType then none else s.get key := by
  refine ⟨h.delete.delete.delete, fun key => ?_⟩
  show (((s.deleteInternal _).deleteInternal _).deleteInternal _).get key = _
  rw [get_deleteInternal h.delete.delete, get_deleteInternal h.delete, get_deleteInternal h]
  obtain ⟨swqosType', tradeType', strategyType⟩ := key
  cases strategyType <;> simp

end GasFeeStrategy

/-! ### Runs -/

namespace FeeCall

variable {τ : Type} [Zero τ] {s : GasFeeStrategy τ} {call : FeeCall τ} {calls : List (FeeCall τ)}
  {key other : StrategyKey} {value : GasFeeStrategyValue τ}

open GasFeeStrategy

/-- What one call does, key by key. -/
theorem apply_spec (h : s.Keyed) : (apply s call).Keyed ∧ ∀ key, (apply s call).get key =
    (call.verdict key).getD ((s.get key).map fun value => call.retip key value) := by
  cases call with
  | setGlobalFeeStrategy =>
      obtain ⟨hkeyed, hget⟩ := setGlobal_spec h
      refine ⟨hkeyed, fun key => (hget key).trans ?_⟩
      simp [retip]
  | setHighLowFeeStrategies =>
      obtain ⟨hkeyed, hget⟩ := setHighLow_spec h
      refine ⟨hkeyed, fun key => (hget key).trans ?_⟩
      obtain ⟨swqosType, tradeType, strategyType⟩ := key
      simp only [verdict, retip, Option.map_id']
      split <;> rename_i htype <;> simp [htype]
  | set key' value =>
      refine ⟨h.set, fun key => (get_setInternal h).trans ?_⟩
      simp only [verdict, retip, Option.map_id']
      split
      · rfl
      · split <;> rfl
  | delete key' =>
      refine ⟨h.delete, fun key => (get_deleteInternal h).trans ?_⟩
      simp only [verdict, retip, Option.map_id']
      split <;> rfl
  | deleteAll =>
      obtain ⟨hkeyed, hget⟩ := deleteAll_spec h
      refine ⟨hkeyed, fun key => (hget key).trans ?_⟩
      simp only [verdict, retip, Option.map_id']
      split <;> rfl
  | updateBuyTip => exact ⟨h.updateTip, fun key => get_updateTip h⟩
  | updateSellTip => exact ⟨h.updateTip, fun key => get_updateTip h⟩
  | clear => exact ⟨List.nodup_nil, fun key => rfl⟩

theorem after_keyed : (after calls).Keyed :=
  Runs.run_invariant (fun _ _ h => (apply_spec h).1) List.nodup_nil

theorem get_after_concat : (after (calls ++ [call])).get key =
    (call.verdict key).getD (((after calls).get key).map fun value => call.retip key value) := by
  rw [after, Runs.run_append]
  exact (apply_spec after_keyed).2 key

/-- A call that sets a key ends those that it excludes. -/
theorem verdict_excludes (h : key.Excludes other)
    (hset : call.verdict key = some (some value)) : call.verdict other = some none := by
  obtain ⟨swqosType, tradeType, strategyType⟩ := key
  obtain ⟨swqosType', tradeType', strategyType'⟩ := other
  obtain ⟨rfl, rfl, hother⟩ : swqosType = swqosType' ∧ tradeType = tradeType' ∧
    ¬ (strategyType = .normal ↔ strategyType' = .normal) := h
  cases call with
  | setGlobalFeeStrategy =>
      cases tradeType <;> cases strategyType <;> cases strategyType' <;> simp_all [verdict]
  | setHighLowFeeStrategies =>
      cases strategyType <;> cases strategyType' <;> simp_all [verdict]
  | set key' value' =>
      simp only [verdict] at hset ⊢
      split at hset
      · rename_i hkey
        subst hkey
        have hne : strategyType' ≠ strategyType := by
          rintro rfl
          exact hother .rfl
        rw [if_neg (by simp [hne]), if_pos ⟨rfl, rfl, hother⟩]
      · split at hset <;> cases hset
  | delete | deleteAll =>
      simp only [verdict] at hset
      split at hset <;> cases hset
  | updateBuyTip | updateSellTip | clear => cases hset

/-- What a key holds is what the last call that concerns it has set, with the tips since. -/
theorem get_after_iff : (after calls).get key = some value ↔
    ∃ pre call post old, calls = pre ++ call :: post ∧ call.verdict key = some (some old) ∧
      (∀ c ∈ post, c.verdict key = none) ∧
      value = post.foldl (fun value c => c.retip key value) old := by
  induction calls using List.reverseRecOn generalizing value with
  | nil => simp [after, GasFeeStrategy.get, KeyedTable.lookup]
  | append_singleton calls last ih =>
      rw [get_after_concat]
      cases hlast : last.verdict key with
      | none =>
          rw [Option.getD_none, Option.map_eq_some_iff]
          constructor
          · rintro ⟨old, hold, rfl⟩
            obtain ⟨pre, call, post, first, rfl, hset, hkept, rfl⟩ := ih.1 hold
            refine ⟨pre, call, post ++ [last], first, by simp, hset, ?_, by simp⟩
            rw [List.forall_mem_append, List.forall_mem_singleton]
            exact ⟨hkept, hlast⟩
          · rintro ⟨pre, call, post, first, hsplit, hset, hkept, rfl⟩
            -- the last call sets nothing, so it comes after the one that does
            rcases List.eq_nil_or_concat post with rfl | ⟨post, c, rfl⟩
            · obtain ⟨-, hcall⟩ := List.append_inj' hsplit rfl
              rw [← List.singleton_inj.1 hcall, hlast] at hset
              cases hset
            · rw [List.concat_eq_append, ← List.cons_append, ← List.append_assoc] at hsplit
              obtain ⟨rfl, hc⟩ := List.append_inj' hsplit rfl
              obtain rfl := List.singleton_inj.1 hc
              rw [List.concat_eq_append, List.forall_mem_append] at hkept
              exact ⟨_, ih.2 ⟨pre, call, post, first, rfl, hset, hkept.1, rfl⟩, by simp⟩
      | some verdict =>
          rw [Option.getD_some]
          constructor
          · rintro rfl
            exact ⟨calls, last, [], value, rfl, hlast, by simp, rfl⟩
          · rintro ⟨pre, call, post, first, hsplit, hset, hkept, rfl⟩
            rcases List.eq_nil_or_concat post with rfl | ⟨post, c, rfl⟩
            · obtain ⟨-, hcall⟩ := List.append_inj' hsplit rfl
              rw [List.singleton_inj.1 hcall, hset] at hlast
              exact (Option.some.inj hlast).symm
            · rw [List.concat_eq_append, ← List.cons_append, ← List.append_assoc] at hsplit
              obtain ⟨-, hc⟩ := List.append_inj' hsplit rfl
              rw [List.singleton_inj.1 hc, hkept c (by simp)] at hlast
              cases hlast

theorem after_exclusive (h : key.Excludes other)
    (hheld : (after calls).get key = some value) : (after calls).get other = none := by
  induction calls using List.reverseRecOn generalizing value with
  | nil => rfl
  | append_singleton calls last ih =>
      rw [get_after_concat] at hheld ⊢
      cases hkey : last.verdict key with
      | none =>
          rw [hkey, Option.getD_none, Option.map_eq_some_iff] at hheld
          obtain ⟨old, hold, -⟩ := hheld
          rw [ih hold]
          cases hverdict : last.verdict other with
          | none => rfl
          | some verdict =>
              cases verdict with
              | none => rfl
              | some v =>
                  have hended := verdict_excludes h.symm hverdict
                  rw [hkey] at hended
                  cases hended
      | some verdict =>
          rw [hkey, Option.getD_some] at hheld
          rw [verdict_excludes h (hkey.trans (congrArg some hheld))]
          rfl

/-- After any calls a provider has for a trade the normal strategy or others, not both; a key holds
what the last call that concerns it has set, with the tips that were updated since; and the
strategies of a trade are listed once each. -/
theorem strategies_lawful (calls : List (FeeCall τ)) :
    (∀ key other, key.Excludes other → ((after calls).get key).isSome →
      (after calls).get other = none) ∧
    (∀ key value, (after calls).get key = some value ↔
      ∃ pre call post old, calls = pre ++ call :: post ∧ call.verdict key = some (some old) ∧
        (∀ c ∈ post, c.verdict key = none) ∧
        value = post.foldl (fun value c => c.retip key value) old) ∧
    ∀ tradeType,
      (((after calls).getStrategies tradeType).map fun r => (r.swqosType, r.strategyType)).Nodup ∧
      ∀ r, r ∈ (after calls).getStrategies tradeType ↔
        (after calls).get ⟨r.swqosType, tradeType, r.strategyType⟩ = some r.value := by
  refine ⟨fun key other h hheld => ?_, fun key value => get_after_iff, fun tradeType => ⟨?_, ?_⟩⟩
  · obtain ⟨value, hvalue⟩ := Option.isSome_iff_exists.1 hheld
    exact after_exclusive h hvalue
  · have hkeyed : (after calls).Keyed := after_keyed
    rw [getStrategies, List.map_map]
    have hkeys : (((after calls).filter fun entry => entry.1.tradeType = tradeType).map
        Prod.fst).Nodup := hkeyed.sublist (List.filter_sublist.map _)
    refine List.Nodup.map_on ?_ hkeys.of_map
    intro entry hentry other hother heq
    refine List.inj_on_of_nodup_map hkeys hentry hother ?_
    obtain ⟨-, htrade⟩ := List.mem_filter.1 hentry
    obtain ⟨-, htrade'⟩ := List.mem_filter.1 hother
    obtain ⟨hswqos, hstrategy⟩ := Prod.mk.inj heq
    obtain ⟨⟨swqosType, trade, strategyType⟩, v⟩ := entry
    obtain ⟨⟨swqosType', trade', strategyType'⟩, v'⟩ := other
    simp_all
  · rintro ⟨swqosType, strategyType, value⟩
    rw [get_eq_some after_keyed, getStrategies, List.mem_map]
    constructor
    · rintro ⟨⟨⟨swqosType', trade, strategyType'⟩, v⟩, hentry, heq⟩
      obtain ⟨hmem, htrade⟩ := List.mem_filter.1 hentry
      obtain rfl : trade = tradeType := of_decide_eq_true htrade
      cases heq
      exact hmem
    · intro hmem
      exact ⟨_, List.mem_filter.2 ⟨hmem, decide_eq_true rfl⟩, rfl⟩

end FeeCall

end SolTrade.Trading
