import Mathlib.Algebra.Order.Ring.Rat
import Mathlib.Tactic.NormNum
import SolTrade.Library.Runs

/-!
The accounts of the hot path.

A prefetch asks for accounts, waits, and stores what has come one account after the other;
other prefetches and direct updates may go on at every point between. What is stored for a
pubkey is what has been stored last, and nothing compares slots, so the slots of a pubkey
are as ordered as its states arrive.
-/

namespace SolTrade.HotPath

open Library

structure HotPathConfig where
  cacheTtl : ℚ := 5

/-- The readings of the two clocks, `time.time` and `time.monotonic`. -/
structure Clocks where
  wall : ℚ
  monotonic : ℚ

/-- The reading of the monotonic clock at which the data was fetched. -/
def cacheAnchor (fetchedAt : ℚ) (fetchedMonotonic : Option ℚ) (clocks : Clocks) : ℚ :=
  match fetchedMonotonic with
  | some reading => reading
  | none => clocks.monotonic - (clocks.wall - fetchedAt)

def cacheAge (fetchedAt : ℚ) (fetchedMonotonic : Option ℚ) (clocks : Clocks) : ℚ :=
  match fetchedMonotonic with
  | some reading => clocks.monotonic - reading
  | none => clocks.wall - fetchedAt

structure AccountState where
  pubkey : String
  data : List UInt8
  lamports : ℤ
  owner : String
  executable : Bool
  rentEpoch : ℤ
  slot : ℤ
  fetchedAt : ℚ
  fetchedMonotonic : Option ℚ
deriving DecidableEq

namespace AccountState

def age (state : AccountState) (clocks : Clocks) : ℚ :=
  cacheAge state.fetchedAt state.fetchedMonotonic clocks

def isFresh (state : AccountState) (ttl : ℚ) (clocks : Clocks) : Bool :=
  0 ≤ state.age clocks ∧ state.age clocks ≤ ttl

/-- What an update stores: a state without an anchor gets one. -/
def anchored (state : AccountState) (clocks : Clocks) : AccountState :=
  match state.fetchedMonotonic with
  | some _ => state
  | none =>
      { state with fetchedMonotonic := some (cacheAnchor state.fetchedAt none clocks) }

end AccountState

/-- An account of a response. Each of its fields may be missing. -/
structure RpcAccount where
  data : Option (List UInt8) := none
  lamports : Option ℤ := none
  owner : Option String := none
  executable : Option Bool := none
  rentEpoch : Option ℤ := none
  slot : Option ℤ := none

/-- An entry of a response. One without an account counts as false; one that is not a
dictionary raises when it is read. -/
inductive Entry where
  | missing
  | malformed
  | account (account : RpcAccount)

/-- The state of an account that has just come. -/
def fetched (pubkey : String) (account : RpcAccount) (clocks : Clocks) : AccountState where
  pubkey
  data := account.data.getD []
  lamports := account.lamports.getD 0
  owner := account.owner.getD ""
  executable := account.executable.getD false
  rentEpoch := account.rentEpoch.getD 0
  slot := account.slot.getD 0
  fetchedAt := clocks.wall
  fetchedMonotonic := some clocks.monotonic

/-- How far a prefetch has come. -/
inductive Prefetch where
  | waiting (pubkeys : List String)
  | storing (rest : List (String × Entry))
  | ended

structure HotPathState where
  accounts : String → Option AccountState := fun _ => none
  prefetchErrors : ℕ := 0
  /-- The prefetches that have been started. -/
  prefetches : List Prefetch := []

namespace HotPathState

variable (self : HotPathState)

def updateAccount (pubkey : String) (state : AccountState) (clocks : Clocks) : HotPathState :=
  { self with accounts := Function.update self.accounts pubkey (some (state.anchored clocks)) }

def getAccount (config : HotPathConfig) (pubkey : String) (clocks : Clocks) :
    Option AccountState :=
  match self.accounts pubkey with
  | none => none
  | some state => if state.isFresh config.cacheTtl clocks then some state else none

/-- `prefetch_accounts` up to its request. -/
def startPrefetch (pubkeys : List String) : HotPathState :=
  if pubkeys = [] then self
  else { self with prefetches := self.prefetches ++ [.waiting pubkeys] }

def advance (i : ℕ) (prefetch : Prefetch) : HotPathState :=
  { self with prefetches := self.prefetches.set i prefetch }

/-- The handler of `prefetch_accounts`, which raises again. -/
def recordError (i : ℕ) : HotPathState :=
  { self.advance i .ended with prefetchErrors := self.prefetchErrors + 1 }

/-- One turn of the loop over the pubkeys and the accounts of a response. -/
def storeNext (i : ℕ) (clocks : Clocks) : HotPathState :=
  match self.prefetches[i]? with
  | some (.storing ((pubkey, entry) :: rest)) =>
      match entry with
      | .missing => self.advance i (.storing rest)
      | .malformed => self.recordError i
      | .account account =>
          (self.updateAccount pubkey (fetched pubkey account clocks) clocks).advance i
            (.storing rest)
  | _ => self

end HotPathState

/-! ### Runs -/

/-- A step of one of the parties. A response may also be an exception or a timeout, and a prefetch
may be cancelled while it waits. -/
inductive Event where
  | prefetch (pubkeys : List String)
  | response (i : ℕ) (accounts : List Entry)
  | failure (i : ℕ)
  | cancellation (i : ℕ)
  | store (i : ℕ) (clocks : Clocks)
  | update (pubkey : String) (state : AccountState) (clocks : Clocks)

/-- The event is a turn of the loop of a prefetch. -/
def Event.isTurnOf (i : ℕ) : Event → Bool
  | .store j _ => j = i
  | .prefetch _ | .response .. | .failure _ | .cancellation _ | .update .. => false

/-- The event may store something. -/
def Event.stores : Event → Bool
  | .store .. | .update .. => true
  | .prefetch _ | .response .. | .failure _ | .cancellation _ => false

namespace HotPathState

def apply (self : HotPathState) : Event → HotPathState
  | .prefetch pubkeys => self.startPrefetch pubkeys
  | .response i accounts =>
      match self.prefetches[i]? with
      | some (.waiting pubkeys) => self.advance i (.storing (pubkeys.zip accounts))
      | _ => self
  | .failure i =>
      match self.prefetches[i]? with
      | some (.waiting _) => self.recordError i
      | _ => self
  | .cancellation i =>
      match self.prefetches[i]? with
      | some (.waiting _) => self.advance i .ended
      | _ => self
  | .store i clocks => self.storeNext i clocks
  | .update pubkey state clocks => self.updateAccount pubkey state clocks

/-- What is cached after some events. -/
def after (events : List Event) : HotPathState := Runs.run apply {} events

/-- The state that an event stores for a pubkey. -/
def stores (pubkey : String) (self : HotPathState) : Event → Option AccountState
  | .store i clocks =>
      match self.prefetches[i]? with
      | some (.storing ((key, .account account) :: _)) =>
          if key = pubkey then some (fetched key account clocks) else none
      | _ => none
  | .update key state clocks => if key = pubkey then some (state.anchored clocks) else none
  | _ => none

/-- The states that a run stores for a pubkey, in their order. -/
def storedStates (pubkey : String) (events : List Event) : List AccountState :=
  Runs.written apply (stores pubkey) {} events

/-! ### The laws -/

/-- The slot stored for a pubkey is at least every slot that has been stored for it before. -/
def SlotNeverDecreases (pubkey : String) (events : List Event) : Prop :=
  ∀ pre mid post, events = pre ++ (mid ++ post) → ∀ old ∈ (after pre).accounts pubkey,
    ∀ new ∈ (after (pre ++ mid)).accounts pubkey, old.slot ≤ new.slot

/-- No state comes back that is from an older slot than one that could come back before. -/
def ReadsInSlotOrder (config : HotPathConfig) (pubkey : String) (events : List Event) : Prop :=
  ∀ pre mid post, events = pre ++ (mid ++ post) → ∀ before later : Clocks,
    ∀ old ∈ (after pre).getAccount config pubkey before,
      ∀ new ∈ (after (pre ++ mid)).getAccount config pubkey later, old.slot ≤ new.slot

/-- The loop over a response has come past `n` of its pairs without an exception. -/
def Readable (pairs : List (String × Entry)) (n : ℕ) : Prop :=
  ∀ pair ∈ pairs.take n, pair.2 ≠ .malformed

/-- What a run stores. -/
structure StoresResponses (events : List Event) : Prop where
  /-- The next turn of a prefetch stores the account that its response has for the next pubkey,
  with the slot of the account or else 0. -/
  account : ∀ pre i accounts mid clocks post pubkeys key account,
    events = pre ++ .response i accounts :: (mid ++ .store i clocks :: post) →
    (after pre).prefetches[i]? = some (.waiting pubkeys) →
    Readable (pubkeys.zip accounts) (mid.countP (Event.isTurnOf i)) →
    (pubkeys.zip accounts)[mid.countP (Event.isTurnOf i)]? = some (key, .account account) →
    ∃ state : AccountState, state.slot = account.slot.getD 0 ∧
      (after (pre ++ .response i accounts :: mid ++ [.store i clocks])).accounts =
        Function.update (after (pre ++ .response i accounts :: mid)).accounts key (some state)
  /-- Where there is no such account, or where the loop has ended with an exception, it stores
  nothing. -/
  passed : ∀ pre i accounts mid clocks post pubkeys,
    events = pre ++ .response i accounts :: (mid ++ .store i clocks :: post) →
    (after pre).prefetches[i]? = some (.waiting pubkeys) →
    (Readable (pubkeys.zip accounts) (mid.countP (Event.isTurnOf i)) → ∀ key account,
      (pubkeys.zip accounts)[mid.countP (Event.isTurnOf i)]? ≠ some (key, .account account)) →
    (after (pre ++ .response i accounts :: mid ++ [.store i clocks])).accounts =
      (after (pre ++ .response i accounts :: mid)).accounts
  update : ∀ pre key state clocks post, events = pre ++ .update key state clocks :: post →
    ∃ stored : AccountState, stored.slot = state.slot ∧
      (after (pre ++ [.update key state clocks])).accounts =
        Function.update (after pre).accounts key (some stored)
  other : ∀ pre event post, events = pre ++ event :: post → event.stores = false →
    (after (pre ++ [event])).accounts = (after pre).accounts

variable {self : HotPathState} {config : HotPathConfig} {pubkey : String} {clocks : Clocks}
  {state : AccountState} {event : Event} {events : List Event} {i : ℕ} {prefetch : Prefetch}

@[simp] theorem advance_accounts : (self.advance i prefetch).accounts = self.accounts := rfl

@[simp] theorem recordError_accounts : (self.recordError i).accounts = self.accounts := rfl

@[simp] theorem startPrefetch_accounts {pubkeys : List String} :
    (self.startPrefetch pubkeys).accounts = self.accounts := by
  rw [startPrefetch]
  split <;> rfl

/-- What comes back is what is stored, unless its age is out of range. -/
theorem getAccount_eq_some : self.getAccount config pubkey clocks = some state ↔
    self.accounts pubkey = some state ∧
      (0 ≤ state.age clocks ∧ state.age clocks ≤ config.cacheTtl) := by
  rw [getAccount]
  cases hstored : self.accounts pubkey with
  | none => simp
  | some stored =>
      simp only [AccountState.isFresh, Option.ite_none_right_eq_some, decide_eq_true_eq,
        Option.some.injEq]
      constructor
      · rintro ⟨hfresh, rfl⟩
        exact ⟨rfl, hfresh⟩
      · rintro ⟨rfl, hfresh⟩
        exact ⟨hfresh, rfl⟩

theorem updateAccount_accounts {key : String} :
    (self.updateAccount key state clocks).accounts pubkey =
      if key = pubkey then some (state.anchored clocks) else self.accounts pubkey := by
  simp only [updateAccount, Function.update_apply, eq_comm]

theorem storeNext_accounts : (self.storeNext i clocks).accounts pubkey =
    (stores pubkey self (.store i clocks)).or (self.accounts pubkey) := by
  rw [storeNext, stores]
  cases self.prefetches[i]? with
  | none => rfl
  | some prefetch =>
      cases prefetch with
      | waiting => rfl
      | ended => rfl
      | storing rest =>
          cases rest with
          | nil => rfl
          | cons head rest =>
              obtain ⟨key, entry⟩ := head
              cases entry with
              | missing => rfl
              | malformed => rfl
              | account account =>
                  simp only [advance_accounts, updateAccount_accounts]
                  split <;> rfl

/-- Every event leaves what is stored for a pubkey or replaces it. -/
theorem apply_accounts : (self.apply event).accounts pubkey =
    (stores pubkey self event).or (self.accounts pubkey) := by
  cases event with
  | prefetch pubkeys => exact congrFun startPrefetch_accounts pubkey
  | response i accounts =>
      rw [apply]
      split <;> rfl
  | failure i =>
      rw [apply]
      split <;> rfl
  | cancellation i =>
      rw [apply]
      split <;> rfl
  | store i clocks => exact storeNext_accounts
  | update key state clocks =>
      rw [apply, updateAccount_accounts, stores]
      split <;> rfl

/-- What is stored for a pubkey is the state that has been stored last. -/
theorem accounts_after :
    (after events).accounts pubkey = (storedStates pubkey events).getLast? :=
  Runs.holds_eq_getLast? (f := fun self : HotPathState => self.accounts pubkey)
    (fun _ _ => apply_accounts) rfl

/-! ### What a response stores -/

@[simp] theorem after_append_singleton : after (events ++ [event]) = (after events).apply event :=
  Runs.run_append

theorem advance_prefetches {j : ℕ} (hne : j ≠ i) :
    (self.advance j prefetch).prefetches[i]? = self.prefetches[i]? := List.getElem?_set_ne hne

theorem advance_self {p : Prefetch} (h : self.prefetches[i]? = some p) :
    (self.advance i prefetch).prefetches[i]? = some prefetch :=
  List.getElem?_set_self (List.getElem?_eq_some_iff.1 h).1

theorem storeNext_prefetches {j : ℕ} (hne : j ≠ i) :
    (self.storeNext j clocks).prefetches[i]? = self.prefetches[i]? := by
  unfold storeNext
  split
  · split
    · exact advance_prefetches hne
    · exact advance_prefetches hne
    · exact advance_prefetches hne
  · rfl

theorem ne_of_waiting {j : ℕ} {pubkeys : List String} (h : self.prefetches[i]? = some prefetch)
    (hcome : ∀ pubkeys, prefetch ≠ .waiting pubkeys)
    (hwaiting : self.prefetches[j]? = some (.waiting pubkeys)) : j ≠ i := by
  rintro rfl
  exact hcome pubkeys (Option.some.inj (h.symm.trans hwaiting))

/-- A prefetch whose response has come takes part in the turns of its loop only. -/
theorem apply_prefetches (h : self.prefetches[i]? = some prefetch)
    (hcome : ∀ pubkeys, prefetch ≠ .waiting pubkeys) (hturn : event.isTurnOf i = false) :
    (self.apply event).prefetches[i]? = some prefetch := by
  cases event with
  | prefetch pubkeys =>
      show (self.startPrefetch pubkeys).prefetches[i]? = some prefetch
      unfold startPrefetch
      split
      · exact h
      · rwa [List.getElem?_append_left (List.getElem?_eq_some_iff.1 h).1]
  | response j accounts =>
      unfold apply
      dsimp only
      split
      · rename_i pubkeys hwaiting
        rw [advance_prefetches (ne_of_waiting h hcome hwaiting), h]
      · exact h
  | failure j =>
      unfold apply
      dsimp only
      split
      · rename_i pubkeys hwaiting
        show (self.advance j .ended).prefetches[i]? = some prefetch
        rw [advance_prefetches (ne_of_waiting h hcome hwaiting), h]
      · exact h
  | cancellation j =>
      unfold apply
      dsimp only
      split
      · rename_i pubkeys hwaiting
        rw [advance_prefetches (ne_of_waiting h hcome hwaiting), h]
      · exact h
  | store j clocks =>
      show (self.storeNext j clocks).prefetches[i]? = some prefetch
      rwa [storeNext_prefetches (by simpa [Event.isTurnOf] using hturn)]
  | update key state clocks => exact h

/-- Where a prefetch stands after `n` turns over the pairs of its response. -/
def Stands (pairs : List (String × Entry)) (n : ℕ) (prefetch : Prefetch) : Prop :=
  Readable pairs n ∧ prefetch = .storing (pairs.drop n) ∨ ¬ Readable pairs n ∧ prefetch = .ended

theorem Stands.ne_waiting {pairs : List (String × Entry)} {n : ℕ} (h : Stands pairs n prefetch)
    (pubkeys : List String) : prefetch ≠ .waiting pubkeys := by
  rcases h with ⟨-, rfl⟩ | ⟨-, rfl⟩ <;> exact nofun

theorem readable_succ {pairs : List (String × Entry)} {n : ℕ} : Readable pairs (n + 1) ↔
    Readable pairs n ∧ ∀ pair ∈ pairs[n]?, pair.2 ≠ .malformed := by
  simp only [Readable, List.take_add_one, List.forall_mem_append, Option.mem_toList,
    Option.mem_def]

/-- A turn of the loop. -/
theorem Stands.turn {pairs : List (String × Entry)} {n : ℕ} (h : Stands pairs n prefetch)
    (hself : self.prefetches[i]? = some prefetch) :
    ∃ next, (self.storeNext i clocks).prefetches[i]? = some next ∧ Stands pairs (n + 1) next := by
  rcases h with ⟨hread, rfl⟩ | ⟨hread, rfl⟩
  · cases hdrop : pairs.drop n with
    | nil =>
        have hnone : pairs[n]? = none := List.getElem?_eq_none (List.drop_eq_nil_iff.1 hdrop)
        rw [hdrop] at hself
        refine ⟨.storing [], by simp [storeNext, hself], .inl ⟨?_, ?_⟩⟩
        · exact readable_succ.2 ⟨hread, by simp [hnone]⟩
        · rw [← List.drop_drop, hdrop, List.drop_nil]
    | cons pair rest =>
        have hsome : pairs[n]? = some pair := by
          rw [← List.head?_drop, hdrop, List.head?_cons]
        have hrest : pairs.drop (n + 1) = rest := by
          rw [← List.drop_drop, hdrop, List.drop_one, List.tail_cons]
        rw [hdrop] at hself
        obtain ⟨key, entry⟩ := pair
        cases entry with
        | missing =>
            refine ⟨.storing rest, ?_, .inl ⟨?_, by rw [hrest]⟩⟩
            · simp [storeNext, hself, advance_self hself]
            · exact readable_succ.2 ⟨hread, by simp [hsome]⟩
        | malformed =>
            refine ⟨.ended, ?_, .inr ⟨fun hnext => ?_, rfl⟩⟩
            · simp only [storeNext, hself]
              exact advance_self hself
            · exact (readable_succ.1 hnext).2 _ hsome rfl
        | account account =>
            refine ⟨.storing rest, ?_, .inl ⟨?_, by rw [hrest]⟩⟩
            · simp only [storeNext, hself]
              exact advance_self (p := .storing ((key, .account account) :: rest)) hself
            · exact readable_succ.2 ⟨hread, by simp [hsome]⟩
  · refine ⟨.ended, by simp [storeNext, hself], .inr ⟨fun hnext => ?_, rfl⟩⟩
    exact hread (readable_succ.1 hnext).1

/-- The turns of a prefetch go through the pairs of its response. -/
theorem stands_after {pre : List Event} {pubkeys : List String}
    (h : (after pre).prefetches[i]? = some (.waiting pubkeys)) (accounts : List Entry)
    (mid : List Event) :
    ∃ prefetch, (after (pre ++ .response i accounts :: mid)).prefetches[i]? = some prefetch ∧
      Stands (pubkeys.zip accounts) (mid.countP (Event.isTurnOf i)) prefetch := by
  induction mid using List.reverseRecOn with
  | nil =>
      refine ⟨.storing (pubkeys.zip accounts), ?_, .inl ⟨nofun, rfl⟩⟩
      rw [after_append_singleton]
      simp only [apply, h]
      exact advance_self h
  | append_singleton mid event ih =>
      obtain ⟨prefetch, hprefetch, hstands⟩ := ih
      rw [← List.cons_append, ← List.append_assoc, after_append_singleton, List.countP_append,
        List.countP_singleton]
      cases hturn : event.isTurnOf i with
      | false => exact ⟨prefetch, apply_prefetches hprefetch hstands.ne_waiting hturn, hstands⟩
      | true =>
          cases event with
          | store j clocks =>
              obtain rfl : j = i := by simpa [Event.isTurnOf] using hturn
              exact hstands.turn hprefetch
          | _ => cases hturn

/-- What a turn stores for a pubkey, read off the pairs. -/
theorem stores_turn {pairs : List (String × Entry)} {n : ℕ} (hstands : Stands pairs n prefetch)
    (h : self.prefetches[i]? = some prefetch) :
    (∀ key account, Readable pairs n → pairs[n]? = some (key, .account account) →
      stores pubkey self (.store i clocks) =
        if key = pubkey then some (fetched key account clocks) else none) ∧
    ((Readable pairs n → ∀ key account, pairs[n]? ≠ some (key, .account account)) →
      stores pubkey self (.store i clocks) = none) := by
  rw [stores, h]
  rcases hstands with ⟨hread, rfl⟩ | ⟨hread, rfl⟩
  · rw [← List.head?_drop]
    cases pairs.drop n with
    | nil => exact ⟨nofun, fun _ => rfl⟩
    | cons pair rest =>
        obtain ⟨key, entry⟩ := pair
        cases entry with
        | missing => exact ⟨nofun, fun _ => rfl⟩
        | malformed => exact ⟨nofun, fun _ => rfl⟩
        | account account =>
            refine ⟨fun _ _ _ hpair => ?_, fun hnone => absurd rfl (hnone hread key account)⟩
            cases hpair
            rfl
  · exact ⟨fun _ _ hread' => absurd hread' hread, fun _ => rfl⟩

theorem storesResponses (events : List Event) : StoresResponses events := by
  constructor
  · rintro pre i accounts mid clocks post pubkeys key account - hwaiting hread hpair
    obtain ⟨prefetch, hprefetch, hstands⟩ := stands_after hwaiting accounts mid
    refine ⟨fetched key account clocks, rfl, funext fun pubkey => ?_⟩
    rw [after_append_singleton, apply_accounts,
      (stores_turn hstands hprefetch).1 key account hread hpair, Function.update_apply]
    by_cases hkey : key = pubkey
    · rw [if_pos hkey, if_pos hkey.symm, Option.some_or]
    · rw [if_neg hkey, if_neg (Ne.symm hkey), Option.none_or]
  · rintro pre i accounts mid clocks post pubkeys - hwaiting hnone
    obtain ⟨prefetch, hprefetch, hstands⟩ := stands_after hwaiting accounts mid
    funext pubkey
    rw [after_append_singleton, apply_accounts, (stores_turn hstands hprefetch).2 hnone,
      Option.none_or]
  · rintro pre key state clocks post -
    refine ⟨state.anchored clocks, ?_, by rw [after_append_singleton]; rfl⟩
    unfold AccountState.anchored
    split <;> rfl
  · rintro pre event post - hstores
    funext pubkey
    rw [after_append_singleton, apply_accounts]
    cases event with
    | store i clocks => cases hstores
    | update key state clocks => cases hstores
    | _ => rfl

theorem slotNeverDecreases_iff : SlotNeverDecreases pubkey events ↔
    (storedStates pubkey events).Pairwise fun old new => old.slot ≤ new.slot :=
  Runs.held_pairwise_iff (f := fun self : HotPathState => self.accounts pubkey)
    (fun _ _ => apply_accounts) rfl fun _ => le_rfl

theorem SlotNeverDecreases.readsInSlotOrder (h : SlotNeverDecreases pubkey events) :
    ReadsInSlotOrder config pubkey events := by
  intro pre mid post hsplit before later old hold new hnew
  exact h pre mid post hsplit old (getAccount_eq_some.1 hold).1 new (getAccount_eq_some.1 hnew).1

/-- The slots of a pubkey are ordered if and only if its states are stored in the order of their
slots, and then no reader sees an older slot after a newer one. What is stored are the accounts of
the responses and the direct updates. -/
theorem slots_ordered_iff (config : HotPathConfig) (pubkey : String) (events : List Event) :
    StoresResponses events ∧
      (after events).accounts pubkey = (storedStates pubkey events).getLast? ∧
      (SlotNeverDecreases pubkey events ↔
        (storedStates pubkey events).Pairwise fun old new => old.slot ≤ new.slot) ∧
      ((storedStates pubkey events).Pairwise (fun old new => old.slot ≤ new.slot) →
        ReadsInSlotOrder config pubkey events) := by
  refine ⟨storesResponses events, accounts_after, slotNeverDecreases_iff, fun hordered => ?_⟩
  exact (slotNeverDecreases_iff.2 hordered).readsInSlotOrder

/-- Two prefetches of one pubkey whose responses come in the other order. -/
def crossedPrefetches : List Event :=
  [.prefetch ["pool"], .prefetch ["pool"],
    .response 1 [.account { slot := some 10 }], .store 1 ⟨100, 20⟩,
    .response 0 [.account { slot := some 9 }], .store 0 ⟨101, 21⟩]

/-- The older slot replaces the newer one, and a reader sees both. -/
theorem crossedPrefetches_decreases : ¬ SlotNeverDecreases "pool" crossedPrefetches ∧
    ¬ ReadsInSlotOrder {} "pool" crossedPrefetches := by
  constructor
  · intro h
    exact absurd (h (crossedPrefetches.take 4) (crossedPrefetches.drop 4) [] rfl _ rfl _ rfl)
      (by decide)
  · intro h
    have hread := h (crossedPrefetches.take 4) (crossedPrefetches.drop 4) [] rfl ⟨100, 20⟩ ⟨101, 21⟩
      (fetched "pool" { slot := some 10 } ⟨100, 20⟩)
      (getAccount_eq_some.2 ⟨rfl, by norm_num [AccountState.age, cacheAge, fetched]⟩)
      (fetched "pool" { slot := some 9 } ⟨101, 21⟩)
      (getAccount_eq_some.2 ⟨rfl, by norm_num [AccountState.age, cacheAge, fetched]⟩)
    exact absurd hread (by decide)

end HotPathState

end SolTrade.HotPath
