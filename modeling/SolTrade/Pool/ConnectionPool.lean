import Mathlib.Data.Int.Order.Basic
import Mathlib.Tactic.Linarith
import SolTrade.Library.Checked
import SolTrade.Library.Runs

/-!
The pool of connections.

A counter, a list of idle connections and a semaphore are to agree on how many connections
there are and how many of them are out. The factory and the liveness check belong to the user:
what they return or raise comes with the operation that calls them.
-/

namespace SolTrade.Pool

open Library

variable {C : Type}

/-- What asking a connection whether it is alive comes to. One that cannot be asked counts as
alive. -/
inductive Liveness where
  | alive
  | dead
  | raises
  deriving DecidableEq

inductive AcquireError where
  | exhausted
  | maxConnections
  | factory
  | liveness
  deriving DecidableEq

def AcquireError.text : AcquireError → Option String
  | exhausted => some "Connection pool exhausted"
  | maxConnections => some "Max connections reached"
  | factory | liveness => none

structure ConnectionPool (C : Type) where
  maxSize : ℕ
  idle : List C
  created : ℤ
  permits : ℕ
  /-- The connections that have been acquired and not yet released. -/
  checkedOut : List C
  deriving DecidableEq

namespace ConnectionPool

/-- A new pool. -/
def init (maxSize : ℕ) : ConnectionPool C := ⟨maxSize, [], 0, maxSize, []⟩

variable (pool : ConnectionPool C)

/-- The counter goes up before the factory is called. -/
def createNew (factory : Option C) : Except AcquireError C × ConnectionPool C :=
  if pool.created ≥ pool.maxSize then (.error .maxConnections, pool)
  else
    let counted := { pool with created := pool.created + 1 }
    match factory with
    | none => (.error .factory, counted)
    | some conn => (.ok conn, counted)

/-- `_acquire` under the lock, with a permit. -/
def acquireLocked (liveness : Liveness) (factory : Option C) :
    Except AcquireError C × ConnectionPool C :=
  match pool.idle.getLast? with
  | none => pool.createNew factory
  | some conn =>
      let popped := { pool with idle := pool.idle.dropLast }
      match liveness with
      | .alive => (.ok conn, popped)
      | .dead => { popped with created := pool.created - 1 }.createNew factory
      | .raises => (.error .liveness, popped)

def acquire (liveness : Liveness) (factory : Option C) :
    Except AcquireError C × ConnectionPool C :=
  if pool.permits = 0 then (.error .exhausted, pool)
  else
    let (result, next) :=
      { pool with permits := pool.permits - 1 }.acquireLocked liveness factory
    match result with
    | .error e => (.error e, next)
    | .ok conn => (.ok conn, { next with checkedOut := conn :: pool.checkedOut })

/-- Releasing the `i`-th connection that is out. If the liveness check raises, nobody holds the
connection any longer, but neither the counter nor the semaphore hears of it. -/
def release (i : ℕ) (liveness : Liveness) : ConnectionPool C :=
  match pool.checkedOut[i]? with
  | none => pool
  | some conn =>
      let returned := { pool with checkedOut := pool.checkedOut.eraseIdx i }
      match liveness with
      | .alive => { returned with idle := pool.idle ++ [conn], permits := pool.permits + 1 }
      | .dead => { returned with created := pool.created - 1, permits := pool.permits + 1 }
      | .raises => returned

/-- Closing an idle connection may raise, and nothing is cleared then. -/
def closeAll (raises : Bool) : ConnectionPool C :=
  if raises then pool else { pool with idle := [], created := 0 }

end ConnectionPool

/-! ### Runs -/

inductive PoolOperation (C : Type) where
  | acquire (liveness : Liveness) (factory : Option C)
  | release (i : ℕ) (liveness : Liveness)
  | closeAll (raises : Bool)

namespace ConnectionPool

def apply (pool : ConnectionPool C) : PoolOperation C → ConnectionPool C
  | .acquire liveness factory => (pool.acquire liveness factory).2
  | .release i liveness => pool.release i liveness
  | .closeAll raises => pool.closeAll raises

/-- The pool after some operations. -/
def after (maxSize : ℕ) (operations : List (PoolOperation C)) : ConnectionPool C :=
  Runs.run apply (init maxSize) operations

/-! ### The invariant -/

/-- The counter, the idle list and the semaphore agree. -/
structure Consistent (pool : ConnectionPool C) : Prop where
  created_eq : pool.created = pool.idle.length + pool.checkedOut.length
  created_range : 0 ≤ pool.created ∧ pool.created ≤ pool.maxSize
  permits_eq : (pool.permits : ℤ) = pool.maxSize - pool.checkedOut.length

/-- An acquire that raises leaves the pool. -/
def LeavesOnRaise (pool : ConnectionPool C) : PoolOperation C → Prop
  | .acquire liveness factory => ∀ e, (pool.acquire liveness factory).1 = .error e →
      (pool.acquire liveness factory).2 = pool
  | _ => True

/-- The operation does not raise after it has taken a permit or before it gives one back, and
does not reset the counter while connections are out. -/
def Meets (pool : ConnectionPool C) : PoolOperation C → Prop
  | .acquire liveness factory => pool.permits = 0 ∨ pool.idle ≠ [] ∧ liveness = .alive ∨
      factory.isSome ∧ (pool.idle = [] ∨ liveness = .dead)
  | .release i liveness => pool.checkedOut[i]? = none ∨ liveness ≠ .raises
  | .closeAll raises => raises = true ∨ pool.checkedOut = []

variable {pool : ConnectionPool C} {liveness : Liveness} {factory : Option C}

theorem consistent_init (maxSize : ℕ) : (init maxSize : ConnectionPool C).Consistent :=
  ⟨rfl, ⟨le_rfl, Int.natCast_nonneg maxSize⟩, (sub_zero _).symm⟩

/-- Below the limit the factory decides. -/
theorem createNew_of_lt (h : pool.created < pool.maxSize) : pool.createNew factory =
    (match factory with
      | none => (.error .factory, { pool with created := pool.created + 1 })
      | some conn => (.ok conn, { pool with created := pool.created + 1 })) := by
  unfold createNew
  rw [if_neg (not_le.2 h)]

/-- With a permit to spare there is room for another connection. -/
theorem Consistent.checkedOut_lt (h : pool.Consistent) (hpermits : pool.permits ≠ 0) :
    (pool.checkedOut.length : ℤ) < pool.maxSize := by
  have := h.permits_eq
  omega

/-- What an acquire does with a permit to spare: it hands out an idle connection or a new one,
or the factory or the liveness check raises and the permit is lost. -/
inductive Acquired (pool : ConnectionPool C) (liveness : Liveness) (factory : Option C) :
    Except AcquireError C × ConnectionPool C → Prop
  | idle (conn : C) (hidle : pool.idle ≠ []) (halive : liveness = .alive) :
      Acquired pool liveness factory (.ok conn, { pool with
        idle := pool.idle.dropLast
        permits := pool.permits - 1
        checkedOut := conn :: pool.checkedOut })
  | replaced (conn : C) (hidle : pool.idle ≠ []) (hdead : liveness = .dead)
      (hfactory : factory = some conn) :
      Acquired pool liveness factory (.ok conn, { pool with
        idle := pool.idle.dropLast
        permits := pool.permits - 1
        checkedOut := conn :: pool.checkedOut })
  | new (conn : C) (hidle : pool.idle = []) (hfactory : factory = some conn) :
      Acquired pool liveness factory (.ok conn, { pool with
        created := pool.created + 1
        permits := pool.permits - 1
        checkedOut := conn :: pool.checkedOut })
  | raised (e : AcquireError) (next : ConnectionPool C) (hnext : next.permits = pool.permits - 1)
      (hraises : ¬ (pool.idle ≠ [] ∧ liveness = .alive ∨
        factory.isSome ∧ (pool.idle = [] ∨ liveness = .dead))) :
      Acquired pool liveness factory (.error e, next)

theorem acquire_spec (liveness : Liveness) (factory : Option C) (h : pool.Consistent)
    (hpermits : pool.permits ≠ 0) :
    Acquired pool liveness factory (pool.acquire liveness factory) := by
  have hroom := h.checkedOut_lt hpermits
  have hcreated := h.created_eq
  unfold acquire acquireLocked
  rw [if_neg hpermits]
  cases hlast : pool.idle.getLast? with
  | none =>
      have hidle : pool.idle = [] := List.getLast?_eq_none_iff.1 hlast
      have hlt : pool.created < pool.maxSize := by
        rw [hcreated, hidle]
        simpa using hroom
      have hnew : ({ pool with permits := pool.permits - 1 } : ConnectionPool C).createNew factory =
          _ := createNew_of_lt hlt
      dsimp only
      rw [hnew]
      cases factory with
      | none => exact .raised .factory _ rfl (by simp [hidle])
      | some conn => exact .new conn hidle rfl
  | some conn =>
      have hidle : pool.idle ≠ [] := by
        rintro hnil
        simp [hnil] at hlast
      dsimp only
      cases liveness with
      | alive => exact .idle conn hidle rfl
      | raises => exact .raised .liveness _ rfl (by simp [hidle])
      | dead =>
          have hlt : pool.created - 1 < pool.maxSize := by
            have := h.created_range.2
            omega
          have hnew : ({ pool with
              permits := pool.permits - 1
              idle := pool.idle.dropLast
              created := pool.created - 1 } : ConnectionPool C).createNew factory = _ :=
            createNew_of_lt hlt
          dsimp only
          rw [hnew]
          cases factory with
          | none => exact .raised .factory _ rfl (by simp [hidle])
          | some new =>
              dsimp only
              rw [sub_add_cancel]
              exact .replaced new hidle rfl rfl

/-- In a consistent pool an acquire that meets the condition keeps the invariant, and leaves the
pool if it raises. -/
theorem acquire_meets (h : pool.Consistent) (hmeets : pool.Meets (.acquire liveness factory)) :
    (pool.acquire liveness factory).2.Consistent ∧
      pool.LeavesOnRaise (.acquire liveness factory) := by
  by_cases hzero : pool.permits = 0
  · have hsame : pool.acquire liveness factory = (.error .exhausted, pool) := if_pos hzero
    rw [LeavesOnRaise, hsame]
    exact ⟨h, fun _ _ => rfl⟩
  · have hspec := acquire_spec liveness factory h hzero
    have hroom := h.checkedOut_lt hzero
    obtain ⟨hcreated, hrange, hpermits⟩ := h
    have htaken : ((pool.permits - 1 : ℕ) : ℤ) = pool.permits - 1 := by omega
    rw [LeavesOnRaise]
    generalize pool.acquire liveness factory = result at hspec
    cases hspec with
    | idle conn hidle halive | replaced conn hidle hdead hfactory =>
        have hlength := List.length_pos_of_ne_nil hidle
        refine ⟨⟨?_, hrange, ?_⟩, fun e he => by contradiction⟩
        · show pool.created = _
          rw [hcreated, List.length_dropLast, List.length_cons]
          omega
        · show ((pool.permits - 1 : ℕ) : ℤ) = pool.maxSize - (conn :: pool.checkedOut).length
          rw [htaken, hpermits, List.length_cons]
          omega
    | new conn hidle hfactory =>
        rw [hidle, List.length_nil] at hcreated
        refine ⟨⟨?_, ?_, ?_⟩, fun e he => by contradiction⟩
        · show pool.created + 1 = _
          rw [hcreated, hidle, List.length_cons, List.length_nil]
          omega
        · show 0 ≤ pool.created + 1 ∧ pool.created + 1 ≤ pool.maxSize
          omega
        · show ((pool.permits - 1 : ℕ) : ℤ) = pool.maxSize - (conn :: pool.checkedOut).length
          rw [htaken, hpermits, List.length_cons]
          omega
    | raised e next hnext hraises => exact absurd (hmeets.resolve_left hzero) hraises

/-- Where an acquire does not meet the condition, it raises and a permit is lost. -/
theorem meets_of_leavesOnRaise (h : pool.Consistent)
    (hleaves : pool.LeavesOnRaise (.acquire liveness factory)) :
    pool.Meets (.acquire liveness factory) := by
  by_cases hzero : pool.permits = 0
  · exact .inl hzero
  · have hspec := acquire_spec liveness factory h hzero
    rw [LeavesOnRaise] at hleaves
    generalize pool.acquire liveness factory = result at hspec hleaves
    cases hspec with
    | idle conn hidle halive => exact .inr (.inl ⟨hidle, halive⟩)
    | replaced conn hidle hdead hfactory => exact .inr (.inr ⟨by simp [hfactory], .inr hdead⟩)
    | new conn hidle hfactory => exact .inr (.inr ⟨by simp [hfactory], .inl hidle⟩)
    | raised e next hnext hraises =>
        have hsame : next = pool := hleaves e rfl
        rw [hsame] at hnext
        omega

/-- Releasing keeps the invariant unless the liveness check raises: then a permit is lost. -/
theorem consistent_release_iff (h : pool.Consistent) (i : ℕ) (liveness : Liveness) :
    (pool.release i liveness).Consistent ↔ pool.Meets (.release i liveness) := by
  unfold ConnectionPool.release Meets
  cases hconn : pool.checkedOut[i]? with
  | none => exact iff_of_true h (.inl hconn)
  | some conn =>
      obtain ⟨hcreated, hrange, hpermits⟩ := h
      have hlt : i < pool.checkedOut.length := (List.getElem?_eq_some_iff.1 hconn).1
      have herase : ((pool.checkedOut.eraseIdx i).length : ℤ) = pool.checkedOut.length - 1 := by
        rw [List.length_eraseIdx_of_lt hlt]
        omega
      cases liveness with
      | raises =>
          refine iff_of_false ?_ (by simp [hlt])
          rintro ⟨-, -, hlost⟩
          have hlost : (pool.permits : ℤ) = pool.maxSize - (pool.checkedOut.eraseIdx i).length :=
            hlost
          omega
      | alive =>
          refine iff_of_true ⟨?_, hrange, ?_⟩ (.inr (by decide))
          · show pool.created = _
            rw [hcreated, herase, List.length_append, List.length_singleton]
            omega
          · show ((pool.permits + 1 : ℕ) : ℤ) =
              pool.maxSize - (pool.checkedOut.eraseIdx i).length
            rw [herase]
            omega
      | dead =>
          refine iff_of_true ⟨?_, ?_, ?_⟩ (.inr (by decide))
          · show pool.created - 1 = pool.idle.length + (pool.checkedOut.eraseIdx i).length
            rw [hcreated, herase]
            omega
          · show 0 ≤ pool.created - 1 ∧ pool.created - 1 ≤ pool.maxSize
            omega
          · show ((pool.permits + 1 : ℕ) : ℤ) =
              pool.maxSize - (pool.checkedOut.eraseIdx i).length
            rw [herase]
            omega

/-- Closing all connections resets the counter, so it keeps the invariant only if no connection
is out. -/
theorem consistent_closeAll_iff (h : pool.Consistent) (raises : Bool) :
    (pool.closeAll raises).Consistent ↔ raises = true ∨ pool.checkedOut = [] := by
  unfold closeAll
  cases raises with
  | true => simp [h]
  | false =>
      obtain ⟨-, -, hpermits⟩ := h
      constructor
      · rintro ⟨hcreated, -, -⟩
        have hnone : (0 : ℤ) = 0 + pool.checkedOut.length := hcreated
        exact .inr (List.length_eq_zero_iff.1 (by omega))
      · rintro (hraises | hnone)
        · contradiction
        · refine ⟨?_, ?_, hpermits⟩
          · show (0 : ℤ) = 0 + pool.checkedOut.length
            rw [hnone]
            rfl
          · exact ⟨le_rfl, Int.natCast_nonneg _⟩

/-- One step: it keeps the invariant and leaves the pool where it raises if and only if it meets
the condition. -/
theorem meets_iff (h : pool.Consistent) (operation : PoolOperation C) :
    pool.Meets operation ↔ (pool.apply operation).Consistent ∧ pool.LeavesOnRaise operation := by
  cases operation with
  | acquire liveness factory =>
      exact ⟨acquire_meets h, fun hkept => meets_of_leavesOnRaise h hkept.2⟩
  | release i liveness =>
      exact (consistent_release_iff h i liveness).symm.trans (and_iff_left trivial).symm
  | closeAll raises =>
      exact (consistent_closeAll_iff h raises).symm.trans (and_iff_left trivial).symm

/-! ### Runs -/

/-- Every pool that the run reaches is consistent, and every acquire of it that raises leaves
the pool. -/
def StaysConsistent (maxSize : ℕ) (operations : List (PoolOperation C)) : Prop :=
  (∀ pre post, operations = pre ++ post → (after maxSize pre).Consistent) ∧
    ∀ pre operation post, operations = pre ++ operation :: post →
      (after maxSize pre).LeavesOnRaise operation

theorem staysConsistent_iff (maxSize : ℕ) (operations : List (PoolOperation C)) :
    StaysConsistent maxSize operations ↔ ∀ pre operation post,
      operations = pre ++ operation :: post → (after maxSize pre).Meets operation := by
  have hafter : ∀ pre operation, after maxSize (pre ++ [operation]) =
      (after maxSize pre).apply (C := C) operation := fun pre operation => Runs.run_append
  constructor
  · rintro ⟨hconsistent, hleaves⟩ pre operation post hsplit
    rw [meets_iff (hconsistent pre (operation :: post) hsplit)]
    refine ⟨?_, hleaves pre operation post hsplit⟩
    rw [← hafter]
    exact hconsistent (pre ++ [operation]) post (by simp [hsplit])
  · intro hmeets
    have hfrozen : Runs.Frozen apply (init maxSize) operations
        (fun (_ : Unit) (pool : ConnectionPool C) => pool.Consistent) := by
      rw [Runs.frozen_iff]
      intro _ pre operation post hsplit hconsistent
      exact ((meets_iff hconsistent operation).1 (hmeets pre operation post hsplit)).1
    have hconsistent : ∀ pre post, operations = pre ++ post → (after maxSize pre).Consistent :=
      fun pre post hsplit => hfrozen () [] pre post hsplit (consistent_init maxSize)
    refine ⟨hconsistent, fun pre operation post hsplit => ?_⟩
    exact ((meets_iff (hconsistent pre _ hsplit) operation).1 (hmeets pre operation post hsplit)).2

/-- The factory fails: the acquire that raises leaves the counter at one and takes the permit,
so the pool is exhausted. It is exhausted too after a release whose liveness check raises. -/
theorem failed_acquire_leaks :
    ((init 1 : ConnectionPool ℕ).acquire .alive none).1 = .error .factory ∧
      ((init 1 : ConnectionPool ℕ).acquire .alive none).2 = ⟨1, [], 1, 0, []⟩ ∧
      ((after 1 [.acquire .alive none] : ConnectionPool ℕ).acquire .alive (some 7)).1 =
        .error .exhausted ∧
      (after 1 [.acquire .alive (some 7), .release 0 .raises] : ConnectionPool ℕ) =
        ⟨1, [], 1, 0, []⟩ ∧
      ¬ StaysConsistent 1 ([.acquire .alive none] : List (PoolOperation ℕ)) := by
  refine ⟨by rfl, by rfl, by rfl, by rfl, fun h => ?_⟩
  have hcreated := (h.1 [.acquire .alive none] [] rfl).created_eq
  exact absurd hcreated (by decide)

end ConnectionPool

end SolTrade.Pool
