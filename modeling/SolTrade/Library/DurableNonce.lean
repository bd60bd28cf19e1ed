import Mathlib.Data.List.Nodup
import Mathlib.Logic.Relation

/-!
A ledger of signed transactions with durable nonces.

A transaction lands once. It names a hash, and lands while that is the hash of a recent block or
the hash of a nonce that the transaction advances. The nonce then gets a hash that it never had:
of the transactions that rest on one hash of a nonce, at most one lands.
-/

namespace SolTrade.Library

/-- What a ledger reads from a transaction: the hash that it names and the nonce that it advances.
The hashes of nonces are never those of blocks. -/
structure Signed (τ ν η : Type) where
  hash : τ → η
  nonce : τ → Option ν
  Durable : η → Prop

structure NonceLedger (τ ν η : Type) where
  landed : List τ
  recent : List η
  stored : ν → η
  spent : ν → List η

namespace NonceLedger

variable {τ ν η : Type} (S : Signed τ ν η)

/-- The hash may be the next of the nonce. -/
def Fresh (l : NonceLedger τ ν η) (n : ν) (h : η) : Prop :=
  S.Durable h ∧ h ≠ l.stored n ∧ h ∉ l.spent n

/-- The transaction may land. -/
structure Accepts (l : NonceLedger τ ν η) (t : τ) : Prop where
  new : t ∉ l.landed
  known : S.hash t ∈ l.recent ∨ ∃ n ∈ S.nonce t, l.stored n = S.hash t

def land (l : NonceLedger τ ν η) (t : τ) : NonceLedger τ ν η :=
  { l with landed := t :: l.landed }

/-- Nothing has landed yet. -/
structure Started (l : NonceLedger τ ν η) : Prop where
  landed : l.landed = []
  recent : ∀ h ∈ l.recent, ¬ S.Durable h
  stored : ∀ n, l.stored n ∉ l.spent n

/-- What every run keeps. -/
structure Sound (l : NonceLedger τ ν η) : Prop where
  nodup : l.landed.Nodup
  recent : ∀ h ∈ l.recent, ¬ S.Durable h
  stored : ∀ n, l.stored n ∉ l.spent n
  spent : ∀ t ∈ l.landed, ∀ n, S.nonce t = some n → S.Durable (S.hash t) →
    S.hash t ∈ l.spent n
  once : ∀ t ∈ l.landed, ∀ u ∈ l.landed, S.nonce t = S.nonce u → (S.nonce t).isSome →
    S.hash t = S.hash u → S.Durable (S.hash t) → t = u

variable {S} {l l' : NonceLedger τ ν η} {n : ν} {h : η} {t : τ}

theorem Started.sound (hl : l.Started S) : l.Sound S := by
  constructor
  · rw [hl.landed]
    exact List.nodup_nil
  · exact hl.recent
  · exact hl.stored
  · simp [hl.landed]
  · simp [hl.landed]

/-- An accepted transaction whose hash is durable rests on the hash that its nonce holds. -/
theorem Accepts.stored (hl : l.Sound S) (haccepts : l.Accepts S t)
    (hdurable : S.Durable (S.hash t)) (hn : S.nonce t = some n) : l.stored n = S.hash t := by
  obtain hrecent | ⟨m, hm, hstored⟩ := haccepts.known
  · exact absurd hdurable (hl.recent _ hrecent)
  · obtain rfl := Option.some.inj (hn.symm.trans hm)
    exact hstored

/-- No transaction that has landed rests on the same hash of the same nonce. -/
theorem Accepts.unspent (hl : l.Sound S) (haccepts : l.Accepts S t)
    (hdurable : S.Durable (S.hash t)) (hn : S.nonce t = some n) {u : τ} (hu : u ∈ l.landed)
    (hnonce : S.nonce u = some n) : S.hash u ≠ S.hash t := by
  intro hhash
  have hspent : S.hash u ∈ l.spent n := hl.spent u hu n hnonce (hhash ▸ hdurable)
  rw [hhash, ← haccepts.stored hl hdurable hn] at hspent
  exact hl.stored n hspent

/-- Landing keeps all but that the hash of the transaction is spent. -/
theorem Sound.once_land (hl : l.Sound S) (haccepts : l.Accepts S t) :
    ∀ u ∈ (l.land t).landed, ∀ v ∈ (l.land t).landed, S.nonce u = S.nonce v →
      (S.nonce u).isSome → S.hash u = S.hash v → S.Durable (S.hash u) → u = v := by
  intro u hu v hv hnonce hsome hhash hdurable
  obtain ⟨m, hm⟩ := Option.isSome_iff_exists.1 hsome
  obtain rfl | hu' := List.mem_cons.1 hu
  · obtain rfl | hv' := List.mem_cons.1 hv
    · rfl
    · exact absurd hhash.symm (haccepts.unspent hl hdurable hm hv' (hnonce.symm.trans hm))
  · obtain rfl | hv' := List.mem_cons.1 hv
    · rw [hhash] at hdurable
      exact absurd hhash (haccepts.unspent hl hdurable (hnonce.symm.trans hm) hu' hm)
    · exact hl.once u hu' v hv' hnonce hsome hhash hdurable

/-! ### Runs -/

variable [DecidableEq ν]

/-- The nonce is advanced to a hash. -/
def advance (l : NonceLedger τ ν η) (n : ν) (h : η) : NonceLedger τ ν η :=
  { l with
    stored := Function.update l.stored n h
    spent := Function.update l.spent n (l.stored n :: l.spent n) }

inductive Step (S : Signed τ ν η) : NonceLedger τ ν η → NonceLedger τ ν η → Prop
  | blocks (l : NonceLedger τ ν η) {recent : List η} (h : ∀ h ∈ recent, ¬ S.Durable h) :
      Step S l { l with recent }
  | advance {l : NonceLedger τ ν η} {n : ν} {h : η} (hfresh : l.Fresh S n h) :
      Step S l (l.advance n h)
  | land {l : NonceLedger τ ν η} {t : τ} (haccepts : l.Accepts S t)
      (hnonce : S.nonce t = none) : Step S l (l.land t)
  | landAdvancing {l : NonceLedger τ ν η} {t : τ} {n : ν} {h : η} (haccepts : l.Accepts S t)
      (hnonce : S.nonce t = some n) (hfresh : l.Fresh S n h) : Step S l ((l.land t).advance n h)

/-- The ledgers of a run. -/
def Reaches (S : Signed τ ν η) (l l' : NonceLedger τ ν η) : Prop :=
  Relation.ReflTransGen (Step S) l l'

/-- At most one of the transactions lands, whatever else happens. -/
def LandsOnce (S : Signed τ ν η) (transactions : List τ) : Prop :=
  ∀ l l' : NonceLedger τ ν η, l.Started S → Reaches S l l' →
    ∀ t ∈ transactions, ∀ u ∈ transactions, t ∈ l'.landed → u ∈ l'.landed → t = u

theorem mem_spent_advance {m : ν} {g : η} (hg : g ∈ l.spent m) :
    g ∈ (l.advance n h).spent m := by
  rw [advance]
  by_cases hm : m = n
  · subst hm
    simp [hg]
  · simpa [hm] using hg

theorem Sound.advance (hl : l.Sound S) (hfresh : l.Fresh S n h) : (l.advance n h).Sound S := by
  obtain ⟨-, hstored, hspent⟩ := hfresh
  constructor
  · exact hl.nodup
  · exact hl.recent
  · intro m
    by_cases hm : m = n
    · subst hm
      simp [NonceLedger.advance, hstored, hspent]
    · simpa [NonceLedger.advance, hm] using hl.stored m
  · intro t ht m hm hdurable
    exact mem_spent_advance (hl.spent t ht m hm hdurable)
  · exact hl.once

theorem Step.sound (hstep : Step S l l') (hl : l.Sound S) : l'.Sound S := by
  cases hstep with
  | blocks hrecent => exact ⟨hl.nodup, hrecent, hl.stored, hl.spent, hl.once⟩
  | advance hfresh => exact hl.advance hfresh
  | @land t haccepts hnonce =>
      refine ⟨List.nodup_cons.2 ⟨haccepts.new, hl.nodup⟩, hl.recent, hl.stored, ?_,
        hl.once_land haccepts⟩
      intro u hu m hm hdurable
      obtain rfl | hu' := List.mem_cons.1 hu
      · rw [hnonce] at hm
        cases hm
      · exact hl.spent u hu' m hm hdurable
  | @landAdvancing t n h haccepts hnonce hfresh =>
      have hadvanced := hl.advance hfresh
      refine ⟨List.nodup_cons.2 ⟨haccepts.new, hl.nodup⟩, hl.recent, hadvanced.stored, ?_,
        hl.once_land haccepts⟩
      intro u hu m hm hdurable
      obtain rfl | hu' := List.mem_cons.1 hu
      · have hm' : n = m := Option.some.inj (hnonce.symm.trans hm)
        subst hm'
        simp [NonceLedger.advance, NonceLedger.land, haccepts.stored hl hdurable hnonce]
      · exact hadvanced.spent u hu' m hm hdurable

theorem Reaches.sound (hrun : Reaches S l l') (hl : l.Sound S) : l'.Sound S := by
  induction hrun with
  | refl => exact hl
  | tail _ hstep ih => exact hstep.sound ih

/-- Transactions that rest on one hash of a nonce. -/
theorem landsOnce_of_nonce {transactions : List τ}
    (hdurable : ∀ t ∈ transactions, S.Durable (S.hash t))
    (hnonce : ∀ t ∈ transactions, S.nonce t = some n)
    (hsame : ∀ t ∈ transactions, ∀ u ∈ transactions, S.hash t = S.hash u) :
    LandsOnce S transactions := by
  intro l l' hl hrun t ht u hu htl hul
  refine (hrun.sound hl.sound).once t htl u hul ((hnonce t ht).trans (hnonce u hu).symm) ?_
    (hsame t ht u hu) (hdurable t ht)
  rw [hnonce t ht]
  rfl

theorem landsOnce_of_eq {transactions : List τ}
    (hsame : ∀ t ∈ transactions, ∀ u ∈ transactions, t = u) : LandsOnce S transactions :=
  fun _ _ _ _ t ht u hu _ _ => hsame t ht u hu

/-- Two transactions on a block's hash that advance no nonce can both land. -/
theorem eq_of_landsOnce {transactions : List τ} {u : τ}
    (hrecent : ¬ S.Durable h) (hlands : LandsOnce S transactions) (ht : t ∈ transactions)
    (hu : u ∈ transactions) (hhash : S.hash t = h) (hhash' : S.hash u = h)
    (hnonce : S.nonce t = none) (hnonce' : S.nonce u = none) : t = u := by
  by_contra hne
  let l : NonceLedger τ ν η := ⟨[], [h], fun _ => h, fun _ => []⟩
  have hl : l.Started S := ⟨rfl, by simpa [l] using hrecent, by simp [l]⟩
  have haccepts : l.Accepts S t := ⟨by simp [l], .inl (by simp [l, hhash])⟩
  have haccepts' : (l.land t).Accepts S u :=
    ⟨by simpa [l, land] using Ne.symm hne, .inl (by simp [l, land, hhash'])⟩
  have hrun : Reaches S l ((l.land t).land u) :=
    (Relation.ReflTransGen.single (Step.land haccepts hnonce)).tail
      (Step.land haccepts' hnonce')
  exact hne (hlands l _ hl hrun t ht u hu (by simp [land]) (by simp [land]))

end NonceLedger

end SolTrade.Library
