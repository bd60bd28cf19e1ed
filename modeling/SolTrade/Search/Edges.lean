import Mathlib.Data.Set.Insert
import SolTrade.Library.KeyedTable
import SolTrade.Route.Hint

/-!
The edges that the entries of a list of pools stand for.

The last entry of a pool stands for it, in either direction. Where the entries of a pool
agree in mints and version, any of them would do.
-/

namespace SolTrade.Search

open Library KeyedTable
open Route (PoolTradeHint)

/-- The last candidate of its pool, which stands for it. -/
def Stands (candidates : List PoolTradeHint) (h : PoolTradeHint) : Prop :=
  ∃ before after, candidates = before ++ h :: after ∧ h.pool ∉ after.map (·.pool)

/-- A candidate that stands for its pool, in either direction. -/
def Edge (candidates : List PoolTradeHint) (e : PoolTradeHint) : Prop :=
  ∃ h, Stands candidates h ∧ (e = h ∨ e = h.reverse)

/-- Candidates of one pool name the same version. -/
def VersionsAgree (candidates : List PoolTradeHint) : Prop :=
  ∀ h ∈ candidates, ∀ o ∈ candidates, h.pool = o.pool → h.pumpfunVersion = o.pumpfunVersion

/-- The candidates are hints that could be made, and those of one pool name the same mints. -/
structure Consistent (candidates : List PoolTradeHint) : Prop where
  valid : ∀ h ∈ candidates, h.postInit = .ok ()
  agree : ∀ h ∈ candidates, ∀ o ∈ candidates, h.pool = o.pool → h.mints = o.mints

variable {candidates : List PoolTradeHint} {h o e f : PoolTradeHint}

theorem mem_fill_nil : h ∈ fill PoolTradeHint.pool [] candidates ↔ Stands candidates h := by
  rw [mem_fill]
  exact or_iff_right fun hnil => List.not_mem_nil hnil.1

theorem Stands.mem (hs : Stands candidates h) : h ∈ candidates := by
  obtain ⟨before, after, rfl, -⟩ := hs
  exact List.mem_append_right _ List.mem_cons_self

theorem Stands.eq (hs : Stands candidates h) (ho : Stands candidates o) (hpool : h.pool = o.pool) :
    h = o :=
  List.inj_on_of_nodup_map nodup_fill_nil (mem_fill_nil.2 hs) (mem_fill_nil.2 ho) hpool

theorem exists_stands (hh : h ∈ candidates) : ∃ o, Stands candidates o ∧ o.pool = h.pool := by
  have hkey : h.pool ∈ (fill PoolTradeHint.pool [] candidates).map (·.pool) :=
    mem_keys_fill.2 (.inr (List.mem_map_of_mem hh))
  obtain ⟨o, ho, hpool⟩ := List.mem_map.1 hkey
  exact ⟨o, mem_fill_nil.1 ho, hpool⟩

theorem pool_of_direction (he : e = h ∨ e = h.reverse) : e.pool = h.pool := by
  rcases he with rfl | rfl <;> rfl

theorem postInit_eq_ok : h.postInit = .ok () ↔ h.pool ≠ .default ∧ h.inputMint ≠ .default ∧
    h.outputMint ≠ .default ∧ h.inputMint ≠ h.outputMint := by
  rw [PoolTradeHint.postInit, require_eq_ok]
  tauto

theorem postInit_reverse (hvalid : h.postInit = .ok ()) : h.reverse.postInit = .ok () := by
  rw [postInit_eq_ok] at hvalid ⊢
  obtain ⟨hpool, hin, hout, hne⟩ := hvalid
  exact ⟨hpool, hout, hin, hne.symm⟩

theorem mints_reverse : h.reverse.mints = h.mints := Finset.pair_comm _ _

/-- Two hints of one pool, version and pair of mints differ in the direction at most. -/
theorem eq_or_eq_reverse (hpool : h.pool = o.pool) (hmints : h.mints = o.mints)
    (hversion : h.pumpfunVersion = o.pumpfunVersion) : h = o ∨ h = o.reverse := by
  have hpair : ({h.inputMint, h.outputMint} : Set Pubkey) = {o.inputMint, o.outputMint} := by
    have hset := congrArg (fun s : Finset Pubkey => (s : Set Pubkey)) hmints
    simpa [PoolTradeHint.mints] using hset
  obtain ⟨pool, inputMint, outputMint, version⟩ := h
  obtain ⟨pool', inputMint', outputMint', version'⟩ := o
  obtain rfl : pool = pool' := hpool
  obtain rfl : version = version' := hversion
  rcases Set.pair_eq_pair_iff.1 hpair with ⟨hin, hout⟩ | ⟨hin, hout⟩
  · left
    rw [show inputMint = inputMint' from hin, show outputMint = outputMint' from hout]
  · right
    rw [show inputMint = outputMint' from hin, show outputMint = inputMint' from hout]
    rfl

namespace Consistent

theorem postInit_edge (hc : Consistent candidates) (he : Edge candidates e) :
    e.postInit = .ok () := by
  obtain ⟨h, hs, rfl | rfl⟩ := he
  · exact hc.valid _ hs.mem
  · exact postInit_reverse (hc.valid h hs.mem)

theorem mints_ne (hc : Consistent candidates) (hs : Stands candidates h) :
    h.inputMint ≠ h.outputMint :=
  (postInit_eq_ok.1 (hc.valid h hs.mem)).2.2.2

/-- Edges of one pool from one mint are one edge. -/
theorem eq_of_pool_of_inputMint (hc : Consistent candidates) (he : Edge candidates e)
    (hf : Edge candidates f) (hpool : e.pool = f.pool) (hin : e.inputMint = f.inputMint) :
    e = f := by
  obtain ⟨h, hs, he⟩ := he
  obtain ⟨o, ho, hf⟩ := hf
  obtain rfl : h = o := by
    apply hs.eq ho
    rw [← pool_of_direction he, hpool, pool_of_direction hf]
  have hne := hc.mints_ne hs
  rcases he with rfl | rfl <;> rcases hf with rfl | rfl
  · rfl
  · exact absurd hin hne
  · exact absurd hin.symm hne
  · rfl

/-- Where the versions agree, every candidate is an edge in both directions. -/
theorem edge_iff (hc : Consistent candidates) (hversions : VersionsAgree candidates) :
    Edge candidates e ↔ ∃ h ∈ candidates, e = h ∨ e = h.reverse := by
  constructor
  · rintro ⟨h, hs, he⟩
    exact ⟨h, hs.mem, he⟩
  · rintro ⟨h, hh, he⟩
    obtain ⟨o, ho, hpool⟩ := exists_stands hh
    refine ⟨o, ho, ?_⟩
    rcases eq_or_eq_reverse hpool.symm (hc.agree h hh o ho.mem hpool.symm)
      (hversions h hh o ho.mem hpool.symm) with rfl | rfl
    · exact he
    · exact he.symm

end Consistent

/-! ### Listings of the same pools -/

/-- Each entry of one list is in the other, perhaps in the other direction. -/
def SameEntries (pools pools' : List PoolTradeHint) : Prop :=
  (∀ h ∈ pools, ∃ o ∈ pools', h = o ∨ h = o.reverse) ∧
    ∀ o ∈ pools', ∃ h ∈ pools, o = h ∨ o = h.reverse

section Same

variable {pools pools' : List PoolTradeHint}

theorem SameEntries.symm (hsame : SameEntries pools pools') : SameEntries pools' pools :=
  ⟨hsame.2, hsame.1⟩

theorem SameEntries.map (hsame : SameEntries pools pools') {f : PoolTradeHint → PoolTradeHint}
    (hf : ∀ h, f h.reverse = (f h).reverse) : SameEntries (pools.map f) (pools'.map f) := by
  have hmap : ∀ {pools pools' : List PoolTradeHint},
      (∀ h ∈ pools, ∃ o ∈ pools', h = o ∨ h = o.reverse) →
      ∀ h ∈ pools.map f, ∃ o ∈ pools'.map f, h = o ∨ h = o.reverse := by
    intro pools pools' hcovers
    rw [List.forall_mem_map]
    intro a ha
    obtain ⟨o, ho, rfl | rfl⟩ := hcovers a ha
    · exact ⟨_, List.mem_map_of_mem ho, .inl rfl⟩
    · exact ⟨_, List.mem_map_of_mem ho, .inr (hf o)⟩
  exact ⟨hmap hsame.1, hmap hsame.2⟩

theorem SameEntries.mem_pools (hsame : SameEntries pools pools') {key : Pubkey}
    (hkey : key ∈ pools.map (·.pool)) : key ∈ pools'.map (·.pool) := by
  obtain ⟨h, hh, rfl⟩ := List.mem_map.1 hkey
  obtain ⟨o, ho, hdirection⟩ := hsame.1 h hh
  exact List.mem_map.2 ⟨o, ho, (pool_of_direction hdirection).symm⟩

theorem VersionsAgree.of_sameEntries (hversions : VersionsAgree pools)
    (hsame : SameEntries pools pools') : VersionsAgree pools' := by
  intro h hh o ho hpool
  obtain ⟨a, ha, hdirection⟩ := hsame.2 h hh
  obtain ⟨b, hb, hdirection'⟩ := hsame.2 o ho
  have hversion : ∀ {h a : PoolTradeHint}, h = a ∨ h = a.reverse →
      h.pumpfunVersion = a.pumpfunVersion := by
    rintro h a (rfl | rfl) <;> rfl
  rw [hversion hdirection, hversion hdirection']
  apply hversions a ha b hb
  rw [← pool_of_direction hdirection, hpool, pool_of_direction hdirection']

theorem Consistent.of_sameEntries (hc : Consistent pools) (hsame : SameEntries pools pools') :
    Consistent pools' := by
  constructor
  · intro o ho
    obtain ⟨h, hh, rfl | rfl⟩ := hsame.2 o ho
    · exact hc.valid _ hh
    · exact postInit_reverse (hc.valid h hh)
  · intro h hh o ho hpool
    obtain ⟨a, ha, hdirection⟩ := hsame.2 h hh
    obtain ⟨b, hb, hdirection'⟩ := hsame.2 o ho
    have hmints : ∀ {h a : PoolTradeHint}, h = a ∨ h = a.reverse → h.mints = a.mints := by
      rintro h a (rfl | rfl)
      · rfl
      · exact mints_reverse
    rw [hmints hdirection, hmints hdirection']
    apply hc.agree a ha b hb
    rw [← pool_of_direction hdirection, hpool, pool_of_direction hdirection']

/-- The same entries stand for the same edges. -/
theorem Consistent.edge_congr (hc : Consistent pools) (hversions : VersionsAgree pools)
    (hsame : SameEntries pools pools') : Edge pools e ↔ Edge pools' e := by
  have hincl : ∀ {pools pools' : List PoolTradeHint}, SameEntries pools pools' →
      (∃ h ∈ pools, e = h ∨ e = h.reverse) → ∃ h ∈ pools', e = h ∨ e = h.reverse := by
    rintro pools pools' hsame ⟨h, hh, he⟩
    obtain ⟨o, ho, rfl | rfl⟩ := hsame.1 h hh
    · exact ⟨_, ho, he⟩
    · exact ⟨o, ho, he.symm⟩
  rw [hc.edge_iff hversions,
    (hc.of_sameEntries hsame).edge_iff (hversions.of_sameEntries hsame)]
  exact ⟨hincl hsame, hincl hsame.symm⟩

end Same

end SolTrade.Search
