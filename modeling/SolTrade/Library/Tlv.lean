import SolTrade.Library.Checked
import SolTrade.Library.Wire

/-!
Type-length-value entries.

An entry is a kind and a length, two bytes each, and as many bytes as the length says.
Entries follow each other up to a kind of zero, or until no kind is left. A walk that
folds a step over the entries is known by what it does at an entry and at the end.
-/

namespace SolTrade.Library.Tlv

open Wire

/-! ### Entries -/

section Entries

variable (data : List UInt8)

/-- The number in the two bytes at the offset. -/
def number (offset : ℕ) : ℕ := littleEndianValue ((data.drop offset).take 2)

/-- Where the entry at the offset ends. -/
def next (offset : ℕ) : ℕ := offset + 4 + number data (offset + 2)

def value (offset : ℕ) : List UInt8 := (data.drop (offset + 4)).take (number data (offset + 2))

/-- No entry starts at the offset. -/
def Ended (offset : ℕ) : Prop := data.length < offset + 2 ∨ number data offset = 0

/-- The entries from the offset on, each of which fits into the data. -/
inductive Entries : ℕ → List (ℕ × List UInt8) → Prop
  | ended {offset : ℕ} (h : Ended data offset) : Entries offset []
  | entry {offset : ℕ} {entries : List (ℕ × List UInt8)} (hkind : ¬ Ended data offset)
      (hfits : next data offset ≤ data.length) (hrest : Entries (next data offset) entries) :
      Entries offset ((number data offset, value data offset) :: entries)

end Entries

/-! ### Walks -/

section Walk

variable {data : List UInt8} {ε σ ρ : Type} {walk : ℕ → σ → Except ε ρ}
  {step : σ → ℕ × List UInt8 → Except ε σ} {final : σ → ρ}
  {offset : ℕ} {entries : List (ℕ × List UInt8)}

/-- What a walk makes of entries that all fit. -/
theorem walk_of_entries (hend : ∀ o s, Ended data o → walk o s = .ok (final s))
    (hentry : ∀ o s, ¬ Ended data o → next data o ≤ data.length →
      walk o s = step s (number data o, value data o) >>= walk (next data o))
    (h : Entries data offset entries) (s : σ) :
    walk offset s = final <$> entries.foldlM step s := by
  induction h generalizing s with
  | ended hended =>
      rw [hend _ _ hended]
      rfl
  | entry hkind hfits _ ih =>
      rw [hentry _ _ hkind hfits, List.foldlM_cons, map_bind]
      exact bind_congr_ok fun t _ => ih t

/-- A walk that rejects an entry that does not fit accepts entries that all fit. -/
theorem exists_entries (hentry : ∀ o s, ¬ Ended data o → next data o ≤ data.length →
      walk o s = step s (number data o, value data o) >>= walk (next data o))
    (hreject : ∀ o s r, ¬ Ended data o → walk o s = .ok r → next data o ≤ data.length)
    {s : σ} {r : ρ} (h : walk offset s = .ok r) : ∃ entries, Entries data offset entries := by
  induction hleft : data.length - offset using Nat.strong_induction_on generalizing offset s with
  | _ left ih =>
      by_cases hend : Ended data offset
      · exact ⟨[], .ended hend⟩
      · have hfits := hreject _ _ _ hend h
        rw [hentry _ _ hend hfits] at h
        obtain ⟨t, -, hrest⟩ := bind_eq_ok.1 h
        have hnext : data.length - next data offset < left := by
          unfold next at hfits ⊢
          omega
        obtain ⟨entries, hentries⟩ := ih _ hnext hrest rfl
        exact ⟨_, .entry hend hfits hentries⟩

end Walk

end SolTrade.Library.Tlv
