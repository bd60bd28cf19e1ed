import Mathlib.Data.List.Nodup
import Mathlib.Data.List.Perm.Subperm
import SolTrade.Library.Checked

/-!
Tables whose entries carry their own key, in the order of their first insertion.

An entry replaces the one of the same key. A table that is filled under the check that a
new entry agrees with the one it replaces is filled by entries that all agree, in
whatever order they come.
-/

namespace SolTrade.Library.KeyedTable

variable {α κ : Type} [DecidableEq κ] (key : α → κ)

/-- `table.get(k)`. -/
def lookup (table : List α) (k : κ) : Option α := table.find? fun a => key a = k

/-- `table[key(a)] = a`. -/
def put (table : List α) (a : α) : List α :=
  if key a ∈ table.map key then table.map fun b => if key b = key a then a else b
  else table ++ [a]

variable {key} {table : List α} {a b : α} {k : κ}

theorem mem_put : b ∈ put key table a ↔ b = a ∨ b ∈ table ∧ key b ≠ key a := by
  unfold put
  split
  · rename_i hmem
    rw [List.mem_map]
    constructor
    · rintro ⟨c, hc, rfl⟩
      split
      · exact .inl rfl
      · exact .inr ⟨hc, ‹_›⟩
    · rintro (rfl | ⟨hb, hne⟩)
      · obtain ⟨c, hc, hkey⟩ := List.mem_map.1 hmem
        exact ⟨c, hc, if_pos hkey⟩
      · exact ⟨b, hb, if_neg hne⟩
  · rename_i hmem
    rw [List.mem_append, List.mem_singleton]
    constructor
    · rintro (hb | rfl)
      · exact .inr ⟨hb, fun hkey => hmem (hkey ▸ List.mem_map_of_mem hb)⟩
      · exact .inl rfl
    · rintro (rfl | ⟨hb, -⟩)
      · exact .inr rfl
      · exact .inl hb

theorem map_key_put : (put key table a).map key =
    if key a ∈ table.map key then table.map key else table.map key ++ [key a] := by
  unfold put
  split
  · rw [List.map_map]
    apply List.map_congr_left
    intro b _
    show key (if key b = key a then a else b) = key b
    split
    · exact Eq.symm ‹_›
    · rfl
  · rw [List.map_append, List.map_singleton]

theorem nodup_put (h : (table.map key).Nodup) : ((put key table a).map key).Nodup := by
  rw [map_key_put]
  split
  · exact h
  · rename_i hnew
    refine List.nodup_append'.2 ⟨h, List.nodup_singleton _, fun k hk hk' => hnew ?_⟩
    rwa [← List.mem_singleton.1 hk']

theorem length_le_length_put : table.length ≤ (put key table a).length := by
  unfold put
  split
  · exact Nat.le_of_eq (List.length_map _).symm
  · rw [List.length_append]
    exact Nat.le_add_right _ _

theorem key_of_lookup (h : lookup key table k = some a) : key a = k := by
  have hfind : table.find? (fun a => decide (key a = k)) = some a := h
  simpa using List.find?_some hfind

theorem mem_of_lookup (h : lookup key table k = some a) : a ∈ table := List.mem_of_find?_eq_some h

theorem lookup_eq_some (h : (table.map key).Nodup) :
    lookup key table k = some a ↔ a ∈ table ∧ key a = k := by
  constructor
  · intro hfind
    exact ⟨mem_of_lookup hfind, key_of_lookup hfind⟩
  · rintro ⟨ha, rfl⟩
    obtain ⟨b, hb⟩ : ∃ b, lookup key table (key a) = some b := by
      rw [← Option.isSome_iff_exists, lookup, List.find?_isSome]
      exact ⟨a, ha, decide_eq_true rfl⟩
    rw [hb, List.inj_on_of_nodup_map h (mem_of_lookup hb) ha (key_of_lookup hb)]

theorem put_of_absent (h : key a ∉ table.map key) : put key table a = table ++ [a] := if_neg h

/-- Putting an entry replaces one by one in a count. -/
theorem countP_put (p : α → Bool) (h : (table.map key).Nodup) (hb : b ∈ table)
    (hkey : key b = key a) :
    (put key table a).countP p + (p b).toNat = table.countP p + (p a).toNat := by
  unfold put
  rw [if_pos (hkey ▸ List.mem_map_of_mem hb)]
  induction table with
  | nil => cases hb
  | cons c table ih =>
      obtain ⟨hnew, hrest⟩ := List.nodup_cons.1 h
      rw [List.map_cons, List.countP_cons, List.countP_cons]
      rcases List.mem_cons.1 hb with rfl | hb
      · have hkept : table.map (fun b => if key b = key a then a else b) = table := by
          refine (List.map_congr_left fun c hc => if_neg fun heq => hnew ?_).trans (List.map_id' _)
          exact (heq.trans hkey.symm) ▸ List.mem_map_of_mem hc
        rw [if_pos hkey, hkept]
        cases p a <;> cases p b <;> simp
      · have hne : key c ≠ key a := fun heq => hnew (heq.trans hkey.symm ▸ List.mem_map_of_mem hb)
        rw [if_neg hne]
        have hcount := ih hrest hb
        omega

/-! ### Filling a table -/

variable (key) in
/-- Puts one entry after the other. -/
def fill (table entries : List α) : List α := entries.foldl (put key) table

variable {entries : List α}

theorem nodup_fill (h : (table.map key).Nodup) : ((fill key table entries).map key).Nodup := by
  induction entries generalizing table with
  | nil => exact h
  | cons a entries ih => exact ih (nodup_put h)

/-- An entry is kept until another of its key is put in. -/
theorem mem_fill : a ∈ fill key table entries ↔
    (a ∈ table ∧ key a ∉ entries.map key) ∨
      ∃ before after, entries = before ++ a :: after ∧ key a ∉ after.map key := by
  induction entries generalizing table with
  | nil => simp [fill]
  | cons b entries ih =>
      show a ∈ fill key (put key table b) entries ↔ _
      rw [ih, mem_put]
      constructor
      · rintro (⟨rfl | ⟨hold, hne⟩, hlast⟩ | ⟨before, after, rfl, hlast⟩)
        · exact .inr ⟨[], entries, rfl, hlast⟩
        · refine .inl ⟨hold, ?_⟩
          rw [List.map_cons, List.mem_cons, not_or]
          exact ⟨hne, hlast⟩
        · exact .inr ⟨b :: before, after, rfl, hlast⟩
      · rintro (⟨hold, hlast⟩ | ⟨before, after, heq, hlast⟩)
        · rw [List.map_cons, List.mem_cons, not_or] at hlast
          exact .inl ⟨.inr ⟨hold, hlast.1⟩, hlast.2⟩
        · cases before with
          | nil =>
              obtain ⟨rfl, rfl⟩ := List.cons_eq_cons.1 heq
              exact .inl ⟨.inl rfl, hlast⟩
          | cons c before =>
              obtain ⟨rfl, rfl⟩ := List.cons_eq_cons.1 heq
              exact .inr ⟨before, after, rfl, hlast⟩

/-- The keys are those of the entries. -/
theorem mem_keys_fill :
    k ∈ (fill key table entries).map key ↔ k ∈ table.map key ∨ k ∈ entries.map key := by
  induction entries generalizing table with
  | nil => simp [fill]
  | cons b entries ih =>
      show k ∈ (fill key (put key table b) entries).map key ↔ _
      rw [ih, map_key_put, List.map_cons, List.mem_cons]
      split
      · rename_i hmem
        constructor
        · rintro (hold | hlater)
          · exact .inl hold
          · exact .inr (.inr hlater)
        · rintro (hold | rfl | hlater)
          · exact .inl hold
          · exact .inl hmem
          · exact .inr hlater
      · rw [List.mem_append, List.mem_singleton, or_assoc]

theorem nodup_fill_nil : ((fill key [] entries).map key).Nodup := by
  apply nodup_fill
  exact List.nodup_nil

theorem length_le_length_fill : table.length ≤ (fill key table entries).length := by
  induction entries generalizing table with
  | nil => exact Nat.le_refl _
  | cons a entries ih => exact Nat.le_trans length_le_length_put ih

/-- There are as many entries as keys. -/
theorem length_fill_nil_le {entries' : List α}
    (h : ∀ k ∈ entries.map key, k ∈ entries'.map key) :
    (fill key [] entries).length ≤ (fill key [] entries').length := by
  have hsubset : (fill key [] entries).map key ⊆ (fill key [] entries').map key := by
    intro k hk
    rcases mem_keys_fill.1 hk with hnil | hk
    · cases hnil
    · exact mem_keys_fill.2 (.inr (h k hk))
  have hle := (List.subperm_of_subset nodup_fill_nil hsubset).length_le
  rwa [List.length_map, List.length_map] at hle

/-! ### Checked insertion -/

section Insertion

variable {ε β : Type} (insert : List α → β → Except ε (List α)) (entry : β → α) (valid : α → Prop)
  {agree : α → α → Prop} {room : ℕ → Prop} {inputs : List β}

/-- A table can be filled when every entry is valid, entries of one key agree, and there
is room for all the keys. -/
theorem foldlM_insert_eq_ok (hrefl : ∀ a, agree a a) (hsymm : ∀ a b, agree a b → agree b a)
    (htrans : ∀ a b c, agree a b → agree b c → agree a c)
    (hroom : ∀ m n, m ≤ n → room n → room m)
    (hinsert : ∀ table b filled, insert table b = .ok filled ↔
      valid (entry b) ∧ (∀ old ∈ lookup key table (key (entry b)), agree old (entry b)) ∧
        room (put key table (entry b)).length ∧ put key table (entry b) = filled)
    (h : (table.map key).Nodup) (htable : room table.length) {filled : List α} :
    inputs.foldlM insert table = .ok filled ↔
      ((∀ a ∈ inputs.map entry, valid a) ∧
        (∀ a ∈ inputs.map entry, ∀ b ∈ inputs.map entry, key a = key b → agree a b) ∧
        (∀ a ∈ table, ∀ b ∈ inputs.map entry, key a = key b → agree a b) ∧
        room (fill key table (inputs.map entry)).length ∧
        fill key table (inputs.map entry) = filled) := by
  induction inputs generalizing table with
  | nil =>
      rw [List.foldlM_nil, pure_eq_ok]
      simp [fill, htable]
  | cons input inputs ih =>
      rw [List.foldlM_cons, bind_eq_ok, List.map_cons]
      generalize ha : entry input = a
      generalize inputs.map entry = entries at ih
      have hfill : fill key table (a :: entries) = fill key (put key table a) entries := rfl
      rw [hfill]
      constructor
      · rintro ⟨table', hfirst, hlater⟩
        obtain ⟨hvalid, hold, hput, rfl⟩ := (hinsert _ _ _).1 hfirst
        rw [ha] at hvalid hold hput hlater
        obtain ⟨hvalids, hagree, htable, hend, hfilled⟩ := (ih (nodup_put h) hput).1 hlater
        have ha : ∀ b ∈ entries, key a = key b → agree a b :=
          fun b hb => htable a (mem_put.2 (.inl rfl)) b hb
        refine ⟨List.forall_mem_cons.2 ⟨hvalid, hvalids⟩, ?_, ?_, hend, hfilled⟩
        · rw [List.forall_mem_cons, List.forall_mem_cons]
          refine ⟨⟨fun _ => hrefl a, ha⟩, fun b hb => List.forall_mem_cons.2 ⟨fun hkey => ?_, ?_⟩⟩
          · exact hsymm _ _ (ha b hb hkey.symm)
          · exact hagree b hb
        · intro c hc
          have hreplaced : key c = key a → agree c a := fun heq =>
            hold c ((lookup_eq_some h).2 ⟨hc, heq⟩)
          refine List.forall_mem_cons.2 ⟨hreplaced, fun b hb hkey => ?_⟩
          -- an old entry that was replaced agrees with the later ones through the entry that
          -- replaced it
          by_cases heq : key c = key a
          · exact htrans _ _ _ (hreplaced heq) (ha b hb (heq.symm.trans hkey))
          · exact htable c (mem_put.2 (.inr ⟨hc, heq⟩)) b hb hkey
      · rintro ⟨hvalids, hagree, htable, hend, hfilled⟩
        obtain ⟨hvalid, hvalids⟩ := List.forall_mem_cons.1 hvalids
        have hput : room (put key table a).length := hroom _ _ length_le_length_fill hend
        have hold : ∀ old ∈ lookup key table (key a), agree old a := fun old hold =>
          htable old (mem_of_lookup hold) a List.mem_cons_self (key_of_lookup hold)
        rw [← ha] at hvalid hput hold
        refine ⟨_, (hinsert _ _ _).2 ⟨hvalid, hold, hput, rfl⟩, ?_⟩
        rw [ha] at hput ⊢
        refine (ih (nodup_put h) hput).2 ⟨hvalids, fun b hb c hc =>
          hagree b (List.mem_cons_of_mem _ hb) c (List.mem_cons_of_mem _ hc), ?_, hend, hfilled⟩
        intro c hc b hb hkey
        rcases mem_put.1 hc with rfl | ⟨hc, -⟩
        · exact hagree c List.mem_cons_self b (List.mem_cons_of_mem _ hb) hkey
        · exact htable c hc b (List.mem_cons_of_mem _ hb) hkey

theorem foldlM_insert_nil_eq_ok (hrefl : ∀ a, agree a a) (hsymm : ∀ a b, agree a b → agree b a)
    (htrans : ∀ a b c, agree a b → agree b c → agree a c)
    (hroom : ∀ m n, m ≤ n → room n → room m)
    (hinsert : ∀ table b filled, insert table b = .ok filled ↔
      valid (entry b) ∧ (∀ old ∈ lookup key table (key (entry b)), agree old (entry b)) ∧
        room (put key table (entry b)).length ∧ put key table (entry b) = filled)
    (hzero : room 0) {filled : List α} :
    inputs.foldlM insert [] = .ok filled ↔
      (∀ a ∈ inputs.map entry, valid a) ∧
        (∀ a ∈ inputs.map entry, ∀ b ∈ inputs.map entry, key a = key b → agree a b) ∧
        room (fill key [] (inputs.map entry)).length ∧
        fill key [] (inputs.map entry) = filled := by
  have hempty : (([] : List α).map key).Nodup := List.nodup_nil
  rw [foldlM_insert_eq_ok insert entry valid hrefl hsymm htrans hroom hinsert hempty hzero]
  constructor
  · rintro ⟨hvalid, hagree, -, hend⟩
    exact ⟨hvalid, hagree, hend⟩
  · rintro ⟨hvalid, hagree, hend⟩
    exact ⟨hvalid, hagree, fun a ha => absurd ha List.not_mem_nil, hend⟩

end Insertion

end SolTrade.Library.KeyedTable
