import Mathlib.Data.List.Nodup
import PacketWire.Proofs.Toml.Reader
import PacketWire.Toml.Document

/-!
# No key twice

In the tree of a document no table has two entries with the same key (`keyed_of_parse`). A tree
grows by changes to one table after the other, and each change keeps the keys apart; values that
hold tables are read by a recursion on the depth of their nesting.
-/

namespace PacketWire.Toml

/-- What every step of a fold keeps, the whole fold keeps. -/
theorem foldlM_keeps {σ α : Type} {f : σ → α → Option σ} {xs : List α} {s s' : σ} {P : σ → Prop}
    (hs : P s) (hf : ∀ s s', ∀ x ∈ xs, P s → f s x = some s' → P s')
    (h : xs.foldlM f s = some s') : P s' := by
  induction xs generalizing s with
  | nil =>
    cases h
    exact hs
  | cons x xs ih =>
    rw [List.foldlM_cons] at h
    obtain ⟨next, hnext, h⟩ := Option.bind_eq_some_iff.mp h
    exact ih (hf s next x List.mem_cons_self hs hnext)
      (fun s s' y hy => hf s s' y (List.mem_cons_of_mem x hy)) h

/-! ### Keys that are apart -/

/-- In none of the tables that the value holds does a key occur twice. -/
inductive Value.Keyed : Value → Prop
  | text (s) : Keyed (.text s)
  | number (n) : Keyed (.number n)
  | boolean (b) : Keyed (.boolean b)
  | moment (m) : Keyed (.moment m)
  | array {items} : (∀ v ∈ items, Keyed v) → Keyed (.array items)
  | tables {items} : (∀ t ∈ items, (t.map Prod.fst).Nodup) → (∀ t ∈ items, ∀ e ∈ t, Keyed e.2) →
      Keyed (.tables items)
  | table {origin entries} : (entries.map Prod.fst).Nodup → (∀ e ∈ entries, Keyed e.2) →
      Keyed (.table origin entries)

/-- No key occurs twice in the table, nor in any table inside it. -/
structure Table.Keyed (t : Table) : Prop where
  distinct : (t.map Prod.fst).Nodup
  values : ∀ e ∈ t, e.2.Keyed

theorem Value.keyed_table_iff {origin : Origin} {entries : Table} :
    (Value.table origin entries).Keyed ↔ entries.Keyed := by
  constructor
  · intro h
    cases h with
    | table hdistinct hvalues => exact ⟨hdistinct, hvalues⟩
  · intro h
    exact .table h.distinct h.values

theorem Value.keyed_tables_iff {items : List Table} :
    (Value.tables items).Keyed ↔ ∀ t ∈ items, Table.Keyed t := by
  constructor
  · intro h t ht
    cases h with
    | tables hdistinct hvalues => exact ⟨hdistinct t ht, hvalues t ht⟩
  · intro h
    exact .tables (fun t ht => (h t ht).distinct) (fun t ht => (h t ht).values)

namespace Table

theorem keyed_nil : Keyed [] := ⟨List.nodup_nil, nofun⟩

variable {t t' : Table} {key : String} {v w : Value}

/-- What stands under a key is one value. -/
theorem Keyed.unique (h : t.Keyed) (hv : (key, v) ∈ t) (hw : (key, w) ∈ t) : v = w :=
  (Prod.mk.inj (List.inj_on_of_nodup_map h.distinct hv hw rfl)).2

theorem Keyed.concat (h : t.Keyed) (hkey : key ∉ t.map Prod.fst) (hv : v.Keyed) :
    Keyed (t ++ [(key, v)]) := by
  constructor
  · rw [List.map_append, List.map_singleton, List.nodup_append]
    refine ⟨h.distinct, List.nodup_singleton key, ?_⟩
    intro k hk k' hk' heq
    rw [List.mem_singleton] at hk'
    rw [heq, hk'] at hk
    exact hkey hk
  · intro e he
    rcases List.mem_append.mp he with he | he
    · exact h.values e he
    · rw [List.mem_singleton] at he
      rw [he]
      exact hv

theorem Keyed.erase (h : t.Keyed) : Keyed (t.erase key) := by
  have hsublist : (t.erase key).Sublist t := List.filter_sublist
  exact ⟨h.distinct.sublist (hsublist.map _), fun e he => h.values e (hsublist.subset he)⟩

theorem not_mem_keys_erase : key ∉ (t.erase key).map Prod.fst := by
  simp [Table.erase]

/-! ### Changes to a table -/

/-- A change replaces the one value under its key, or adds its key behind all others. -/
theorem alter_eq_some {change : Option Value → Option Value}
    (h : t.alter key change = some t') :
    (∃ v, key ∉ t.map Prod.fst ∧ change none = some v ∧ t' = t ++ [(key, v)]) ∨
      ∃ before v after w, t = before ++ (key, v) :: after ∧ change (some v) = some w ∧
        t' = before ++ (key, w) :: after := by
  induction t generalizing t' with
  | nil =>
    obtain ⟨v, hv, rfl⟩ := Option.map_eq_some_iff.mp h
    exact .inl ⟨v, List.not_mem_nil, hv, rfl⟩
  | cons e t ih =>
    obtain ⟨k, held⟩ := e
    rw [alter] at h
    split at h
    · next heq =>
      obtain ⟨w, hw, rfl⟩ := Option.map_eq_some_iff.mp h
      rw [heq]
      exact .inr ⟨[], held, t, w, rfl, hw, rfl⟩
    · next hne =>
      obtain ⟨rest, hrest, rfl⟩ := Option.map_eq_some_iff.mp h
      rcases ih hrest with ⟨v, hkey, hv, rfl⟩ | ⟨before, v, after, w, rfl, hw, rfl⟩
      · refine .inl ⟨v, ?_, hv, rfl⟩
        rw [List.map_cons, List.mem_cons, not_or]
        exact ⟨fun heq => hne heq.symm, hkey⟩
      · exact .inr ⟨(k, held) :: before, v, after, w, rfl, hw, rfl⟩

/-- Changing what a key holds keeps the keys apart if the change keeps those of what it holds apart.
-/
theorem Keyed.alter {change : Option Value → Option Value} (ht : t.Keyed)
    (hchange : ∀ held w, (∀ v ∈ held, v.Keyed) → change held = some w → w.Keyed)
    (h : t.alter key change = some t') : t'.Keyed := by
  rcases alter_eq_some h with ⟨w, hkey, hw, rfl⟩ | ⟨before, v, after, w, rfl, hw, rfl⟩
  · exact ht.concat hkey (hchange none w nofun hw)
  · have hv : v.Keyed := ht.values (key, v) (by simp)
    have hw : w.Keyed := hchange (some v) w (fun u hu => by cases hu; exact hv) hw
    constructor
    · simpa using ht.distinct
    · intro e he
      rw [List.mem_append, List.mem_cons] at he
      rcases he with he | rfl | he
      · exact ht.values e (by simp [he])
      · exact hw
      · exact ht.values e (by simp [he])

/-- Wherever the change succeeds, keys that were apart still are. -/
def Keeps (change : Table → Option Table) : Prop :=
  ∀ t t' : Table, t.Keyed → change t = some t' → t'.Keyed

section

variable {change : Table → Option Table} {origin : Origin} {entries : Table} {items : List Table}

theorem Keeps.table (hchange : Keeps change) (h : entries.Keyed)
    (hw : (change entries).map (.table origin) = some w) : w.Keyed := by
  obtain ⟨entries', hentries, rfl⟩ := Option.map_eq_some_iff.mp hw
  exact Value.keyed_table_iff.mpr (hchange _ _ h hentries)

theorem Keeps.changeLast {items' : List Table} (hchange : Keeps change)
    (h : ∀ t ∈ items, Keyed t) (hitems : changeLast change items = some items') :
    ∀ t ∈ items', Keyed t := by
  fun_induction Toml.changeLast change items generalizing items' with
  | case1 => cases hitems
  | case2 t =>
    obtain ⟨t', ht', rfl⟩ := Option.map_eq_some_iff.mp hitems
    exact List.forall_mem_singleton.mpr (hchange _ _ (h t List.mem_cons_self) ht')
  | case3 t t₂ rest ih =>
    obtain ⟨rest', hrest', rfl⟩ := Option.map_eq_some_iff.mp hitems
    rw [List.forall_mem_cons] at h ⊢
    exact ⟨h.1, ih h.2 hrest'⟩

theorem Keeps.tables (hchange : Keeps change) (h : ∀ t ∈ items, Keyed t)
    (hw : (Toml.changeLast change items).map .tables = some w) : w.Keyed := by
  obtain ⟨items', hitems, rfl⟩ := Option.map_eq_some_iff.mp hw
  exact Value.keyed_tables_iff.mpr (hchange.changeLast h hitems)

end

/-! ### Dotted keys and headers -/

theorem keeps_insertDotted {way : List String} (hv : v.Keyed) :
    Keeps (insertDotted way key v) := by
  induction way with
  | nil =>
    intro t t' ht h
    refine ht.alter ?_ h
    intro held w _ hw
    cases held with
    | none =>
      cases hw
      exact hv
    | some _ => cases hw
  | cons step later ih =>
    intro t t' ht h
    refine ht.alter ?_ h
    intro held w hheld hw
    split at hw
    · exact ih.table keyed_nil hw
    · next origin entries =>
      split at hw
      · exact ih.table (Value.keyed_table_iff.mp (hheld _ rfl)) hw
      · cases hw
    · next items =>
      split at hw
      · exact ih.tables (Value.keyed_tables_iff.mp (hheld _ rfl)) hw
      · cases hw
    · cases hw

theorem keeps_within {way : List String} {change : Table → Option Table} (hchange : Keeps change) :
    Keeps (within way change) := by
  induction way with
  | nil => exact hchange
  | cons step later ih =>
    intro t t' ht h
    refine ht.alter ?_ h
    intro held w hheld hw
    split at hw
    · exact ih.table keyed_nil hw
    · next origin entries =>
      split at hw
      · cases hw
      · exact ih.table (Value.keyed_table_iff.mp (hheld _ rfl)) hw
    · next items => exact ih.tables (Value.keyed_tables_iff.mp (hheld _ rfl)) hw
    · cases hw

theorem not_mem_keys_of_get? (h : t.get? key = none) : key ∉ t.map Prod.fst := by
  rw [get?, List.lookup_eq_none_iff] at h
  intro hkey
  obtain ⟨e, he, rfl⟩ := List.mem_map.mp hkey
  simpa using h e he

theorem mem_of_get? (h : t.get? key = some v) : (key, v) ∈ t := by
  obtain ⟨before, after, rfl, -⟩ := List.lookup_eq_some_iff.mp h
  exact List.mem_append_right before List.mem_cons_self

theorem keeps_openTable : Keeps (openTable key) := by
  intro t t' ht h
  rw [openTable] at h
  split at h
  · next hnone =>
    cases h
    exact ht.concat (not_mem_keys_of_get? hnone) (Value.keyed_table_iff.mpr keyed_nil)
  · next entries himplied =>
    cases h
    have hvalue := ht.values _ (mem_of_get? himplied)
    exact ht.erase.concat not_mem_keys_erase
      (Value.keyed_table_iff.mpr (Value.keyed_table_iff.mp hvalue))
  · cases h

theorem keeps_openRepeated : Keeps (openRepeated key) := by
  intro t t' ht h
  refine ht.alter ?_ h
  intro held w hheld hw
  split at hw
  · cases hw
    exact Value.keyed_tables_iff.mpr (List.forall_mem_singleton.mpr keyed_nil)
  · next items =>
    cases hw
    rw [Value.keyed_tables_iff, List.forall_mem_append]
    exact ⟨Value.keyed_tables_iff.mp (hheld _ rfl), List.forall_mem_singleton.mpr keyed_nil⟩
  · cases hw

/-- The entries of an inline table keep their keys apart, or there is no such table. -/
theorem keyed_ofPairs {pairs : List (List String × String × Value)}
    (hpairs : ∀ p ∈ pairs, p.2.2.Keyed) (h : ofPairs pairs = some t) : t.Keyed := by
  apply foldlM_keeps keyed_nil _ h
  intro t t' p hp ht ht'
  exact keeps_insertDotted (hpairs p hp) t t' ht ht'

end Table

/-! ### Values that are read -/

theorem yields_flat : value.flat.Yields Value.Keyed := by
  apply Reader.Yields.byNext
  intro c
  split
  · exact Reader.Yields.any.map fun _ => .text _
  · split
    · exact Reader.Yields.any.map fun _ => .boolean _
    · exact .orElse (Reader.Yields.any.map fun _ => .moment _)
        (Reader.Yields.any.map fun _ => .number _)

theorem yields_array {item : Reader Value} (hitem : item.Yields Value.Keyed) :
    (array item).Yields Value.Keyed := by
  refine .after fun _ => .after fun _ => .orElse (.after fun _ => .pure (.array nofun)) ?_
  refine .bind (.separated ?_) fun hitems => .after fun _ => .after fun _ => .pure (.array hitems)
  exact .after fun _ => hitem.bind fun hv => .after fun _ => .pure hv

theorem yields_bracedTable {item : Reader Value} (hitem : item.Yields Value.Keyed) :
    (bracedTable item).Yields Value.Keyed := by
  refine .after fun _ => .after fun _ => .bind (P := fun pairs => ∀ p ∈ pairs, p.2.2.Keyed) ?_ ?_
  · refine .orElse (.after fun _ => .pure nofun) (.bind (.separated ?_) fun hpairs =>
      .after fun _ => .pure hpairs)
    exact .after fun _ => .after fun _ => .after fun _ => hitem.bind fun hv =>
      .after fun _ => .pure hv
  · -- The keys between the braces may still contradict each other; then nothing is read.
    intro pairs hpairs
    apply Reader.Yields.ofOption
    intro v hv
    obtain ⟨t, ht, rfl⟩ := Option.map_eq_some_iff.mp hv
    exact Value.keyed_table_iff.mpr (Table.keyed_ofPairs hpairs ht)

/-- No value that is read has a key twice, however deep it is. -/
theorem yields_value (depth : Nat) : (value depth).Yields Value.Keyed := by
  induction depth with
  | zero => exact yields_flat
  | succ depth ih =>
    apply Reader.Yields.byNext
    intro c
    split
    · exact yields_array ih
    · split
      · exact yields_bracedTable ih
      · exact yields_flat

/-! ### Documents -/

/-- A statement that adds a value adds one in which no key occurs twice. -/
def Statement.Keyed : Statement → Prop
  | .table .. | .repeated .. => True
  | .entry _ _ v => v.Keyed

theorem yields_header : header.Yields Statement.Keyed :=
  .orElse (.after fun _ => .after fun _ => .after fun _ => .pure trivial)
    (.after fun _ => .after fun _ => .after fun _ => .pure trivial)

theorem yields_entry : entry.Yields Statement.Keyed :=
  .after fun _ => .after fun _ => .after fun _ => (yields_value maxDepth).bind fun hv => .pure hv

theorem yields_line : line.Yields fun statement => ∀ s ∈ statement, s.Keyed :=
  .after fun _ => (Reader.Yields.orElse yields_header yields_entry).optional.bind fun hs =>
    .after fun _ => .after fun _ => .pure hs

/-- No value in a statement has a key twice. -/
theorem keyed_of_statements {input : List Char} {read : List Statement}
    (h : statements input = some read) : ∀ s ∈ read, s.Keyed := by
  fun_induction statements input generalizing read with
  | case1 => cases h
  | case2 input statement hline =>
    cases h
    simpa using yields_line _ _ _ hline
  | case3 => cases h
  | case4 input statement c rest hline after hafter ih =>
    obtain ⟨later, hlater, rfl⟩ := Option.map_eq_some_iff.mp h
    rw [List.forall_mem_append]
    exact ⟨by simpa using yields_line _ _ _ hline, ih hlater⟩

theorem keyed_of_add {d d' : Draft} {s : Statement} (hd : d.root.Keyed) (hs : s.Keyed)
    (h : d.add s = some d') : d'.root.Keyed := by
  cases s with
  | table way key =>
    obtain ⟨root, hroot, rfl⟩ := Option.map_eq_some_iff.mp h
    exact Table.keeps_within Table.keeps_openTable _ _ hd hroot
  | repeated way key =>
    obtain ⟨root, hroot, rfl⟩ := Option.map_eq_some_iff.mp h
    exact Table.keeps_within Table.keeps_openRepeated _ _ hd hroot
  | entry way key v =>
    obtain ⟨root, hroot, rfl⟩ := Option.map_eq_some_iff.mp h
    exact Table.keeps_within (Table.keeps_insertDotted hs) _ _ hd hroot

/-- Adding statements one after the other keeps the keys of the tree apart. -/
theorem keyed_of_build {read : List Statement} {t : Table} (hread : ∀ s ∈ read, s.Keyed)
    (h : build read = some t) : t.Keyed := by
  obtain ⟨d, hd, rfl⟩ := Option.map_eq_some_iff.mp h
  exact foldlM_keeps (P := fun d => d.root.Keyed) Table.keyed_nil
    (fun d d' s hs hkeyed hadd => keyed_of_add hkeyed (hread s hs) hadd) hd

/-- In the tree of a document no key occurs twice in a table, at any depth. -/
theorem keyed_of_parse {text : String} {t : Table} (h : parse text = some t) : t.Keyed := by
  obtain ⟨read, hread, hbuild⟩ := Option.bind_eq_some_iff.mp h
  exact keyed_of_build (keyed_of_statements hread) hbuild

end PacketWire.Toml
