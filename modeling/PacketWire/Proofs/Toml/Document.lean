import PacketWire.Proofs.Toml.Line

/-!
# Documents read back

A document that is written is read back as the tree of its sections (`parse_spellDocument`), as
long as its names and keys may stand without quotes and none of them occurs twice.
-/

namespace PacketWire.Toml

variable {s : Section} {sections : List Section} {rest : List Char}

/-! ### Sections -/

/-- A section that can be written: bare keys, none of them twice, with values that fit. -/
structure Section.WellFormed (s : Section) : Prop where
  name : Bare s.name
  keys : ∀ e ∈ s.entries, Bare e.1
  values : ∀ e ∈ s.entries, e.2.Fits
  distinct : (s.entries.map Prod.fst).Nodup

def entryStatement (entry : String × Scalar) : Statement := .entry [] entry.1 entry.2.value

def Section.statements (s : Section) : List Statement :=
  .table [] s.name :: s.entries.map entryStatement

def Section.tree (s : Section) : String × Value :=
  (s.name, .table .header (s.entries.map fun entry => (entry.1, entry.2.value)))

/-! ### Statements -/

theorem statements_of_line {input : List Char} {statement : Option Statement}
    (h : line.run input = some (statement, '\n' :: rest)) :
    statements input = (statements rest).map fun later => statement.toList ++ later := by
  rw [statements]
  split
  · next hnone => simp [h] at hnone
  · next hsome => simp [h] at hsome
  · next statement' c after hsome =>
    rw [h] at hsome
    cases hsome
    split
    · next hafter => cases hafter
    · next hafter =>
      cases hafter
      rfl

theorem statements_nil : statements [] = some [] := by
  have hname : dottedKey.run [] = none :=
    Reader.run_bind_of_none (Reader.run_separated_of_none rfl)
  have hentry : entry.run [] = none := by rw [entry, Reader.run_bind_of_none hname]
  have hline : line.run [] = some (none, []) := by
    rw [line, Reader.run_bind_of run_spaces, List.dropWhile_nil]
    refine (Reader.run_bind_of (Reader.run_optional_of_none ?_)).trans rfl
    rw [Reader.run_orElse_of_none (run_header_of_notNext Reader.notNext_nil), hentry]
  rw [statements]
  split
  · next hnone => simp [hline] at hnone
  · next hsome =>
    rw [hline] at hsome
    cases hsome
    rfl
  · next hsome => simp [hline] at hsome

/-- The entries of a section are read as they were spelled, whatever follows them. -/
theorem statements_spellEntries {entries : List (String × Scalar)}
    (hkeys : ∀ e ∈ entries, Bare e.1) (hvalues : ∀ e ∈ entries, e.2.Fits) :
    statements (entries.flatMap spellEntry ++ rest) =
      (statements rest).map fun later => entries.map entryStatement ++ later := by
  induction entries with
  | nil => simp
  | cons entry entries ih =>
    obtain ⟨hkey, hkeys⟩ := List.forall_mem_cons.mp hkeys
    obtain ⟨hvalue, hvalues⟩ := List.forall_mem_cons.mp hvalues
    rw [List.flatMap_cons, List.append_assoc, statements_of_line (run_line_entry hkey hvalue),
      ih hkeys hvalues, Option.map_map]
    rfl

theorem statements_spell (hs : s.WellFormed) :
    statements (s.spell ++ rest) = (statements rest).map fun later => s.statements ++ later := by
  have hspell : s.spell ++ rest =
      '[' :: (s.name.toList ++ ']' :: '\n' :: (s.entries.flatMap spellEntry ++ rest)) := by
    simp [Section.spell]
  rw [hspell, statements_of_line (run_line_header hs.name),
    statements_spellEntries hs.keys hs.values, Option.map_map]
  rfl

/-- Sections with empty lines between them are read one after the other. -/
theorem statements_sections (hs : ∀ s ∈ sections, s.WellFormed) :
    statements (List.intercalate ['\n'] (sections.map Section.spell)) =
      some (sections.flatMap Section.statements) := by
  induction sections with
  | nil => exact statements_nil
  | cons s sections ih =>
    obtain ⟨hfirst, hs⟩ := List.forall_mem_cons.mp hs
    cases sections with
    | nil =>
      have hone : statements (s.spell ++ []) = _ := statements_spell hfirst
      simpa [List.intercalate, statements_nil] using hone
    | cons next sections =>
      -- An empty line stands before the next section.
      have hmore : List.intercalate ['\n'] ((s :: next :: sections).map Section.spell) =
          s.spell ++ '\n' :: List.intercalate ['\n'] ((next :: sections).map Section.spell) := by
        simp [List.intercalate]
      rw [hmore, statements_spell hfirst, statements_of_line run_line_empty, ih hs]
      rfl

/-! ### Trees -/

/-- What a key holds may be changed behind tables that do not have the key. -/
theorem alter_append {key : String} {change : Option Value → Option Value} {before later : Table}
    (hkey : key ∉ before.map Prod.fst) :
    Table.alter key change (before ++ later) =
      (Table.alter key change later).map (before ++ ·) := by
  induction before with
  | nil => simp
  | cons entry before ih =>
    obtain ⟨k, v⟩ := entry
    simp only [List.map_cons, List.mem_cons, not_or] at hkey
    rw [List.cons_append, Table.alter, if_neg (Ne.symm hkey.1), ih hkey.2, Option.map_map]
    rfl

/-- A key that is not present is added at the end. -/
theorem insertDotted_of_not_mem {key : String} {v : Value} {t : Table}
    (hkey : key ∉ t.map Prod.fst) : Table.insertDotted [] key v t = some (t ++ [(key, v)]) := by
  have hend : ∀ change, Table.alter key change (t ++ []) =
      (Table.alter key change []).map (t ++ ·) := by
    intro change
    exact alter_append hkey
  rw [List.append_nil] at hend
  rw [Table.insertDotted, hend]
  rfl

/-- A table that is not present is opened at the end. -/
theorem openTable_of_not_mem {key : String} {t : Table} (hkey : key ∉ t.map Prod.fst) :
    Table.openTable key t = some (t ++ [(key, .table .header [])]) := by
  have hnone : t.get? key = none := by
    rw [Table.get?, List.lookup_eq_none_iff]
    intro entry hentry
    rw [bne_iff_ne]
    rintro rfl
    exact hkey (List.mem_map_of_mem hentry)
  rw [Table.openTable, hnone]

/-- An entry is added to the table that was opened last. -/
theorem add_entry {root entries : Table} {name key : String} {v : Value}
    (hname : name ∉ root.map Prod.fst) (hkey : key ∉ entries.map Prod.fst) :
    Draft.add ⟨root ++ [(name, .table .header entries)], [name]⟩ (.entry [] key v) =
      some ⟨root ++ [(name, .table .header (entries ++ [(key, v)]))], [name]⟩ := by
  have hlast : Table.within [name] (Table.insertDotted [] key v)
      (root ++ [(name, .table .header entries)]) =
        some (root ++ [(name, .table .header (entries ++ [(key, v)]))]) := by
    rw [Table.within, alter_append hname, Table.alter, if_pos rfl]
    simp only [reduceCtorEq, if_false, Table.within]
    rw [insertDotted_of_not_mem hkey]
    rfl
  rw [Draft.add, hlast]
  rfl

/-- Entries go into the table that was opened last. -/
theorem foldlM_add_entries {root : Table} (before : Table) {name : String}
    {entries : List (String × Scalar)} (hname : name ∉ root.map Prod.fst)
    (hdistinct : (before.map Prod.fst ++ entries.map Prod.fst).Nodup) :
    (entries.map entryStatement).foldlM Draft.add
        ⟨root ++ [(name, .table .header before)], [name]⟩ =
      some ⟨root ++ [(name, .table .header
        (before ++ entries.map fun entry => (entry.1, entry.2.value)))], [name]⟩ := by
  induction entries generalizing before with
  | nil => simp
  | cons entry entries ih =>
    -- The entries read so far keep the keys of those to come free.
    have hkey : entry.1 ∉ before.map Prod.fst := fun hmem =>
      (List.nodup_append.mp hdistinct).2.2 _ hmem entry.1 (by simp) rfl
    rw [List.map_cons, List.foldlM_cons, entryStatement, add_entry hname hkey,
      Option.bind_eq_bind, Option.bind_some, ih _ (by simpa using hdistinct)]
    simp

/-- The statements of a section put it at the end of the tree. -/
theorem foldlM_add_section {d : Draft} (hs : s.WellFormed) (hname : s.name ∉ d.root.map Prod.fst) :
    s.statements.foldlM Draft.add d = some ⟨d.root ++ [s.tree], [s.name]⟩ := by
  have hopen : d.add (.table [] s.name) =
      some ⟨d.root ++ [(s.name, .table .header [])], [s.name]⟩ := by
    rw [Draft.add, Table.within, openTable_of_not_mem hname]
    rfl
  rw [Section.statements, List.foldlM_cons, hopen, Option.bind_eq_bind, Option.bind_some,
    foldlM_add_entries [] hname hs.distinct]
  rfl

theorem foldlM_add_sections {d : Draft} (hs : ∀ s ∈ sections, s.WellFormed)
    (hdistinct : (d.root.map Prod.fst ++ sections.map Section.name).Nodup) :
    ∃ current, (sections.flatMap Section.statements).foldlM Draft.add d =
      some ⟨d.root ++ sections.map Section.tree, current⟩ := by
  induction sections generalizing d with
  | nil => exact ⟨d.current, by simp⟩
  | cons s sections ih =>
    obtain ⟨hfirst, hs⟩ := List.forall_mem_cons.mp hs
    have hname : s.name ∉ d.root.map Prod.fst := fun hmem =>
      (List.nodup_append.mp hdistinct).2.2 _ hmem s.name (by simp) rfl
    have hrest : ((d.root ++ [s.tree]).map Prod.fst ++ sections.map Section.name).Nodup := by
      simpa [Section.tree] using hdistinct
    obtain ⟨current, hrun⟩ := ih (d := ⟨d.root ++ [s.tree], [s.name]⟩) hs hrest
    refine ⟨current, ?_⟩
    rw [List.flatMap_cons, List.foldlM_append, foldlM_add_section hfirst hname,
      Option.bind_eq_bind, Option.bind_some, hrun]
    simp

/-- The tree of some sections has one table for each. -/
theorem build_sections (hs : ∀ s ∈ sections, s.WellFormed)
    (hdistinct : (sections.map Section.name).Nodup) :
    build (sections.flatMap Section.statements) = some (sections.map Section.tree) := by
  obtain ⟨current, hrun⟩ := foldlM_add_sections (d := {}) hs hdistinct
  rw [build, hrun]
  rfl

/-! ### Documents -/

/-- A document begins with a bracket or is empty, so no mark in front of it is skipped. -/
theorem withoutMark_sections :
    withoutMark (List.intercalate ['\n'] (sections.map Section.spell)) =
      List.intercalate ['\n'] (sections.map Section.spell) := by
  match sections with
  | [] => rfl
  | [s] => rfl
  | s :: next :: sections => rfl

/-- A document that is written is read back as the tree of its sections. -/
theorem parse_spellDocument (hs : ∀ s ∈ sections, s.WellFormed)
    (hdistinct : (sections.map Section.name).Nodup) :
    parse (spellDocument sections) = some (sections.map Section.tree) := by
  rw [parse, spellDocument, String.toList_ofList, withoutMark_sections, statements_sections hs,
    Option.bind_eq_bind, Option.bind_some, build_sections hs hdistinct]

end PacketWire.Toml
