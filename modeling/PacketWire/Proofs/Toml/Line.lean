import PacketWire.Proofs.Toml.Value
import PacketWire.Toml.Document

/-!
# Lines read back

The lines of a section, each read back from its spelling: its header, its entries, and the empty
line behind it. What follows the line end is arbitrary.
-/

namespace PacketWire.Toml

open Reader (NotNext)

variable {key : String} {v : Scalar} {input rest : List Char}

/-! ### Keys -/

/-- A key that may stand without quotes. -/
structure Bare (key : String) : Prop where
  nonempty : key.toList ≠ []
  chars : ∀ c ∈ key.toList, isBareKey c = true

instance : Decidable (Bare key) :=
  decidable_of_iff ((!key.toList.isEmpty && key.toList.all isBareKey) = true) (by
    rw [Bool.and_eq_true, Bool.not_eq_true', List.isEmpty_eq_false_iff, List.all_eq_true]
    exact ⟨fun h => ⟨h.1, h.2⟩, fun h => ⟨h.nonempty, h.chars⟩⟩)

theorem ne_of_isBareKey {c d : Char} (hc : isBareKey c = true) (hd : isBareKey d = false) :
    c ≠ d := by
  rintro rfl
  simp [hc] at hd

theorem isSpace_of_isBareKey {c : Char} (hc : isBareKey c = true) : isSpace c = false := by
  rw [isSpace, Bool.or_eq_false_iff, decide_eq_false_iff_not, decide_eq_false_iff_not]
  exact ⟨ne_of_isBareKey hc rfl, ne_of_isBareKey hc rfl⟩

/-- A bare key begins with one of its characters, so with none that has a meaning. -/
theorem Bare.notNext {p : Char → Bool} (hkey : Bare key)
    (hp : ∀ c, isBareKey c = true → p c = false) : NotNext p (key.toList ++ rest) := by
  obtain ⟨c, cs, hcs⟩ := List.exists_cons_of_ne_nil hkey.nonempty
  rw [hcs]
  exact Reader.notNext_cons.mpr (hp c (hkey.chars c (by simp [hcs])))

theorem Bare.notNext_of_ne {d : Char} (hkey : Bare key) (hd : isBareKey d = false) :
    NotNext (· = d) (key.toList ++ rest) :=
  hkey.notNext fun _ hc => decide_eq_false (ne_of_isBareKey hc hd)

/-- A bare key is read up to the first character that no bare key has. -/
theorem run_simpleKey (hkey : Bare key) (hrest : NotNext isBareKey rest) :
    simpleKey.run (key.toList ++ rest) = some (key, rest) := by
  have hrun := Reader.run_takeWhile₁ hkey.chars hkey.nonempty hrest
  obtain ⟨c, cs, hcs⟩ := List.exists_cons_of_ne_nil hkey.nonempty
  have hc : isBareKey c = true := hkey.chars c (by simp [hcs])
  rw [hcs, List.cons_append] at hrun ⊢
  rw [simpleKey, Reader.run_byNext, if_neg (ne_of_isBareKey hc rfl),
    if_neg (ne_of_isBareKey hc rfl), Reader.run_map_of hrun, ← hcs, String.ofList_toList]

theorem run_spaces : spaces.run input = some ((), input.dropWhile isSpace) := rfl

/-- A key of one part, with the spaces behind it. -/
theorem run_dottedKey (hkey : Bare key) (hrest : NotNext isBareKey rest)
    (hdot : NotNext (· = '.') (rest.dropWhile isSpace)) :
    dottedKey.run (key.toList ++ rest) = some (([], key), rest.dropWhile isSpace) := by
  have hspaces : (key.toList ++ rest).dropWhile isSpace = key.toList ++ rest :=
    Reader.dropWhile_eq_self (hkey.notNext fun _ hc => isSpace_of_isBareKey hc)
  have hpart : (do
      spaces
      let key ← simpleKey
      spaces
      return key).run (key.toList ++ rest) = some (key, rest.dropWhile isSpace) := by
    rw [Reader.run_bind_of run_spaces, hspaces, Reader.run_bind_of (run_simpleKey hkey hrest),
      Reader.run_bind_of run_spaces, Reader.run_pure]
  rw [dottedKey, Reader.run_bind_of (Reader.run_separated_of hpart hdot)]
  rfl

/-! ### Statements -/

theorem run_header (hkey : Bare key) :
    header.run ('[' :: (key.toList ++ ']' :: rest)) = some (.table [] key, rest) := by
  -- A second bracket would open repeated tables, but the name is bare.
  have hfirst : (Reader.exactly ['[', '[']).run ('[' :: (key.toList ++ ']' :: rest)) = none := by
    rw [Reader.run_exactly_cons]
    exact Reader.run_exactly_of_notNext (hkey.notNext_of_ne rfl)
  have hname : dottedKey.run (key.toList ++ ']' :: rest) = some (([], key), ']' :: rest) :=
    run_dottedKey hkey (by simp [isBareKey]) (by simp [isSpace])
  rw [header, Reader.run_orElse_of_none (Reader.run_bind_of_none hfirst),
    Reader.run_bind_of Reader.run_char, Reader.run_bind_of hname,
    Reader.run_bind_of Reader.run_char, Reader.run_pure]

theorem run_header_of_notNext (h : NotNext (· = '[') input) : header.run input = none := by
  rw [header, Reader.run_orElse_of_none (Reader.run_bind_of_none (Reader.run_exactly_of_notNext h))]
  exact Reader.run_bind_of_none (Reader.run_char_of_notNext h)

theorem spellEntry_append :
    spellEntry (key, v) ++ rest =
      key.toList ++ ' ' :: '=' :: ' ' :: (v.spell ++ '\n' :: rest) := by
  simp [spellEntry]

theorem run_entry (hkey : Bare key) (hv : v.Fits) :
    entry.run (spellEntry (key, v) ++ rest) = some (.entry [] key v.value, '\n' :: rest) := by
  have hname : dottedKey.run (key.toList ++ ' ' :: '=' :: ' ' :: (v.spell ++ '\n' :: rest)) =
      some (([], key), '=' :: ' ' :: (v.spell ++ '\n' :: rest)) :=
    run_dottedKey hkey (by simp [isBareKey]) (by simp [isSpace])
  have hspaces : (' ' :: (v.spell ++ '\n' :: rest)).dropWhile isSpace =
      v.spell ++ '\n' :: rest := by
    obtain ⟨c, cs, hspell, hc, -⟩ := v.spell_eq_cons
    rw [hspell, List.cons_append, List.dropWhile_cons_of_pos rfl,
      Reader.dropWhile_eq_self (Reader.notNext_cons.mpr hc)]
  rw [spellEntry_append, entry, Reader.run_bind_of hname, Reader.run_bind_of Reader.run_char,
    Reader.run_bind_of run_spaces, hspaces, Reader.run_bind_of (run_value hv maxDepth),
    Reader.run_pure]

/-! ### Lines -/

/-- A line with a statement. -/
theorem run_line {statement : Statement} (hstart : NotNext isSpace input)
    (h : (Reader.orElse header entry).run input = some (statement, '\n' :: rest)) :
    line.run input = some (some statement, '\n' :: rest) := by
  rw [line, Reader.run_bind_of run_spaces, Reader.dropWhile_eq_self hstart,
    Reader.run_bind_of (Reader.run_optional_of h), Reader.run_bind_of run_spaces]
  rfl

theorem run_line_header (hkey : Bare key) :
    line.run ('[' :: (key.toList ++ ']' :: '\n' :: rest)) =
      some (some (.table [] key), '\n' :: rest) :=
  run_line (Reader.notNext_cons.mpr rfl) (Reader.run_orElse_of (run_header hkey))

theorem run_line_entry (hkey : Bare key) (hv : v.Fits) :
    line.run (spellEntry (key, v) ++ rest) =
      some (some (.entry [] key v.value), '\n' :: rest) := by
  have hentry : entry.run (spellEntry (key, v) ++ rest) =
      some (.entry [] key v.value, '\n' :: rest) := run_entry hkey hv
  rw [spellEntry_append] at hentry ⊢
  -- A line is tried as a header first, and a bare key does not begin with a bracket.
  apply run_line (hkey.notNext fun _ hc => isSpace_of_isBareKey hc)
  rw [Reader.run_orElse_of_none (run_header_of_notNext (hkey.notNext_of_ne rfl)), hentry]

/-- An empty line says nothing. -/
theorem run_line_empty : line.run ('\n' :: rest) = some (none, '\n' :: rest) := by
  have hname : dottedKey.run ('\n' :: rest) = none :=
    Reader.run_bind_of_none (Reader.run_separated_of_none rfl)
  have hnone : (Reader.orElse header entry).run ('\n' :: rest) = none := by
    rw [Reader.run_orElse_of_none (run_header_of_notNext (Reader.notNext_cons.mpr rfl)), entry,
      Reader.run_bind_of_none hname]
  rw [line, Reader.run_bind_of run_spaces]
  refine (Reader.run_bind_of (Reader.run_optional_of_none hnone)).trans ?_
  rfl

end PacketWire.Toml
