import PacketWire.Config.Source
import PacketWire.Config.ToText
import PacketWire.Proofs.Except
import PacketWire.Proofs.Toml.Document

/-!
# A configuration read back

Every configuration that can be written is read back from its text with all its fields.
-/

namespace PacketWire

open Toml (Bare Scalar Section)

/-! ### Fields -/

theorem Format.ofName_name (f : Format) : ofName f.name = .ok f := by
  cases f <;> rfl

theorem Level.parse?_name (l : Level) : parse? l.name = some l := by
  cases l <;> decide

theorem Level.ofValue_name (l : Level) : ofValue (.text l.name) = .ok l := by
  rw [ofValue, textOfValue, ok_bind, parse?_name]
  rfl

/-- A size is the same number with a sign as long as it fits. -/
theorem sizeOfValue_natural {n : UInt64} (h : n.toNat ≤ Int64.maxValue.toInt) :
    sizeOfValue (Scalar.natural n.toNat).value = .ok n := by
  -- The bound as a number, which arithmetic can use.
  have hmax : Int64.maxValue.toInt = 9223372036854775807 := rfl
  have hint : (Int64.ofInt n.toNat).toInt = n.toNat := Int64.toInt_ofInt_of_le (by omega) (by omega)
  have hpos : ¬ Int64.ofInt n.toNat < 0 := by
    rw [Int64.lt_iff_toInt_lt, hint, Int64.toInt_zero]
    omega
  rw [Scalar.value, sizeOfValue, if_neg hpos, Int64.ofInt_eq_ofNat, Int64.toUInt64_ofNat',
    UInt64.ofNat_toNat]

namespace Config

/-- The sections of a configuration can be spelled if its size fits an integer. -/
theorem sections_wellFormed {c : Config} (h : c.codec.maxMessageSize.toNat ≤ Int64.maxValue.toInt) :
    ∀ s ∈ c.sections, s.WellFormed := by
  intro s hs
  simp only [sections, List.mem_cons, List.not_mem_nil, or_false] at hs
  rcases hs with rfl | rfl
  · exact
      { name := (by decide : Bare "codec")
        keys := by
          simp only [List.forall_mem_cons]
          decide
        values := by simpa [Scalar.Fits] using h
        distinct := by simp }
  · exact
      { name := (by decide : Bare "logging")
        keys := by
          simp only [List.forall_mem_cons]
          decide
        values := by simp [Scalar.Fits]
        distinct := by simp }

/-- Every key is found among the fields, and its value sets the field that it was written from. -/
theorem ofTable_sections {c : Config} (h : c.codec.maxMessageSize.toNat ≤ Int64.maxValue.toInt) :
    ofTable (c.sections.map Section.tree) = .ok c := by
  have hformat : Format.ofValue (Scalar.text c.codec.format.name).value = .ok c.codec.format :=
    Format.ofName_name c.codec.format
  have hsize := sizeOfValue_natural h
  have hname : textOfValue (Scalar.text c.logging.appName).value = .ok c.logging.appName := rfl
  have hlevel : Level.ofValue (Scalar.text c.logging.level.name).value = .ok c.logging.level :=
    Level.ofValue_name c.logging.level
  have hjson : truthOfValue (Scalar.boolean c.logging.json).value = .ok c.logging.json := rfl
  have hcodec : Field.ofValue CodecSettings.fields .codecSettings {} (.table .header
      [("kind", (Scalar.text c.codec.format.name).value),
       ("max_message_size", (Scalar.natural c.codec.maxMessageSize.toNat).value)]) =
        .ok c.codec := by
    simp [Field.ofValue, Field.ofEntries, Field.setNamed, CodecSettings.fields, hformat, hsize]
  have hlogging : Field.ofValue LogSettings.fields .logSettings {} (.table .header
      [("app_name", (Scalar.text c.logging.appName).value),
       ("log_level", (Scalar.text c.logging.level.name).value),
       ("json_format", (Scalar.boolean c.logging.json).value)]) = .ok c.logging := by
    simp [Field.ofValue, Field.ofEntries, Field.setNamed, LogSettings.fields, hname, hlevel, hjson]
  simp [ofTable, Field.ofEntries, Field.setNamed, fields, sections, Section.tree, hcodec, hlogging]

/-- A configuration can be written just if its size fits an integer. -/
theorem toText_eq_ok_iff {c : Config} {text : String} :
    c.toText = .ok text ↔
      c.codec.maxMessageSize.toNat ≤ Int64.maxValue.toInt ∧
        text = Toml.spellDocument c.sections := by
  constructor
  · intro htext
    rw [toText] at htext
    split at htext
    · next h =>
      cases htext
      exact ⟨h, rfl⟩
    · cases htext
  · rintro ⟨h, rfl⟩
    rw [toText, if_pos h]

/-- What was written is read as it was. -/
theorem ofText_spellDocument {c : Config}
    (h : c.codec.maxMessageSize.toNat ≤ Int64.maxValue.toInt) :
    ofText (Toml.spellDocument c.sections) = .ok c := by
  have hdistinct : (c.sections.map Section.name).Nodup := by simp [sections]
  rw [ofText, Toml.parse_spellDocument (sections_wellFormed h) hdistinct]
  simp [ofTable_sections h]

/-- A configuration can be written exactly when its size fits into 64 bits with a sign, and what is
written is read back with every field as it was. -/
theorem ofText_toText (c : Config) :
    ((∃ text, c.toText = .ok text) ↔ c.codec.maxMessageSize.toNat ≤ Int64.maxValue.toInt) ∧
      ∀ text, c.toText = .ok text → ofText text = .ok c := by
  simp only [toText_eq_ok_iff]
  constructor
  · constructor
    · rintro ⟨text, h, -⟩
      exact h
    · intro h
      exact ⟨_, h, rfl⟩
  · rintro text ⟨h, rfl⟩
    exact ofText_spellDocument h

end Config

end PacketWire
