import PacketWire.Proofs.Config.OfText

/-!
# Sections of any form

A section may be a table, whose keys name the settings, or an array, whose items are the settings in
order. Each section is read by itself, starting from the defaults, whatever form the other one has
and whatever else the document holds. So a setting for which a document that is read has a value
ends with what the value means, wherever the value stands (`Config.means_of_ofTable`).
-/

namespace PacketWire

open Setting
open Toml (Value Table)

/-! ### Where a setting stands -/

namespace Setting

variable {s : Setting} {v : Value}

/-- The section has that value for the setting: under its key, or at its place in an array. -/
inductive StandsIn (s : Setting) (v : Value) : Value → Prop
  | keyed {origin entries} : (s.key, v) ∈ entries → StandsIn s v (.table origin entries)
  | placed {items} : (s, v) ∈ (inTable s.table).zip items → StandsIn s v (.array items)
  | repeated {items} : (s, v) ∈ (inTable s.table).zip (items.map (.table .header)) →
      StandsIn s v (.tables items)

/-- The document has that value for the setting, whatever the form of its section. -/
def Has (t : Table) (s : Setting) (v : Value) : Prop :=
  ∃ top, (s.table, top) ∈ t ∧ s.StandsIn v top

theorem nodup_inTable (name : String) : (inTable name).Nodup :=
  List.Nodup.filter _ (by decide : all.Nodup)

/-- An array has one item at each place. -/
theorem unique_of_mem_zip {settings : List Setting} {items : List Value} (hnodup : settings.Nodup)
    {w : Value} (hv : (s, v) ∈ settings.zip items) (hw : (s, w) ∈ settings.zip items) : v = w := by
  induction settings generalizing items with
  | nil => cases hv
  | cons s' settings ih =>
    cases items with
    | nil => cases hv
    | cons item items =>
      obtain ⟨hfirst, hnodup⟩ := List.nodup_cons.mp hnodup
      rw [List.zip_cons_cons, List.mem_cons, Prod.mk.injEq] at hv hw
      rcases hv with ⟨rfl, rfl⟩ | hv
      · rcases hw with ⟨-, rfl⟩ | hw
        · rfl
        · exact absurd (List.of_mem_zip hw).1 hfirst
      · rcases hw with ⟨rfl, rfl⟩ | hw
        · exact absurd (List.of_mem_zip hv).1 hfirst
        · exact ih hnodup hv hw

end Setting

/-! ### One section -/

section

variable {σ : Type} {around : σ → Config} {fields : List (Field σ)}

/-- An array is read by setting the settings at its places one after the other. -/
theorem Field.map_ofItems {settings : List Setting}
    (hfields : List.Forall₂ (StandsFor around) fields settings) (x : σ) (items : List Value) :
    (ofItems fields x items).map around = (settings.zip items).foldlM assign (around x) := by
  induction hfields generalizing x items with
  | nil => rfl
  | @cons f s fields settings hfield _ ih =>
    cases items with
    | nil => rfl
    | cons v items =>
      rw [List.zip_cons_cons, List.foldlM_cons, ← hfield.set x v, ofItems, List.zip_cons_cons,
        List.foldlM_cons]
      cases f.set x v with
      | error cause => rfl
      | ok y => exact ih y items

/-- Whatever the form of the section, a setting for which it has a value is what the value means. -/
theorem Field.means_of_ofValue {s : Setting} {v top : Value} {expected : Expected} {x y : σ}
    (hfields : List.Forall₂ (StandsFor around) fields (inTable s.table)) (htop : top.Keyed)
    (hv : s.StandsIn v top) (h : ofValue fields expected x top = .ok y) :
    s.Means v (s.get (around y)) := by
  -- The settings of an array are at most one for each place.
  have hplaced : ∀ items : List Value, (s, v) ∈ (inTable s.table).zip items →
      ofItems fields x items = .ok y → s.Means v (s.get (around y)) := by
    intro items hmem hitems
    have hassign := map_ofItems hfields x items
    rw [hitems] at hassign
    apply means_of_foldlM_assign ?_ hassign.symm hmem
    intro s v w
    exact unique_of_mem_zip (nodup_inTable _)
  cases hv with
  | @keyed origin entries hmem =>
    have hassign := map_ofEntries hfields x entries
    rw [show ofEntries fields x entries = .ok y from h] at hassign
    apply means_of_foldlM_assign ?_ hassign.symm (mem_ofEntries_iff.mpr ⟨rfl, hmem⟩)
    intro s v w hv hw
    rw [mem_ofEntries_iff] at hv hw
    exact (Toml.Value.keyed_table_iff.mp htop).unique hv.2 hw.2
  | placed hmem => exact hplaced _ hmem h
  | repeated hmem => exact hplaced _ hmem h

/-- What holds after the entry with the key, and is kept by entries with other keys, holds in the
end. -/
theorem Field.holds_of_ofEntries {P : σ → Prop} {entries : Table} {key : String} {v : Value}
    {x y : σ} (hdistinct : (entries.map Prod.fst).Nodup) (hmem : (key, v) ∈ entries)
    (hset : ∀ x y, setNamed fields x (key, v) = .ok y → P y)
    (hkeep : ∀ x y k w, k ≠ key → P x → setNamed fields x (k, w) = .ok y → P y)
    (h : ofEntries fields x entries = .ok y) : P y := by
  obtain ⟨before, after, rfl⟩ := List.append_of_mem hmem
  rw [ofEntries, List.foldlM_append, bind_eq_ok_iff] at h
  obtain ⟨reached, -, h⟩ := h
  rw [List.foldlM_cons, bind_eq_ok_iff] at h
  obtain ⟨next, hnext, h⟩ := h
  apply foldlM_keeps (hset reached next hnext) ?_ h
  rintro x y ⟨k, w⟩ hw hx hy
  apply hkeep x y k w ?_ hx hy
  rintro rfl
  rw [List.map_append, List.map_cons, List.nodup_append'] at hdistinct
  exact (List.nodup_cons.mp hdistinct.2.1).1 (List.mem_map.mpr ⟨_, hw, rfl⟩)

end

/-! ### All sections -/

namespace Config

variable {t : Table} {c c' : Config} {key : String} {v : Value}

/-- A section that is read takes the place of the one before, and leaves the other one alone. -/
theorem of_setNamed (h : Field.setNamed fields c (key, v) = .ok c') :
    (if key = "codec" then Field.ofValue CodecSettings.fields .codecSettings {} v = .ok c'.codec
      else c'.codec = c.codec) ∧
    (if key = "logging" then Field.ofValue LogSettings.fields .logSettings {} v = .ok c'.logging
      else c'.logging = c.logging) := by
  by_cases hcodec : key = "codec"
  · subst hcodec
    obtain ⟨x, hx, hc'⟩ := bind_eq_ok_iff.mp h
    cases hc'
    exact ⟨hx, rfl⟩
  · by_cases hlogging : key = "logging"
    · subst hlogging
      obtain ⟨x, hx, hc'⟩ := bind_eq_ok_iff.mp h
      cases hc'
      exact ⟨rfl, hx⟩
    · have hother : Field.setNamed fields c (key, v) = .ok c := by
        simp [Field.setNamed, fields, Ne.symm hcodec, Ne.symm hlogging]
      rw [hother, Except.ok.injEq] at h
      rw [if_neg hcodec, if_neg hlogging, h]
      exact ⟨rfl, rfl⟩

/-- The codec settings are read from their section and from nothing else. -/
theorem codec_of_ofTable (ht : t.Keyed) (hv : ("codec", v) ∈ t) (h : ofTable t = .ok c) :
    Field.ofValue CodecSettings.fields .codecSettings {} v = .ok c.codec := by
  apply Field.holds_of_ofEntries ht.distinct hv ?_ ?_ h
  · intro x y hxy
    exact (of_setNamed hxy).1
  · intro x y k w hk hx hxy
    have hsame := (of_setNamed hxy).1
    rw [if_neg hk] at hsame
    rw [hsame]
    exact hx

theorem logging_of_ofTable (ht : t.Keyed) (hv : ("logging", v) ∈ t) (h : ofTable t = .ok c) :
    Field.ofValue LogSettings.fields .logSettings {} v = .ok c.logging := by
  apply Field.holds_of_ofEntries ht.distinct hv ?_ ?_ h
  · intro x y hxy
    exact (of_setNamed hxy).2
  · intro x y k w hk hx hxy
    have hsame := (of_setNamed hxy).2
    rw [if_neg hk] at hsame
    rw [hsame]
    exact hx

/-- A setting for which the document has a value is what the value means. -/
theorem means_of_ofTable {s : Setting} (ht : t.Keyed) (hv : s.Has t v) (h : ofTable t = .ok c) :
    s.Means v (s.get c) := by
  obtain ⟨top, htop, hstands⟩ := hv
  have hkeyed : top.Keyed := ht.values _ htop
  rcases table_eq s with hcodec | hlogging
  · rw [hcodec] at htop
    have hread := codec_of_ofTable ht htop h
    have hfields := codec_fields c
    rw [← hcodec] at hfields
    exact Field.means_of_ofValue hfields hkeyed hstands hread
  · rw [hlogging] at htop
    have hread := logging_of_ofTable ht htop h
    have hfields := logging_fields c
    rw [← hlogging] at hfields
    exact Field.means_of_ofValue hfields hkeyed hstands hread

theorem means_of_ofText {s : Setting} {text : String} (hparse : Toml.parse text = some t)
    (hv : s.Has t v) (h : ofText text = .ok c) : s.Means v (s.get c) := by
  rw [ofText_of_parse hparse, mapError_eq_ok_iff] at h
  exact means_of_ofTable (Toml.keyed_of_parse hparse) hv h

end Config

end PacketWire
