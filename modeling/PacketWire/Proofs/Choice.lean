import PacketWire.Format.Basic
import PacketWire.Level
import PacketWire.Proofs.Numeral
import PacketWire.Proofs.Text.Blank

/-!
# What is chosen by a text

Where the listing of a closed set is complete and no two members share a name, a text chooses the
member of which it is the name (`Choice.byName_eq_ok_iff`). A person may choose a format with blanks
and capitals of any kind (`Format.parse_eq_ok_iff`), and a level by its number too; since no name
looks like a numeral, the two ways to choose a level never contradict each other
(`Level.parse?_eq_some_iff`).
-/

namespace PacketWire

/-- Every member of a closed set is listed, under a name of its own without capitals. -/
class LawfulListed (α : Type) [Listed α] : Prop where
  mem_all : ∀ a : α, a ∈ Listed.all
  name_injective : ∀ a b : α, Listed.name a = Listed.name b → a = b
  name_small : ∀ a : α, ∀ c ∈ (Listed.name a).toList, c.isUpper = false

/-! ### Names -/

namespace Choice

variable {α : Type} [Listed α] [LawfulListed α] {name : String} {a : α}

/-- Just the name of a choice finds it: no two choices share a name. -/
theorem named?_eq_some_iff : named? name = some a ↔ name = Listed.name a := by
  constructor
  · intro h
    have found : Listed.name a = name := by simpa using List.find?_some h
    exact found.symm
  · rintro rfl
    have hsome : (named? (α := α) (Listed.name a)).isSome := by
      rw [named?, List.find?_isSome]
      exact ⟨a, LawfulListed.mem_all a, decide_eq_true rfl⟩
    obtain ⟨b, hb⟩ := Option.isSome_iff_exists.mp hsome
    have found : Listed.name b = Listed.name a := by simpa using List.find?_some hb
    rw [hb, LawfulListed.name_injective b a found]

theorem named?_eq_none_iff : named? (α := α) name = none ↔ ∀ a : α, name ≠ Listed.name a := by
  rw [Option.eq_none_iff_forall_ne_some]
  exact forall_congr' fun a => not_congr named?_eq_some_iff

theorem byName_eq_ok_iff : byName name = .ok a ↔ name = Listed.name a := by
  rw [← named?_eq_some_iff, byName]
  cases named? (α := α) name <;> simp

/-- A text that is no name is reported with the names that are. -/
theorem byName_eq_error_iff {e : Error} :
    byName (α := α) name = .error e ↔
      (∀ a : α, name ≠ Listed.name a) ∧
        e = .unknownName name ((Listed.all (α := α)).map Listed.name) := by
  rw [← named?_eq_none_iff, byName]
  cases named? (α := α) name <;> simp [eq_comm]

/-- A folded text is found if it is a name in any mixture of capitals and small letters. -/
theorem named?_foldCase_eq_some_iff {text : String} :
    named? (Text.foldCase text) = some a ↔ Text.SameLetters text (Listed.name a) := by
  rw [named?_eq_some_iff, Text.foldCase_eq_iff (LawfulListed.name_small a)]

end Choice

/-! ### Formats -/

instance : LawfulListed Format where
  mem_all f := by cases f <;> decide
  name_injective f g := by cases f <;> cases g <;> decide
  name_small f := by cases f <;> simp [Listed.name, Format.name]

namespace Format

/-- The text is the name of the format, apart from blanks around it and capitals. -/
def NamedBy (f : Format) (text : String) : Prop :=
  ∃ core, Text.Trimmed text core ∧ Text.SameLetters core f.name

/-- A text is read as a format just if it names that format. -/
theorem parse_eq_ok_iff {text : String} {f : Format} : parse text = .ok f ↔ f.NamedBy text := by
  have hnamed : f.NamedBy text ↔ Choice.named? (Text.foldCase (Text.trim text)) = some f := by
    rw [Choice.named?_foldCase_eq_some_iff]
    exact Text.exists_trimmed_iff
  rw [hnamed, parse]
  cases Choice.named? (α := Format) (Text.foldCase (Text.trim text)) <;> simp

/-- Any other text is reported as it was compared. -/
theorem parse_eq_error_iff {text : String} {u : Unknown} :
    parse text = .error u ↔
      (¬ ∃ f : Format, f.NamedBy text) ∧ u = ⟨Text.foldCase (Text.trim text)⟩ := by
  simp only [← parse_eq_ok_iff]
  rw [parse]
  cases Choice.named? (α := Format) (Text.foldCase (Text.trim text)) <;> simp [eq_comm]

/-- There are no blanks in a name. -/
theorem trimmed_name (f : Format) : Text.Trimmed f.name f.name := by
  apply Text.trimmed_self
  cases f <;> simp [name, Text.isBlank]

end Format

/-! ### Levels -/

instance : LawfulListed Level where
  mem_all l := by cases l <;> decide
  name_injective l k := by cases l <;> cases k <;> decide
  name_small l := by cases l <;> simp [Listed.name, Level.name]

namespace Level

/-- The text is the name of the level, in any mixture of capitals and small letters, or a numeral of
its rank. -/
def NamedBy (l : Level) (text : String) : Prop :=
  Text.SameLetters text l.name ∨ Numeral.Spells text l.rank

theorem ofRank?_eq_some_iff {n : Nat} {l : Level} : ofRank? n = some l ↔ n = l.rank := by
  constructor
  · intro h
    have found : l.rank = n := by simpa using List.find?_some h
    exact found.symm
  · rintro rfl
    cases l <;> rfl

/-- A numeral begins with a digit or a sign, and a name does not. -/
theorem not_sameLetters_of_spells {text : String} {n : Nat} (h : Numeral.Spells text n)
    (l : Level) : ¬ Text.SameLetters text l.name := by
  intro hletters
  obtain ⟨digits, htext, hne, hdigits, -⟩ := h
  obtain ⟨d, rest, rfl⟩ := List.exists_cons_of_ne_nil hne
  have hd : d.isDigit = true := hdigits d List.mem_cons_self
  obtain ⟨first, later, hname, hfirst, hcapital⟩ : ∃ first later, l.name.toList = first :: later ∧
      (first.isDigit = false ∧ first ≠ '+') ∧ first.toUpper.isDigit = false ∧
        first.toUpper ≠ '+' := by
    cases l <;> exact ⟨_, _, rfl, by decide, by decide⟩
  rw [Text.SameLetters, hname] at hletters
  rcases htext with htext | htext
  · rw [htext, List.forall₂_cons] at hletters
    rcases hletters.1 with rfl | rfl
    · rw [hfirst.1] at hd
      cases hd
    · rw [hcapital.1] at hd
      cases hd
  · rw [htext, List.forall₂_cons] at hletters
    rcases hletters.1 with hplus | hplus
    · exact hfirst.2 hplus.symm
    · exact hcapital.2 hplus.symm

/-- A text is read as a level just if it names that level, by name or by number. -/
theorem parse?_eq_some_iff {text : String} {l : Level} : parse? text = some l ↔ l.NamedBy text := by
  rw [parse?, NamedBy]
  split
  · next n hn =>
    have hspells : Numeral.Spells text n.toNat := Numeral.parse_eq_ok_iff.mp hn
    rw [ofRank?_eq_some_iff, or_iff_right (not_sameLetters_of_spells hspells l)]
    constructor
    · intro hrank
      rw [← hrank]
      exact hspells
    · exact hspells.unique
  · next cause hcause =>
    have hother := (Numeral.parse_eq_error_iff.mp hcause).1
    rw [Choice.named?_foldCase_eq_some_iff, or_iff_left]
    · rfl
    · intro hspells
      exact hother ⟨_, hspells⟩

theorem parse?_eq_none_iff {text : String} :
    parse? text = none ↔ ¬ ∃ l : Level, l.NamedBy text := by
  rw [Option.eq_none_iff_forall_ne_some, not_exists]
  exact forall_congr' fun l => not_congr parse?_eq_some_iff

/-- There are no blanks around what names a level. -/
theorem NamedBy.trimmed {text : String} {l : Level} (h : l.NamedBy text) :
    Text.Trimmed text text := by
  rcases h with hletters | hspells
  · apply hletters.trimmed
    cases l <;> simp [name, Text.isBlank]
  · exact hspells.trimmed

end Level

end PacketWire
