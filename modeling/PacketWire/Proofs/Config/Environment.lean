import PacketWire.Config.Source
import PacketWire.Proofs.Choice
import PacketWire.Proofs.Except

/-!
# A configuration from the environment

What each of the three variables may hold is said apart from how it is read: the name of a format,
a numeral, the name of a level or its number, with blanks around any of them. A configuration is
found exactly if every variable that is set holds such a text, and then it is what the variables
describe (`ofEnvironment_eq_ok_iff`); otherwise the first variable that does not is reported
(`ofEnvironment_eq_error_iff`).
-/

namespace PacketWire

namespace Environment

/-! ### What a variable means -/

section

variable {text : String}

/-- The text is the name of the format, apart from blanks around it and capitals. -/
def MeansFormat (text : String) (f : Format) : Prop := f.NamedBy text

/-- The text is a numeral of the size, apart from blanks around it. -/
def MeansSize (text : String) (n : UInt64) : Prop :=
  ∃ core, Text.Trimmed text core ∧ Numeral.Spells core n.toNat

/-- The text is a name or the number of the level, apart from blanks around it. -/
def MeansLevel (text : String) (l : Level) : Prop :=
  ∃ core, Text.Trimmed text core ∧ l.NamedBy core

theorem readFormat_eq_ok_iff {f : Format} : readFormat text = .ok f ↔ MeansFormat text f := by
  rw [readFormat, mapError_eq_ok_iff, Format.parse_eq_ok_iff, MeansFormat]

/-- A text that means no format is shown trimmed and in small letters. -/
theorem readFormat_eq_error_iff {e : Config.Error} :
    readFormat text = .error e ↔
      (¬ ∃ f, MeansFormat text f) ∧ e = .unknownFormat ⟨Text.foldCase (Text.trim text)⟩ := by
  rw [readFormat, mapError_eq_error_iff]
  constructor
  · rintro ⟨u, hu, rfl⟩
    obtain ⟨hunnamed, rfl⟩ := Format.parse_eq_error_iff.mp hu
    exact ⟨hunnamed, rfl⟩
  · rintro ⟨hunnamed, rfl⟩
    exact ⟨_, Format.parse_eq_error_iff.mpr ⟨hunnamed, rfl⟩, rfl⟩

theorem readSize_eq_ok_iff {n : UInt64} : readSize text = .ok n ↔ MeansSize text n := by
  rw [readSize, mapError_eq_ok_iff, Numeral.parse_eq_ok_iff, MeansSize,
    Text.exists_trimmed_iff (P := fun core => Numeral.Spells core n.toNat)]

theorem readSize_eq_error_iff {e : Config.Error} :
    readSize text = .error e ↔
      ∃ core cause, Text.Trimmed text core ∧ Numeral.Refused core cause ∧ e = .badSize cause := by
  rw [readSize, mapError_eq_error_iff]
  constructor
  · rintro ⟨cause, hcause, rfl⟩
    exact ⟨_, cause, Text.trimmed_trim text, Numeral.parse_eq_error_iff.mp hcause, rfl⟩
  · rintro ⟨core, cause, hcore, hrefused, rfl⟩
    rw [hcore.trim_eq]
    exact ⟨cause, Numeral.parse_eq_error_iff.mpr hrefused, rfl⟩

theorem level_parse?_trim_iff {l : Level} :
    Level.parse? (Text.trim text) = some l ↔ MeansLevel text l := by
  rw [Level.parse?_eq_some_iff, MeansLevel, Text.exists_trimmed_iff (P := l.NamedBy)]

theorem readLevel_eq_ok_iff {l : Level} : readLevel text = .ok l ↔ MeansLevel text l := by
  rw [← level_parse?_trim_iff, readLevel]
  cases Level.parse? (Text.trim text) <;> simp

/-- A text that means no level is shown as it stands. -/
theorem readLevel_eq_error_iff {e : Config.Error} :
    readLevel text = .error e ↔ (¬ ∃ l, MeansLevel text l) ∧ e = .badLevel text := by
  simp only [← level_parse?_trim_iff]
  rw [readLevel]
  cases Level.parse? (Text.trim text) <;> simp [eq_comm]

end

/-! ### Variables that may be unset -/

section

variable {α : Type} {means : String → α → Prop} {default x : α} {held : Option String}
  {read : String → Except Config.Error α}

/-- An unset variable leaves the default, and one that is set gives what its text means. -/
inductive Gives (means : String → α → Prop) (default : α) : Option String → α → Prop
  | unset : Gives means default none default
  | set {text x} : means text x → Gives means default (some text) x

theorem gives_none_iff : Gives means default none x ↔ x = default := by
  constructor
  · rintro ⟨⟩
    rfl
  · rintro rfl
    exact .unset

theorem gives_some_iff {text : String} : Gives means default (some text) x ↔ means text x := by
  constructor
  · rintro ⟨⟩
    assumption
  · exact .set

/-- The variable is unset, or its text means something. -/
def WellFormed (means : String → α → Prop) (held : Option String) : Prop :=
  ∀ text, held = some text → ∃ x, means text x

theorem wellFormed_iff (default : α) :
    WellFormed means held ↔ ∃ x, Gives means default held x := by
  cases held with
  | none => exact iff_of_true nofun ⟨default, .unset⟩
  | some text =>
    constructor
    · intro h
      obtain ⟨x, hx⟩ := h text rfl
      exact ⟨x, .set hx⟩
    · rintro ⟨x, hx⟩ text' htext
      cases htext
      cases hx with
      | set hx => exact ⟨x, hx⟩

theorem get_eq_ok_iff (hread : ∀ {text x}, read text = .ok x ↔ means text x) :
    get held default read = .ok x ↔ Gives means default held x := by
  cases held with
  | none => rw [get, Except.ok.injEq, gives_none_iff, eq_comm]
  | some text => rw [get, hread, gives_some_iff]

theorem get_eq_error_iff {e : Config.Error} :
    get held default read = .error e ↔ ∃ text, held = some text ∧ read text = .error e := by
  cases held with
  | none => exact iff_of_false nofun nofun
  | some text => simp [get]

end

/-! ### All three variables -/

/-- The configuration has what the variables mean, and is the default where they say nothing. -/
structure Describes (e : Environment) (c : Config) : Prop where
  format : Gives MeansFormat ({} : Config).codec.format e.kind c.codec.format
  size : Gives MeansSize ({} : Config).codec.maxMessageSize e.size c.codec.maxMessageSize
  level : Gives MeansLevel ({} : Config).logging.level e.level c.logging.level
  appName : c.logging.appName = ({} : Config).logging.appName
  json : c.logging.json = ({} : Config).logging.json

/-- What is to be said of the first variable, in the order of kind, size and level, that is set to
a text without a meaning. Nothing is said about those after it. -/
inductive FirstMalformed (e : Environment) : Config.Error → Prop
  | kind {text} : e.kind = some text → (¬ ∃ f, MeansFormat text f) →
      FirstMalformed e (.unknownFormat ⟨Text.foldCase (Text.trim text)⟩)
  | size {text core cause} : WellFormed MeansFormat e.kind →
      e.size = some text → Text.Trimmed text core → Numeral.Refused core cause →
      FirstMalformed e (.badSize cause)
  | level {text} : WellFormed MeansFormat e.kind →
      WellFormed MeansSize e.size → e.level = some text → (¬ ∃ l, MeansLevel text l) →
      FirstMalformed e (.badLevel text)

end Environment

namespace Config

open Environment

variable {e : Environment}

/-- The configuration that is found is the one that the variables describe. -/
theorem ofEnvironment_eq_ok_iff {c : Config} : ofEnvironment e = .ok c ↔ e.Describes c := by
  simp only [ofEnvironment, bind_eq_ok_iff, get_eq_ok_iff readFormat_eq_ok_iff,
    get_eq_ok_iff readSize_eq_ok_iff, get_eq_ok_iff readLevel_eq_ok_iff, pure_eq_ok,
    Except.ok.injEq]
  constructor
  · rintro ⟨f, hf, n, hn, l, hl, rfl⟩
    exact ⟨hf, hn, hl, rfl, rfl⟩
  · intro h
    obtain ⟨⟨f, n⟩, ⟨name, l, json⟩⟩ := c
    refine ⟨f, h.format, n, h.size, l, h.level, ?_⟩
    rw [show name = _ from h.appName, show json = _ from h.json]

/-- Nothing is found just if some variable is malformed, and the first one is reported. -/
theorem ofEnvironment_eq_error_iff {error : Config.Error} :
    ofEnvironment e = .error error ↔ e.FirstMalformed error := by
  have hstops : ofEnvironment e = .error error ↔
      (∃ text, e.kind = some text ∧ readFormat text = .error error) ∨
        WellFormed MeansFormat e.kind ∧
          ((∃ text, e.size = some text ∧ readSize text = .error error) ∨
            WellFormed MeansSize e.size ∧
              ∃ text, e.level = some text ∧ readLevel text = .error error) := by
    simp only [ofEnvironment, bind_eq_error_iff, get_eq_error_iff,
      get_eq_ok_iff readFormat_eq_ok_iff, get_eq_ok_iff readSize_eq_ok_iff, pure_eq_ok,
      reduceCtorEq, and_false, exists_false, or_false, exists_and_right,
      wellFormed_iff ({} : Config).codec.format, wellFormed_iff ({} : Config).codec.maxMessageSize]
  rw [hstops]
  constructor
  · rintro (⟨text, hset, hread⟩ | ⟨hkind, ⟨text, hset, hread⟩ | ⟨hsize, text, hset, hread⟩⟩)
    · obtain ⟨hunnamed, rfl⟩ := readFormat_eq_error_iff.mp hread
      exact .kind hset hunnamed
    · obtain ⟨core, cause, hcore, hrefused, rfl⟩ := readSize_eq_error_iff.mp hread
      exact .size hkind hset hcore hrefused
    · obtain ⟨hunnamed, rfl⟩ := readLevel_eq_error_iff.mp hread
      exact .level hkind hsize hset hunnamed
  · intro h
    cases h with
    | kind hset hunnamed =>
      exact .inl ⟨_, hset, readFormat_eq_error_iff.mpr ⟨hunnamed, rfl⟩⟩
    | size hkind hset hcore hrefused =>
      exact .inr ⟨hkind, .inl ⟨_, hset,
        readSize_eq_error_iff.mpr ⟨_, _, hcore, hrefused, rfl⟩⟩⟩
    | level hkind hsize hset hunnamed =>
      exact .inr ⟨hkind, .inr ⟨hsize, _, hset,
        readLevel_eq_error_iff.mpr ⟨hunnamed, rfl⟩⟩⟩

/-- A configuration is found exactly if every variable that is set is well-formed, and it is the one
that the variables describe: the fields of those that are set hold what they mean, and all other
fields their defaults. Otherwise the first variable that is not well-formed, in the order of kind,
size and level, is reported, whatever those after it hold. -/
theorem ofEnvironment_decided (e : Environment) :
    ((∃ c, ofEnvironment e = .ok c) ↔
      WellFormed MeansFormat e.kind ∧ WellFormed MeansSize e.size ∧
        WellFormed MeansLevel e.level) ∧
    (∀ c, ofEnvironment e = .ok c ↔ e.Describes c) ∧
    ∀ error, ofEnvironment e = .error error ↔ e.FirstMalformed error := by
  refine ⟨?_, fun c => ofEnvironment_eq_ok_iff, fun error => ofEnvironment_eq_error_iff⟩
  simp only [ofEnvironment_eq_ok_iff]
  constructor
  · rintro ⟨c, h⟩
    exact ⟨(wellFormed_iff _).mpr ⟨_, h.format⟩, (wellFormed_iff _).mpr ⟨_, h.size⟩,
      (wellFormed_iff _).mpr ⟨_, h.level⟩⟩
  · rintro ⟨hkind, hsize, hlevel⟩
    obtain ⟨f, hf⟩ := (wellFormed_iff ({} : Config).codec.format).mp hkind
    obtain ⟨n, hn⟩ := (wellFormed_iff ({} : Config).codec.maxMessageSize).mp hsize
    obtain ⟨l, hl⟩ := (wellFormed_iff ({} : Config).logging.level).mp hlevel
    exact ⟨⟨⟨f, n⟩, { ({} : Config).logging with level := l }⟩, hf, hn, hl, rfl, rfl⟩

/-- Blanks, signs, leading zeros and capitals are of no account. -/
example : ofEnvironment ⟨some "\tBase64 ", some "+0064", some "Trace\n"⟩ =
    .ok { codec := ⟨.base64, 64⟩, logging := { level := .trace } } := by
  cbv

end Config

end PacketWire
