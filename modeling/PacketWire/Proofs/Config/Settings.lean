import PacketWire.Config.OfTable
import PacketWire.Proofs.Choice
import PacketWire.Proofs.Except

/-!
# Settings

A configuration has five settings. Each has a place in a document, a table and a key in it, and a
kind of value that it takes. What a value means for a setting (`Setting.Means`) and what is wrong
with one that means nothing (`Setting.Refuses`) are said here apart from how values are read; every
value is read to what it means (`Setting.read_eq_ok_iff`), and refused for what is wrong with it
(`Setting.read_eq_error_iff`).
-/

namespace PacketWire

open Toml (Value Table)

inductive Setting
  | kind
  | maxMessageSize
  | appName
  | logLevel
  | jsonFormat
  deriving DecidableEq, Repr

namespace Setting

def all : List Setting := [.kind, .maxMessageSize, .appName, .logLevel, .jsonFormat]

def table : Setting → String
  | .kind | .maxMessageSize => "codec"
  | .appName | .logLevel | .jsonFormat => "logging"

theorem table_eq (s : Setting) : s.table = "codec" ∨ s.table = "logging" := by
  cases s <;> decide

/-- The key under which the setting stands in its table. -/
def key : Setting → String
  | .kind => "kind"
  | .maxMessageSize => "max_message_size"
  | .appName => "app_name"
  | .logLevel => "log_level"
  | .jsonFormat => "json_format"

/-! ### What a configuration holds -/

def Content : Setting → Type
  | .kind => Format
  | .maxMessageSize => UInt64
  | .appName => String
  | .logLevel => Level
  | .jsonFormat => Bool

def get : (s : Setting) → Config → s.Content
  | .kind, c => c.codec.format
  | .maxMessageSize, c => c.codec.maxMessageSize
  | .appName, c => c.logging.appName
  | .logLevel, c => c.logging.level
  | .jsonFormat, c => c.logging.json

def put : (s : Setting) → s.Content → Config → Config
  | .kind, f, c => { c with codec := { c.codec with format := f } }
  | .maxMessageSize, n, c => { c with codec := { c.codec with maxMessageSize := n } }
  | .appName, name, c => { c with logging := { c.logging with appName := name } }
  | .logLevel, l, c => { c with logging := { c.logging with level := l } }
  | .jsonFormat, b, c => { c with logging := { c.logging with json := b } }

theorem get_put (s : Setting) (x : s.Content) (c : Config) : s.get (s.put x c) = x := by
  cases s <;> rfl

theorem get_put_of_ne {s s' : Setting} (h : s' ≠ s) (x : s.Content) (c : Config) :
    s'.get (s.put x c) = s'.get c := by
  cases s <;> cases s' <;> first | rfl | exact absurd rfl h

/-- A configuration is nothing but its five settings. -/
theorem config_eq {c c' : Config} (h : ∀ s : Setting, s.get c = s.get c') : c = c' := by
  obtain ⟨⟨f, n⟩, ⟨name, l, b⟩⟩ := c
  obtain ⟨⟨f', n'⟩, ⟨name', l', b'⟩⟩ := c'
  obtain rfl : f = f' := h .kind
  obtain rfl : n = n' := h .maxMessageSize
  obtain rfl : name = name' := h .appName
  obtain rfl : l = l' := h .logLevel
  obtain rfl : b = b' := h .jsonFormat
  rfl

/-! ### What a value means -/

inductive Vacant : Value → Prop
  | table (origin) : Vacant (.table origin [])
  | array : Vacant (.array [])
  | tables : Vacant (.tables [])

/-- The value stands for that content of the setting. -/
inductive Means : (s : Setting) → Value → s.Content → Prop
  /-- The exact name of a format. -/
  | named (f : Format) : Means .kind (.text f.name) f
  /-- A table with one key, the exact name of a format, and nothing below it. -/
  | keyed {origin content} (f : Format) : Vacant content →
      Means .kind (.table origin [(f.name, content)]) f
  /-- An integer that is not below zero. -/
  | size {n : Int64} {size : UInt64} : n.toInt = size.toNat →
      Means .maxMessageSize (.number (.integer n)) size
  | appName (name) : Means .appName (.text name) name
  /-- The name of a level or a numeral of its rank. -/
  | logLevel {text} {l : Level} : l.NamedBy text → Means .logLevel (.text text) l
  | jsonFormat (b) : Means .jsonFormat (.boolean b) b

def Admits (s : Setting) (v : Value) : Prop := ∃ x, s.Means v x

/-! ### What is wrong with a value -/

/-- What a value under the name of a format is reported as, if it is not empty. -/
inductive Occupied : Value → Mismatch → Prop
  | table {origin e entries} : Occupied (.table origin (e :: entries)) .formatWithContent
  | array {v items} : Occupied (.array (v :: items)) .formatWithContent
  | tables {t items} : Occupied (.tables (t :: items)) .formatWithTables
  | text {s} : Occupied (.text s) (.formatWithValue "string")
  | integer {n} : Occupied (.number (.integer n)) (.formatWithValue "integer")
  | float {x} : Occupied (.number (.float x)) (.formatWithValue "float")
  | boolean {b} : Occupied (.boolean b) (.formatWithValue "boolean")
  | moment {m} : Occupied (.moment m) (.formatWithValue "datetime")

/-- The one type of value that the setting takes, where there is only one. -/
def expected? : Setting → Option Expected
  | .kind => none
  | .maxMessageSize => some .size
  | .appName | .logLevel => some .text
  | .jsonFormat => some .truthValue

end Setting

/-- The value is of the type that is asked for, whatever it holds. -/
inductive Expected.Matches : Expected → Value → Prop
  | size (n) : Matches .size (.number (.integer n))
  | text (s) : Matches .text (.text s)
  | truthValue (b) : Matches .truthValue (.boolean b)

namespace Setting

/-- What is reported of a value that the setting may not hold. -/
inductive Refuses : Setting → Value → Mismatch → Prop
  /-- A value of another type than the one that the setting takes. -/
  | wrongType {s expected v} : s.expected? = some expected → ¬ expected.Matches v →
      Refuses s v (.wrongType (Found.ofValue v) expected)
  | negativeSize {n : Int64} : n.toInt < 0 →
      Refuses .maxMessageSize (.number (.integer n)) (.negativeSize n.toInt)
  | unknownLevel {text} : (¬ ∃ l : Level, l.NamedBy text) →
      Refuses .logLevel (.text text) (.unknownLevel text)
  /-- A text that is not the name of a format, reported with the names that are. -/
  | unknownName {name} : (∀ f : Format, name ≠ f.name) →
      Refuses .kind (.text name) (.unknownFormat (.unknownName name (Format.all.map Format.name)))
  /-- A table with one key, which is not the name of a format; what is below it does not matter. -/
  | unknownKey {origin name content} : (∀ f : Format, name ≠ f.name) →
      Refuses .kind (.table origin [(name, content)])
        (.unknownFormat (.unknownName name (Format.all.map Format.name)))
  | occupied {origin content cause} (f : Format) : Occupied content cause →
      Refuses .kind (.table origin [(f.name, content)]) cause
  | noKey {origin} : Refuses .kind (.table origin []) .noFormat
  | severalKeys {origin e₁ e₂ entries} :
      Refuses .kind (.table origin (e₁ :: e₂ :: entries)) .severalFormats
  | notAFormat {v} : (∀ name, v ≠ .text name) → (∀ origin entries, v ≠ .table origin entries) →
      Refuses .kind v .notAFormat

end Setting

/-! ### How values are read -/

namespace Format

theorem ofName_eq_ok_iff {name : String} {f : Format} : ofName name = .ok f ↔ name = f.name := by
  rw [ofName, mapError_eq_ok_iff, Choice.byName_eq_ok_iff]
  rfl

theorem ofName_eq_error_iff {name : String} {cause : Mismatch} :
    ofName name = .error cause ↔
      (∀ f : Format, name ≠ f.name) ∧
        cause = .unknownFormat (.unknownName name (all.map Format.name)) := by
  rw [ofName, mapError_eq_error_iff]
  constructor
  · rintro ⟨e, he, rfl⟩
    obtain ⟨hother, rfl⟩ := Choice.byName_eq_error_iff.mp he
    exact ⟨hother, rfl⟩
  · rintro ⟨hother, rfl⟩
    exact ⟨_, Choice.byName_eq_error_iff.mpr ⟨hother, rfl⟩, rfl⟩

/-- A name of a format may have an empty content. -/
theorem checkContent_of_vacant {v : Value} (h : Setting.Vacant v) : checkContent v = .ok () := by
  cases h <;> rfl

theorem checkContent_of_occupied {v : Value} {cause : Mismatch} (h : Setting.Occupied v cause) :
    checkContent v = .error cause := by
  cases h <;> rfl

end Format

/-- An integer that is not below zero is the same number without a sign. -/
theorem toNat_toUInt64_of_nonneg {n : Int64} (h : 0 ≤ n.toInt) :
    (n.toUInt64.toNat : Int) = n.toInt := by
  have hpos : 0 ≤ n := by
    rw [Int64.le_iff_toInt_le, Int64.toInt_zero]
    exact h
  rw [Int64.toNat_toUInt64_of_le hpos, Int64.toInt_eq_toNatClampNeg hpos]

theorem sizeOfValue_of_toInt {n : Int64} {size : UInt64} (h : n.toInt = size.toNat) :
    sizeOfValue (.number (.integer n)) = .ok size := by
  have hpos : ¬ n < 0 := by
    rw [Int64.lt_iff_toInt_lt, h, Int64.toInt_zero]
    omega
  have hsize : n.toUInt64.toNat = size.toNat := by
    have := toNat_toUInt64_of_nonneg (n := n) (by omega)
    omega
  rw [sizeOfValue, if_neg hpos, UInt64.toNat_inj.mp hsize]

theorem sizeOfValue_of_neg {n : Int64} (h : n.toInt < 0) :
    sizeOfValue (.number (.integer n)) = .error (.negativeSize n.toInt) := by
  rw [sizeOfValue, if_pos]
  rw [Int64.lt_iff_toInt_lt, Int64.toInt_zero]
  exact h

section

variable {v : Value}

theorem sizeOfValue_of_not_matches (h : ¬ Expected.size.Matches v) :
    sizeOfValue v = .error (.wrongType (Found.ofValue v) .size) := by
  unfold sizeOfValue
  split
  · next n => exact absurd (.size n) h
  · rfl

theorem textOfValue_of_not_matches (h : ¬ Expected.text.Matches v) :
    textOfValue v = .error (.wrongType (Found.ofValue v) .text) := by
  unfold textOfValue
  split
  · next text => exact absurd (.text text) h
  · rfl

theorem truthOfValue_of_not_matches (h : ¬ Expected.truthValue.Matches v) :
    truthOfValue v = .error (.wrongType (Found.ofValue v) .truthValue) := by
  unfold truthOfValue
  split
  · next b => exact absurd (.truthValue b) h
  · rfl

end

namespace Setting

def read : (s : Setting) → Value → Except Mismatch s.Content
  | .kind => Format.ofValue
  | .maxMessageSize => sizeOfValue
  | .appName => textOfValue
  | .logLevel => Level.ofValue
  | .jsonFormat => truthOfValue

variable {s : Setting} {v : Value} {x : s.Content} {cause : Mismatch}

theorem read_of_means (h : s.Means v x) : s.read v = .ok x := by
  cases h with
  | named f => exact Format.ofName_eq_ok_iff.mpr rfl
  | @keyed origin content f hvacant =>
    show Format.ofValue (.table origin [(f.name, content)]) = .ok f
    rw [Format.ofValue, Format.ofName_eq_ok_iff.mpr rfl, ok_bind,
      Format.checkContent_of_vacant hvacant]
    rfl
  | size hsize => exact sizeOfValue_of_toInt hsize
  | appName name => rfl
  | logLevel hnamed =>
    show Level.ofValue _ = _
    rw [Level.ofValue, textOfValue, ok_bind, Level.parse?_eq_some_iff.mpr hnamed]
    rfl
  | jsonFormat b => rfl

/-- A value of the wrong type is refused for its type. -/
theorem read_of_not_matches {expected : Expected} (hexpected : s.expected? = some expected)
    (h : ¬ expected.Matches v) : s.read v = .error (.wrongType (Found.ofValue v) expected) := by
  cases s with
  | kind => cases hexpected
  | maxMessageSize =>
    cases hexpected
    exact sizeOfValue_of_not_matches h
  | appName =>
    cases hexpected
    exact textOfValue_of_not_matches h
  | logLevel =>
    cases hexpected
    show Level.ofValue v = _
    rw [Level.ofValue, textOfValue_of_not_matches h, error_bind]
    rfl
  | jsonFormat =>
    cases hexpected
    exact truthOfValue_of_not_matches h

theorem read_of_refuses (h : s.Refuses v cause) : s.read v = .error cause := by
  cases h with
  | wrongType hexpected hother => exact read_of_not_matches hexpected hother
  | negativeSize hneg => exact sizeOfValue_of_neg hneg
  | unknownLevel hunnamed =>
    show Level.ofValue _ = _
    rw [Level.ofValue, textOfValue, ok_bind, Level.parse?_eq_none_iff.mpr hunnamed]
    rfl
  | unknownName hother => exact Format.ofName_eq_error_iff.mpr ⟨hother, rfl⟩
  | @unknownKey origin name content hother =>
    show Format.ofValue (.table origin [(name, content)]) = _
    rw [Format.ofValue, Format.ofName_eq_error_iff.mpr ⟨hother, rfl⟩, error_bind]
    rfl
  | @occupied origin content _ f hoccupied =>
    show Format.ofValue (.table origin [(f.name, content)]) = _
    rw [Format.ofValue, Format.ofName_eq_ok_iff.mpr rfl, ok_bind,
      Format.checkContent_of_occupied hoccupied, error_bind]
    rfl
  | noKey => rfl
  | severalKeys => rfl
  | notAFormat htext htable =>
    cases v with
    | text name => exact absurd rfl (htext name)
    | table origin entries => exact absurd rfl (htable origin entries)
    | _ => rfl

/-! ### Every value is either taken or refused -/

theorem vacant_or_occupied (v : Value) : Vacant v ∨ ∃ cause, Occupied v cause := by
  cases v with
  | text s => exact .inr ⟨_, .text⟩
  | number n =>
    cases n with
    | integer n => exact .inr ⟨_, .integer⟩
    | float x => exact .inr ⟨_, .float⟩
  | boolean b => exact .inr ⟨_, .boolean⟩
  | moment m => exact .inr ⟨_, .moment⟩
  | array items =>
    cases items with
    | nil => exact .inl .array
    | cons v items => exact .inr ⟨_, .array⟩
  | tables items =>
    cases items with
    | nil => exact .inl .tables
    | cons t items => exact .inr ⟨_, .tables⟩
  | table origin entries =>
    cases entries with
    | nil => exact .inl (.table origin)
    | cons e entries => exact .inr ⟨_, .table⟩

/-- A value of the type that the setting takes means something or is refused for what it holds. -/
theorem admits_or_refuses_of_matches {expected : Expected} (hexpected : s.expected? = some expected)
    (h : expected.Matches v) : s.Admits v ∨ ∃ cause, s.Refuses v cause := by
  cases s with
  | kind => cases hexpected
  | maxMessageSize =>
    cases hexpected
    cases h with
    | size n =>
      rcases Int.lt_or_le n.toInt 0 with hneg | hpos
      · exact .inr ⟨_, .negativeSize hneg⟩
      · exact .inl ⟨n.toUInt64, .size (toNat_toUInt64_of_nonneg hpos).symm⟩
  | appName =>
    cases hexpected
    cases h with
    | text name => exact .inl ⟨name, .appName name⟩
  | logLevel =>
    cases hexpected
    cases h with
    | text text =>
      by_cases hnamed : ∃ l : Level, l.NamedBy text
      · obtain ⟨l, hl⟩ := hnamed
        exact .inl ⟨l, .logLevel hl⟩
      · exact .inr ⟨_, .unknownLevel hnamed⟩
  | jsonFormat =>
    cases hexpected
    cases h with
    | truthValue b => exact .inl ⟨b, .jsonFormat b⟩

theorem kind_admits_or_refuses (v : Value) :
    Setting.kind.Admits v ∨ ∃ cause, Setting.kind.Refuses v cause := by
  cases v with
  | text name =>
    by_cases hname : ∃ f : Format, name = f.name
    · obtain ⟨f, rfl⟩ := hname
      exact .inl ⟨f, .named f⟩
    · exact .inr ⟨_, .unknownName (not_exists.mp hname)⟩
  | table origin entries =>
    match entries with
    | [] => exact .inr ⟨_, .noKey⟩
    | [(name, content)] =>
      by_cases hname : ∃ f : Format, name = f.name
      · obtain ⟨f, rfl⟩ := hname
        rcases vacant_or_occupied content with hvacant | ⟨cause, hoccupied⟩
        · exact .inl ⟨f, .keyed f hvacant⟩
        · exact .inr ⟨cause, .occupied f hoccupied⟩
      · exact .inr ⟨_, .unknownKey (not_exists.mp hname)⟩
    | e₁ :: e₂ :: entries => exact .inr ⟨_, .severalKeys⟩
  | _ => exact .inr ⟨_, .notAFormat nofun nofun⟩

/-- Of every value it is said whether a setting admits it, or why not. -/
theorem admits_or_refuses (s : Setting) (v : Value) : s.Admits v ∨ ∃ cause, s.Refuses v cause := by
  cases hexpected : s.expected? with
  | none =>
    cases s with
    | kind => exact kind_admits_or_refuses v
    | _ => cases hexpected
  | some expected =>
    by_cases h : expected.Matches v
    · exact admits_or_refuses_of_matches hexpected h
    · exact .inr ⟨_, .wrongType hexpected h⟩

/-- A value is read as what it means, and as nothing else. -/
theorem read_eq_ok_iff : s.read v = .ok x ↔ s.Means v x := by
  constructor
  · intro h
    rcases s.admits_or_refuses v with ⟨y, hy⟩ | ⟨cause, hcause⟩
    · rw [read_of_means hy, Except.ok.injEq] at h
      rw [← h]
      exact hy
    · rw [read_of_refuses hcause] at h
      cases h
  · exact read_of_means

/-- What a setting may hold and what is refused exclude each other. -/
theorem Refuses.not_admits (h : s.Refuses v cause) : ¬ s.Admits v := by
  rintro ⟨x, hx⟩
  have := read_of_means hx
  rw [read_of_refuses h] at this
  cases this

end Setting

end PacketWire
