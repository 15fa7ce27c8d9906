import PacketWire.Proofs.Config.Environment
import PacketWire.Proofs.Config.Settings
import PacketWire.Proofs.Text.Utf8

/-!
# Variables one by one

Each variable overrides one setting. A configuration from the environment is described variable by
variable (`Environment.describes_iff`), and nothing is found just if some variable holds a text
without a meaning (`Config.exists_ofEnvironment_eq_error_iff`). Variables are stored as bytes, and
one whose bytes are not UTF-8 counts as unset. So it may be set and be ignored, and nothing else can
be (`RawEnvironment.heeded_decided`).
-/

namespace PacketWire

open Environment (Gives MeansFormat MeansSize MeansLevel)

inductive Variable
  | kind
  | size
  | level
  deriving DecidableEq, Repr

namespace Variable

def setting : Variable → Setting
  | .kind => .kind
  | .size => .maxMessageSize
  | .level => .logLevel

def held : Variable → Environment → Option String
  | .kind, e => e.kind
  | .size, e => e.size
  | .level, e => e.level

def stored : Variable → RawEnvironment → Option Bytes
  | .kind, e => e.kind
  | .size, e => e.size
  | .level, e => e.level

def Means : (v : Variable) → String → v.setting.Content → Prop
  | .kind => MeansFormat
  | .size => MeansSize
  | .level => MeansLevel

/-- The bytes are those of a text that stands for the content. -/
def Denotes (v : Variable) (bytes : Bytes) (x : v.setting.Content) : Prop :=
  ∃ text : String, bytes = text.toList.flatMap String.utf8EncodeChar ∧ v.Means text x

theorem setting_injective {v w : Variable} (h : v.setting = w.setting) : v = w := by
  cases v <;> cases w <;> first | rfl | cases h

theorem held_readable (v : Variable) (e : RawEnvironment) :
    v.held e.readable = (v.stored e).bind Utf8.decode? := by
  cases v <;> rfl

/-- A text is held just if its bytes are stored. -/
theorem held_readable_eq_some_iff {v : Variable} {e : RawEnvironment} {text : String} :
    v.held e.readable = some text ↔
      v.stored e = some (text.toList.flatMap String.utf8EncodeChar) := by
  rw [held_readable, Option.bind_eq_some_iff]
  simp only [Utf8.decode?_eq_some_iff]
  constructor
  · rintro ⟨bytes, hbytes, rfl⟩
    exact hbytes
  · intro h
    exact ⟨_, h, rfl⟩

end Variable

/-! ### What is found -/

section

variable {e : Environment} {c : Config}

/-- Variables give what they override, and all other settings keep their defaults. -/
theorem Environment.describes_iff :
    e.Describes c ↔
      (∀ v : Variable, Gives v.Means (v.setting.get {}) (v.held e) (v.setting.get c)) ∧
        ∀ s : Setting, (∀ v : Variable, v.setting ≠ s) → s.get c = s.get {} := by
  constructor
  · intro h
    constructor
    · intro v
      cases v with
      | kind => exact h.format
      | size => exact h.size
      | level => exact h.level
    · intro s hs
      cases s with
      | kind => exact absurd rfl (hs .kind)
      | maxMessageSize => exact absurd rfl (hs .size)
      | appName => exact h.appName
      | logLevel => exact absurd rfl (hs .level)
      | jsonFormat => exact h.json
  · rintro ⟨hvariables, hothers⟩
    exact
      { format := hvariables .kind
        size := hvariables .size
        level := hvariables .level
        appName := hothers .appName fun v => by cases v <;> nofun
        json := hothers .jsonFormat fun v => by cases v <;> nofun }

/-- Nothing is found just if the text of some variable stands for nothing. -/
theorem Config.exists_ofEnvironment_eq_error_iff :
    (∃ error, ofEnvironment e = .error error) ↔
      ∃ (v : Variable) (text : String), v.held e = some text ∧ ¬ ∃ x, v.Means text x := by
  constructor
  · rintro ⟨error, h⟩
    cases ofEnvironment_eq_error_iff.mp h with
    | kind hset hunnamed => exact ⟨.kind, _, hset, hunnamed⟩
    | @size text core cause hkind hset hcore hrefused =>
      refine ⟨.size, text, hset, ?_⟩
      rintro ⟨n, core', hcore', hspells⟩
      rw [← hcore'.trim_eq, hcore.trim_eq] at hspells
      exact hrefused.1 ⟨_, hspells⟩
    | level hkind hsize hset hunnamed => exact ⟨.level, _, hset, hunnamed⟩
  · rintro ⟨v, text, hset, hmeaningless⟩
    cases h : ofEnvironment e with
    | error error => exact ⟨error, rfl⟩
    | ok c =>
      have hgives := (Environment.describes_iff.mp (ofEnvironment_eq_ok_iff.mp h)).1 v
      rw [hset, Environment.gives_some_iff] at hgives
      exact absurd ⟨_, hgives⟩ hmeaningless

end

/-! ### What is ignored -/

namespace RawEnvironment

/-- No variable that is set is ignored: what is found has what each of them denotes, and nothing is
found if one of them denotes nothing. -/
structure Heeded (e : RawEnvironment) : Prop where
  held : ∀ c, Config.ofRawEnvironment e = .ok c → ∀ (v : Variable) (bytes : Bytes),
    v.stored e = some bytes → v.Denotes bytes (v.setting.get c)
  refused : ∀ (v : Variable) (bytes : Bytes), v.stored e = some bytes →
    (¬ ∃ x, v.Denotes bytes x) → ∃ error, Config.ofRawEnvironment e = .error error

variable {e : RawEnvironment} {c : Config} {v : Variable} {bytes : Bytes}

theorem gives_of_ofRawEnvironment (h : Config.ofRawEnvironment e = .ok c) (v : Variable) :
    Gives v.Means (v.setting.get {}) (v.held e.readable) (v.setting.get c) :=
  (Environment.describes_iff.mp (Config.ofEnvironment_eq_ok_iff.mp h)).1 v

/-- A variable that holds UTF-8 is heeded. -/
theorem denotes_of_wellFormed (h : Config.ofRawEnvironment e = .ok c)
    (hset : v.stored e = some bytes) (hbytes : Utf8.WellFormed bytes) :
    v.Denotes bytes (v.setting.get c) := by
  obtain ⟨chars, rfl⟩ := hbytes
  have hheld : v.held e.readable = some (String.ofList chars) := by
    rw [Variable.held_readable_eq_some_iff, String.toList_ofList]
    exact hset
  have hgives := gives_of_ofRawEnvironment h v
  rw [hheld, Environment.gives_some_iff] at hgives
  exact ⟨_, by rw [String.toList_ofList], hgives⟩

/-- A variable that does not hold UTF-8 is as good as unset. -/
theorem default_of_not_wellFormed (h : Config.ofRawEnvironment e = .ok c)
    (hset : v.stored e = some bytes) (hbytes : ¬ Utf8.WellFormed bytes) :
    v.setting.get c = v.setting.get {} := by
  have hheld : v.held e.readable = none := by
    rw [Variable.held_readable, hset, Option.bind_some, ← Option.not_isSome_iff_eq_none,
      Utf8.isSome_decode?_iff]
    exact hbytes
  have hgives := gives_of_ofRawEnvironment h v
  rw [hheld, Environment.gives_none_iff] at hgives
  exact hgives

/-- Nothing is found just if some variable holds UTF-8 that denotes nothing. -/
theorem exists_ofRawEnvironment_eq_error_iff :
    (∃ error, Config.ofRawEnvironment e = .error error) ↔
      ∃ (v : Variable) (bytes : Bytes), v.stored e = some bytes ∧ Utf8.WellFormed bytes ∧
        ¬ ∃ x, v.Denotes bytes x := by
  unfold Config.ofRawEnvironment
  rw [Config.exists_ofEnvironment_eq_error_iff]
  simp only [Variable.held_readable_eq_some_iff]
  constructor
  · rintro ⟨v, text, hset, hmeaningless⟩
    refine ⟨v, _, hset, ⟨_, rfl⟩, ?_⟩
    rintro ⟨x, text', hbytes, hx⟩
    rw [Utf8.flatMap_utf8EncodeChar_injective hbytes] at hmeaningless
    exact hmeaningless ⟨x, hx⟩
  · rintro ⟨v, _, hset, ⟨chars, rfl⟩, hmeaningless⟩
    refine ⟨v, String.ofList chars, by rwa [String.toList_ofList], ?_⟩
    rintro ⟨x, hx⟩
    exact hmeaningless ⟨x, _, by rw [String.toList_ofList], hx⟩

/-- What is found can ignore only variables that do not hold UTF-8, and it does ignore those. -/
theorem heeded_iff :
    e.Heeded ↔
      (∀ (v : Variable) (bytes : Bytes), v.stored e = some bytes → Utf8.WellFormed bytes) ∨
        ∃ error, Config.ofRawEnvironment e = .error error := by
  constructor
  · intro hheeded
    cases h : Config.ofRawEnvironment e with
    | error error => exact .inr ⟨error, rfl⟩
    | ok c =>
      left
      intro v bytes hset
      obtain ⟨text, hbytes, -⟩ := hheeded.held c h v bytes hset
      exact ⟨_, hbytes⟩
  · rintro (hreadable | ⟨error, h⟩)
    · constructor
      · intro c h v bytes hset
        exact denotes_of_wellFormed h hset (hreadable v bytes hset)
      · intro v bytes hset hmeaningless
        exact exists_ofRawEnvironment_eq_error_iff.mpr
          ⟨v, bytes, hset, hreadable v bytes hset, hmeaningless⟩
    · constructor
      · intro c hc
        rw [h] at hc
        cases hc
      · intro v bytes hset hmeaningless
        exact ⟨error, h⟩

/-- A configuration is refused exactly if some variable holds UTF-8 that denotes nothing. If one is
found, a variable that holds UTF-8 is heeded, and one that holds other bytes is as good as unset. So
variables are ignored exactly if nothing is refused although some variable does not hold UTF-8. -/
theorem heeded_decided (e : RawEnvironment) :
    ((∃ error, Config.ofRawEnvironment e = .error error) ↔
      ∃ (v : Variable) (bytes : Bytes), v.stored e = some bytes ∧ Utf8.WellFormed bytes ∧
        ¬ ∃ x, v.Denotes bytes x) ∧
    (∀ c, Config.ofRawEnvironment e = .ok c → ∀ (v : Variable) (bytes : Bytes),
      v.stored e = some bytes →
        Utf8.WellFormed bytes ∧ v.Denotes bytes (v.setting.get c) ∨
          ¬ Utf8.WellFormed bytes ∧ v.setting.get c = v.setting.get {}) ∧
    (e.Heeded ↔
      (∀ (v : Variable) (bytes : Bytes), v.stored e = some bytes → Utf8.WellFormed bytes) ∨
        ∃ error, Config.ofRawEnvironment e = .error error) := by
  refine ⟨exists_ofRawEnvironment_eq_error_iff, ?_, heeded_iff⟩
  intro c h v bytes hset
  by_cases hbytes : Utf8.WellFormed bytes
  · exact .inl ⟨hbytes, denotes_of_wellFormed h hset hbytes⟩
  · exact .inr ⟨hbytes, default_of_not_wellFormed h hset hbytes⟩

/-- The numeral 4096 and a byte that is part of no character. -/
def strayByte : RawEnvironment := { size := some [0x34, 0x30, 0x39, 0x36, 0xFF] }

/-- The variable is set and denotes nothing, and still the default configuration is found. -/
theorem not_heeded_stray_byte :
    Config.ofRawEnvironment strayByte = .ok {} ∧ ¬ strayByte.Heeded := by
  have hdefault : Config.ofRawEnvironment strayByte = .ok {} := by decide +kernel
  refine ⟨hdefault, ?_⟩
  intro hheeded
  obtain ⟨text, hbytes, -⟩ := hheeded.held {} hdefault .size _ rfl
  have hunreadable : Utf8.decode? [0x34, 0x30, 0x39, 0x36, 0xFF] = none := by decide +kernel
  rw [Utf8.decode?_eq_some_iff.mpr hbytes] at hunreadable
  cases hunreadable

end RawEnvironment

end PacketWire
