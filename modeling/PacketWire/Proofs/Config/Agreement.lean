import PacketWire.Proofs.Config.RoundTrip
import PacketWire.Proofs.Config.Sections
import PacketWire.Proofs.Config.Variables

/-!
# The environment and documents agree

A setting can be given by a variable or by a document. What is meant by the two is said apart: a
document holds exact names and integers, while the text of a variable may have blanks around it and
capitals in it. What a document may hold a variable may hold too, with the same meaning, and beyond
that just the texts that become such a text when the blanks are trimmed and the capitals of a format
are folded (`Config.sources_agree`).
-/

namespace PacketWire

open Setting
open Toml (Value Table Scalar)

/-! ### One variable alone -/

/-- The environment in which only that variable is set. -/
def Variable.alone : Variable → String → Environment
  | .kind, text => { kind := some text }
  | .size, text => { size := some text }
  | .level, text => { level := some text }

theorem Variable.held_alone (v : Variable) (text : String) : v.held (v.alone text) = some text := by
  cases v <;> rfl

theorem Variable.held_alone_of_ne {v w : Variable} (h : w ≠ v) (text : String) :
    w.held (v.alone text) = none := by
  cases v <;> cases w <;> first | rfl | exact absurd rfl h

/-- The variable sets its setting, and all others keep their defaults. -/
theorem Config.ofEnvironment_alone_eq_ok_iff {v : Variable} {text : String} {c : Config} :
    ofEnvironment (v.alone text) = .ok c ↔
      ∃ x, v.Means text x ∧ c = v.setting.put x {} := by
  rw [ofEnvironment_eq_ok_iff, Environment.describes_iff]
  constructor
  · rintro ⟨hvariables, hothers⟩
    have hset := hvariables v
    rw [v.held_alone, Environment.gives_some_iff] at hset
    refine ⟨_, hset, config_eq fun s => ?_⟩
    by_cases hs : s = v.setting
    · rw [hs, get_put]
    · rw [get_put_of_ne hs]
      by_cases hw : ∃ w : Variable, w.setting = s
      · obtain ⟨w, rfl⟩ := hw
        have hne : w ≠ v := by
          rintro rfl
          exact hs rfl
        have hunset := hvariables w
        rw [v.held_alone_of_ne hne, Environment.gives_none_iff] at hunset
        exact hunset
      · exact hothers s (not_exists.mp hw)
  · rintro ⟨x, hx, rfl⟩
    constructor
    · intro w
      by_cases hw : w = v
      · rw [hw, v.held_alone, Environment.gives_some_iff, get_put]
        exact hx
      · rw [v.held_alone_of_ne hw, Environment.gives_none_iff]
        exact get_put_of_ne (mt Variable.setting_injective hw) x {}
    · intro s hs
      exact get_put_of_ne (Ne.symm (hs v)) x {}

/-! ### One setting alone -/

/-- The document gives the setting that value, and gives no other setting any. -/
def Setting.GivenAlone (text : String) (s : Setting) (v : Value) : Prop :=
  ∃ t, Toml.parse text = some t ∧ TablesIn t ∧ ∀ s' v', Given t s' v' ↔ s' = s ∧ v' = v

section

variable {text : String} {s : Setting} {v : Value} {c : Config}

/-- The document sets its setting, and all others keep their defaults. -/
theorem Config.ofText_eq_ok_iff_of_givenAlone (h : GivenAlone text s v) :
    ofText text = .ok c ↔ ∃ x, s.Means v x ∧ c = s.put x {} := by
  obtain ⟨t, hparse, htables, hgiven⟩ := h
  rw [ofText_eq_ok_iff hparse htables, DescribedBy]
  simp only [hgiven]
  constructor
  · intro hdescribed
    refine ⟨s.get c, (hdescribed s).1 v ⟨rfl, rfl⟩, config_eq fun s' => ?_⟩
    by_cases hs : s' = s
    · rw [hs, get_put]
    · rw [get_put_of_ne hs]
      apply (hdescribed s').2
      rintro v' ⟨hs', -⟩
      exact hs hs'
  · rintro ⟨x, hx, rfl⟩ s'
    constructor
    · rintro v' ⟨rfl, rfl⟩
      rw [get_put]
      exact hx
    · intro hnone
      have hs : s' ≠ s := by
        rintro rfl
        exact hnone v ⟨rfl, rfl⟩
      exact get_put_of_ne hs x {}

theorem Setting.bare_table (s : Setting) : Toml.Bare s.table := by
  cases s <;> decide

theorem Setting.bare_key (s : Setting) : Toml.Bare s.key := by
  cases s <;> decide

theorem Setting.key_injective {s s' : Setting} (h : s.key = s'.key) : s = s' := by
  cases s <;> cases s' <;> first | rfl | exact absurd h (by decide)

/-- Every text and every number that fits can be given alone, by a document of two lines. -/
theorem Setting.givenAlone_spellDocument (s : Setting) {x : Scalar} (hx : x.Fits) :
    GivenAlone (Toml.spellDocument [⟨s.table, [(s.key, x)]⟩]) s x.value := by
  have hwritten : ∀ written ∈ [(⟨s.table, [(s.key, x)]⟩ : Toml.Section)], written.WellFormed := by
    intro written hmem
    obtain rfl := List.mem_singleton.mp hmem
    exact
      { name := s.bare_table
        keys := List.forall_mem_singleton.mpr s.bare_key
        values := List.forall_mem_singleton.mpr hx
        distinct := List.nodup_singleton _ }
  refine ⟨_, Toml.parse_spellDocument hwritten (List.nodup_singleton _), ?_, ?_⟩
  · intro s' v' hv'
    obtain heq := List.mem_singleton.mp hv'
    exact ⟨_, _, (Prod.mk.inj heq).2⟩
  · intro s' v'
    constructor
    · rintro ⟨origin, entries, htop, hv'⟩
      obtain ⟨htable, hentries⟩ := Prod.mk.inj (List.mem_singleton.mp htop)
      obtain ⟨-, rfl⟩ := Value.table.inj hentries
      obtain ⟨hkey, rfl⟩ := Prod.mk.inj (List.mem_singleton.mp hv')
      exact ⟨key_injective hkey, rfl⟩
    · rintro ⟨rfl, rfl⟩
      exact ⟨_, _, List.mem_singleton.mpr rfl, List.mem_singleton.mpr rfl⟩

end

/-! ### The same meaning -/

namespace Variable

variable {v : Variable} {held : String} {value : Value}

/-- The variable alone, holding that text, is read just as a document that gives that value alone:
to the same configuration, or not at all. -/
structure Agrees (v : Variable) (held : String) (value : Value) : Prop where
  written : ∃ text, GivenAlone text v.setting value
  same : ∀ text, GivenAlone text v.setting value → ∀ c,
    Config.ofEnvironment (v.alone held) = .ok c ↔ Config.ofText text = .ok c

/-- What any document that has that value is read to, the variable alone, holding that text, is read
to as well. -/
def Follows (v : Variable) (held : String) (value : Value) : Prop :=
  ∀ text t c, Toml.parse text = some t → v.setting.Has t value → Config.ofText text = .ok c →
    Config.ofEnvironment (v.alone held) = .ok (v.setting.put (v.setting.get c) {})

/-- A text and a value with the same meanings are read alike. -/
theorem agrees_of_means_iff (hwritten : ∃ text, GivenAlone text v.setting value)
    (h : ∀ x, v.Means held x ↔ v.setting.Means value x) : v.Agrees held value := by
  refine ⟨hwritten, fun text htext c => ?_⟩
  rw [Config.ofEnvironment_alone_eq_ok_iff, Config.ofText_eq_ok_iff_of_givenAlone htext]
  simp only [h]

/-- A text with all meanings of a value is read wherever the value is. -/
theorem follows_of_means (h : ∀ x, v.setting.Means value x → v.Means held x) :
    v.Follows held value := by
  intro text t c hparse hvalue hc
  apply Config.ofEnvironment_alone_eq_ok_iff.mpr
  exact ⟨_, h _ (Config.means_of_ofText hparse hvalue hc), rfl⟩

end Variable

/-! ### Levels, formats and sizes -/

namespace Setting

theorem means_text_logLevel_iff {text : String} {l : Level} :
    Setting.logLevel.Means (.text text) l ↔ l.NamedBy text := by
  constructor
  · intro h
    cases h with
    | logLevel hnamed => exact hnamed
  · exact .logLevel

theorem means_text_kind_iff {text : String} {f : Format} :
    Setting.kind.Means (.text text) f ↔ text = f.name := by
  constructor
  · intro h
    cases h with
    | named => rfl
  · rintro rfl
    exact .named f

theorem means_integer_iff {n : Int64} {size : UInt64} :
    Setting.maxMessageSize.Means (.number (.integer n)) size ↔ n.toInt = size.toNat := by
  constructor
  · intro h
    cases h with
    | size hsize => exact hsize
  · exact .size

end Setting

namespace Environment

variable {text core : String}

/-- The text of a variable means the level that it means in a document without the blanks around it.
-/
theorem meansLevel_iff (hcore : Text.Trimmed text core) (l : Level) :
    MeansLevel text l ↔ Setting.logLevel.Means (.text core) l := by
  rw [means_text_logLevel_iff, ← hcore.trim_eq]
  exact Text.exists_trimmed_iff

/-- A folded text is the name of a format just if the text is the name with some capitals. -/
theorem meansFormat_iff (hcore : Text.Trimmed text core) (f : Format) :
    MeansFormat text f ↔ Setting.kind.Means (.text (Text.foldCase core)) f := by
  have hfold : Text.foldCase core = f.name ↔ Text.SameLetters core f.name :=
    Text.foldCase_eq_iff (LawfulListed.name_small f)
  rw [means_text_kind_iff, hfold, ← hcore.trim_eq]
  exact Text.exists_trimmed_iff

/-- The digits of a number are that size. -/
theorem meansSize_toString_iff {n : Nat} (hn : n < 2 ^ 64) (size : UInt64) :
    MeansSize (toString n) size ↔ n = size.toNat := by
  have hspells : Numeral.Spells (toString n) n := Numeral.spells_toString hn
  constructor
  · rintro ⟨core, hcore, hsize⟩
    rw [← hcore.trim_eq, hspells.trimmed.trim_eq] at hsize
    exact hspells.unique hsize
  · rintro rfl
    exact ⟨_, hspells.trimmed, hspells⟩

/-- The digits of a number are the same size as an integer of that number. -/
theorem meansSize_iff {n : Nat} (hn : n ≤ Int64.maxValue.toInt) (size : UInt64) :
    MeansSize (toString n) size ↔
      Setting.maxMessageSize.Means (.number (.integer (Int64.ofInt n))) size := by
  have hmax : Int64.maxValue.toInt = 2 ^ 63 - 1 := rfl
  have hint : (Int64.ofInt n).toInt = n := Int64.toInt_ofInt_of_le (by omega) (by omega)
  rw [meansSize_toString_iff (by omega), means_integer_iff, hint, Int.ofNat_inj]

end Environment

namespace Config

/-- The two ways to give a setting agree. What a document may hold for a level or a format, a
variable may hold with the same meaning. A variable is read just as a document that holds the text of
the variable without the blanks around it and, for a format, in small letters. A number that an
integer of a document can be is the same size in digits. -/
theorem sources_agree :
    (∀ text, Variable.level.Follows text (.text text)) ∧
    (∀ text core, Text.Trimmed text core → Variable.level.Agrees text (.text core)) ∧
    (∀ text, Variable.kind.Follows text (.text text)) ∧
    (∀ text core, Text.Trimmed text core →
      Variable.kind.Agrees text (.text (Text.foldCase core))) ∧
    ∀ n : Nat, n ≤ Int64.maxValue.toInt →
      Variable.size.Follows (toString n) (.number (.integer (Int64.ofInt n))) ∧
      Variable.size.Agrees (toString n) (.number (.integer (Int64.ofInt n))) ∧
      ∃ size : UInt64, size.toNat = n ∧
        ofEnvironment (Variable.size.alone (toString n)) =
          .ok { codec := { maxMessageSize := size } } := by
  have hwritten : ∀ (s : Setting) (x : Scalar), x.Fits → ∃ text, GivenAlone text s x.value :=
    fun s x hx => ⟨_, givenAlone_spellDocument s hx⟩
  refine ⟨?_, ?_, ?_, ?_, ?_⟩
  · intro text
    apply Variable.follows_of_means
    intro l hl
    have hnamed := means_text_logLevel_iff.mp hl
    exact (Environment.meansLevel_iff hnamed.trimmed l).mpr hl
  · intro text core hcore
    exact Variable.agrees_of_means_iff (hwritten .logLevel (.text core) trivial)
      (Environment.meansLevel_iff hcore)
  · intro text
    apply Variable.follows_of_means
    intro f hf
    obtain rfl := means_text_kind_iff.mp hf
    exact ⟨_, Format.trimmed_name f, Text.sameLetters_self _⟩
  · intro text core hcore
    exact Variable.agrees_of_means_iff (hwritten .kind (.text (Text.foldCase core)) trivial)
      (Environment.meansFormat_iff hcore)
  · intro n hn
    have hsame := Environment.meansSize_iff hn
    refine ⟨?_, ?_, ?_⟩
    · exact Variable.follows_of_means fun size hsize => (hsame size).mpr hsize
    · exact Variable.agrees_of_means_iff (hwritten .maxMessageSize (.natural n) hn) hsame
    · have hmax : Int64.maxValue.toInt = 2 ^ 63 - 1 := rfl
      have hword : n < 2 ^ 64 := by omega
      have hsize : (UInt64.ofNat n).toNat = n := UInt64.toNat_ofNat_of_lt' hword
      have hmeans := (Environment.meansSize_toString_iff hword (UInt64.ofNat n)).mpr hsize.symm
      exact ⟨_, hsize, ofEnvironment_alone_eq_ok_iff.mpr ⟨_, hmeans, rfl⟩⟩

/-- A document that gives a level by its number, and two other settings. -/
def numberedLevel : List Toml.Section :=
  [⟨"logging", [("app_name", .text "svc"), ("log_level", .text "+04")]⟩,
   ⟨"codec", [("kind", .text "string")]⟩]

theorem parse_numberedLevel :
    Toml.parse (Toml.spellDocument numberedLevel) = some (numberedLevel.map Toml.Section.tree) := by
  apply Toml.parse_spellDocument ?_ (by decide)
  intro s hs
  simp only [numberedLevel, List.mem_cons, List.not_mem_nil, or_false] at hs
  rcases hs with rfl | rfl
  · exact ⟨by decide, by decide, by simp [Scalar.Fits], by decide⟩
  · exact ⟨by decide, by decide, by simp [Scalar.Fits], by decide⟩

/-- A level by its number, a format with a no-break space in front, and the largest size. -/
theorem sources_agree_number_and_blanks :
    ofText (Toml.spellDocument numberedLevel) =
        .ok { codec := { format := .string }, logging := { appName := "svc", level := .debug } } ∧
      ofEnvironment { level := some "+04" } = .ok { logging := { level := .debug } } ∧
      Text.Trimmed "\u00A0Base64\n" "Base64" ∧
      ofText (Toml.spellDocument [⟨"codec", [("kind", .text "base64")]⟩]) =
        .ok { codec := { format := .base64 } } ∧
      ofEnvironment { kind := some "\u00A0Base64\n" } = .ok { codec := { format := .base64 } } ∧
      ofEnvironment { size := some "9223372036854775807" } =
        .ok { codec := { maxMessageSize := 9223372036854775807 } } := by
  have hread : ofText (Toml.spellDocument numberedLevel) =
      .ok { codec := { format := .string }, logging := { appName := "svc", level := .debug } } := by
    rw [ofText_of_parse parse_numberedLevel]
    rfl
  have hlevel : Setting.logLevel.Has (numberedLevel.map Toml.Section.tree) (.text "+04") :=
    ⟨_, List.mem_cons_self, .keyed (List.mem_cons_of_mem _ List.mem_cons_self)⟩
  have htrimmed : Text.Trimmed "\u00A0Base64\n" "Base64" := Text.trim_eq_iff.mp (by decide)
  have halone : GivenAlone (Toml.spellDocument [⟨"codec", [("kind", .text "base64")]⟩]) .kind
      (.text (Text.foldCase "Base64")) := givenAlone_spellDocument .kind (x := .text "base64") trivial
  have hkind : ofText (Toml.spellDocument [⟨"codec", [("kind", .text "base64")]⟩]) =
      .ok { codec := { format := .base64 } } :=
    (ofText_eq_ok_iff_of_givenAlone halone).mpr ⟨Format.base64, .named .base64, rfl⟩
  obtain ⟨follows, -, -, agrees, sizes⟩ := sources_agree
  refine ⟨hread, follows "+04" _ _ _ parse_numberedLevel hlevel hread, htrimmed, hkind,
    ((agrees _ _ htrimmed).same _ halone _).mpr hkind, ?_⟩
  obtain ⟨-, -, size, hsize, hfound⟩ := sizes 9223372036854775807 (by decide)
  obtain rfl : size = 9223372036854775807 := UInt64.toNat_inj.mp hsize
  exact hfound

end Config

end PacketWire
