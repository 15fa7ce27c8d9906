import Mathlib.Data.List.Nodup
import Mathlib.Data.String.Basic
import PacketWire.Config.Error

/-!
# Checking a configuration

Four conditions are checked, two on the codec settings and two on the log settings, and there is one
problem for each condition that is violated (`CodecSettings.mem_problems_iff`,
`LogSettings.mem_problems_iff`). What a check promises depends on how the length of a name is
measured (`Config.CheckedBy`). It is measured in bytes, and the messages speak of characters: what
they say holds just of those names that are short in bytes or plain ASCII
(`Config.checkedBy_length_decided`).
-/

namespace PacketWire

/-! ### Characters and bytes -/

theorem length_le_utf8Len (cs : List Char) : cs.length ≤ String.utf8Len cs := by
  induction cs with
  | nil => exact Nat.le_refl _
  | cons c cs ih =>
    have hpos : 0 < c.utf8Size := c.utf8Size_pos
    rw [List.length_cons, String.utf8Len_cons]
    omega

/-- Just the characters of ASCII take one byte each. -/
theorem utf8Len_eq_length_iff {cs : List Char} :
    String.utf8Len cs = cs.length ↔ ∀ c ∈ cs, c.toNat < 128 := by
  induction cs with
  | nil => simp
  | cons c cs ih =>
    have hpos : 0 < c.utf8Size := c.utf8Size_pos
    have hone : c.utf8Size = 1 ↔ c.toNat < 128 := by
      rw [Char.utf8Size_eq_one_iff, UInt32.le_iff_toNat_le]
      exact Nat.lt_succ_iff.symm
    have hrest : cs.length ≤ String.utf8Len cs := length_le_utf8Len cs
    rw [List.length_cons, String.utf8Len_cons, List.forall_mem_cons, ← ih, ← hone]
    omega

/-! ### Problems of the settings -/

/-- The problem is one that the codec settings have. -/
def CodecSettings.Violates (s : CodecSettings) : Problem → Prop
  | .noMessageFits => s.maxMessageSize.toNat < 1
  | .messagesTooLarge limit =>
    100 * 1024 * 1024 < s.maxMessageSize.toNat ∧ limit = s.maxMessageSize
  | .namelessApp | .appNameTooLong _ => False

/-- The problem is one that the log settings have, if names are measured in that way. -/
def LogSettings.Violates (measure : String → Nat) (s : LogSettings) : Problem → Prop
  | .namelessApp => measure s.appName < 1
  | .appNameTooLong n => 64 < measure s.appName ∧ n = measure s.appName
  | .noMessageFits | .messagesTooLarge _ => False

section

variable {p : Problem}

/-- The problems that are listed of the codec settings are those that they have. -/
theorem CodecSettings.mem_problems_iff {s : CodecSettings} : p ∈ s.problems ↔ s.Violates p := by
  have hzero : s.maxMessageSize = 0 ↔ s.maxMessageSize.toNat < 1 := by
    rw [← UInt64.toNat_inj]
    exact Nat.lt_one_iff.symm
  have hlarge : recommendedMaxMessageSize < s.maxMessageSize ↔
      100 * 1024 * 1024 < s.maxMessageSize.toNat := UInt64.lt_iff_toNat_lt
  unfold problems
  simp only [hzero, hlarge]
  split
  · next hsmall =>
    cases p <;> simp [Violates, hsmall]
    omega
  · next hsome =>
    split
    all_goals
      next hbound => cases p <;> simp [Violates, hsome, hbound]

theorem LogSettings.mem_problems_iff {s : LogSettings} :
    p ∈ s.problems ↔ s.Violates String.utf8ByteSize p := by
  have hempty : s.appName.isEmpty ↔ s.appName.utf8ByteSize < 1 := by
    rw [String.isEmpty_iff_utf8ByteSize_eq_zero, Nat.lt_one_iff]
  unfold problems maxAppNameBytes
  simp only [hempty]
  split
  · next hshort =>
    cases p <;> simp [Violates, hshort]
    omega
  · next hsome =>
    split
    all_goals
      next hbound => cases p <;> simp [Violates, hsome, hbound]

theorem CodecSettings.nodup_problems (s : CodecSettings) : s.problems.Nodup := by
  unfold problems
  split
  · exact List.nodup_singleton _
  · split
    · exact List.nodup_singleton _
    · exact List.nodup_nil

theorem LogSettings.nodup_problems (s : LogSettings) : s.problems.Nodup := by
  unfold problems
  split
  · exact List.nodup_singleton _
  · split
    · exact List.nodup_singleton _
    · exact List.nodup_nil

/-- No problem is one of both kinds of settings. -/
theorem CodecSettings.Violates.not_logging {s : CodecSettings} {l : LogSettings}
    {measure : String → Nat} (h : s.Violates p) : ¬ l.Violates measure p := by
  cases p with
  | noMessageFits | messagesTooLarge => exact id
  | namelessApp | appNameTooLong => exact h.elim

end

/-- Characters find the same problems of a name as bytes if the bytes are not too many, or no more
than the characters. -/
theorem LogSettings.violates_length_iff {s : LogSettings} :
    (∀ p, s.Violates String.length p ↔ s.Violates String.utf8ByteSize p) ↔
      s.appName.utf8ByteSize ≤ 64 ∨ s.appName.utf8ByteSize = s.appName.length := by
  have hle : s.appName.length ≤ s.appName.utf8ByteSize := by
    rw [← String.length_toList, ← String.utf8Len_toList]
    exact length_le_utf8Len _
  have hempty : s.appName.length = 0 ↔ s.appName.utf8ByteSize = 0 := by
    rw [String.utf8ByteSize_eq_zero_iff, String.length_eq_zero_iff]
  constructor
  · intro h
    have hlong := h (.appNameTooLong s.appName.utf8ByteSize)
    simp only [Violates, and_true] at hlong
    omega
  · intro h p
    cases p with
    | noMessageFits | messagesTooLarge => exact Iff.rfl
    | namelessApp =>
      unfold Violates
      omega
    | appNameTooLong n =>
      unfold Violates
      omega

/-! ### The check -/

namespace Config

/-- What a check promises, if names are measured in that way. -/
structure CheckedBy (measure : String → Nat) (c : Config) : Prop where
  /-- A configuration passes exactly if its size and its name are within bounds. -/
  passes : c.validate = .ok () ↔
    (1 ≤ c.codec.maxMessageSize.toNat ∧ c.codec.maxMessageSize.toNat ≤ 100 * 1024 * 1024) ∧
      1 ≤ measure c.logging.appName ∧ measure c.logging.appName ≤ 64
  /-- The problems are those that the settings have, with those of the codec settings first. -/
  listed : ∃ first later, c.problems = first ++ later ∧ (∀ p, p ∈ first ↔ c.codec.Violates p) ∧
    ∀ p, p ∈ later ↔ c.logging.Violates measure p
  /-- No problem is listed twice. -/
  once : c.problems.Nodup
  /-- What is reported is the message of each problem, on a line of its own. -/
  reported : ∀ e, c.validate = .error e →
    e.message = "Configuration validation failed:" ++
      String.join (c.problems.map fun p => "\n  - " ++ p.message)

variable {c : Config} {measure : String → Nat}

theorem nodup_problems (c : Config) : c.problems.Nodup := by
  rw [problems, List.nodup_append']
  refine ⟨c.codec.nodup_problems, c.logging.nodup_problems, ?_⟩
  intro p hcodec hlogging
  rw [CodecSettings.mem_problems_iff] at hcodec
  rw [LogSettings.mem_problems_iff] at hlogging
  exact hcodec.not_logging hlogging

/-- A configuration passes just if no problem is listed. -/
theorem validate_eq_ok_iff : c.validate = .ok () ↔ c.problems = [] := by
  rw [validate, ← List.isEmpty_iff]
  split <;> simp [*]

theorem validate_eq_error_iff {e : Error} :
    c.validate = .error e ↔ c.problems ≠ [] ∧ e = .invalid c.problems := by
  rw [validate, ne_eq, ← List.isEmpty_iff]
  split <;> simp [*, eq_comm]

/-- Lines between which a mark stands are lines each of which begins with the mark. -/
theorem append_intercalate {mark : String} {lines : List String} (h : lines ≠ []) :
    mark ++ mark.intercalate lines = String.join (lines.map (mark ++ ·)) := by
  induction lines with
  | nil => exact absurd rfl h
  | cons line lines ih =>
    rw [List.map_cons, String.join_cons]
    by_cases hlast : lines = []
    · subst hlast
      simp
    · rw [String.intercalate_cons_of_ne_nil hlast, ← ih hlast]
      simp only [String.append_assoc]

/-- Each problem has a line of its own in the message. -/
theorem message_invalid {problems : List Problem} (h : problems ≠ []) :
    (Error.invalid problems).message = "Configuration validation failed:" ++
      String.join (problems.map fun p => "\n  - " ++ p.message) := by
  have hlines : problems.map Problem.message ≠ [] := mt List.map_eq_nil_iff.mp h
  calc (Error.invalid problems).message
    _ = "Configuration validation failed:" ++
          ("\n  - " ++ "\n  - ".intercalate (problems.map Problem.message)) := by
      rw [← String.append_assoc]
      rfl
    _ = _ := by
      rw [append_intercalate hlines, List.map_map]
      rfl

/-- No setting is out of bounds just if no problem is to be listed. -/
theorem bounds_iff :
    ((1 ≤ c.codec.maxMessageSize.toNat ∧ c.codec.maxMessageSize.toNat ≤ 100 * 1024 * 1024) ∧
        1 ≤ measure c.logging.appName ∧ measure c.logging.appName ≤ 64) ↔
      (∀ p, ¬ c.codec.Violates p) ∧ ∀ p, ¬ c.logging.Violates measure p := by
  constructor
  · rintro ⟨⟨hsome, hsize⟩, hnamed, hname⟩
    constructor
    · intro p hp
      cases p with
      | noMessageFits => exact Nat.not_lt_of_le hsome hp
      | messagesTooLarge => exact Nat.not_lt_of_le hsize hp.1
      | namelessApp | appNameTooLong => exact hp
    · intro p hp
      cases p with
      | noMessageFits | messagesTooLarge => exact hp
      | namelessApp => exact Nat.not_lt_of_le hnamed hp
      | appNameTooLong => exact Nat.not_lt_of_le hname hp.1
  · rintro ⟨hcodec, hlogging⟩
    have hsome := hcodec .noMessageFits
    have hsize := hcodec (.messagesTooLarge c.codec.maxMessageSize)
    have hnamed := hlogging .namelessApp
    have hname := hlogging (.appNameTooLong (measure c.logging.appName))
    simp only [CodecSettings.Violates, LogSettings.Violates, and_true] at hsome hsize hnamed hname
    omega

/-- A check is as promised for a measure of names exactly if it finds the same problems with it as
with bytes. -/
theorem checkedBy_iff :
    c.CheckedBy measure ↔
      ∀ p, c.logging.Violates measure p ↔ c.logging.Violates String.utf8ByteSize p := by
  constructor
  · intro h p
    obtain ⟨first, later, hlisted, hfirst, hlater⟩ := h.listed
    have hmem : c.codec.Violates p ∨ c.logging.Violates measure p ↔
        c.codec.Violates p ∨ c.logging.Violates String.utf8ByteSize p := by
      rw [← hfirst, ← hlater, ← List.mem_append, ← hlisted, problems, List.mem_append,
        CodecSettings.mem_problems_iff, LogSettings.mem_problems_iff, hfirst]
    constructor
    · intro hp
      exact (hmem.mp (.inr hp)).resolve_left fun hcodec => hcodec.not_logging hp
    · intro hp
      exact (hmem.mpr (.inr hp)).resolve_left fun hcodec => hcodec.not_logging hp
  · intro h
    have hlater : ∀ p, p ∈ c.logging.problems ↔ c.logging.Violates measure p := by
      intro p
      rw [h, LogSettings.mem_problems_iff]
    constructor
    · rw [validate_eq_ok_iff, bounds_iff, problems, List.append_eq_nil_iff,
        List.eq_nil_iff_forall_not_mem, List.eq_nil_iff_forall_not_mem]
      simp only [hlater, CodecSettings.mem_problems_iff]
    · exact ⟨_, _, rfl, fun p => CodecSettings.mem_problems_iff, hlater⟩
    · exact nodup_problems c
    · intro e he
      obtain ⟨hproblems, rfl⟩ := validate_eq_error_iff.mp he
      exact message_invalid hproblems

/-- A check is as promised for names that are measured in bytes. -/
theorem checkedBy_utf8ByteSize (c : Config) : c.CheckedBy String.utf8ByteSize :=
  checkedBy_iff.mpr fun _ => Iff.rfl

/-- A check is as promised for names that are measured in bytes, as they are. For names that are
measured in characters it is so exactly if the name at hand has at most 64 bytes, or no characters
but those of ASCII. -/
theorem checkedBy_length_decided (c : Config) :
    c.CheckedBy String.utf8ByteSize ∧
      (c.CheckedBy String.length ↔
        c.logging.appName.utf8ByteSize ≤ 64 ∨ ∀ ch ∈ c.logging.appName.toList, ch.toNat < 128) := by
  refine ⟨checkedBy_utf8ByteSize c, ?_⟩
  rw [checkedBy_iff, LogSettings.violates_length_iff, ← utf8Len_eq_length_iff,
    String.utf8Len_toList, String.length_toList]

/-- A name of 33 characters, each of two bytes. -/
def accentedName : String := "ééééééééééééééééééééééééééééééééé"

/-- The name is within the bound for characters, and is still refused for having too many. -/
theorem not_checkedBy_length_accented :
    accentedName.length = 33 ∧
      validate { logging := { appName := accentedName } } = .error (.invalid [.appNameTooLong 66]) ∧
      ¬ CheckedBy String.length { logging := { appName := accentedName } } := by
  have hlength : accentedName.length = 33 := by decide
  have hrefused : validate { logging := { appName := accentedName } } =
      .error (.invalid [.appNameTooLong 66]) := by decide
  refine ⟨hlength, hrefused, ?_⟩
  intro h
  have hpasses : validate { logging := { appName := accentedName } } = .ok () := by
    rw [h.passes]
    decide
  rw [hrefused] at hpasses
  cases hpasses

end Config

end PacketWire
