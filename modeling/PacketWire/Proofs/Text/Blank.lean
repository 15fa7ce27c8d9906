import Mathlib.Data.List.DropRight
import Mathlib.Data.List.Forall2
import PacketWire.Text.Blank

/-!
# Texts typed by people

Two texts may be taken for the same although a person added blanks around one or wrote capitals.
What trimming leaves is the part between the blanks (`trim_eq_iff`), and what folding yields is a
text without capitals exactly when that text was written with some of its letters as capitals
(`foldCase_eq_iff`).
-/

namespace PacketWire.Text

/-! ### Blanks around a text -/

/-- The core is what is left of the text without the blanks at its two ends. -/
structure Trimmed (text core : String) : Prop where
  around : ∃ front back, text.toList = front ++ core.toList ++ back ∧
    (∀ c ∈ front, isBlank c = true) ∧ ∀ c ∈ back, isBlank c = true
  first : ∀ c ∈ core.toList.head?, isBlank c = false
  last : ∀ c ∈ core.toList.getLast?, isBlank c = false

/-- Trimming drops the blanks in front, and then those at the end. -/
theorem toList_trim (text : String) :
    (trim text).toList = (text.toList.dropWhile isBlank).rdropWhile isBlank := by
  rw [trim, String.toList_ofList]
  rfl

/-- What is left at the front of a text is no blank. -/
theorem isBlank_head?_dropWhile {cs : List Char} {c : Char}
    (h : c ∈ (cs.dropWhile isBlank).head?) : isBlank c = false := by
  have hhead := List.head?_dropWhile_not isBlank cs
  rw [Option.mem_def.mp h] at hhead
  exact hhead

/-- What trimming leaves has blanks around it, and none at either end. -/
theorem trimmed_trim (text : String) : Trimmed text (trim text) where
  around := by
    refine ⟨text.toList.takeWhile isBlank, (text.toList.dropWhile isBlank).rtakeWhile isBlank,
      ?_, ?_, ?_⟩
    · rw [toList_trim, List.append_assoc, List.rdropWhile_append_rtakeWhile,
        List.takeWhile_append_dropWhile]
    · intro c hc
      exact List.mem_takeWhile_imp hc
    · intro c hc
      exact List.mem_rtakeWhile_imp hc
  first := by
    rw [toList_trim]
    intro c hc
    -- What is trimmed at the end leaves the first character in its place.
    have hhead : c ∈ (text.toList.dropWhile isBlank).head? := by
      obtain ⟨back, hback⟩ := List.rdropWhile_prefix isBlank (l := text.toList.dropWhile isBlank)
      rw [← hback, List.head?_append, Option.mem_def.mp hc]
      rfl
    exact isBlank_head?_dropWhile hhead
  last := by
    rw [toList_trim]
    intro c hc
    rw [List.rdropWhile, List.getLast?_reverse] at hc
    exact isBlank_head?_dropWhile hc

/-- There is only one way to trim a text. -/
theorem Trimmed.trim_eq {text core : String} (h : Trimmed text core) : trim text = core := by
  obtain ⟨front, back, htext, hfront, hback⟩ := h.around
  apply String.toList_inj.mp
  rw [toList_trim, htext, List.append_assoc, List.dropWhile_append_of_pos hfront]
  have hlast : core.toList.rdropWhile isBlank = core.toList := by
    rw [List.rdropWhile_eq_self_iff]
    intro hne hblank
    rw [h.last _ (List.getLast?_eq_getLast_of_ne_nil hne)] at hblank
    cases hblank
  have hends : (core.toList ++ back).rdropWhile isBlank = core.toList := by
    rw [List.rdropWhile, List.reverse_append,
      List.dropWhile_append_of_pos (by simpa using hback)]
    exact hlast
  cases hcore : core.toList with
  | nil =>
    rw [List.nil_append, List.dropWhile_eq_nil_iff.mpr hback, List.rdropWhile_nil]
  | cons c rest =>
    have hfirst : isBlank c = false := by
      apply h.first
      rw [hcore]
      rfl
    rw [List.cons_append, List.dropWhile_cons_of_neg (by rw [hfirst]; exact Bool.false_ne_true),
      ← List.cons_append, ← hcore, hends]

/-- Trimming a text leaves the part between its blanks. -/
theorem trim_eq_iff {text core : String} : trim text = core ↔ Trimmed text core := by
  constructor
  · rintro rfl
    exact trimmed_trim text
  · exact Trimmed.trim_eq

/-- What holds of the part between the blanks holds of the trimmed text. -/
theorem exists_trimmed_iff {text : String} {P : String → Prop} :
    (∃ core, Trimmed text core ∧ P core) ↔ P (trim text) := by
  simp only [← trim_eq_iff, exists_eq_left']

/-- A text without blanks is left as it is. -/
theorem trimmed_self {text : String} (h : ∀ c ∈ text.toList, isBlank c = false) :
    Trimmed text text where
  around := ⟨[], [], by simp, nofun, nofun⟩
  first _ hc := h _ (List.mem_of_mem_head? hc)
  last _ hc := h _ (List.mem_of_mem_getLast? hc)

theorem isBlank_of_isDigit {c : Char} (h : c.isDigit = true) : isBlank c = false := by
  have hrange : 48 ≤ c.toNat ∧ c.toNat ≤ 57 := by
    simpa [Char.isDigit, UInt32.le_iff_toNat_le] using h
  simp only [isBlank, Bool.or_eq_false_iff, Bool.and_eq_false_iff, decide_eq_false_iff_not,
    beq_eq_false_iff_ne]
  omega

/-! ### Capitals -/

/-- The text is the name, with any of its letters written as capitals. -/
def SameLetters (text name : String) : Prop :=
  List.Forall₂ (fun c d => c = d ∨ c = d.toUpper) text.toList name.toList

theorem sameLetters_self (name : String) : SameLetters name name :=
  List.forall₂_same.mpr fun _ _ => .inl rfl

/-- A name that has no blanks, in capitals or small letters, is written without blanks. -/
theorem SameLetters.trimmed {text name : String} (h : SameLetters text name)
    (hname : ∀ d ∈ name.toList, isBlank d = false ∧ isBlank d.toUpper = false) :
    Trimmed text text := by
  apply trimmed_self
  unfold SameLetters at h
  generalize text.toList = cs at h
  generalize name.toList = ds at h hname
  induction h with
  | nil => nofun
  | cons hc _ ih =>
    obtain ⟨hfirst, hname⟩ := List.forall_mem_cons.mp hname
    apply List.forall_mem_cons.mpr ⟨?_, ih hname⟩
    rcases hc with rfl | rfl
    · exact hfirst.1
    · exact hfirst.2

/-- What becomes a small letter is that letter or its capital. -/
theorem toLower_eq_iff {c d : Char} (hd : d.isUpper = false) :
    c.toLower = d ↔ c = d ∨ c = d.toUpper := by
  unfold Char.isUpper at hd
  unfold Char.toLower Char.toUpper
  rw [decide_eq_false_iff_not] at hd
  simp only [Char.ext_iff]
  -- A capital and its small letter are thirty-two code points apart, in either direction.
  split <;> split <;> grind [UInt32.toNat_add, UInt32.ext_iff, UInt32.le_iff_toNat_le]

/-- Folding yields a name without capitals from just those texts that are the name in any mixture of
capitals and small letters. -/
theorem foldCase_eq_iff {text name : String} (hname : ∀ d ∈ name.toList, d.isUpper = false) :
    foldCase text = name ↔ SameLetters text name := by
  have hchars : ∀ (cs ds : List Char), (∀ d ∈ ds, d.isUpper = false) →
      (cs.map Char.toLower = ds ↔ List.Forall₂ (fun c d => c = d ∨ c = d.toUpper) cs ds) := by
    intro cs ds hds
    rw [← List.forall₂_eq_eq_eq, List.forall₂_map_left_iff]
    induction cs generalizing ds with
    | nil => cases ds <;> simp
    | cons c cs ih =>
      cases ds with
      | nil => simp
      | cons d ds =>
        obtain ⟨hd, hds⟩ := List.forall_mem_cons.mp hds
        rw [List.forall₂_cons, List.forall₂_cons, toLower_eq_iff hd, ih ds hds]
  rw [SameLetters, ← hchars _ _ hname, foldCase, ← String.toList_inj, String.toList_ofList]

end PacketWire.Text
