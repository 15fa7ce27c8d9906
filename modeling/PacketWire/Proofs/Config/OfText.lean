import Mathlib.Data.List.Forall2
import PacketWire.Config.Source
import PacketWire.Proofs.Config.Given
import PacketWire.Proofs.Toml.Document

/-!
# A configuration from a document

To read a document is to set the settings that it gives, in its order (`ofTable_eq_foldlM`);
whatever else stands in it is passed over. So it is known which documents are read, what is read
from them, and what is reported of the others (`ofText_decided`).
-/

namespace PacketWire

open Setting
open Toml (Value Table)

/-! ### Tables and settings -/

/-- To set the field is to set the setting in a configuration around it. -/
structure Field.StandsFor {σ : Type} (around : σ → Config) (f : Field σ) (s : Setting) : Prop where
  key : f.key = s.key
  set : ∀ x v, (f.set x v).map around = assign (around x) (s, v)

section

variable {σ : Type} {around : σ → Config} {fields : List (Field σ)}

/-- A field that is set to what its setting reads, and from there into the configuration. -/
theorem Field.StandsFor.of_read {f : Field σ} {s : Setting} {change : σ → s.Content → σ}
    (hkey : f.key = s.key) (hset : ∀ x v, f.set x v = do return change x (← s.read v))
    (hchange : ∀ x y, around (change x y) = s.put y (around x)) : f.StandsFor around s := by
  refine ⟨hkey, fun x v => ?_⟩
  rw [hset, assign]
  cases s.read v with
  | error cause => rfl
  | ok y => exact congrArg Except.ok (hchange x y)

/-- An entry sets the setting of its key, and does nothing if there is none. -/
theorem Field.map_setNamed {settings : List Setting}
    (hfields : List.Forall₂ (StandsFor around) fields settings) (x : σ) (e : String × Value) :
    (setNamed fields x e).map around =
      match settings.find? fun s => s.key = e.1 with
      | some s => assign (around x) (s, e.2)
      | none => .ok (around x) := by
  unfold setNamed
  induction hfields with
  | nil => rfl
  | @cons f s fields settings hfield _ ih =>
    rw [List.find?_cons, List.find?_cons, hfield.key]
    cases decide (s.key = e.1) with
    | true => exact hfield.set x e.2
    | false => exact ih

theorem foldlM_ofEntries_cons (name : String) (e : String × Value) (entries : Table) (c : Config) :
    (Setting.ofEntries name (e :: entries)).foldlM assign c =
      (match ofPlace? name e.1 with
        | some s => assign c (s, e.2)
        | none => .ok c) >>= (Setting.ofEntries name entries).foldlM assign := by
  rw [Setting.ofEntries, List.filterMap_cons]
  cases ofPlace? name e.1 <;> rfl

/-- A section is read by setting its settings one after the other. -/
theorem Field.map_ofEntries {name : String}
    (hfields : List.Forall₂ (StandsFor around) fields (inTable name)) (x : σ) (entries : Table) :
    (Field.ofEntries fields x entries).map around =
      (Setting.ofEntries name entries).foldlM assign (around x) := by
  induction entries generalizing x with
  | nil => rfl
  | cons e entries ih =>
    rw [foldlM_ofEntries_cons, ofPlace?, ← map_setNamed hfields x e, Field.ofEntries,
      List.foldlM_cons]
    cases setNamed fields x e with
    | error cause => rfl
    | ok y => exact ih y

/-- A section that starts from what stands in the configuration already. -/
theorem Field.ofEntries_eq_foldlM {name : String} {x : σ} {c : Config}
    (hfields : List.Forall₂ (StandsFor around) fields (inTable name)) (hstart : around x = c)
    (entries : Table) :
    (do return around (← Field.ofEntries fields x entries)) =
      (Setting.ofEntries name entries).foldlM assign c := by
  rw [← map_eq_bind, map_ofEntries hfields, hstart]

end

namespace Config

/-- The fields of the codec settings stand for their settings, in order. -/
theorem codec_fields (c : Config) :
    List.Forall₂ (Field.StandsFor fun x => { c with codec := x }) CodecSettings.fields
      (inTable "codec") := by
  refine .cons ?_ (.cons ?_ .nil)
  all_goals exact .of_read rfl (fun _ _ => rfl) (fun _ _ => rfl)

theorem logging_fields (c : Config) :
    List.Forall₂ (Field.StandsFor fun x => { c with logging := x }) LogSettings.fields
      (inTable "logging") := by
  refine .cons ?_ (.cons ?_ (.cons ?_ .nil))
  all_goals exact .of_read rfl (fun _ _ => rfl) (fun _ _ => rfl)

/-- A section starts from its defaults. This is of no account where these still stand. -/
theorem setNamed_eq_foldlM {c : Config} {e : String × Value}
    (hdefault : ∀ s : Setting, s.table = e.1 → s.get c = s.get {})
    (htable : ∀ s : Setting, s.table = e.1 → ∃ origin entries, e.2 = .table origin entries) :
    Field.setNamed fields c e = (ofTop e).foldlM assign c := by
  obtain ⟨name, v⟩ := e
  by_cases hcodec : name = "codec"
  · subst hcodec
    obtain ⟨origin, entries, rfl⟩ := htable .kind rfl
    refine Field.ofEntries_eq_foldlM (codec_fields c) (config_eq fun s => ?_) entries
    cases s <;> first | rfl | exact Eq.symm (hdefault _ rfl)
  · by_cases hlogging : name = "logging"
    · subst hlogging
      obtain ⟨origin, entries, rfl⟩ := htable .appName rfl
      refine Field.ofEntries_eq_foldlM (logging_fields c) (config_eq fun s => ?_) entries
      cases s <;> first | rfl | exact Eq.symm (hdefault _ rfl)
    · have hnone : ofTop (name, v) = [] := by
        rw [List.eq_nil_iff_forall_not_mem]
        rintro ⟨s, w⟩ hs
        obtain ⟨origin, entries, heq, -⟩ := mem_ofTop_iff.mp hs
        rcases table_eq s with htop | htop
        · exact hcodec ((Prod.mk.inj heq).1.trans htop)
        · exact hlogging ((Prod.mk.inj heq).1.trans htop)
      rw [hnone]
      simp [Field.setNamed, fields, Ne.symm hcodec, Ne.symm hlogging]

theorem foldlM_setNamed_eq_foldlM {t : Table} {c : Config} (hdistinct : (t.map Prod.fst).Nodup)
    (htables : TablesIn t)
    (hdefault : ∀ e ∈ t, ∀ s : Setting, s.table = e.1 → s.get c = s.get {}) :
    t.foldlM (Field.setNamed fields) c = (ofDocument t).foldlM assign c := by
  induction t generalizing c with
  | nil => rfl
  | cons e t ih =>
    rw [List.map_cons, List.nodup_cons] at hdistinct
    rw [List.forall_mem_cons] at hdefault
    have htop : Field.setNamed fields c e = (ofTop e).foldlM assign c := by
      apply setNamed_eq_foldlM hdefault.1
      intro s hs
      exact htables s e.2 (by rw [hs]; exact List.mem_cons_self)
    rw [List.foldlM_cons, ofDocument, List.flatMap_cons, List.foldlM_append, htop]
    cases hset : (ofTop e).foldlM assign c with
    | error cause => rfl
    | ok next =>
      refine ih hdistinct.2 (fun s v hv => htables s v (List.mem_cons_of_mem e hv)) ?_
      intro e' he' s hs
      rw [get_of_foldlM_assign hset, hdefault.2 e' he' s hs]
      -- The table of the setting is still to come, and no table comes twice.
      intro v hv
      obtain ⟨origin, entries, heq, -⟩ := mem_ofTop_iff.mp hv
      apply hdistinct.1
      rw [heq, hs]
      exact List.mem_map.mpr ⟨e', he', rfl⟩

/-- A document is read by setting what it gives, one setting after the other. -/
theorem ofTable_eq_foldlM {t : Table} (ht : t.Keyed) (htables : TablesIn t) :
    ofTable t = (ofDocument t).foldlM assign {} :=
  foldlM_setNamed_eq_foldlM ht.distinct htables fun _ _ _ _ => rfl

/-! ### What is read -/

/-- The configuration has what the document gives, and is the default where it gives nothing. -/
def DescribedBy (c : Config) (t : Table) : Prop :=
  ∀ s : Setting, (∀ v, Given t s v → s.Means v (s.get c)) ∧
    ((∀ v, ¬ Given t s v) → s.get c = s.get {})

section

variable {t : Table} {c : Config} {cause : Mismatch}

/-- The configuration that a document is read to is the one that it describes. -/
theorem ofTable_eq_ok_iff (ht : t.Keyed) (htables : TablesIn t) :
    ofTable t = .ok c ↔ c.DescribedBy t := by
  rw [ofTable_eq_foldlM ht htables, foldlM_assign_eq_ok_iff]
  · simp only [mem_ofDocument_iff, DescribedBy]
  · intro s v v' h h'
    exact Given.unique ht (mem_ofDocument_iff.mp h) (mem_ofDocument_iff.mp h')

end

section

variable {text : String} {t : Table} {c : Config}

theorem ofText_of_parse (hparse : Toml.parse text = some t) :
    ofText text = (ofTable t).mapError .mismatch := by
  rw [ofText, hparse]

theorem ofText_eq_ok_iff (hparse : Toml.parse text = some t) (htables : TablesIn t) :
    ofText text = .ok c ↔ c.DescribedBy t := by
  rw [ofText_of_parse hparse, mapError_eq_ok_iff,
    ofTable_eq_ok_iff (Toml.keyed_of_parse hparse) htables]

end

end Config

end PacketWire
