import Mathlib.Algebra.Order.Floor.Div
import Mathlib.GroupTheory.GroupAction.Ring
import PacketWire.Proofs.Format.Length
import PacketWire.Proofs.Format.Writing

/-!
# Lengths known before writing

The length of a wire form is computed in words before anything is written, so that room can be made
for it. The computation never leaves the range of a word for a payload that a memory can hold, and
what comes out is the number of bytes that a sink is then given (`encodedLength_exact`).
-/

namespace PacketWire

open Sink

/-- A sink that takes all that it is offered holds the wire form in the end. -/
theorem Format.write_of_all {f : Format} {p : Packet} {script : List Outcome}
    (hall : ∀ outcome ∈ script, outcome = .all) :
    (f.write p script).result = .ok () ∧ (f.write p script).accepted = f.encode p := by
  have hsmooth : Smooth (f.write p script).calls :=
    smooth_of_all (Segment.answers_writeAll (f.segments p) script) hall
  rcases Segment.writeAll_ends (f.segments p) script with ⟨hcompletes, hbytes⟩ |
    ⟨_, _, _, _, last, failure, -, hbreaks, -, -⟩
  · exact ⟨hcompletes.result, hbytes⟩
  · exact absurd hsmooth hbreaks.not_smooth

/-- Three bytes to a group, the last of which need not be full. -/
theorem Base64.groups_eq_ceilDiv (n : Nat) : (n + 2) / 3 * 4 = 4 * (n ⌈/⌉ 3) := by
  rw [Nat.ceilDiv_eq_add_pred_div, Nat.mul_comm]
  rfl

namespace Format

theorem wireLength_of_ne_base64 {f : Format} (hf : f ≠ .base64) (n : Nat) :
    f.wireLength n = 1 + n := by
  cases f with
  | binary | string => rfl
  | base64 => exact absurd rfl hf

/-- In the binary and string formats the computation is one sum. -/
theorem add?_one_eq_encodedLength {f : Format} (hf : f ≠ .base64) {n : UInt64}
    (h : n.toNat < 2 ^ 63) : Word.add? 1 n = some (f.encodedLength n) := by
  rw [Word.add?_eq_some_iff, toNat_encodedLength f h, wireLength_of_ne_base64 hf]
  rfl

/-- For a payload of `n` bytes, up to the largest that a memory can hold, no step of the computation
in words overflows, and the length of the base64 text is found without the value that stands in for
one that is too large. The length so found is that of the wire form and the number of bytes that a
sink holds afterwards if it takes all that it is offered: one more than the payload in the binary
and string formats; in base64 one without a payload, and otherwise two and four for every three
bytes, a last group being filled up. Even the value that stands in, for whatever number of bytes,
leaves room for the two that are added to it. -/
theorem encodedLength_exact :
    (∀ (f : Format) (p : Packet) (n : UInt64) (script : List Outcome),
      p.payload.length ≤ 2 ^ 63 - 1 → n.toNat = p.payload.length →
      (∀ outcome ∈ script, outcome = .all) →
        (f ≠ .base64 → Word.add? 1 n = some (f.encodedLength n)) ∧
        (f = .base64 → p.payload ≠ [] → ∃ text,
          Base64.paddedLength? n = some text ∧ Word.add? 2 text = some (f.encodedLength n)) ∧
        (f.encodedLength n).toNat = (f.encode p).length ∧
        (f.write p script).result = .ok () ∧
        (f.encodedLength n).toNat = (f.write p script).accepted.length ∧
        (f ≠ .base64 → (f.encodedLength n).toNat = 1 + p.payload.length) ∧
        (f = .base64 → p.payload = [] → f.encodedLength n = 1) ∧
        (f = .base64 → p.payload ≠ [] →
          (f.encodedLength n).toNat = 2 + 4 * (p.payload.length ⌈/⌉ 3))) ∧
    ∀ n : UInt64,
      Word.add? 2 ((Base64.paddedLength? n).getD (Word.largest - 2)) =
        some (2 + (Base64.paddedLength? n).getD (Word.largest - 2)) := by
  constructor
  · intro f p n script hmemory hn hall
    have hword : n.toNat < 2 ^ 63 := by omega
    have hlength : (f.encodedLength n).toNat = f.wireLength p.payload.length := by
      rw [toNat_encodedLength f hword, hn]
    have hencode : (f.encodedLength n).toNat = (f.encode p).length := by
      rw [hlength, length_encode]
    have hzero : n = 0 ↔ p.payload = [] := by
      rw [← UInt64.toNat_inj, hn]
      exact List.length_eq_zero_iff
    obtain ⟨hresult, haccepted⟩ := write_of_all (f := f) (p := p) hall
    refine ⟨fun hf => add?_one_eq_encodedLength hf hword, ?_, hencode, hresult, ?_, ?_, ?_, ?_⟩
    · rintro rfl hpayload
      obtain ⟨text, hpadded, -⟩ := Base64.exists_paddedLength? hword
      refine ⟨text, hpadded, Word.add?_eq_some_iff.mpr ?_⟩
      have hsum := Base64.toNat_two_add_paddedLength n
      rw [hpadded, Option.getD_some] at hsum
      rw [encodedLength, if_neg (mt hzero.mp hpayload), hpadded, Option.getD_some, hsum]
      rfl
    · rw [haccepted, hencode]
    · intro hf
      rw [hlength, wireLength_of_ne_base64 hf]
    · rintro rfl hpayload
      rw [encodedLength, if_pos (hzero.mpr hpayload)]
    · rintro rfl hpayload
      have hsome : p.payload.length ≠ 0 := mt List.length_eq_zero_iff.mp hpayload
      rw [hlength, wireLength, if_neg hsome, Base64.groups_eq_ceilDiv]
  · intro n
    exact Word.add?_eq_some_iff.mpr (Base64.toNat_two_add_paddedLength n)

/-- Four bytes need two groups, and the largest word of bytes has a text that no word can count. -/
theorem encodedLength_exact_two_groups :
    Format.base64.encodedLength 4 = 10 ∧
      (write .base64 ⟨.message, [97, 98, 99, 97], .none⟩ [.all, .all]).accepted.length = 10 ∧
      Base64.paddedLength? Word.largest = none ∧
      Word.add? 2 ((Base64.paddedLength? Word.largest).getD (Word.largest - 2)) =
        some Word.largest := by
  obtain ⟨-, -, -, -, hwritten, -, -, hlength⟩ := encodedLength_exact.1 .base64
    ⟨.message, [97, 98, 99, 97], .none⟩ 4 [.all, .all] (by decide) rfl (by decide)
  have hten : Format.base64.encodedLength 4 = 10 := by
    apply UInt64.toNat_inj.mp
    rw [hlength rfl (by decide)]
    decide
  refine ⟨hten, ?_, by decide, ?_⟩
  · rw [← hwritten, hten]
    rfl
  · rw [encodedLength_exact.2 Word.largest]
    decide

end Format

end PacketWire
