import PacketWire.Proofs.Format.Canonical
import PacketWire.Proofs.Format.Length
import PacketWire.Proofs.Mailbox.Taking

/-!
# What a taking can come to

A taking finds no message, refuses one that is too long, or reads one. So a fault lies in the bytes
themselves exactly when they kept within the limit (`isMalformedInput_iff`), and a packet is smaller
than the limit, since every format spends at least one byte beside the payload
(`payload_lt_of_decode`). The end of a channel adds nothing to this (`takeLast_eq_take`): a message
is never cut short there (`outcome_of_taking`).
-/

namespace PacketWire

/-! ### Packets are smaller than their messages -/

/-- A payload is shorter than any message that it is read from, since it is shorter than the
canonical form of that message. -/
theorem Format.payload_lt_of_decode {f : Format} {w : Bytes} {p : Packet} (h : f.decode w = .ok p) :
    p.payload.length < w.length := by
  calc p.payload.length
    _ < f.wireLength p.payload.length := f.lt_wireLength _
    _ = (f.encode p).length := (f.length_encode p).symm
    _ ≤ w.length := (canonical_encode h).length_le

namespace Mailbox

variable {m : Mailbox} {buffer : Bytes}

/-! ### Faults and packets -/

theorem take_admitted_eq_error_iff {fault : Fault} (h : m.Admits buffer) :
    (m.take buffer).1 = .error fault ↔
      ∃ cause, m.format.decode buffer = .error cause ∧ fault = .malformed cause := by
  rw [take_of_admits h]
  cases m.format.decode buffer with
  | ok p => simp [Except.map]
  | error cause => simp [Except.map, eq_comm]

/-- A packet is taken just from a message that is admitted and can be read. -/
theorem take_eq_packet_iff {p : Packet} :
    (m.take buffer).1 = .ok (some p) ↔ m.Admits buffer ∧ m.format.decode buffer = .ok p := by
  by_cases h : m.Admits buffer
  · rw [take_of_admits h, and_iff_right h]
    cases m.format.decode buffer <;> simp [Except.map]
  · rw [take_of_not_admits h]
    apply iff_of_false
    · intro htake
      simp only at htake
      split at htake <;> cases htake
    · rintro ⟨hadmits, -⟩
      exact h hadmits

/-- The bytes are to blame for a fault exactly if there were not too many of them. -/
theorem isMalformedInput_iff {fault : Fault} (h : (m.take buffer).1 = .error fault) :
    fault.isMalformedInput = true ↔ buffer.length ≤ m.limit.toNat := by
  by_cases hadmits : m.Admits buffer
  · obtain ⟨cause, -, rfl⟩ := (take_admitted_eq_error_iff hadmits).mp h
    exact iff_of_true rfl hadmits.2
  · rw [take_of_not_admits hadmits] at h
    simp only at h
    split at h
    · cases h
    · next hne =>
      cases h
      apply iff_of_false
      · exact Bool.false_ne_true
      · intro hfits
        exact hadmits ⟨List.length_pos_iff.mpr hne, hfits⟩

/-- One byte of every message is not of the payload. -/
theorem payload_lt_limit {p : Packet} (h : (m.take buffer).1 = .ok (some p)) :
    p.payload.length < m.limit.toNat := by
  obtain ⟨hadmits, hdecode⟩ := take_eq_packet_iff.mp h
  exact Nat.lt_of_lt_of_le (Format.payload_lt_of_decode hdecode) hadmits.2

/-! ### All takings -/

/-- Whether or not more may arrive, a taking has the same result and leaves the same buffer, and no
message is ever found to be cut short. An empty buffer yields nothing and stays empty, one that is
longer than the limit is refused with its length and stays as it was, and any other is emptied and
yields what the format makes of all of it. A fault is one of the bytes exactly when they kept within
the limit, and the payload of a packet is shorter than the limit. -/
theorem outcome_of_taking (m : Mailbox) (buffer : Bytes) :
    m.takeLast buffer = m.take buffer ∧
      (m.takeLast buffer).1 ≠ .error (.sink cutShort) ∧
      (buffer = [] → m.take buffer = (.ok none, [])) ∧
      (m.limit.toNat < buffer.length →
        m.take buffer = (.error (.oversized buffer.length), buffer)) ∧
      (buffer ≠ [] → buffer.length ≤ m.limit.toNat →
        (∀ p, m.format.decode buffer = .ok p → m.take buffer = (.ok (some p), [])) ∧
        ∀ cause, m.format.decode buffer = .error cause →
          m.take buffer = (.error (.malformed cause), [])) ∧
      (∀ fault, (m.take buffer).1 = .error fault →
        (fault.isMalformedInput = true ↔ buffer.length ≤ m.limit.toNat)) ∧
      ∀ p, (m.take buffer).1 = .ok (some p) → p.payload.length < m.limit.toNat := by
  refine ⟨takeLast_eq_take m buffer, ?_, ?_, take_of_oversized, ?_, ?_, ?_⟩
  · intro hcut
    rw [takeLast_eq_take] at hcut
    by_cases hadmits : m.Admits buffer
    · obtain ⟨cause, -, hfault⟩ := (take_admitted_eq_error_iff hadmits).mp hcut
      cases hfault
    · rw [take_of_not_admits hadmits] at hcut
      simp only at hcut
      split at hcut <;> cases hcut
  · rintro rfl
    exact take_nil m
  · intro hne hfits
    have hadmits : m.Admits buffer := ⟨List.length_pos_iff.mpr hne, hfits⟩
    constructor
    · intro p hdecode
      rw [take_of_admits hadmits, hdecode]
      rfl
    · intro cause hdecode
      rw [take_of_admits hadmits, hdecode]
      rfl
  · intro fault
    exact isMalformedInput_iff
  · intro p
    exact payload_lt_limit

/-- Six bytes of base64 are read under a limit of six, refused under a limit of five, and are a
fault of their own once the marker is missing. -/
theorem outcome_of_taking_six_bytes :
    take ⟨.base64, 6⟩ [98, 52, 89, 87, 74, 106] =
        (.ok (some ⟨.message, [97, 98, 99], .binaryOnly⟩), []) ∧
      ([97, 98, 99] : Bytes).length < (6 : UInt64).toNat ∧
      take ⟨.base64, 5⟩ [98, 52, 89, 87, 74, 106] =
        (.error (.oversized 6), [98, 52, 89, 87, 74, 106]) ∧
      take ⟨.base64, 6⟩ [52, 52, 89, 87, 74, 106] =
        (.error (.malformed (.badFraming [52, 52, 89, 87, 74, 106])), []) ∧
      (Fault.malformed (.badFraming [52, 52, 89, 87, 74, 106])).isMalformedInput = true := by
  obtain ⟨-, -, -, -, hread, -, hpayload⟩ :=
    outcome_of_taking ⟨.base64, 6⟩ [98, 52, 89, 87, 74, 106]
  obtain ⟨-, -, -, hover, -⟩ := outcome_of_taking ⟨.base64, 5⟩ [98, 52, 89, 87, 74, 106]
  obtain ⟨-, -, -, -, hunmarked, hfault, -⟩ :=
    outcome_of_taking ⟨.base64, 6⟩ [52, 52, 89, 87, 74, 106]
  refine ⟨?_, ?_, ?_, ?_, ?_⟩
  · exact (hread (by decide) (by decide)).1 _ rfl
  · exact hpayload ⟨.message, [97, 98, 99], .binaryOnly⟩ rfl
  · exact hover (by decide)
  · exact (hunmarked (by decide) (by decide)).2 _ rfl
  · exact (hfault _ rfl).mpr (by decide)

end Mailbox

end PacketWire
