import PacketWire.Proofs.Format.Joining
import PacketWire.Proofs.Mailbox.Taking

/-!
# Several packets in one buffer

A mailbox looks for no boundaries in a buffer: packets that are posted one after the other, with
nothing taken in between, are read as a single message. For the binary and string formats that is a
packet; for base64 it is one only if the packets are `Joinable`, which two packets never are
(`take_posted`).
-/

namespace PacketWire.Mailbox

open Format

def postAll (m : Mailbox) (ps : List Packet) (buffer : Bytes) : Bytes :=
  ps.foldl (fun buffer p => m.post p buffer) buffer

/-- Messages are put behind what is in the buffer, one after the other. -/
theorem postAll_eq (m : Mailbox) (ps : List Packet) (buffer : Bytes) :
    m.postAll ps buffer = buffer ++ ps.flatMap m.format.encode := by
  induction ps generalizing buffer with
  | nil => exact (List.append_nil buffer).symm
  | cons p ps ih =>
    rw [List.flatMap_cons, ← List.append_assoc]
    exact ih (m.post p buffer)

theorem posted_eq (m : Mailbox) (ps : List Packet) :
    m.postAll ps [] = ps.flatMap m.format.encode := by
  rw [postAll_eq, List.nil_append]

/-- A buffer with a message in it is not empty, so that only the limit matters. -/
theorem admits_posted {m : Mailbox} {p : Packet} {ps : List Packet}
    (h : (m.postAll (p :: ps) []).length ≤ m.limit.toNat) : m.Admits (m.postAll (p :: ps) []) := by
  refine ⟨?_, h⟩
  rw [posted_eq, List.flatMap_cons, List.length_append]
  have := List.length_pos_iff.mpr (encode_ne_nil m.format p)
  omega

/-- Packets posted to an empty buffer, within the limit, are taken as one message, and nothing is
left. A binary or string message is a packet of the type of the first one, its payload followed by
the messages of the others. A base64 message of two packets or more is a packet of that type, with
the payload of the first in front, when the packets are joinable, and malformed when they are not;
two packets never are. -/
theorem take_posted (m : Mailbox) (p : Packet) (ps : List Packet)
    (h : (m.postAll (p :: ps) []).length ≤ m.limit.toNat) :
    (m.take (m.postAll (p :: ps) [])).2 = [] ∧
      (m.format = .binary ∨ m.format = .string →
        (m.take (m.postAll (p :: ps) [])).1 =
          .ok (some ⟨p.type, p.payload ++ ps.flatMap m.format.encode,
            if m.format = .string then Flags.none else Flags.binaryOnly⟩)) ∧
      (m.format = .base64 → ps ≠ [] →
        (Joinable p ps → ∃ rest, (m.take (m.postAll (p :: ps) [])).1 =
          .ok (some ⟨p.type, p.payload ++ rest, .binaryOnly⟩)) ∧
        (¬ Joinable p ps → ∃ cause, (m.take (m.postAll (p :: ps) [])).1 =
          .error (.malformed cause)) ∧
        (ps.length = 1 → ∃ cause, (m.take (m.postAll (p :: ps) [])).1 =
          .error (.malformed cause))) := by
  rw [take_of_admits (admits_posted h), posted_eq]
  refine ⟨rfl, ?_, ?_⟩
  · intro hf
    rw [decode_joined hf, flags_eq]
    rfl
  · intro hf hps
    rw [hf]
    have hbad : ¬ Joinable p ps → ∃ cause,
        ((decode .base64 ((p :: ps).flatMap (encode .base64))).mapError Fault.malformed).map some =
          .error (.malformed cause) := by
      intro hjoinable
      obtain ⟨cause, hcause⟩ := decode_base64_of_not_joinable hps hjoinable
      exact ⟨cause, by rw [hcause]; rfl⟩
    refine ⟨?_, hbad, ?_⟩
    · intro hjoinable
      obtain ⟨rest, hrest⟩ := decode_base64_of_joinable hps hjoinable
      exact ⟨rest, by rw [hrest]; rfl⟩
    · intro hlength
      obtain ⟨q, rfl⟩ := List.length_eq_one_iff.mp hlength
      exact hbad (not_joinable_pair p q)

/-- A padded group after two whole ones, with marker and digit in front of each: three messages that
are read as one packet. -/
theorem take_posted_three :
    ∃ rest, (take ⟨.base64, 100⟩ (postAll ⟨.base64, 100⟩
        [⟨.opening, [97, 98, 99], .none⟩, ⟨.message, [97, 98, 99], .none⟩,
          ⟨.message, [97], .none⟩] [])).1 =
      .ok (some ⟨.opening, [97, 98, 99] ++ rest, .binaryOnly⟩) :=
  ((take_posted ⟨.base64, 100⟩ ⟨.opening, [97, 98, 99], .none⟩
    [⟨.message, [97, 98, 99], .none⟩, ⟨.message, [97], .none⟩] (by decide +kernel)).2.2 rfl
    (by decide)).1 ⟨by decide, by decide, by decide⟩

end PacketWire.Mailbox
