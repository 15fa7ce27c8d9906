import PacketWire.Mailbox

/-!
# Taking a message

What becomes of a buffer from which a message is taken: an empty one stays, one that is too long
stays, and any other is emptied, whether or not it holds a packet. Nothing is left over without a
message, so that a buffer to which nothing will be added is treated no differently
(`takeLast_eq_take`).
-/

namespace PacketWire.Mailbox

/-- The buffer holds a message that is not too long. -/
def Admits (m : Mailbox) (buffer : Bytes) : Prop :=
  0 < buffer.length ∧ buffer.length ≤ m.limit.toNat

instance (m : Mailbox) (buffer : Bytes) : Decidable (m.Admits buffer) :=
  inferInstanceAs (Decidable (_ ∧ _))

theorem take_nil (m : Mailbox) : m.take [] = (.ok none, []) := rfl

/-- A message that is admitted is read as a whole, and taken out whether or not it can be read. -/
theorem take_of_admits {m : Mailbox} {buffer : Bytes} (h : m.Admits buffer) :
    m.take buffer = ((m.format.decode buffer).mapError .malformed |>.map some, []) := by
  obtain ⟨hsome, hfits⟩ := h
  have hne : ¬ buffer.isEmpty := by
    rw [List.isEmpty_iff]
    exact List.ne_nil_of_length_pos hsome
  rw [take, if_neg hne, if_neg (Nat.not_lt.mpr hfits)]

theorem take_of_oversized {m : Mailbox} {buffer : Bytes} (h : m.limit.toNat < buffer.length) :
    m.take buffer = (.error (.oversized buffer.length), buffer) := by
  have hne : ¬ buffer.isEmpty := by
    rw [List.isEmpty_iff]
    exact List.ne_nil_of_length_pos (Nat.zero_lt_of_lt h)
  rw [take, if_neg hne, if_pos h]

/-- A buffer from which no message is taken is empty or too long, and stays as it is. -/
theorem take_of_not_admits {m : Mailbox} {buffer : Bytes} (h : ¬ m.Admits buffer) :
    m.take buffer =
      (if buffer = [] then .ok none else .error (.oversized buffer.length), buffer) := by
  by_cases hempty : buffer = []
  · rw [hempty, take_nil, if_pos rfl]
  · have hover : m.limit.toNat < buffer.length := by
      apply Nat.lt_of_not_le
      intro hfits
      exact h ⟨List.length_pos_iff.mpr hempty, hfits⟩
    rw [take_of_oversized hover, if_neg hempty]

/-- What is left of a buffer. -/
theorem take_left (m : Mailbox) (buffer : Bytes) :
    (m.take buffer).2 = if m.Admits buffer then [] else buffer := by
  by_cases h : m.Admits buffer
  · rw [take_of_admits h, if_pos h]
  · rw [take_of_not_admits h, if_neg h]

/-- Bytes are never left over without a message. -/
@[simp] theorem takeLast_eq_take (m : Mailbox) (buffer : Bytes) :
    m.takeLast buffer = m.take buffer := by
  by_cases h : m.Admits buffer
  · rw [takeLast, take_of_admits h]
    cases m.format.decode buffer <;> rfl
  · rw [takeLast, take_of_not_admits h]
    by_cases hempty : buffer = []
    · rw [hempty]
      rfl
    · rw [if_neg hempty]

end PacketWire.Mailbox
