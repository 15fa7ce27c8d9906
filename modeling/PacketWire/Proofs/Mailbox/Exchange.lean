import PacketWire.Proofs.Format.Length
import PacketWire.Proofs.Mailbox.Taking

/-!
# Packets posted and taken one by one

A packet that is posted to an empty buffer and taken from it comes back, and the buffer is empty
again, unless its wire form exceeds the limit: then the mailbox refuses its own message and leaves
it in the buffer. So packets come back in the order in which they were posted, up to the first one
that the mailbox does not carry (`exchange_in_order`).
-/

namespace PacketWire

/-- The wire form of the packet keeps within the limit of the mailbox. -/
def Mailbox.Carries (m : Mailbox) (p : Packet) : Prop :=
  (m.format.encode p).length ≤ m.limit.toNat

instance (m : Mailbox) (p : Packet) : Decidable (m.Carries p) :=
  inferInstanceAs (Decidable (_ ≤ _))

theorem Mailbox.take_encode_of_carries {m : Mailbox} {p : Packet} (h : m.Carries p) :
    m.take (m.format.encode p) = (.ok (some ⟨p.type, p.payload, m.format.flags⟩), []) := by
  have hadmits : m.Admits (m.format.encode p) :=
    ⟨List.length_pos_iff.mpr (Format.encode_ne_nil m.format p), h⟩
  rw [take_of_admits hadmits, Format.decode_encode]
  rfl

theorem Mailbox.take_encode_of_not_carries {m : Mailbox} {p : Packet} (h : ¬ m.Carries p) :
    m.take (m.format.encode p) =
      (.error (.oversized (m.format.encode p).length), m.format.encode p) :=
  take_of_oversized (Nat.lt_of_not_le h)

namespace Session

/-! ### One packet -/

/-- The turns of a packet that comes back: it is posted to an empty buffer, and taken from it with
the flags of the format. -/
def delivered (m : Mailbox) (p : Packet) : List Turn :=
  [⟨⟨m, []⟩, .post p, .done, ⟨m, m.format.encode p⟩⟩,
    ⟨⟨m, m.format.encode p⟩, .take, .taken (.ok (some ⟨p.type, p.payload,
      if m.format = .string then Flags.none else Flags.binaryOnly⟩)), ⟨m, []⟩⟩]

/-- The turns of a packet that is too long: it is posted to an empty buffer, and stays there. -/
def refused (m : Mailbox) (p : Packet) : List Turn :=
  [⟨⟨m, []⟩, .post p, .done, ⟨m, m.format.encode p⟩⟩,
    ⟨⟨m, m.format.encode p⟩, .take, .taken (.error (.oversized (m.format.encode p).length)),
      ⟨m, m.format.encode p⟩⟩]

/-- A packet that comes back leaves the session as it was before. -/
theorem run_post_take_of_carries {m : Mailbox} {p : Packet} (h : m.Carries p) (later : List Step) :
    run ⟨m, []⟩ (.post p :: .take :: later) = delivered m p ++ run ⟨m, []⟩ later := by
  simp only [run, step, Mailbox.post, List.nil_append, Mailbox.take_encode_of_carries h,
    Format.flags_eq]
  rfl

/-- A packet that is too long leaves its message to the turns that follow. -/
theorem run_post_take_of_not_carries {m : Mailbox} {p : Packet} (h : ¬ m.Carries p)
    (later : List Step) :
    run ⟨m, []⟩ (.post p :: .take :: later) =
      refused m p ++ run ⟨m, m.format.encode p⟩ later := by
  simp only [run, step, Mailbox.post, List.nil_append, Mailbox.take_encode_of_not_carries h]
  rfl

/-! ### One packet after the other -/

/-- Each packet is posted and a message is taken, before the next one is posted. -/
def exchange (ps : List Packet) : List Step := ps.flatMap fun p => [.post p, .take]

theorem exchange_cons (p : Packet) (later : List Packet) :
    exchange (p :: later) = .post p :: .take :: exchange later := rfl

/-- The turns from a packet on that is too long, whatever follows it. -/
def stopped (m : Mailbox) : List Packet → List Turn
  | [] => []
  | p :: later => refused m p ++ run ⟨m, m.format.encode p⟩ (exchange later)

/-- Packets come back up to the first one that is too long. -/
theorem run_exchange (m : Mailbox) (ps : List Packet) :
    run ⟨m, []⟩ (exchange ps) =
      (ps.takeWhile (m.Carries ·)).flatMap (delivered m) ++
        stopped m (ps.dropWhile (m.Carries ·)) := by
  induction ps with
  | nil => rfl
  | cons p later ih =>
    rw [exchange_cons]
    by_cases h : m.Carries p
    · rw [run_post_take_of_carries h, ih, List.takeWhile_cons_of_pos (by simpa using h),
        List.dropWhile_cons_of_pos (by simpa using h), List.flatMap_cons, List.append_assoc]
    · rw [run_post_take_of_not_carries h, List.takeWhile_cons_of_neg (by simpa using h),
        List.dropWhile_cons_of_neg (by simpa using h)]
      rfl

/-- Packets that are posted to an empty buffer and taken from it, one after the other, come back in
order and unchanged but for the flags, and leave the buffer empty after each, as long as the mailbox
carries them. The first that it does not carry is refused with the length of its wire form, which
stays in the buffer. The mailbox carries a packet exactly when the limit is not zero and the payload
keeps within the capacity that the limit leaves. For every payload that a memory can hold, the
length computed in words is that of the wire form, and may be compared with the limit instead. -/
theorem exchange_in_order (m : Mailbox) (ps : List Packet) :
    run ⟨m, []⟩ (exchange ps) =
        (ps.takeWhile (m.Carries ·)).flatMap (delivered m) ++
          stopped m (ps.dropWhile (m.Carries ·)) ∧
      (∀ p, m.Carries p ↔
        1 ≤ m.limit.toNat ∧ p.payload.length ≤ m.format.capacity m.limit.toNat) ∧
      ∀ p : Packet, p.payload.length < 2 ^ 63 →
        (m.format.encodedLength (UInt64.ofNat p.payload.length)).toNat =
            (m.format.encode p).length ∧
          (m.Carries p ↔ m.format.encodedLength (UInt64.ofNat p.payload.length) ≤ m.limit) := by
  refine ⟨run_exchange m ps, ?_, ?_⟩
  · intro p
    exact Format.length_encode_le_iff
  · intro p hp
    have hlength := m.format.toNat_encodedLength_payload hp
    refine ⟨hlength, ?_⟩
    rw [UInt64.le_iff_toNat_le, hlength]
    rfl

/-- A limit of six leaves room for one group of base64: three bytes come back, a fourth is too
many. -/
theorem exchange_in_order_one_group :
    run ⟨⟨.base64, 6⟩, []⟩
        (exchange [⟨.message, [97, 98, 99], .none⟩, ⟨.message, [97, 98, 99, 97], .none⟩]) =
      delivered ⟨.base64, 6⟩ ⟨.message, [97, 98, 99], .none⟩ ++
        refused ⟨.base64, 6⟩ ⟨.message, [97, 98, 99, 97], .none⟩ ∧
    (Format.base64.encodedLength 4).toNat =
      (Format.base64.encode ⟨.message, [97, 98, 99, 97], .none⟩).length :=
  ⟨(exchange_in_order ⟨.base64, 6⟩
      [⟨.message, [97, 98, 99], .none⟩, ⟨.message, [97, 98, 99, 97], .none⟩]).1,
    ((exchange_in_order ⟨.base64, 6⟩ []).2.2 ⟨.message, [97, 98, 99, 97], .none⟩ (by decide)).1⟩

end Session

end PacketWire
