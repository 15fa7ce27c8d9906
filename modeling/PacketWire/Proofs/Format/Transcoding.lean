import PacketWire.Format.Transcoding
import PacketWire.Proofs.Format.Canonical

/-!
# Messages carried through several formats

Nothing but the flags of a packet depends on the format that it came through, and no format writes
the flags. A message that can be read at the beginning of a chain can therefore be read at every
step of it, and what the chain ends with is the packet written in the last format, whichever formats
lie between (`chain_delivers`).
-/

namespace PacketWire.Transcoding

open Format

/-- The steps that carry a message from a format through the others, in order. -/
def chain : Format → List Format → List Transcoding
  | _, [] => []
  | f, g :: later => ⟨f, g⟩ :: chain g later

/-- What a chain ends with, unless it has no steps: the message that its last step sends, or what
went wrong there. -/
def outcome (steps : List Transcoding) (message : Bytes) : Option (Except Malformed Bytes) :=
  (run steps message).getLast?.map fun result => result.map Yield.sent

/-! ### One step -/

/-- No format writes the flags. -/
theorem encode_flags (g : Format) (p : Packet) (flags : Flags) :
    g.encode ⟨p.type, p.payload, flags⟩ = g.encode p := by
  cases g <;> rfl

/-- The packet goes through the step: it comes out of the message with the flags of the format it
was in, and is written in the other format. -/
structure Yield.Delivers (y : Yield) (p : Packet) : Prop where
  packet : y.packet = ⟨p.type, p.payload,
    if y.step.source = .string then Flags.none else Flags.binaryOnly⟩
  sent : y.sent = y.step.target.encode p

/-- A step whose message can be read delivers the packet in it. -/
theorem apply_of_decode (step : Transcoding) {message : Bytes} {p : Packet}
    (h : step.source.decode message = .ok ⟨p.type, p.payload, step.source.flags⟩) :
    ∃ y, step.apply message = .ok y ∧ y.step = step ∧ y.Delivers p := by
  refine ⟨⟨step, message, ⟨p.type, p.payload, step.source.flags⟩, step.target.encode p⟩, ?_, rfl,
    ?_, rfl⟩
  · rw [apply, h, ok_bind, encode_flags]
    rfl
  · rw [← flags_eq]

/-! ### One step after the other -/

/-- Every step of a chain reads what the step before it sent. -/
theorem run_chain {f : Format} {message : Bytes} {p : Packet}
    (h : f.decode message = .ok ⟨p.type, p.payload, f.flags⟩) (later : List Format) :
    ∃ yields : List Yield, run (chain f later) message = yields.map .ok ∧
      yields.map Yield.step = chain f later ∧ ∀ y ∈ yields, y.Delivers p := by
  induction later generalizing f message with
  | nil => exact ⟨[], rfl, rfl, List.forall_mem_nil _⟩
  | cons g later ih =>
    obtain ⟨y, happly, hstep, hdelivers⟩ := apply_of_decode ⟨f, g⟩ h
    have hsent : y.sent = g.encode p := by
      rw [hdelivers.sent, hstep]
    obtain ⟨yields, hrun, hsteps, hyields⟩ := ih (decode_encode g p)
    refine ⟨y :: yields, ?_, ?_, List.forall_mem_cons.mpr ⟨hdelivers, hyields⟩⟩
    · rw [chain, run, happly]
      show .ok y :: run (chain g later) y.sent = _
      rw [hsent, hrun]
      rfl
    · rw [List.map_cons, hstep, hsteps, chain]

theorem getLast?_chain (f : Format) (via : List Format) (g : Format) :
    ∃ source, (chain f (via ++ [g])).getLast? = some ⟨source, g⟩ := by
  induction via generalizing f with
  | nil => exact ⟨f, rfl⟩
  | cons next via ih =>
    obtain ⟨source, hlast⟩ := ih next
    refine ⟨source, ?_⟩
    rw [List.cons_append, chain, List.getLast?_cons, hlast]
    rfl

/-- A chain ends with the packet in the format of its last step. -/
theorem outcome_chain {f : Format} {message : Bytes} {p : Packet}
    (h : f.decode message = .ok ⟨p.type, p.payload, f.flags⟩) (via : List Format) (g : Format) :
    outcome (chain f (via ++ [g])) message = some (.ok (g.encode p)) := by
  obtain ⟨yields, hrun, hsteps, hyields⟩ := run_chain h (via ++ [g])
  obtain ⟨source, hlast⟩ := getLast?_chain f via g
  rw [← hsteps, List.getLast?_map, Option.map_eq_some_iff] at hlast
  obtain ⟨y, hy, hstep⟩ := hlast
  have hsent : y.sent = g.encode p := by
    rw [(hyields y (List.mem_of_getLast? hy)).sent, hstep]
  rw [outcome, hrun, List.getLast?_map, hy, ← hsent]
  rfl

/-- Messages of the binary and string formats are written again as they were read. -/
theorem encode_of_decode_plain {f : Format} (hf : f = .binary ∨ f = .string) {message : Bytes}
    {p : Packet} (h : f.decode message = .ok p) : f.encode p = message := by
  have hcanonical := canonical_encode h
  rcases hf with rfl | rfl
  · generalize encode .binary p = c at hcanonical ⊢
    cases hcanonical
    rfl
  · generalize encode .string p = c at hcanonical ⊢
    cases hcanonical
    rfl

/-- A message that its format accepts goes through any chain of formats. No step fails, every packet
on the way is the one in the message but for the flags, which are those of the format it was read
in, and the chain ends with the packet as the last format writes it. So the formats in between do
not matter, and a binary or string message that comes back to its format is the message itself. -/
theorem chain_delivers (f : Format) (message : Bytes) (p : Packet)
    (h : f.decode message = .ok p) (via : List Format) (g : Format) :
    (∃ yields : List Yield, run (chain f (via ++ [g])) message = yields.map .ok ∧
      yields.map Yield.step = chain f (via ++ [g]) ∧
      ∀ y ∈ yields, y.Delivers p) ∧
    outcome (chain f (via ++ [g])) message = some (.ok (g.encode p)) ∧
    (∀ via', outcome (chain f (via' ++ [g])) message = outcome (chain f (via ++ [g])) message) ∧
    (g = f → f = .binary ∨ f = .string →
      outcome (chain f (via ++ [g])) message = some (.ok message)) := by
  have hread : f.decode message = .ok ⟨p.type, p.payload, f.flags⟩ := by
    rw [h, ← flags_of_decode h]
  refine ⟨run_chain hread (via ++ [g]), outcome_chain hread via g, ?_, ?_⟩
  · intro via'
    rw [outcome_chain hread via' g, outcome_chain hread via g]
  · rintro rfl hf
    rw [outcome_chain hread via g, encode_of_decode_plain hf h]

/-- A line feed and four unused bits are gone after the first step. -/
theorem chain_delivers_line_feed :
    decode .base64 [marker, 52, 89, 10, 82, 61, 61] = .ok ⟨.message, [97], .binaryOnly⟩ ∧
      outcome (chain .base64 [.string, .binary, .base64]) [marker, 52, 89, 10, 82, 61, 61] =
        some (.ok [marker, 52, 89, 81, 61, 61]) ∧
      outcome (chain .string [.base64, .string]) [52, 10] = some (.ok [52, 10]) :=
  ⟨rfl,
    (chain_delivers .base64 [marker, 52, 89, 10, 82, 61, 61] ⟨.message, [97], .binaryOnly⟩ rfl
      [.string, .binary] .base64).2.1,
    (chain_delivers .string [52, 10] ⟨.message, [10], .none⟩ rfl [.base64] .string).2.2.2 rfl
      (.inr rfl)⟩

end PacketWire.Transcoding
