import PacketWire.Proofs.Format.Writing

/-!
# What a sink is offered

A packet is offered to a sink in parts (`parts`). Whatever the sink does with a call, the next one
offers what is left of the part at hand, and never bytes of two parts; a part is begun when the one
before it has been taken as a whole, and a run ends when all parts have been, or when a call breaks
it off (`write_follows_parts`). Each call uses up an outcome of the script, except for one call in
each part at most, so that there are only so many of them.
-/

namespace PacketWire

open Sink

/-! ### One segment -/

/-- A call offers what is left of the segment after the calls before it. -/
theorem Segment.accepted_append_offered {s : Segment} {script : List Outcome}
    {earlier later : List Call} {c : Call} (h : (s.write script).calls = earlier ++ c :: later) :
    earlier.flatMap Call.accepted ++ c.offered = s.bytes := by
  cases s with
  | whole bytes =>
    obtain ⟨left, hoffers, -⟩ := offered_offerAll bytes script
    have hcalls : (offerAll bytes script).calls = earlier ++ c :: later := h
    rw [hcalls] at hoffers
    exact hoffers.accepted_append_offered
  | empty =>
    obtain ⟨answer, hcalls, -⟩ := offerOnce_nil_ends script
    have honly : [⟨[], answer⟩] = earlier ++ c :: later := hcalls.symm.trans h
    cases earlier with
    | nil =>
      cases honly
      rfl
    | cons first earlier => simp at honly

/-- A call that leaves something of what it offers, and does not break off the writing of the
segment, is followed by one that offers what it leaves. -/
theorem Segment.offers_rest {s : Segment} {script : List Outcome} {earlier later : List Call}
    {c : Call} {rest : Bytes} (h : (s.write script).calls = earlier ++ c :: later)
    (hc : ∀ failure, ¬ c.Breaks failure) (hrest : c.accepted ++ rest = c.offered)
    (hsome : rest ≠ []) : ∃ answer more, later = ⟨rest, answer⟩ :: more := by
  cases s with
  | whole bytes =>
    obtain ⟨left, hoffers, hends⟩ := offered_offerAll bytes script
    have hcalls : (offerAll bytes script).calls = earlier ++ c :: later := h
    rw [hcalls] at hoffers
    cases hoffers.rest hrest with
    | nil =>
      -- The call was the last one, and left something: then it broke off the run.
      rcases hends with ⟨hnone, -⟩ | ⟨-, last, failure, hbreaks⟩
      · exact absurd hnone hsome
      · obtain ⟨_, -, hlast⟩ := hbreaks.calls
        obtain ⟨-, hsame⟩ := List.append_inj' (hlast.symm.trans hcalls) rfl
        obtain rfl := (List.cons.inj hsame).1
        exact absurd hbreaks.breaks (hc failure)
    | cons => exact ⟨_, _, rfl⟩
  | empty =>
    have hnone : c.offered = [] := (List.append_eq_nil_iff.mp (accepted_append_offered h)).2
    rw [hnone, List.append_eq_nil_iff] at hrest
    exact absurd hrest.2 hsome

/-- A segment is first offered as a whole, unless no bytes are to be offered until they are gone. -/
theorem Segment.bytes_mem_offered {s : Segment} (hs : s ≠ .whole []) (script : List Outcome) :
    s.bytes ∈ (s.write script).calls.map Call.offered := by
  cases s with
  | whole bytes =>
    have hbytes : bytes ≠ [] := fun h => hs (congrArg whole h)
    obtain ⟨answer, later, hcalls⟩ := exists_offerAll_eq_cons hbytes script
    show bytes ∈ (offerAll bytes script).calls.map Call.offered
    rw [hcalls]
    exact List.mem_cons_self
  | empty =>
    obtain ⟨answer, hcalls, -⟩ := offerOnce_nil_ends script
    show [] ∈ (offerOnce [] script).calls.map Call.offered
    rw [hcalls]
    exact List.mem_cons_self

/-- No bytes are offered in one call at most, and only in place of an empty segment. -/
theorem Segment.countP_offered_le (s : Segment) (script : List Outcome) :
    (s.write script).calls.countP (·.offered.isEmpty) ≤ [s].count .empty := by
  cases s with
  | whole bytes =>
    obtain ⟨left, hoffers, -⟩ := offered_offerAll bytes script
    apply Nat.le_of_eq
    rw [List.countP_eq_zero.mpr, List.count_eq_zero.mpr (by simp)]
    intro c hc
    rw [List.isEmpty_iff]
    exact hoffers.offered_ne_nil c hc
  | empty =>
    obtain ⟨answer, hcalls, -⟩ := offerOnce_nil_ends script
    show (offerOnce [] script).calls.countP (·.offered.isEmpty) ≤ 1
    rw [hcalls]
    exact List.countP_le_length

theorem Segment.length_calls_write (s : Segment) (script : List Outcome) :
    (s.write script).calls.length + (s.write script).unused.length ≤ script.length + 1 := by
  cases s with
  | whole bytes => exact length_calls_offerAll bytes script
  | empty => exact length_calls_offerOnce [] script

/-! ### One segment after the other -/

/-- With the first bytes taken of the segments, the second ones are due: they are what is left of one
segment, and all segments before it have been taken as a whole. -/
inductive Segment.Due : List Segment → Bytes → Bytes → Prop
  | here {s next held rest} : s.bytes = held ++ rest → (rest = [] → s = .empty) →
      Due (s :: next) held rest
  | later {s next taken rest} : Due next taken rest → Due (s :: next) (s.bytes ++ taken) rest

/-- The segment that is due comes after those that have been taken, with a part of it taken too. -/
theorem Segment.Due.exists_append {segments : List Segment} {taken rest : Bytes}
    (h : Due segments taken rest) :
    ∃ written s next held, segments = written ++ s :: next ∧
      taken = written.flatMap Segment.bytes ++ held ∧ s.bytes = held ++ rest ∧
      (rest = [] → s = .empty) := by
  induction h with
  | @here s next held rest hs hempty => exact ⟨[], s, next, held, rfl, rfl, hs, hempty⟩
  | @later s _ _ _ _ ih =>
    obtain ⟨written, t, next, held, rfl, rfl, ht⟩ := ih
    exact ⟨s :: written, t, next, held, rfl, by rw [List.flatMap_cons, List.append_assoc], ht⟩

theorem Segment.due_of_write {s : Segment} {script : List Outcome} {earlier later : List Call}
    {c : Call} (h : (s.write script).calls = earlier ++ c :: later) (next : List Segment) :
    Due (s :: next) (earlier.flatMap Call.accepted) c.offered := by
  have hc : c ∈ (s.write script).calls := by
    rw [h]
    exact List.mem_append_right _ List.mem_cons_self
  exact .here (accepted_append_offered h).symm (eq_empty_of_offered_eq_nil hc)

/-- What a call offers is due after what was taken in the calls before it. -/
theorem Segment.due_of_writeAll {segments : List Segment} {script : List Outcome}
    {earlier later : List Call} {c : Call}
    (h : (writeAll segments script).calls = earlier ++ c :: later) :
    Due segments (earlier.flatMap Call.accepted) c.offered := by
  induction segments generalizing script earlier with
  | nil => simp [writeAll] at h
  | cons s rest ih =>
    rcases Run.calls_andThen_eq h with ⟨more, _, hfirst, -⟩ | ⟨hresult, more, rfl, hmore⟩
    · exact due_of_write hfirst rest
    · rw [List.flatMap_append, show (s.write script).calls.flatMap _ = s.bytes from
        accepted_of_result hresult]
      exact .later (ih hmore)

/-- What a call leaves of a segment is offered next, whichever segment it is. -/
theorem Segment.writeAll_offers_rest {segments : List Segment} {script : List Outcome}
    {earlier later : List Call} {c : Call} {rest : Bytes}
    (h : (writeAll segments script).calls = earlier ++ c :: later)
    (hc : ∀ failure, ¬ c.Breaks failure) (hrest : c.accepted ++ rest = c.offered)
    (hsome : rest ≠ []) : ∃ answer more, later = ⟨rest, answer⟩ :: more := by
  induction segments generalizing script earlier with
  | nil => simp [writeAll] at h
  | cons s segments ih =>
    rcases Run.calls_andThen_eq h with ⟨more, others, hfirst, rfl⟩ | ⟨-, more, rfl, hmore⟩
    · obtain ⟨answer, next, rfl⟩ := offers_rest hfirst hc hrest hsome
      exact ⟨answer, next ++ others, rfl⟩
    · exact ih hmore

/-- When no call breaks off the run, all segments are taken as a whole. -/
theorem Segment.accepted_of_smooth {segments : List Segment} {script : List Outcome}
    (h : Smooth (writeAll segments script).calls) :
    (writeAll segments script).accepted = segments.flatMap Segment.bytes := by
  rcases writeAll_ends segments script with ⟨-, hbytes⟩ | ⟨_, _, _, _, _, _, -, hbreaks, -⟩
  · exact hbytes
  · exact absurd h hbreaks.not_smooth

/-- When no call breaks off the run, every segment is offered as a whole at some time, one after the
other. -/
theorem Segment.sublist_offered_of_smooth {segments : List Segment} {script : List Outcome}
    (hsegments : ∀ s ∈ segments, s ≠ .whole [])
    (h : Smooth (writeAll segments script).calls) :
    (segments.map Segment.bytes).Sublist ((writeAll segments script).calls.map Call.offered) := by
  induction segments generalizing script with
  | nil => exact List.nil_sublist _
  | cons s rest ih =>
    obtain ⟨hs, hrest⟩ := List.forall_mem_cons.mp hsegments
    rw [writeAll] at h ⊢
    rcases s.write_ends script with ⟨hcompletes, -⟩ | ⟨last, failure, hbreaks, -⟩
    · rw [Run.andThen_of_ok hcompletes.result] at h ⊢
      rw [List.map_append]
      have hfirst := List.singleton_sublist.mpr (bytes_mem_offered hs script)
      exact hfirst.append (ih hrest (List.forall_mem_append.mp h).2)
    · rw [Run.andThen_of_error hbreaks.result] at h
      exact absurd h hbreaks.not_smooth

/-- There are no more empty offers than empty segments. -/
theorem Segment.countP_offered_writeAll_le (segments : List Segment) (script : List Outcome) :
    (writeAll segments script).calls.countP (·.offered.isEmpty) ≤ segments.count .empty := by
  induction segments generalizing script with
  | nil => exact Nat.le_refl 0
  | cons s rest ih =>
    have hs := s.countP_offered_le script
    rw [writeAll, ← List.singleton_append, List.count_append]
    cases hresult : (s.write script).result with
    | error failure =>
      rw [Run.andThen_of_error hresult]
      exact Nat.le_add_right_of_le hs
    | ok _ =>
      rw [Run.andThen_of_ok hresult, List.countP_append]
      exact Nat.add_le_add hs (ih _)

/-- There are no more calls than outcomes and segments together. -/
theorem Segment.length_calls_writeAll (segments : List Segment) (script : List Outcome) :
    (writeAll segments script).calls.length + (writeAll segments script).unused.length ≤
      script.length + segments.length := by
  induction segments generalizing script with
  | nil => simp [writeAll]
  | cons s rest ih =>
    have hs := s.length_calls_write script
    rw [writeAll, List.length_cons]
    cases hresult : (s.write script).result with
    | error failure =>
      rw [Run.andThen_of_error hresult]
      omega
    | ok _ =>
      have hrest := ih (s.write script).unused
      rw [Run.andThen_of_ok hresult]
      simp only [List.length_append]
      omega

namespace Format

/-! ### The parts of a packet -/

/-- The parts in which a packet is offered: the binary format has no second part without a payload,
whereas the string format offers even no bytes then. -/
def parts : Format → Packet → List Bytes
  | .binary, p => if p.payload = [] then [[p.type.byte]] else [[p.type.byte], p.payload]
  | .string, p => [[p.type.digit], p.payload]
  | .base64, p =>
    if p.payload = [] then [[p.type.digit]]
    else [[marker], [p.type.digit], Base64.encode p.payload]

/-- The parts of a packet are the bytes of its segments. -/
theorem map_bytes_segments (f : Format) (p : Packet) :
    (f.segments p).map Segment.bytes = f.parts p := by
  by_cases h : p.payload = [] <;> cases f <;>
    simp [segments, parts, payload_eq_nil_iff, h, Segment.bytes]

/-- No segment that is to be offered until it is gone is empty to begin with. -/
theorem segment_ne_whole_nil {f : Format} {p : Packet} : ∀ s ∈ f.segments p, s ≠ .whole [] := by
  have htext : p.payload ≠ [] → Base64.encode p.payload ≠ [] := by
    intro h
    have := List.length_pos_iff.mpr h
    apply List.ne_nil_of_length_pos
    rw [Base64.length_encode]
    omega
  by_cases h : p.payload = [] <;> cases f <;> simp [segments, payload_eq_nil_iff, h]
  exact htext h

/-- One segment is empty if the string format writes no payload, and none otherwise. -/
theorem count_empty_segments (f : Format) (p : Packet) :
    (f.segments p).count .empty = if f = .string ∧ p.payload = [] then 1 else 0 := by
  by_cases h : p.payload = [] <;> cases f <;> simp [segments, payload_eq_nil_iff, h]

/-- Whatever a sink does in the calls that it answers, it is offered the parts of a packet in order.
A call offers exactly what is left of the part that the calls before it have come to, all parts
before that one having been taken as a whole. No rest is skipped: a call that leaves one is followed
by the call that offers it, unless it breaks off the run, and when no call does, every part has been
offered and taken as a whole. No bytes are offered once at most, and only by the string format in
place of a payload. There are no more calls than outcomes in the script and parts together. The
flags of the packet change nothing at all. -/
theorem write_follows_parts (f : Format) (p : Packet) (script : List Outcome) :
    Answers script (f.write p script).calls (f.write p script).unused ∧
      (∀ earlier c later, (f.write p script).calls = earlier ++ c :: later →
        ∃ written part next held, f.parts p = written ++ part :: next ∧
          earlier.flatMap Call.accepted = written.flatten ++ held ∧
          part = held ++ c.offered ∧ (c.offered = [] → part = [])) ∧
      (∀ earlier c later, (f.write p script).calls = earlier ++ c :: later →
        (∀ failure, ¬ c.Breaks failure) →
          ∀ rest, c.accepted ++ rest = c.offered → rest ≠ [] →
            ∃ answer more, later = ⟨rest, answer⟩ :: more) ∧
      (Smooth (f.write p script).calls →
        (f.write p script).accepted = (f.parts p).flatten ∧
          (f.parts p).Sublist ((f.write p script).calls.map Call.offered)) ∧
      (f.write p script).calls.countP (·.offered.isEmpty) ≤
        (if f = .string ∧ p.payload = [] then 1 else 0) ∧
      (f.write p script).calls.length ≤ script.length + (f.parts p).length ∧
      ∀ flags, f.write { p with flags := flags } script = f.write p script := by
  rw [← map_bytes_segments, ← count_empty_segments, List.length_map]
  refine ⟨Segment.answers_writeAll _ script, ?_, ?_, ?_, ?_, ?_, ?_⟩
  · intro earlier c later h
    obtain ⟨written, s, next, held, hsegments, htaken, hs, hempty⟩ :=
      (Segment.due_of_writeAll h).exists_append
    refine ⟨written.map Segment.bytes, s.bytes, next.map Segment.bytes, held, ?_, ?_, hs, ?_⟩
    · rw [hsegments, List.map_append, List.map_cons]
    · rw [htaken, List.flatMap_def]
    · intro hc
      rw [hempty hc]
      rfl
  · intro earlier c later h hc rest hrest hsome
    exact Segment.writeAll_offers_rest h hc hrest hsome
  · intro hsmooth
    refine ⟨?_, Segment.sublist_offered_of_smooth segment_ne_whole_nil hsmooth⟩
    rw [← List.flatMap_def]
    exact Segment.accepted_of_smooth hsmooth
  · exact Segment.countP_offered_writeAll_le _ script
  · exact Nat.le_of_add_right_le (Segment.length_calls_writeAll _ script)
  · intro flags
    cases f <;> rfl

/-- After marker, an interruption and the digit, two bytes of the text were taken; the other two are
offered next, and then everything has been taken. -/
theorem write_follows_parts_interrupted :
    (write .base64 ⟨.message, [97, 98, 99], .none⟩
        [.all, .fail ⟨.interrupted, "signal"⟩, .all, .atMost 2]).calls =
      [⟨[marker], .accepted 1⟩, ⟨[52], .failed ⟨.interrupted, "signal"⟩⟩, ⟨[52], .accepted 1⟩] ++
        ⟨[89, 87, 74, 106], .accepted 2⟩ :: [⟨[74, 106], .accepted 2⟩] ∧
      (∃ written part next held,
        parts .base64 ⟨.message, [97, 98, 99], .none⟩ = written ++ part :: next ∧
          [marker, 52] = written.flatten ++ held ∧ part = held ++ [89, 87, 74, 106] ∧
          (([89, 87, 74, 106] : Bytes) = [] → part = [])) ∧
      (∃ answer more, [⟨[74, 106], .accepted 2⟩] = (⟨[74, 106], answer⟩ : Call) :: more) ∧
      (write .base64 ⟨.message, [97, 98, 99], .none⟩
        [.all, .fail ⟨.interrupted, "signal"⟩, .all, .atMost 2]).accepted =
          (parts .base64 ⟨.message, [97, 98, 99], .none⟩).flatten := by
  have hcalls : (write .base64 ⟨.message, [97, 98, 99], .none⟩
        [.all, .fail ⟨.interrupted, "signal"⟩, .all, .atMost 2]).calls =
      [⟨[marker], .accepted 1⟩, ⟨[52], .failed ⟨.interrupted, "signal"⟩⟩, ⟨[52], .accepted 1⟩] ++
        ⟨[89, 87, 74, 106], .accepted 2⟩ :: [⟨[74, 106], .accepted 2⟩] := by
    decide +kernel
  have htaken (bytes : Bytes) (count : Nat) (failure : Failure) :
      ¬ Call.Breaks ⟨bytes, .accepted (count + 1)⟩ failure :=
    not_breaks_of_taken (.inr (Nat.succ_ne_zero count)) failure
  have hsmooth : Smooth (write .base64 ⟨.message, [97, 98, 99], .none⟩
      [.all, .fail ⟨.interrupted, "signal"⟩, .all, .atMost 2]).calls := by
    rw [hcalls]
    refine .cons (htaken _ 0) (.cons ?_ (.cons (htaken _ 0) (.cons (htaken _ 1)
      (.cons (htaken _ 1) smooth_nil))))
    exact not_breaks_of_interrupted (List.cons_ne_nil _ _) rfl
  obtain ⟨-, hdue, hrest, hall, -⟩ := write_follows_parts .base64 ⟨.message, [97, 98, 99], .none⟩
    [.all, .fail ⟨.interrupted, "signal"⟩, .all, .atMost 2]
  exact ⟨hcalls, hdue _ _ _ hcalls,
    hrest _ _ _ hcalls (htaken _ 1) [74, 106] rfl (List.cons_ne_nil _ _), (hall hsmooth).1⟩

end Format

end PacketWire
