import PacketWire.Proofs.Mailbox.Session

/-!
# Buffers that are too long

A buffer that has grown beyond the limit is refused by every taking and left as it is. Whatever
arrives or is posted makes it longer still, so that no packet comes out of it any more, even if the
limit or the format changes. Only clearing it, or a limit that it does not exceed, ends that
(`overfull_until_relieved`).
-/

namespace PacketWire.Session

def Overfull (s : Session) : Prop := s.mailbox.limit.toNat < s.buffer.length

/-- The turn clears the buffer, or puts a limit in force that is at least as large as the buffer. -/
def Turn.Relieves (t : Turn) : Prop :=
  match t.step with
  | .clear => True
  | .setLimit limit => t.before.buffer.length ≤ limit.toNat
  | .switch _ false => t.before.buffer.length ≤ defaultMaxMessageSize.toNat
  | .switch _ true | .receive _ | .post _ | .take | .takeLast | .look => False

/-! ### One turn -/

theorem Overfull.not_admits {s : Session} (h : s.Overfull) : ¬ s.mailbox.Admits s.buffer := by
  intro hadmits
  exact Nat.not_lt.mpr hadmits.2 h

/-- What is put behind it makes a buffer that is too long no shorter. -/
theorem Overfull.append {m : Mailbox} {buffer : Bytes} (h : Overfull ⟨m, buffer⟩) (more : Bytes) :
    Overfull ⟨m, buffer ++ more⟩ := by
  show m.limit.toNat < (buffer ++ more).length
  rw [List.length_append]
  exact Nat.lt_add_right more.length h

theorem Overfull.take_eq {s : Session} (h : s.Overfull) :
    s.mailbox.take s.buffer = (.error (.oversized s.buffer.length), s.buffer) :=
  Mailbox.take_of_oversized h

/-- Taking from a buffer that is too long says how long it is, and changes nothing. -/
theorem Turn.Made.take_of_overfull {t : Turn} (h : t.Made) (hover : t.before.Overfull)
    (hstep : t.step = .take ∨ t.step = .takeLast) :
    t.reply = .taken (.error (.oversized t.before.buffer.length)) ∧ t.after = t.before := by
  obtain ⟨s, step, reply, after⟩ := t
  have hmade : (reply, after) = s.step step := h.symm
  rcases hstep with rfl | rfl
  · simp only [Session.step, hover.take_eq] at hmade
    cases hmade
    exact ⟨rfl, rfl⟩
  · simp only [Session.step, Mailbox.takeLast_eq_take, hover.take_eq] at hmade
    cases hmade
    exact ⟨rfl, rfl⟩

/-- The buffer stays too long exactly until a turn relieves it. -/
theorem Turn.Made.overfull_iff {t : Turn} (h : t.Made) (hover : t.before.Overfull) :
    t.after.Overfull ↔ ¬ t.Relieves := by
  obtain ⟨s, step, reply, after⟩ := t
  obtain rfl : after = (s.step step).2 := congrArg Prod.snd h.symm
  cases step with
  | receive bytes => exact iff_of_true (hover.append bytes) not_false
  | post p => exact iff_of_true (hover.append _) not_false
  | clear => exact iff_of_false (Nat.not_lt_zero _) (not_not_intro trivial)
  | take =>
    rw [(h.take_of_overfull hover (.inl rfl)).2]
    exact iff_of_true hover not_false
  | takeLast =>
    rw [(h.take_of_overfull hover (.inr rfl)).2]
    exact iff_of_true hover not_false
  | setLimit limit => exact Nat.not_le.symm
  | switch format keepLimit =>
    cases keepLimit with
    | false => exact Nat.not_le.symm
    | true => exact iff_of_true hover not_false
  | look => exact iff_of_true hover not_false

/-- Until then the buffer loses nothing. -/
theorem Turn.Made.buffer_of_overfull {t : Turn} (h : t.Made) (hover : t.before.Overfull)
    (hkept : ¬ t.Relieves) : t.after.buffer = t.before.buffer ++ t.added := by
  have hempties : ¬ t.empties = true := by
    obtain ⟨s, step, reply, after⟩ := t
    cases step with
    | clear => exact absurd trivial hkept
    | take | takeLast =>
      intro hadmits
      exact hover.not_admits (of_decide_eq_true hadmits)
    | receive | post | setLimit | switch | look => nofun
  rw [h.buffer, if_neg hempties]

/-! ### Turns in a row -/

/-- As long as no turn relieves it, the buffer stays too long, and all that was added is in it. -/
theorem overfull_of_run {s : Session} (hover : s.Overfull) {steps : List Step}
    {earlier later : List Turn} {t : Turn} (h : run s steps = earlier ++ t :: later)
    (hkept : ∀ u ∈ earlier, ¬ u.Relieves) :
    t.before.Overfull ∧ t.before.buffer = s.buffer ++ earlier.flatMap Turn.added := by
  induction earlier generalizing s steps with
  | nil =>
    obtain ⟨rfl, -, -⟩ := run_eq_cons h
    exact ⟨hover, (List.append_nil _).symm⟩
  | cons first earlier ih =>
    obtain ⟨rfl, hmade, steps, hrest⟩ := run_eq_cons h
    obtain ⟨hfirst, hearlier⟩ := List.forall_mem_cons.mp hkept
    obtain ⟨hover', hbuffer⟩ := ih ((hmade.overfull_iff hover).mpr hfirst) hrest hearlier
    refine ⟨hover', ?_⟩
    rw [hbuffer, hmade.buffer_of_overfull hover hfirst, List.flatMap_cons, List.append_assoc]

/-- In a session that begins with a buffer that is too long, the buffer stays too long until a turn
clears it or puts a limit in force that is at least as large, and exactly that ends it. Until then
the buffer is the first one with all that was added since, and every taking is refused with the
length of the buffer and leaves the session as it is. -/
theorem overfull_until_relieved (s : Session) (hover : s.Overfull) (steps : List Step)
    (earlier : List Turn) (t : Turn) (later : List Turn)
    (h : run s steps = earlier ++ t :: later) (hkept : ∀ u ∈ earlier, ¬ u.Relieves) :
    t.before.Overfull ∧
      t.before.buffer = s.buffer ++ earlier.flatMap Turn.added ∧
      (t.step = .take ∨ t.step = .takeLast →
        t.reply = .taken (.error (.oversized t.before.buffer.length)) ∧ t.after = t.before) ∧
      (t.after.Overfull ↔ ¬ t.Relieves) ∧
      (¬ t.Relieves → t.after.buffer = t.before.buffer ++ t.added) := by
  obtain ⟨hbefore, hbuffer⟩ := overfull_of_run hover h hkept
  have hmade : t.Made := by
    apply made_of_mem_run
    rw [h]
    exact List.mem_append_right _ List.mem_cons_self
  refine ⟨hbefore, hbuffer, ?_, hmade.overfull_iff hbefore, hmade.buffer_of_overfull hbefore⟩
  intro hstep
  exact hmade.take_of_overfull hbefore hstep

/-- Another byte, a limit that is raised by too little and another format change nothing: the six
bytes that are there by then are refused. -/
theorem overfull_until_relieved_six_bytes :
    Overfull ⟨⟨.string, 4⟩, [52, 97, 98, 99, 100]⟩ ∧
      ∃ earlier t,
        run ⟨⟨.string, 4⟩, [52, 97, 98, 99, 100]⟩
            [.receive [101], .setLimit 5, .switch .base64 true, .takeLast] = earlier ++ [t] ∧
          (∀ u ∈ earlier, ¬ u.Relieves) ∧
          t.reply = .taken (.error (.oversized 6)) ∧ t.after = t.before := by
  have hover : Overfull ⟨⟨.string, 4⟩, [52, 97, 98, 99, 100]⟩ := by
    show 4 < 5
    decide
  have hkept : ∀ u ∈ run ⟨⟨.string, 4⟩, [52, 97, 98, 99, 100]⟩
      [.receive [101], .setLimit 5, .switch .base64 true], ¬ u.Relieves := by
    simp [run, step, Turn.Relieves]
  refine ⟨hover, _, ⟨⟨⟨.base64, 5⟩, [52, 97, 98, 99, 100, 101]⟩, .takeLast,
    .taken (.error (.oversized 6)), ⟨⟨.base64, 5⟩, [52, 97, 98, 99, 100, 101]⟩⟩, rfl, hkept, ?_⟩
  exact (overfull_until_relieved _ hover
    [.receive [101], .setLimit 5, .switch .base64 true, .takeLast] _ _ [] rfl hkept).2.2.1
      (.inr rfl)

end PacketWire.Session
