import Mathlib.Data.List.DropRight
import PacketWire.Proofs.Format.RoundTrip
import PacketWire.Proofs.Mailbox.Taking

/-!
# The buffer of a session

Bytes enter the buffer of a session at its end, and leave it all at once. What a turn adds and what
it removes balance (`Turn.Made.conserves`), so that along a session every byte that was added is in
exactly one place, and in the order in which it came: in one of the buffers that a turn emptied, or
in the buffer that is left (`buffer_of_session`). In what form a packet is added, and how much may
be removed, depends on the format and the limit that the steps before have put in force (`inForce`).
-/

namespace PacketWire.Session

/-! ### The mailbox in force -/

def Step.format? : Step → Option Format
  | .switch format _ => some format
  | .receive _ | .clear | .post _ | .take | .takeLast | .setLimit _ | .look => none

def Step.limit? : Step → Option UInt64
  | .setLimit limit => some limit
  | .switch _ false => some defaultMaxMessageSize
  | .switch _ true | .receive _ | .clear | .post _ | .take | .takeLast | .look => none

/-- What the steps make of a mailbox: it has the format that came last and the limit that came last,
each of which is the old one if none came. -/
def inForce (m : Mailbox) (steps : List Step) : Mailbox :=
  ⟨(steps.filterMap Step.format?).getLastD m.format,
    (steps.filterMap Step.limit?).getLastD m.limit⟩

theorem getLastD_filterMap_cons {α β : Type} (f : α → Option β) (a : α) (l : List α) (d : β) :
    ((a :: l).filterMap f).getLastD d = (l.filterMap f).getLastD ((f a).getD d) := by
  cases h : f a with
  | none =>
    rw [List.filterMap_cons_none h]
    rfl
  | some b =>
    rw [List.filterMap_cons_some h, List.getLastD_cons]
    rfl

/-- Later steps go on with the mailbox that the first one has put in force. -/
theorem inForce_cons (m : Mailbox) (step : Step) (later : List Step) :
    inForce m (step :: later) = inForce (inForce m [step]) later := by
  simp only [inForce, getLastD_filterMap_cons]
  rfl

/-! ### One turn -/

/-- The bytes that the turn puts at the end of the buffer. -/
def Turn.added (t : Turn) : Bytes :=
  match t.step with
  | .receive bytes => bytes
  | .post p => t.before.mailbox.format.encode p
  | .clear | .take | .takeLast | .setLimit _ | .switch _ _ | .look => []

/-- The turn empties the buffer: by clearing it, or by taking a message that is not too long. -/
def Turn.empties (t : Turn) : Bool :=
  match t.step with
  | .clear => true
  | .take | .takeLast => t.before.mailbox.Admits t.before.buffer
  | .receive _ | .post _ | .setLimit _ | .switch _ _ | .look => false

/-- The bytes that the turn takes out of the buffer. -/
def Turn.removed (t : Turn) : Bytes := if t.empties then t.before.buffer else []

/-- The turn is the one that its step makes of the session before it. -/
def Turn.Made (t : Turn) : Prop := t.before.step t.step = (t.reply, t.after)

/-- A buffer that is not emptied keeps its bytes and gets those that are added. -/
theorem Turn.Made.buffer {t : Turn} (h : t.Made) :
    t.after.buffer = if t.empties then [] else t.before.buffer ++ t.added := by
  obtain ⟨s, step, reply, after⟩ := t
  obtain rfl : after = (s.step step).2 := congrArg Prod.snd h.symm
  cases step with
  | receive bytes | clear | post p => rfl
  | setLimit limit | switch format keepLimit | look => exact (List.append_nil s.buffer).symm
  | take =>
    simp [Session.step, Turn.empties, Turn.added, Mailbox.take_left]
  | takeLast =>
    simp [Session.step, Turn.empties, Turn.added, Mailbox.take_left]

/-- No turn both empties the buffer and adds to it. -/
theorem Turn.added_of_empties {t : Turn} (h : t.empties = true) : t.added = [] := by
  obtain ⟨s, step, reply, after⟩ := t
  cases step with
  | clear | take | takeLast | setLimit | switch | look => rfl
  | receive | post => cases h

/-- What was in the buffer and what the turn added is what it removed and what is in the buffer now.
-/
theorem Turn.Made.conserves {t : Turn} (h : t.Made) :
    t.before.buffer ++ t.added = t.removed ++ t.after.buffer := by
  rw [h.buffer, Turn.removed]
  by_cases hempties : t.empties = true
  · rw [if_pos hempties, if_pos hempties, Turn.added_of_empties hempties]
  · rw [if_neg hempties, if_neg hempties, List.nil_append]

/-- A turn leaves the mailbox that its step puts in force. -/
theorem Turn.Made.mailbox {t : Turn} (h : t.Made) :
    t.after.mailbox = inForce t.before.mailbox [t.step] := by
  obtain ⟨s, step, reply, after⟩ := t
  obtain rfl : after = (s.step step).2 := congrArg Prod.snd h.symm
  cases step with
  | switch format keepLimit => cases keepLimit <;> rfl
  | receive | clear | post | take | takeLast | setLimit | look => rfl

/-- A turn that takes what is admitted reads the whole buffer as one message; another one finds
nothing, or too much. -/
theorem Turn.Made.reply_of_take {t : Turn} (h : t.Made)
    (hstep : t.step = .take ∨ t.step = .takeLast) :
    t.reply = .taken (if t.empties then
        (t.before.mailbox.format.decode t.before.buffer).mapError .malformed |>.map some
      else if t.before.buffer = [] then .ok none
      else .error (.oversized t.before.buffer.length)) := by
  have hempties : t.empties = true ↔ t.before.mailbox.Admits t.before.buffer := by
    rcases hstep with hstep | hstep <;> simp [Turn.empties, hstep]
  have hreply : t.reply = .taken (t.before.mailbox.take t.before.buffer).1 := by
    rcases hstep with hstep | hstep
    · rw [Turn.Made, hstep] at h
      exact congrArg Prod.fst h.symm
    · rw [Turn.Made, hstep] at h
      rw [← Mailbox.takeLast_eq_take]
      exact congrArg Prod.fst h.symm
  rw [hreply]
  by_cases hadmits : t.before.mailbox.Admits t.before.buffer
  · rw [Mailbox.take_of_admits hadmits, if_pos (hempties.mpr hadmits)]
  · rw [Mailbox.take_of_not_admits hadmits, if_neg (mt hempties.mp hadmits)]

theorem Turn.Made.reply_of_look {t : Turn} (h : t.Made) (hstep : t.step = .look) :
    t.reply = .mailbox t.before.mailbox := by
  rw [Turn.Made, hstep] at h
  exact congrArg Prod.fst h.symm

/-- Posting writes the wire form of a packet to the buffer as to a sink that takes everything. -/
theorem Turn.Made.post {t : Turn} (h : t.Made) {p : Packet} (hstep : t.step = .post p) :
    t.reply = .done ∧ (t.before.mailbox.format.write p []).result = .ok () ∧
      t.after.buffer = t.before.buffer ++ (t.before.mailbox.format.write p []).accepted := by
  obtain ⟨hresult, haccepted⟩ := t.before.mailbox.format.write_of_no_script p
  rw [Turn.Made, hstep] at h
  refine ⟨congrArg Prod.fst h.symm, hresult, ?_⟩
  rw [haccepted]
  exact congrArg (fun made => made.2.buffer) h.symm

/-! ### Turns in a row -/

/-- Every turn of a session is made by its step from the session before it. -/
theorem made_of_mem_run {s : Session} {steps : List Step} {t : Turn} (h : t ∈ run s steps) :
    t.Made := by
  induction steps generalizing s with
  | nil => cases h
  | cons step later ih =>
    rcases List.mem_cons.mp h with rfl | h
    · rfl
    · exact ih h

/-- A session has one turn for each step, in the same order. -/
theorem map_step_run (s : Session) (steps : List Step) : (run s steps).map Turn.step = steps := by
  induction steps generalizing s with
  | nil => rfl
  | cons step later ih => exact congrArg (step :: ·) (ih _)

/-- A session goes on from where its first turn left it. -/
theorem run_eq_cons {s : Session} {steps : List Step} {t : Turn} {turns : List Turn}
    (h : run s steps = t :: turns) : t.before = s ∧ t.Made ∧ ∃ later, run t.after later = turns := by
  cases steps with
  | nil => cases h
  | cons step later =>
    obtain ⟨rfl, rfl⟩ := List.cons.inj h
    exact ⟨rfl, rfl, later, rfl⟩

/-- The turns since the buffer was last emptied, or all of them if it never was. -/
def sinceEmptied (turns : List Turn) : List Turn := turns.rtakeWhile fun t => !t.empties

def bufferAfter (start : Bytes) (turns : List Turn) : Bytes :=
  turns.foldl (fun buffer t => if t.empties then [] else buffer ++ t.added) start

/-- Of a buffer that began empty only what was added since it was last emptied is there. -/
theorem bufferAfter_nil (turns : List Turn) :
    bufferAfter [] turns = (sinceEmptied turns).flatMap Turn.added := by
  induction turns using List.reverseRecOn with
  | nil => rfl
  | append_singleton turns t ih =>
    rw [bufferAfter, List.foldl_concat, ← bufferAfter, ih]
    by_cases h : t.empties = true
    · rw [if_pos h, sinceEmptied, List.rtakeWhile_concat_neg _ _ _ (by simp [h])]
      rfl
    · rw [if_neg h, sinceEmptied, sinceEmptied, List.rtakeWhile_concat_pos _ _ _ (by simp [h]),
        List.flatMap_append, List.flatMap_singleton]

/-- The session after some turns that began with another one. -/
def sessionAfter (start : Session) (turns : List Turn) : Session :=
  ⟨inForce start.mailbox (turns.map Turn.step), bufferAfter start.buffer turns⟩

/-- Later turns go on with what the first one has left. -/
theorem sessionAfter_cons {first : Turn} (h : first.Made) (later : List Turn) :
    sessionAfter first.before (first :: later) = sessionAfter first.after later := by
  rw [sessionAfter, sessionAfter, List.map_cons, inForce_cons, ← h.mailbox, h.buffer]
  rfl

/-- A turn begins with what the turns before it made of the first session, and ends with what they
made of it together with the turn. -/
theorem session_of_run {s : Session} {steps : List Step} {earlier later : List Turn} {t : Turn}
    (h : run s steps = earlier ++ t :: later) :
    t.before = sessionAfter s earlier ∧ t.after = sessionAfter s (earlier ++ [t]) := by
  induction earlier generalizing s steps with
  | nil =>
    obtain ⟨rfl, hmade, -⟩ := run_eq_cons h
    exact ⟨rfl, (sessionAfter_cons hmade []).symm⟩
  | cons first earlier ih =>
    obtain ⟨rfl, hmade, steps, hrest⟩ := run_eq_cons h
    rw [List.cons_append, sessionAfter_cons hmade, sessionAfter_cons hmade]
    exact ih hrest

/-- What was there and what the turns added is what they removed and what is there. -/
theorem run_conserves {s : Session} {steps : List Step} {earlier later : List Turn} {t : Turn}
    (h : run s steps = earlier ++ t :: later) :
    s.buffer ++ (earlier ++ [t]).flatMap Turn.added =
      (earlier ++ [t]).flatMap Turn.removed ++ t.after.buffer := by
  induction earlier generalizing s steps with
  | nil =>
    obtain ⟨rfl, hmade, -⟩ := run_eq_cons h
    simpa using hmade.conserves
  | cons first earlier ih =>
    obtain ⟨rfl, hmade, steps, hrest⟩ := run_eq_cons h
    rw [List.cons_append, List.flatMap_cons, List.flatMap_cons, ← List.append_assoc,
      hmade.conserves, List.append_assoc, ih hrest, List.append_assoc]

/-- In a session that begins with an empty buffer every step makes one turn. Each turn begins where
the turns before it have led: to the format and the limit that they put in force last, and to a
buffer that is what they have added to it since it was last emptied. So does the session after the
turn, with the turn counted. Everything that was added since the beginning is what was removed, turn
by turn, followed by the buffer. Posting always succeeds; taking reads as one message what it
removes, and nothing else; looking shows the mailbox in force. -/
theorem buffer_of_session (m : Mailbox) (steps : List Step) :
    (run ⟨m, []⟩ steps).map Turn.step = steps ∧
    ∀ earlier t later, run ⟨m, []⟩ steps = earlier ++ t :: later →
      t.before = ⟨inForce m (earlier.map Turn.step), (sinceEmptied earlier).flatMap Turn.added⟩ ∧
      t.after = ⟨inForce m ((earlier ++ [t]).map Turn.step),
        (sinceEmptied (earlier ++ [t])).flatMap Turn.added⟩ ∧
      (earlier ++ [t]).flatMap Turn.added =
        (earlier ++ [t]).flatMap Turn.removed ++ t.after.buffer ∧
      (∀ p, t.step = .post p →
        t.reply = .done ∧ (t.before.mailbox.format.write p []).result = .ok () ∧
          t.after.buffer = t.before.buffer ++ (t.before.mailbox.format.write p []).accepted) ∧
      (t.step = .take ∨ t.step = .takeLast →
        t.reply = .taken (if t.empties then
            (t.before.mailbox.format.decode t.before.buffer).mapError .malformed |>.map some
          else if t.before.buffer = [] then .ok none
          else .error (.oversized t.before.buffer.length))) ∧
      (t.step = .look → t.reply = .mailbox t.before.mailbox) := by
  refine ⟨map_step_run _ steps, ?_⟩
  intro earlier t later h
  have hmade : t.Made := by
    apply made_of_mem_run
    rw [h]
    exact List.mem_append_right _ List.mem_cons_self
  obtain ⟨hbefore, hafter⟩ := session_of_run h
  rw [sessionAfter, bufferAfter_nil] at hbefore hafter
  refine ⟨hbefore, hafter, run_conserves h, ?_, hmade.reply_of_take, hmade.reply_of_look⟩
  intro p hstep
  exact hmade.post hstep

/-- A ping is posted in each of two formats. The limit is one by then, so that the three bytes of
which the buffer consists in the end are never read. -/
theorem buffer_of_session_oversized :
    ∃ earlier t, run ⟨⟨.binary, 16⟩, []⟩ [.post ⟨.ping, [], .none⟩, .switch .string false,
        .post ⟨.ping, [], .none⟩, .setLimit 1, .take, .receive [65]] = earlier ++ t :: [] ∧
      t.before = ⟨inForce ⟨.binary, 16⟩ (earlier.map Turn.step),
        (sinceEmptied earlier).flatMap Turn.added⟩ ∧
      t.before = ⟨⟨.string, 1⟩, [2, 50]⟩ ∧ t.after.buffer = [2, 50, 65] := by
  have hrun := (buffer_of_session ⟨.binary, 16⟩ [.post ⟨.ping, [], .none⟩, .switch .string false,
    .post ⟨.ping, [], .none⟩, .setLimit 1, .take, .receive [65]]).2
      (run ⟨⟨.binary, 16⟩, []⟩ [.post ⟨.ping, [], .none⟩, .switch .string false,
        .post ⟨.ping, [], .none⟩, .setLimit 1, .take])
      ⟨⟨⟨.string, 1⟩, [2, 50]⟩, .receive [65], .done, ⟨⟨.string, 1⟩, [2, 50, 65]⟩⟩ [] rfl
  exact ⟨_, _, rfl, hrun.1, rfl, rfl⟩

end PacketWire.Session
