import PacketWire.Sink

/-!
# What a sink makes of an offer

Three things are said of a run, each apart from the others:

* its calls are answered by the script, one outcome for each (`Answers`);
* a call offers what the calls before it did not take (`Offers`), so that what the sink holds and
  what is left make up the bytes;
* the run ends with the first call that *breaks* it: one that fails, unless it was an interruption
  that is retried, or one that takes nothing of the bytes it is offered (`Call.Breaks`). It either
  completes, and no call broke it, or it was broken off by its last call and no earlier one.

Bytes that are offered until they are gone are offered in a run that completes if nothing is left of
them, and that is broken off otherwise (`offered_offerAll`).
-/

namespace PacketWire.Sink

/-! ### Answers -/

/-- The calls are answered by the outcomes of the first script in order, and by taking everything
after its end; the second script is what is left of it. -/
inductive Answers : List Outcome → List Call → List Outcome → Prop
  | nil {script} : Answers script [] script
  | scripted {outcome later bytes calls left} : Answers later calls left →
      Answers (outcome :: later) (⟨bytes, outcome.answer bytes.length⟩ :: calls) left
  | unscripted {bytes calls left} : Answers [] calls left →
      Answers [] (⟨bytes, .accepted bytes.length⟩ :: calls) left

theorem Answers.append {script script' script'' : List Outcome} {calls calls' : List Call}
    (h : Answers script calls script') (h' : Answers script' calls' script'') :
    Answers script (calls ++ calls') script'' := by
  induction h with
  | nil => exact h'
  | scripted _ ih => exact .scripted (ih h')
  | unscripted _ ih => exact .unscripted (ih h')

/-! ### Offers -/

/-- Each call offers some bytes, namely those of the first argument that the calls before it did not
take; those that none of them took are the last argument. -/
inductive Offers : Bytes → List Call → Bytes → Prop
  | nil {bytes} : Offers bytes [] bytes
  | cons {answer bytes later calls left} : bytes ≠ [] →
      Call.accepted ⟨bytes, answer⟩ ++ later = bytes → Offers later calls left →
      Offers bytes (⟨bytes, answer⟩ :: calls) left

/-- What the calls took and what is left make up the bytes. -/
theorem Offers.accepted_append {bytes left : Bytes} {calls : List Call}
    (h : Offers bytes calls left) : calls.flatMap Call.accepted ++ left = bytes := by
  induction h with
  | nil => rfl
  | cons _ htaken _ ih => rw [List.flatMap_cons, List.append_assoc, ih, htaken]

theorem Offers.offered_ne_nil {bytes left : Bytes} {calls : List Call}
    (h : Offers bytes calls left) : ∀ c ∈ calls, c.offered ≠ [] := by
  induction h with
  | nil => exact List.forall_mem_nil _
  | cons hbytes _ _ ih => exact List.forall_mem_cons.mpr ⟨hbytes, ih⟩

/-- What a call offers is what is left of the bytes after the calls before it. -/
theorem Offers.accepted_append_offered {bytes left : Bytes} {earlier later : List Call} {c : Call}
    (h : Offers bytes (earlier ++ c :: later) left) :
    earlier.flatMap Call.accepted ++ c.offered = bytes := by
  induction earlier generalizing bytes with
  | nil =>
    cases h
    rfl
  | cons first earlier ih =>
    cases h with
    | cons _ htaken hlater =>
      rw [List.flatMap_cons, List.append_assoc, ih hlater, htaken]

/-- What a call leaves of the bytes that it offers is offered by the calls after it. -/
theorem Offers.rest {bytes left rest : Bytes} {earlier later : List Call} {c : Call}
    (h : Offers bytes (earlier ++ c :: later) left) (hrest : c.accepted ++ rest = c.offered) :
    Offers rest later left := by
  induction earlier generalizing bytes with
  | nil =>
    cases h with
    | cons _ htaken hlater =>
      obtain rfl := List.append_cancel_left (htaken.trans hrest.symm)
      exact hlater
  | cons first earlier ih =>
    cases h with
    | cons _ _ hlater => exact ih hlater

/-! ### Calls that break off a run -/

/-- The call breaks off the run with that failure. -/
inductive Call.Breaks : Call → Failure → Prop
  /-- A failure that is not retried. -/
  | failed {bytes failure} : failure.kind ≠ .interrupted →
      Breaks ⟨bytes, .failed failure⟩ failure
  /-- There was something to take, and nothing was taken. -/
  | tookNothing {bytes} : bytes ≠ [] → Breaks ⟨bytes, .accepted 0⟩ tookNothing
  /-- An empty offer is made once, so that not even an interruption is retried. -/
  | emptyOffer {failure} : Breaks ⟨[], .failed failure⟩ failure

/-- No call breaks off the run. -/
def Smooth (calls : List Call) : Prop := ∀ c ∈ calls, ∀ failure, ¬ c.Breaks failure

theorem smooth_nil : Smooth [] := List.forall_mem_nil _

theorem Smooth.cons {c : Call} {calls : List Call} (hc : ∀ failure, ¬ c.Breaks failure)
    (h : Smooth calls) : Smooth (c :: calls) :=
  List.forall_mem_cons.mpr ⟨hc, h⟩

theorem Smooth.append {calls calls' : List Call} (h : Smooth calls) (h' : Smooth calls') :
    Smooth (calls ++ calls') :=
  List.forall_mem_append.mpr ⟨h, h'⟩

/-- A call that takes something, or has nothing to take, goes well. -/
theorem not_breaks_of_taken {bytes : Bytes} {count : Nat} (h : bytes = [] ∨ count ≠ 0)
    (failure : Failure) : ¬ Call.Breaks ⟨bytes, .accepted count⟩ failure := by
  intro hbreaks
  cases hbreaks with
  | tookNothing hbytes => simp [hbytes] at h

/-- A call that is interrupted is made again. -/
theorem not_breaks_of_interrupted {bytes : Bytes} {interruption : Failure} (hbytes : bytes ≠ [])
    (h : interruption.kind = .interrupted) (failure : Failure) :
    ¬ Call.Breaks ⟨bytes, .failed interruption⟩ failure := by
  intro hbreaks
  cases hbreaks with
  | failed hkind => exact hkind h
  | emptyOffer => exact hbytes rfl

/-- A sink that takes all that it is ever offered breaks off no run. -/
theorem smooth_of_all {script left : List Outcome} {calls : List Call}
    (h : Answers script calls left) (hall : ∀ outcome ∈ script, outcome = .all) : Smooth calls := by
  have htaken (bytes : Bytes) (failure : Failure) :
      ¬ Call.Breaks ⟨bytes, .accepted bytes.length⟩ failure := by
    apply not_breaks_of_taken
    rw [Ne, List.length_eq_zero_iff]
    exact Decidable.em (bytes = [])
  induction h with
  | nil => exact smooth_nil
  | scripted _ ih =>
    obtain ⟨rfl, hlater⟩ := List.forall_mem_cons.mp hall
    exact (ih hlater).cons (htaken _)
  | unscripted _ ih => exact (ih hall).cons (htaken _)

/-- Nothing is taken in the call that breaks off a run. -/
theorem Call.Breaks.accepted_eq_nil {c : Call} {failure : Failure} (h : c.Breaks failure) :
    c.accepted = [] := by
  cases h <;> rfl

/-! ### Ends of runs -/

/-- The run went well, and no call broke it off. -/
structure Run.Completes (r : Run) : Prop where
  result : r.result = .ok ()
  smooth : Smooth r.calls

/-- The run was broken off by its last call, and by no earlier one. -/
structure Run.BreaksOff (r : Run) (last : Call) (failure : Failure) : Prop where
  result : r.result = .error failure
  breaks : last.Breaks failure
  calls : ∃ earlier, Smooth earlier ∧ r.calls = earlier ++ [last]

theorem Run.Completes.after {r : Run} {c : Call} (h : r.Completes)
    (hc : ∀ failure, ¬ c.Breaks failure) : (r.after c).Completes where
  result := h.result
  smooth := h.smooth.cons hc

theorem Run.BreaksOff.after {r : Run} {c last : Call} {failure : Failure}
    (h : r.BreaksOff last failure) (hc : ∀ failure, ¬ c.Breaks failure) :
    (r.after c).BreaksOff last failure where
  result := h.result
  breaks := h.breaks
  calls := by
    obtain ⟨earlier, hsmooth, hcalls⟩ := h.calls
    exact ⟨c :: earlier, hsmooth.cons hc, congrArg (c :: ·) hcalls⟩

theorem Run.BreaksOff.not_smooth {r : Run} {last : Call} {failure : Failure}
    (h : r.BreaksOff last failure) : ¬ Smooth r.calls := by
  obtain ⟨earlier, -, hcalls⟩ := h.calls
  intro hsmooth
  apply hsmooth last _ failure h.breaks
  rw [hcalls]
  exact List.mem_append_right _ List.mem_cons_self

/-- A run of a single call that breaks it off. -/
theorem Call.Breaks.breaksOff {c : Call} {failure : Failure} (h : c.Breaks failure)
    (left : List Outcome) : Run.BreaksOff ⟨[c], .error failure, left⟩ c failure where
  result := rfl
  breaks := h
  calls := ⟨[], smooth_nil, rfl⟩

/-! ### Runs one after the other -/

/-- After a run that went well the next one goes on with what is left of the script. -/
theorem Run.andThen_of_ok {r : Run} (h : r.result = .ok ()) (next : List Outcome → Run) :
    r.andThen next = { next r.unused with calls := r.calls ++ (next r.unused).calls } := by
  rw [andThen, h]

theorem Run.andThen_of_error {r : Run} {failure : Failure} (h : r.result = .error failure)
    (next : List Outcome → Run) : r.andThen next = r := by
  rw [andThen, h]

theorem Run.Completes.andThen {r : Run} {next : List Outcome → Run} (h : r.Completes)
    (h' : (next r.unused).Completes) : (r.andThen next).Completes := by
  rw [Run.andThen_of_ok h.result]
  exact ⟨h'.result, h.smooth.append h'.smooth⟩

/-- Where a run that completes is followed by one that breaks off, the two together break off there.
-/
theorem Run.Completes.andThen_breaksOff {r : Run} {next : List Outcome → Run} {last : Call}
    {failure : Failure} (h : r.Completes) (h' : (next r.unused).BreaksOff last failure) :
    (r.andThen next).BreaksOff last failure := by
  obtain ⟨earlier, hsmooth, hcalls⟩ := h'.calls
  rw [Run.andThen_of_ok h.result]
  refine ⟨h'.result, h'.breaks, r.calls ++ earlier, h.smooth.append hsmooth, ?_⟩
  rw [List.append_assoc, ← hcalls]

/-- After a run that completes the sink holds what each of the two made it take. -/
theorem Run.Completes.accepted_andThen {r : Run} (h : r.Completes) (next : List Outcome → Run) :
    (r.andThen next).accepted = r.accepted ++ (next r.unused).accepted := by
  rw [Run.andThen_of_ok h.result]
  exact List.flatMap_append

/-- A call of two runs, one after the other, is one of the first run, or one of the second run if
the first went well. -/
theorem Run.calls_andThen_eq {r : Run} {next : List Outcome → Run} {earlier later : List Call}
    {c : Call} (h : (r.andThen next).calls = earlier ++ c :: later) :
    (∃ more others, r.calls = earlier ++ c :: more ∧ later = more ++ others) ∨
      r.result = .ok () ∧ ∃ more, earlier = r.calls ++ more ∧
        (next r.unused).calls = more ++ c :: later := by
  cases hresult : r.result with
  | error failure =>
    rw [Run.andThen_of_error hresult] at h
    exact .inl ⟨later, [], h, (List.append_nil later).symm⟩
  | ok _ =>
    rw [Run.andThen_of_ok hresult] at h
    rcases List.append_eq_append_iff.mp h with ⟨more, hearlier, hmore⟩ | ⟨more, hfirst, hmore⟩
    · exact .inr ⟨rfl, more, hearlier, hmore⟩
    · cases more with
      | nil =>
        rw [List.append_nil] at hfirst
        exact .inr ⟨rfl, [], by rw [hfirst, List.append_nil], hmore.symm⟩
      | cons first more =>
        obtain ⟨rfl, hlater⟩ := List.cons.inj hmore
        exact .inl ⟨more, _, hfirst, hlater⟩

/-- The two runs are answered by the script in turn. -/
theorem Answers.andThen {script : List Outcome} {r : Run} {next : List Outcome → Run}
    (h : Answers script r.calls r.unused)
    (h' : Answers r.unused (next r.unused).calls (next r.unused).unused) :
    Answers script (r.andThen next).calls (r.andThen next).unused := by
  cases hresult : r.result with
  | error failure =>
    rw [Run.andThen_of_error hresult]
    exact h
  | ok _ =>
    rw [Run.andThen_of_ok hresult]
    exact h.append h'

/-! ### Offering bytes -/

theorem answers_offerAll (bytes : Bytes) (script : List Outcome) :
    Answers script (offerAll bytes script).calls (offerAll bytes script).unused := by
  fun_induction offerAll bytes script with
  | case1 => exact .nil
  | case2 => exact .unscripted .nil
  | case3 | case6 => exact .scripted .nil
  | case4 _ _ _ _ _ _ _ _ _ ih | case5 _ _ _ _ _ _ _ _ _ ih => exact .scripted ih

/-- The run offers the bytes in turn. It completes if nothing is left of them, and is broken off
otherwise. -/
def Run.Offered (r : Run) (bytes : Bytes) : Prop :=
  ∃ left, Offers bytes r.calls left ∧
    (left = [] ∧ r.Completes ∨ left ≠ [] ∧ ∃ last failure, r.BreaksOff last failure)

theorem Run.Offered.after {r : Run} {answer : Answer} {bytes later : Bytes}
    (h : r.Offered later) (hbytes : bytes ≠ [])
    (htaken : Call.accepted ⟨bytes, answer⟩ ++ later = bytes)
    (hcall : ∀ failure, ¬ Call.Breaks ⟨bytes, answer⟩ failure) :
    (r.after ⟨bytes, answer⟩).Offered bytes := by
  obtain ⟨left, hoffers, hends⟩ := h
  refine ⟨left, .cons hbytes htaken hoffers, ?_⟩
  rcases hends with ⟨hleft, hcompletes⟩ | ⟨hleft, last, failure, hbreaks⟩
  · exact .inl ⟨hleft, hcompletes.after hcall⟩
  · exact .inr ⟨hleft, last, failure, hbreaks.after hcall⟩

/-- A call that breaks off the run leaves all that it offers. -/
theorem Call.Breaks.offered {answer : Answer} {bytes : Bytes} {failure : Failure}
    (h : Call.Breaks ⟨bytes, answer⟩ failure) (hbytes : bytes ≠ []) (left : List Outcome) :
    Run.Offered ⟨[⟨bytes, answer⟩], .error failure, left⟩ bytes := by
  refine ⟨bytes, .cons hbytes ?_ .nil, .inr ⟨hbytes, _, _, h.breaksOff left⟩⟩
  rw [h.accepted_eq_nil, List.nil_append]

/-- Bytes are offered in turn until none is left or a call breaks off the run. -/
theorem offered_offerAll (bytes : Bytes) (script : List Outcome) :
    (offerAll bytes script).Offered bytes := by
  fun_induction offerAll bytes script with
  | case1 script bytes hbytes =>
    rw [List.isEmpty_iff] at hbytes
    subst hbytes
    exact ⟨[], .nil, .inl ⟨rfl, rfl, smooth_nil⟩⟩
  | case2 bytes hbytes =>
    rw [List.isEmpty_iff] at hbytes
    refine ⟨[], .cons hbytes ?_ .nil, .inl ⟨rfl, rfl, smooth_nil.cons (not_breaks_of_taken ?_)⟩⟩
    · simp [Call.accepted]
    · simp [hbytes]
  | case3 bytes hbytes outcome later answer call hanswer =>
    rw [List.isEmpty_iff] at hbytes
    have hbreaks : Call.Breaks ⟨bytes, answer⟩ tookNothing := by
      rw [hanswer]
      exact .tookNothing hbytes
    exact hbreaks.offered hbytes later
  | case4 bytes hbytes outcome later answer call count hcount hanswer ih =>
    rw [List.isEmpty_iff] at hbytes
    apply ih.after hbytes
    · rw [hanswer]
      exact List.take_append_drop count bytes
    · rw [hanswer]
      exact not_breaks_of_taken (.inr hcount)
  | case5 bytes hbytes outcome later answer call failure hanswer hkind ih =>
    rw [List.isEmpty_iff] at hbytes
    apply ih.after hbytes
    · rw [hanswer]
      rfl
    · rw [hanswer]
      exact not_breaks_of_interrupted hbytes hkind
  | case6 bytes hbytes outcome later answer call failure hanswer hkind =>
    rw [List.isEmpty_iff] at hbytes
    have hbreaks : Call.Breaks ⟨bytes, answer⟩ failure := by
      rw [hanswer]
      exact .failed hkind
    exact hbreaks.offered hbytes later

/-- Some bytes are first offered as a whole. -/
theorem exists_offerAll_eq_cons {bytes : Bytes} (hbytes : bytes ≠ []) (script : List Outcome) :
    ∃ answer later, (offerAll bytes script).calls = ⟨bytes, answer⟩ :: later := by
  obtain ⟨left, hoffers, hends⟩ := offered_offerAll bytes script
  cases hcalls : (offerAll bytes script).calls with
  | nil =>
    -- Without a call all the bytes are left, and a run that leaves some ends with a call.
    rw [hcalls] at hoffers
    cases hoffers
    rcases hends with ⟨hleft, -⟩ | ⟨-, last, failure, hbreaks⟩
    · exact absurd hleft hbytes
    · exact absurd (hcalls ▸ smooth_nil) hbreaks.not_smooth
  | cons c later =>
    rw [hcalls] at hoffers
    cases hoffers
    exact ⟨_, later, rfl⟩

/-- Each call uses up an outcome of the script, but for one after its end. -/
theorem length_calls_offerAll (bytes : Bytes) (script : List Outcome) :
    (offerAll bytes script).calls.length + (offerAll bytes script).unused.length ≤
      script.length + 1 := by
  fun_induction offerAll bytes script with
  | case1 | case2 => simp
  | case3 | case6 =>
    simp only [List.length_cons, List.length_nil]
    omega
  | case4 _ _ _ _ _ _ _ _ _ ih | case5 _ _ _ _ _ _ _ _ _ ih =>
    simp only [Run.after, List.length_cons]
    omega

/-! ### One empty offer -/

theorem answers_offerOnce (bytes : Bytes) (script : List Outcome) :
    Answers script (offerOnce bytes script).calls (offerOnce bytes script).unused := by
  fun_cases offerOnce bytes script with
  | case1 => exact .unscripted .nil
  | case2 | case3 => exact .scripted .nil

/-- An empty offer is one call, and any failure breaks it off. -/
theorem offerOnce_nil_ends (script : List Outcome) :
    ∃ answer, (offerOnce [] script).calls = [⟨[], answer⟩] ∧
      ((offerOnce [] script).Completes ∨
        ∃ failure, (offerOnce [] script).BreaksOff ⟨[], answer⟩ failure) := by
  have hsmooth : ∀ count, Smooth [⟨[], .accepted count⟩] := fun count =>
    smooth_nil.cons (not_breaks_of_taken (.inl rfl))
  fun_cases offerOnce [] script with
  | case1 => exact ⟨_, rfl, .inl ⟨rfl, hsmooth 0⟩⟩
  | case2 outcome later answer count hanswer =>
    refine ⟨answer, rfl, .inl ⟨rfl, ?_⟩⟩
    rw [hanswer]
    exact hsmooth count
  | case3 outcome later answer failure hanswer =>
    have hbreaks : Call.Breaks ⟨[], answer⟩ failure := by
      rw [hanswer]
      exact .emptyOffer
    exact ⟨answer, rfl, .inr ⟨failure, hbreaks.breaksOff later⟩⟩

theorem length_calls_offerOnce (bytes : Bytes) (script : List Outcome) :
    (offerOnce bytes script).calls.length + (offerOnce bytes script).unused.length ≤
      script.length + 1 := by
  fun_cases offerOnce bytes script with
  | case1 => simp
  | case2 | case3 =>
    simp only [List.length_cons, List.length_nil]
    omega

end PacketWire.Sink
