import SerialMux.FilterCodec
import SerialMux.Transparency

/-!
# The payload of a SUBSCRIBE

`commandLoop` reads the filter of a client's SUBSCRIBE from its payload and writes
the filter union over it.  Its validity test bounds the payload from above only, so
both stay inside the payload exactly when it has the eight bytes of a filter; the
frame sent to Picard then carries the union.
-/

namespace SerialMux

namespace Mux

variable {retries : Int} {m : Mux}

/-- Processing a SUBSCRIBE: no access of its payload is outside the vector, and
whatever other threads do, the command thread does not fail and its first frame
carries the filter union of the moment at which the payload is rewritten.  Three
statements lead to that one, and three more to the frame. -/
structure StaysInBounds (retries : Int) (m : Mux) (cmd : ClientCommand) : Prop where
  reads : ∀ index ∈ vectorToFilterReads cmd.command.data.length,
    index < cmd.command.data.length
  writes : ∀ index ∈ filterToVectorWrites, index < cmd.command.data.length
  forwards : ∀ before after : List Action,
    before.count .loop = 2 → after.count .loop = 2 → 0 < retries →
    (Machine.run (step retries) m (.loop :: before ++ .loop :: after)).1.picard ≠ .crashed →
    ∃ seqNo,
      (step retries (Machine.run (step retries) m (.loop :: before ++ .loop :: after)).1
        .loop).2 =
        [.sent (requestFrame Command.subscribe seqNo
          (filterBytes (Machine.run (step retries) m (.loop :: before)).1.filterUnion ++
            cmd.command.data.drop subscribeParamsLength))]

/-- A run up to its first statement of the command thread. -/
theorem count_loop_succ
    {count : Nat}
    {actions : List Action}
    (counted : actions.count .loop = count + 1) :
    ∃ others rest, actions = others ++ .loop :: rest ∧
      (∀ action ∈ others, action ≠ .loop) ∧ rest.count .loop = count := by
  have occurs : .loop ∈ actions := List.count_pos_iff.mp (by omega)
  obtain ⟨others, rest, rfl, absent⟩ := List.eq_append_cons_of_mem occurs
  refine ⟨others, rest, rfl, ?_, ?_⟩
  · rintro action member rfl
    exact absent member
  · rw [List.count_append, List.count_eq_zero_of_not_mem absent, List.count_cons_self] at counted
    omega

/-- A process that has crashed stays where it is. -/
theorem alive_of_picard
    {actions : List Action}
    (running : (Machine.run (step retries) m actions).1.picard ≠ .crashed)
    (phase : m.loop ≠ .crashed) :
    ¬m.hasCrashed := by
  intro crashed
  rw [run_of_crashed crashed] at running
  rw [hasCrashed, Bool.or_eq_true, beq_iff_eq, beq_iff_eq] at crashed
  exact crashed.elim phase running

theorem run_loop_frame
    {others : List Action}
    (noLoop : ∀ action ∈ others, action ≠ .loop) :
    (Machine.run (step retries) m others).1.loop = m.loop := by
  induction others generalizing m with
  | nil => rfl
  | cons action rest inductionHypothesis =>
      rw [List.forall_mem_cons] at noLoop
      rw [Machine.run_cons]
      exact (inductionHypothesis noLoop.2).trans (step_frame noLoop.1).1

/-- The next statement of the command thread, after steps of other threads. -/
theorem run_next_statement
    {phase : LoopPhase}
    {others rest : List Action}
    (here : m.loop = phase)
    (alive : phase ≠ .crashed)
    (noLoop : ∀ action ∈ others, action ≠ .loop)
    (running : (Machine.run (step retries) m (others ++ .loop :: rest)).1.picard ≠ .crashed) :
    ∃ between : Mux, between.loop = phase ∧
      (Machine.run (step retries) m (others ++ .loop :: rest)).1 =
        (Machine.run (step retries) (between.loopStep retries).1 rest).1 := by
  have kept := @run_loop_frame retries m others noLoop
  rw [here] at kept
  rw [Machine.run_append] at running
  have next : ¬(Machine.run (step retries) m others).1.hasCrashed :=
    alive_of_picard running (by rw [kept]; exact alive)
  refine ⟨_, kept, ?_⟩
  rw [Machine.run_append, Machine.run_cons]
  simp only [step, if_neg next, perform]

/-- A run that ends between two statements of the command thread. -/
theorem run_loop_of_count_zero
    {others : List Action}
    (counted : others.count .loop = 0) :
    (Machine.run (step retries) m others).1.loop = m.loop := by
  apply run_loop_frame
  rintro action member rfl
  exact List.count_eq_zero.mp counted member

/-- From the check of a SUBSCRIBE of eight bytes or more to the statement that
rewrites it. -/
theorem subscribing_reaches_rewriting
    {cmd : ClientCommand}
    {before : List Action}
    (phase : m.loop = .subscribing cmd)
    (long : subscribeParamsLength ≤ cmd.command.data.length)
    (counted : before.count .loop = 2)
    (running : (Machine.run (step retries) m before).1.picard ≠ .crashed) :
    (Machine.run (step retries) m before).1.loop = .rewriting cmd := by
  obtain ⟨params, read⟩ := vectorToFilter_of_length long
  obtain ⟨first, rest, rfl, noLoop, counted⟩ := count_loop_succ counted
  obtain ⟨subscribed, here, next⟩ := run_next_statement phase (by simp) noLoop running
  have recomputing : (subscribed.loopStep retries).1.loop = .recomputing cmd := by
    simp only [loopStep, here, read]
  rw [next] at running ⊢
  obtain ⟨second, third, rfl, noLoop, counted⟩ := count_loop_succ counted
  obtain ⟨recomputed, here, next⟩ := run_next_statement recomputing (by simp) noLoop running
  rw [next, run_loop_of_count_zero counted]
  simp only [loopStep, here]

/-- From the statement that rewrites the payload to the one that has built the frame. -/
theorem rewriting_reaches_recording
    {cmd : ClientCommand}
    {after : List Action}
    (phase : m.loop = .rewriting cmd)
    (subscribes : cmd.command.type = Command.subscribe)
    (long : subscribeParamsLength ≤ cmd.command.data.length)
    (short : cmd.command.data.length ≤ 128)
    (counted : after.count .loop = 2)
    (positive : 0 < retries)
    (running : (Machine.run (step retries) m (.loop :: after)).1.picard ≠ .crashed) :
    ∃ rewritten seqNo,
      (Machine.run (step retries) m (.loop :: after)).1.loop = .recording rewritten 0
        (requestFrame Command.subscribe seqNo
          (filterBytes m.filterUnion ++ cmd.command.data.drop subscribeParamsLength)) := by
  have wrote := filterToVector_eq m.filterUnion long
  have size := filterToVector_length wrote
  generalize filterBytes m.filterUnion ++ cmd.command.data.drop subscribeParamsLength = data
    at wrote size ⊢
  have alive : ¬m.hasCrashed := alive_of_picard running (by rw [phase]; simp)
  have installing : (step retries m .loop).1.loop =
      .installing { cmd with command.data := data } := by
    rw [step, if_neg alive, perform]
    simp only [loopStep, phase, wrote]
  rw [Machine.run_cons] at running ⊢
  dsimp only at running ⊢
  obtain ⟨first, rest, rfl, noLoop, counted⟩ := count_loop_succ counted
  obtain ⟨installed, here, next⟩ := run_next_statement installing (by simp) noLoop running
  have sending : (installed.loopStep retries).1.loop =
      .sending { cmd with command.data := data } 0 := by
    simp [loopStep, here, attempt, positive]
  rw [next] at running ⊢
  obtain ⟨second, third, rfl, noLoop, counted⟩ := count_loop_succ counted
  obtain ⟨sent, here, next⟩ := run_next_statement sending (by simp) noLoop running
  rw [next, run_loop_of_count_zero counted]
  have built := @commandFrame_eq_requestFrame { cmd.command with data := data }
    (by rw [size]; exact short) sent.io.seqNo
  refine ⟨{ cmd with command.data := data }, sent.io.seqNo, ?_⟩
  simp only [loopStep, here]
  rw [built, subscribes]

/-- A valid SUBSCRIBE of a registered client comes to the read of its filter. -/
theorem step_finding_subscribe
    {cmd : ClientCommand}
    {client : ClientId}
    (alive : ¬m.hasCrashed)
    (phase : m.loop = .finding cmd)
    (owner : cmd.client = some client)
    (registered : client ∈ m.clients)
    (subscribes : cmd.command.type = Command.subscribe)
    (short : cmd.command.data.length ≤ 128) :
    (step retries m .loop).1.loop = .subscribing cmd := by
  have size : cmd.command.size.toNat = cmd.command.data.length :=
    cmd.command.size_toNat (by omega)
  have expected : m.isExpected cmd = true := by
    simp [isExpected, owner, registered]
  have notLonger : ¬maxSerialApiCmdLen < cmd.command.size := by
    rw [BitVec.lt_def, size, maxSerialApiCmdLen]
    simp
    omega
  have notMuxInfo : ¬Command.subscribe = MuxCommand.muxInfo := by decide
  have forwarded : isPicardApiCommand Command.subscribe = true := by decide
  rw [step, if_neg alive, perform]
  simp [loopStep, phase, expected, dispatch, subscribes, notMuxInfo, forwarded, notLonger, owner]

/-- From the check of a SUBSCRIBE of eight bytes or more to its first frame. -/
theorem subscribing_sends_union
    {cmd : ClientCommand}
    {before after : List Action}
    (finds : (step retries m .loop).1.loop = .subscribing cmd)
    (subscribes : cmd.command.type = Command.subscribe)
    (long : subscribeParamsLength ≤ cmd.command.data.length)
    (short : cmd.command.data.length ≤ 128)
    (countedBefore : before.count .loop = 2)
    (countedAfter : after.count .loop = 2)
    (positive : 0 < retries)
    (running :
      (Machine.run (step retries) m (.loop :: before ++ .loop :: after)).1.picard ≠ .crashed) :
    ∃ seqNo,
      (step retries (Machine.run (step retries) m (.loop :: before ++ .loop :: after)).1
        .loop).2 =
        [.sent (requestFrame Command.subscribe seqNo
          (filterBytes (Machine.run (step retries) m (.loop :: before)).1.filterUnion ++
            cmd.command.data.drop subscribeParamsLength))] := by
  rw [Machine.run_append] at running ⊢
  dsimp only at running ⊢
  have first : (Machine.run (step retries) m (.loop :: before)).1.picard ≠ .crashed := by
    intro crashed
    have ended : (Machine.run (step retries) m (.loop :: before)).1.hasCrashed := by
      rw [hasCrashed, crashed]
      simp
    rw [run_of_crashed ended] at running
    exact running crashed
  have rewriting : (Machine.run (step retries) m (.loop :: before)).1.loop = .rewriting cmd := by
    rw [Machine.run_cons] at first ⊢
    exact subscribing_reaches_rewriting finds long countedBefore first
  obtain ⟨rewritten, seqNo, recording⟩ :=
    rewriting_reaches_recording rewriting subscribes long short countedAfter positive running
  refine ⟨seqNo, ?_⟩
  have goesOn : ¬(Machine.run (step retries)
      (Machine.run (step retries) m (.loop :: before)).1 (.loop :: after)).1.hasCrashed := by
    rw [hasCrashed, recording]
    simpa using running
  rw [step, if_neg goesOn, perform]
  simp only [loopStep, recording]

/-- A valid SUBSCRIBE of a registered client is processed inside the bounds of its
payload exactly when the payload has the eight bytes of a filter. -/
theorem staysInBounds_iff
    (retries : Int)
    (m : Mux)
    (cmd : ClientCommand)
    (client : ClientId)
    (alive : ¬m.hasCrashed)
    (phase : m.loop = .finding cmd)
    (owner : cmd.client = some client)
    (registered : client ∈ m.clients)
    (subscribes : cmd.command.type = Command.subscribe)
    (short : cmd.command.data.length ≤ 128) :
    StaysInBounds retries m cmd ↔ subscribeParamsLength ≤ cmd.command.data.length := by
  constructor
  · intro inBounds
    exact (filterToVectorWrites_within_iff _).mp inBounds.writes
  · intro long
    have finds := @step_finding_subscribe retries m cmd client alive phase owner registered
      subscribes short
    refine ⟨?_, (filterToVectorWrites_within_iff _).mpr long, ?_⟩
    · refine (vectorToFilterReads_within_iff _).mpr ?_
      rw [subscribeParamsLength] at long
      omega
    · intro before after countedBefore countedAfter positive running
      exact subscribing_sends_union finds subscribes long short countedBefore countedAfter
        positive running

/-- A SUBSCRIBE of a payload, taken from the queue. -/
def takenSubscribe (payload : ByteVector) : List Action :=
  [.addClient 1, .addCommand 1 (MuxMessage.ofPayload Command.subscribe payload),
    .loop, .loop, .loop]

/-- Eight bytes are enough. -/
theorem staysInBounds_example :
    StaysInBounds 3 (Machine.run (step 3) (start {} 4)
        (takenSubscribe [0, 0, 0, 2, 0, 0, 0, 0])).1
      { client := some 1, command := subscribeTo 2 } ↔
    subscribeParamsLength ≤ (subscribeTo 2).data.length :=
  staysInBounds_iff 3 _ { client := some 1, command := subscribeTo 2 } 1 (by decide) (by decide)
    rfl (by decide) (by decide) (by decide)

/-- A SUBSCRIBE with the filter only, without the unreliable mask, is valid; the filter
union is then written behind the end of its payload. -/
theorem short_subscribe_writes_outside :
    (Machine.run (step 3) (start {} 4) (takenSubscribe [0, 0, 0, 2])).1.loop =
      .finding { client := some 1,
                 command := MuxMessage.ofPayload Command.subscribe [0, 0, 0, 2] } ∧
    (Machine.run (step 3) (start {} 4)
      (takenSubscribe [0, 0, 0, 2] ++ List.replicate 4 .loop)).1.loop = .crashed ∧
    ¬StaysInBounds 3 (Machine.run (step 3) (start {} 4) (takenSubscribe [0, 0, 0, 2])).1
      { client := some 1, command := MuxMessage.ofPayload Command.subscribe [0, 0, 0, 2] } := by
  refine ⟨by decide, by decide, ?_⟩
  intro inBounds
  have last := inBounds.writes 7 (by decide)
  revert last
  decide

end Mux

end SerialMux
