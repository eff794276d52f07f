import SerialMux.AuthenticationGate

/-!
# The session of a client

As long as a connection is not ended from outside, what it writes and what it gives to the
client manager is a function of the messages in its stream: nothing before the first hello, one
answer to it, and behind a right one every message as a command.
-/

namespace SerialMux

/-- What a hello should be answered with: its length is checked first, then the token, and the
version last. -/
def helloVerdict (protocolVersion : Byte) (expectedAuth : Fin 8 → Byte) (data : ByteVector) :
    Byte :=
  if data.length ≠ expectedHelloLen then ErrorCode.invalidCmd
  else if data.tail ≠ List.ofFn expectedAuth then ErrorCode.invalidAuth
  else if data.head? ≠ some protocolVersion then ErrorCode.unsupportedVersion
  else ErrorCode.ok

/-- The session of a client that sends some messages. -/
def session (protocolVersion : Byte) (expectedAuth : Fin 8 → Byte) :
    List MuxMessage → List ConnectionOutput
  | [] => []
  | message :: rest =>
      if message.type = MuxCommand.muxHello then
        let verdict := helloVerdict protocolVersion expectedAuth message.data
        .wrote (MuxOutput.make MuxCommand.muxHello 0 verdict [protocolVersion]) ::
          if verdict = ErrorCode.ok then .addClient :: rest.map .addCommand else []
      else session protocolVersion expectedAuth rest

/-- What a connection writes, and what it gives to the client manager. -/
def ConnectionOutput.isSession : ConnectionOutput → Bool
  | .wrote _ | .addClient | .addCommand _ => true
  | .received _ | .handled _ _ | .removeClient => false

/-- The data of a read. -/
def ConnectionEvent.data : ConnectionEvent → Option ByteVector
  | .read data => some data
  | .readError | .expire | .authTimeout | .close | .hangUp => none

namespace Connection

variable {c : Connection}

/-! ## The hello check -/

/-- A loop that overwrites its result tells whether it has found anything wrong. -/
theorem foldl_overwrite
    {ι : Type*}
    (bad : Byte)
    (wrong : ι → Prop)
    [DecidablePred wrong]
    (indices : List ι)
    (result : Byte) :
    indices.foldl (fun result i => if wrong i then bad else result) result =
      if ∃ i ∈ indices, wrong i then bad else result := by
  induction indices generalizing result with
  | nil => simp
  | cons i rest inductionHypothesis =>
      rw [List.foldl_cons, inductionHypothesis]
      by_cases wrongHere : wrong i
      · simp [wrongHere]
      · simp [wrongHere]

/-- The check gives the result that a hello should be answered with. -/
theorem parseHello_eq_helloVerdict
    (c : Connection)
    {command : MuxMessage}
    (short : command.data.length < 65536) :
    c.parseHello command.data command.size =
      helloVerdict c.protocolVersion c.expectedAuth command.data := by
  have size : command.size.toNat = command.data.length := command.size_toNat short
  unfold parseHello helloVerdict
  rw [size]
  by_cases long : command.data.length = expectedHelloLen
  · have loop := foldl_overwrite ErrorCode.invalidAuth
      (fun i => c.expectedAuth i ≠ command.data.getD (1 + i) 0)
      (List.finRange authenticationLen)
      (if command.data.getD 0 0 ≠ c.protocolVersion then ErrorCode.unsupportedVersion
        else ErrorCode.ok)
    rw [if_pos long, if_neg (not_not.mpr long)]
    obtain ⟨version, token, whole⟩ : ∃ version token, command.data = version :: token :=
      List.exists_cons_of_length_pos (by rw [long]; decide)
    have agrees : token = List.ofFn c.expectedAuth ↔
        ∀ i : Fin 8, c.expectedAuth i = command.data.getD (1 + i) 0 := by
      have payload := eq_helloPayload_iff long version c.expectedAuth
      rw [whole] at payload ⊢
      simpa [helloPayload] using payload
    have wrongToken : (∃ i ∈ List.finRange authenticationLen,
        c.expectedAuth i ≠ command.data.getD (1 + i) 0) ↔ token ≠ List.ofFn c.expectedAuth := by
      rw [Ne, agrees, not_forall]
      exact exists_congr fun i => and_iff_right (List.mem_finRange i)
    by_cases same : token = List.ofFn c.expectedAuth
    · refine (loop.trans (if_neg fun found => wrongToken.mp found same)).trans ?_
      simp [whole, same]
    · refine (loop.trans (if_pos (wrongToken.mpr same))).trans ?_
      rw [whole, List.tail_cons, if_pos same]
  · rw [if_neg long, if_pos long]

/-! ## What is left of a session -/

/-- What a connection does with further messages. -/
def remaining (c : Connection) (messages : List MuxMessage) : List ConnectionOutput :=
  match c.initState with
  | .waiting => session c.protocolVersion c.expectedAuth messages
  | .authenticated => messages.map .addCommand
  | .badInit | .closed => []

theorem remaining_of_badInit
    (bad : c.initState = .badInit)
    (messages : List MuxMessage) :
    c.remaining messages = [] := by
  rw [remaining, bad]

@[simp] theorem remaining_rebuffered (parser : MuxParser) (messages : List MuxMessage) :
    { c with parser := parser }.remaining messages = c.remaining messages := rfl

@[simp] theorem remaining_reading (reading : Bool) (messages : List MuxMessage) :
    { c with reading := reading }.remaining messages = c.remaining messages := rfl

/-- One message. -/
theorem remaining_cons
    {command : MuxMessage}
    (short : command.data.length < 65536)
    (rest : List MuxMessage) :
    c.remaining (command :: rest) =
      (c.handleCommand command).2 ++ (c.handleCommand command).1.remaining rest := by
  unfold handleCommand
  rw [parseHello_eq_helloVerdict c short]
  cases state : c.initState with
  | authenticated => simp [remaining, state]
  | waiting =>
      by_cases isHello : command.type = MuxCommand.muxHello
      · by_cases right :
            helloVerdict c.protocolVersion c.expectedAuth command.data = ErrorCode.ok
        · simp [remaining, state, session, isHello, right, buildHelloResponse]
        · simp [remaining, state, session, isHello, right, buildHelloResponse]
      · simp [remaining, state, session, isHello]
  | badInit => simp [remaining, state]
  | closed => simp [remaining, state]

theorem filter_handleCommand (c : Connection) (command : MuxMessage) :
    (c.handleCommand command).2.filter ConnectionOutput.isSession =
      (c.handleCommand command).2 := by
  unfold handleCommand
  dsimp only
  split_ifs <;> rfl

/-- The messages of one read. -/
theorem remaining_append
    {commands : List MuxMessage}
    (short : ∀ command ∈ commands, command.data.length < 65536)
    (rest : List MuxMessage) :
    c.remaining (commands ++ rest) =
      (c.handleCommands commands).2.filter ConnectionOutput.isSession ++
        (c.handleCommands commands).1.remaining rest := by
  induction commands generalizing c with
  | nil => simp
  | cons command commands inductionHypothesis =>
      rw [List.forall_mem_cons] at short
      rw [List.cons_append, remaining_cons short.1, handleCommands_cons,
        inductionHypothesis short.2, List.filter_cons_of_neg (by simp [ConnectionOutput.isSession]),
        List.filter_append, filter_handleCommand, List.append_assoc]

/-! ## Runs -/

/-- The connection goes on: no read fails or is empty, the timer's handler does not find the
time over, and nobody closes the connection. -/
def GoesOn (c : Connection) : ConnectionEvent → Prop
  | .read data => data ≠ []
  | .authTimeout => c.authTimeout ≠ .expired
  | .readError | .close => False
  | .expire | .hangUp => True

instance (c : Connection) : (event : ConnectionEvent) → Decidable (c.GoesOn event)
  | .read _ => inferInstanceAs (Decidable (_ ≠ _))
  | .authTimeout => inferInstanceAs (Decidable (_ ≠ _))
  | .readError | .close => isFalse id
  | .expire | .hangUp => isTrue trivial

/-- Other events of a connection that goes on change neither its session nor its reading. -/
theorem step_goesOn
    {event : ConnectionEvent}
    (goesOn : c.GoesOn event)
    (notRead : event.data = none) :
    (step c event).2 = [] ∧ (step c event).1.reading = c.reading ∧
      (step c event).1.initState = c.initState ∧ (step c event).1.parser = c.parser ∧
      ∀ messages, (step c event).1.remaining messages = c.remaining messages := by
  cases event with
  | read data => cases notRead
  | expire =>
      unfold step
      dsimp only
      split <;> exact ⟨rfl, rfl, rfl, rfl, fun _ => rfl⟩
  | authTimeout =>
      unfold step
      dsimp only
      split
      · rename_i expired
        exact absurd expired goesOn
      · exact ⟨rfl, rfl, rfl, rfl, fun _ => rfl⟩
      all_goals exact ⟨rfl, rfl, rfl, rfl, fun _ => rfl⟩
  | hangUp => exact ⟨rfl, rfl, rfl, rfl, fun _ => rfl⟩
  | readError | close => exact absurd goesOn id

/-- A read of a connection that goes on handles the messages that its data complete. -/
theorem step_read_goesOn
    (reading : c.reading = true)
    {data : ByteVector}
    (present : data ≠ []) :
    ∃ final outputs,
      { c with parser := (c.parser.read data).2 }.handleCommands (c.parser.read data).1 =
        (final, outputs) ∧
      final.parser = (c.parser.read data).2 ∧
      step c (.read data) =
        ({ final with reading := decide (final.initState ≠ .badInit) },
          .received data :: outputs) := by
  have frame := handleCommands_frame { c with parser := (c.parser.read data).2 }
    (c.parser.read data).1
  refine ⟨_, _, rfl, frame.1, ?_⟩
  rw [step, if_pos reading, handleRead, if_pos (List.length_pos_iff.mpr present)]

/-- As long as a connection goes on and reads unless it has refused a hello, it does what is left
of its session. -/
theorem run_remaining
    {events : List ConnectionEvent}
    (reading : c.reading = decide (c.initState ≠ .badInit))
    (goesOn : Machine.Meets step GoesOn c events) :
    (Machine.run step c events).2.filter ConnectionOutput.isSession =
      c.remaining (c.parser.readChunks (events.filterMap ConnectionEvent.data)).1 := by
  induction events generalizing c with
  | nil => cases state : c.initState <;> simp [remaining, state, session, MuxParser.readChunks]
  | cons event rest inductionHypothesis =>
      obtain ⟨now, afterwards⟩ := goesOn
      rw [Machine.run_cons, List.filter_append]
      by_cases isRead : ∃ data, event = .read data
      · obtain ⟨data, rfl⟩ := isRead
        by_cases bad : c.initState = .badInit
        · have idle : step c (.read data) = (c, []) := by simp [step, reading, bad]
          rw [idle] at afterwards ⊢
          rw [inductionHypothesis reading afterwards, remaining_of_badInit bad,
            remaining_of_badInit bad]
          rfl
        · have asked : (ConnectionEvent.read data :: rest).filterMap ConnectionEvent.data =
              data :: rest.filterMap ConnectionEvent.data := rfl
          obtain ⟨final, outputs, handled, parser, result⟩ :=
            step_read_goesOn (c := c) (by simp [reading, bad]) now
          rw [result] at afterwards ⊢
          have more := inductionHypothesis rfl afterwards
          have split := remaining_append (c := { c with parser := (c.parser.read data).2 })
            (c.parser.read_data_length data)
            (final.parser.readChunks (rest.filterMap ConnectionEvent.data)).1
          rw [handled] at split
          rw [more, asked, MuxParser.readChunks]
          dsimp only
          rw [← parser]
          exact split.symm
      · have notRead : event.data = none := by
          cases event <;> first | rfl | exact absurd ⟨_, rfl⟩ isRead
        obtain ⟨silent, sameReading, sameState, sameParser, same⟩ := step_goesOn now notRead
        have more := inductionHypothesis (by rw [sameReading, sameState]; exact reading) afterwards
        rw [silent, more, same, sameParser, List.filterMap_cons_none notRead]
        rfl

/-- As long as a connection goes on, and whatever the reads into which the stream of its client
is divided: the mux answers the first hello of the stream and no other message, with the first
error that the check finds, and takes every message behind a right one for a command. -/
theorem session_of_stream
    (protocolVersion : Byte)
    (expectedAuth : Fin 8 → Byte)
    (events : List ConnectionEvent)
    (goesOn : Machine.Meets step GoesOn (start protocolVersion expectedAuth) events) :
    (observed protocolVersion expectedAuth events).filter ConnectionOutput.isSession =
      session protocolVersion expectedAuth
        (referenceScan (events.filterMap ConnectionEvent.data).flatten) := by
  have scanned := MuxParser.new.readChunks_spec Represents.new MuxParser.referenceScan_new
    (events.filterMap ConnectionEvent.data)
  rw [List.nil_append] at scanned
  rw [observed, run_remaining rfl goesOn, ← scanned]
  rfl

/-- A hello that is divided, has the wrong version and token, and is followed by another one. -/
theorem session_of_stream_example :
    (observed 4 (fun _ => 7)
        [.read [0xa7, 0x40, 0xa0, 0xf5, 0, 12, 0, 0, 1, 3, 7, 7, 7],
          .hangUp, .read [7, 7, 7, 7, 8], .authTimeout,
          .read (MuxMessage.ofPayload MuxCommand.muxHello [4, 7, 7, 7, 7, 7, 7, 7, 7]).serialize]
        ).filter ConnectionOutput.isSession =
      session 4 (fun _ => 7)
        (referenceScan
          ([.read [0xa7, 0x40, 0xa0, 0xf5, 0, 12, 0, 0, 1, 3, 7, 7, 7],
            .hangUp, .read [7, 7, 7, 7, 8], .authTimeout,
            .read (MuxMessage.ofPayload MuxCommand.muxHello
              [4, 7, 7, 7, 7, 7, 7, 7, 7]).serialize].filterMap ConnectionEvent.data).flatten) :=
  session_of_stream 4 (fun _ => 7) _ (by decide +kernel)

end Connection
end SerialMux
