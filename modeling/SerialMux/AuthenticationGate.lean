import SerialMux.Connection
import SerialMux.MuxStream

/-!
# The authentication gate

A connection is registered at the first hello of its stream, if that hello is
right and finds the connection waiting.  Only messages behind it reach the
command queue, and none does once the connection has refused a hello or is
closed.
-/

namespace SerialMux
namespace Connection

/-! ## What an observer sees -/

/-- The chunks that were read. -/
def receivedChunks (outputs : List ConnectionOutput) : List ByteVector :=
  outputs.filterMap fun output =>
    match output with
    | .received data => some data
    | _ => none

/-- The messages that were handled. -/
def handledMessages (outputs : List ConnectionOutput) : List MuxMessage :=
  outputs.filterMap fun output =>
    match output with
    | .handled _ command => some command
    | _ => none

/-- A call that registers the connection or queues a command of it. -/
def isCall : ConnectionOutput → Bool
  | .addClient | .addCommand _ => true
  | _ => false

/-- The calls that register the connection or queue a command of it. -/
def calls (outputs : List ConnectionOutput) : List ConnectionOutput :=
  outputs.filter isCall

@[simp] theorem receivedChunks_append (earlier later : List ConnectionOutput) :
    receivedChunks (earlier ++ later) = receivedChunks earlier ++ receivedChunks later :=
  List.filterMap_append ..

@[simp] theorem handledMessages_append (earlier later : List ConnectionOutput) :
    handledMessages (earlier ++ later) =
      handledMessages earlier ++ handledMessages later :=
  List.filterMap_append ..

@[simp] theorem handledMessages_cons_handled
    (state : InitState)
    (command : MuxMessage)
    (outputs : List ConnectionOutput) :
    handledMessages (.handled state command :: outputs) =
      command :: handledMessages outputs := rfl

@[simp] theorem receivedChunks_cons_handled
    (state : InitState)
    (command : MuxMessage)
    (outputs : List ConnectionOutput) :
    receivedChunks (.handled state command :: outputs) = receivedChunks outputs := rfl

@[simp] theorem calls_append (earlier later : List ConnectionOutput) :
    calls (earlier ++ later) = calls earlier ++ calls later :=
  List.filter_append ..

/-- The gate is shut for good. -/
def Refuses (c : Connection) : Prop :=
  c.initState = .badInit ∨ c.initState = .closed

instance (c : Connection) : Decidable c.Refuses :=
  inferInstanceAs (Decidable (_ ∨ _))

theorem Refuses.not_waiting
    {c : Connection}
    (refuses : c.Refuses) :
    c.initState ≠ .waiting := by
  rcases refuses with state | state <;> rw [state] <;> decide

theorem Refuses.not_authenticated
    {c : Connection}
    (refuses : c.Refuses) :
    c.initState ≠ .authenticated := by
  rcases refuses with state | state <;> rw [state] <;> decide

/-- A hello that is not taken for a command and fails the test. -/
def FailsTest (protocolVersion : Byte) (expectedAuth : Fin 8 → Byte) :
    ConnectionOutput → Prop
  | .handled state hello =>
      hello.type = MuxCommand.muxHello ∧ state ≠ .authenticated ∧
        ¬(state = .waiting ∧ hello.data = helloPayload protocolVersion expectedAuth)
  | _ => False

/-- The first hello was right and found the connection waiting.  It registered the
connection, `behind` was handled later, and `taken` went on to the queue. -/
def Opened (protocolVersion : Byte) (expectedAuth : Fin 8 → Byte)
    (outputs : List ConnectionOutput) (behind taken : List MuxMessage) : Prop :=
  ∃ before hello resp after,
    outputs = before ++ [.handled .waiting hello, .wrote resp, .addClient] ++ after ∧
    (∀ message ∈ handledMessages before, message.type ≠ MuxCommand.muxHello) ∧
    hello.type = MuxCommand.muxHello ∧
    hello.data = helloPayload protocolVersion expectedAuth ∧
    calls before = [] ∧
    handledMessages after = behind ∧
    calls after = taken.map .addCommand

/-- The authentication time is over, or the connection is told to close. -/
def Ends (c : Connection) (event : ConnectionEvent) : Prop :=
  event = .authTimeout ∧ c.authTimeout = .expired ∨ event = .close

/-- The outputs of a run of a new connection. -/
def observed (protocolVersion : Byte) (expectedAuth : Fin 8 → Byte)
    (events : List ConnectionEvent) : List ConnectionOutput :=
  (Machine.run step (start protocolVersion expectedAuth) events).2

/-- What authentication promises of a connection's run: the messages handled are
those of its stream; calls are made only behind a right first hello, the first of
them being the registration; none is made behind a hello that fails the test; and
none after a timeout or a call of `close`. -/
structure AuthenticationGate (protocolVersion : Byte) (expectedAuth : Fin 8 → Byte)
    (events : List ConnectionEvent) : Prop where
  stream : handledMessages (observed protocolVersion expectedAuth events) =
    referenceScan (receivedChunks (observed protocolVersion expectedAuth events)).flatten
  opened : calls (observed protocolVersion expectedAuth events) = [] ∨
    ∃ behind taken, taken <+: behind ∧
      Opened protocolVersion expectedAuth (observed protocolVersion expectedAuth events)
        behind taken
  refused : (observed protocolVersion expectedAuth events).Pairwise fun output later =>
    FailsTest protocolVersion expectedAuth output → ¬isCall later
  ended : ∀ earlier event later c, events = earlier ++ event :: later →
    c = (Machine.run step (start protocolVersion expectedAuth) earlier).1 →
    Ends c event → calls (Machine.run step (step c event).1 later).2 = []

/-! ## One message -/

/-- What happens to one message. -/
theorem handleCommand_cases
    (c : Connection)
    {command : MuxMessage}
    (short : command.data.length < 65536) :
    c.initState = .authenticated ∧ c.handleCommand command = (c, [.addCommand command]) ∨
    (∃ resp next, c.initState = .waiting ∧ command.type = MuxCommand.muxHello ∧
      command.data = helloPayload c.protocolVersion c.expectedAuth ∧
      next.initState = .authenticated ∧ next.protocolVersion = c.protocolVersion ∧
      next.expectedAuth = c.expectedAuth ∧ next.parser = c.parser ∧
      c.handleCommand command = (next, [.wrote resp, .addClient])) ∨
    (∃ resp next, c.initState = .waiting ∧ command.type = MuxCommand.muxHello ∧
      command.data ≠ helloPayload c.protocolVersion c.expectedAuth ∧
      next.initState = .badInit ∧ next.protocolVersion = c.protocolVersion ∧
      next.expectedAuth = c.expectedAuth ∧ next.parser = c.parser ∧
      c.handleCommand command = (next, [.wrote resp])) ∨
    (c.initState = .waiting ∧ command.type ≠ MuxCommand.muxHello ∨ c.Refuses) ∧
      c.handleCommand command = (c, []) := by
  unfold handleCommand
  by_cases authenticated : c.initState = .authenticated
  · exact Or.inl ⟨authenticated, if_pos authenticated⟩
  · rw [if_neg authenticated]
    by_cases hello : c.initState = .waiting ∧ command.type = MuxCommand.muxHello
    · rw [if_pos hello]
      by_cases right : c.parseHello command.data command.size = ErrorCode.ok
      · refine Or.inr (Or.inl ⟨_, _, hello.1, hello.2,
          (parseHello_eq_ok_iff c short).mp right, ?_, ?_, ?_, ?_, if_pos right⟩) <;> rfl
      · have wrong := mt (parseHello_eq_ok_iff c short).mpr right
        refine Or.inr (Or.inr (Or.inl ⟨_, _, hello.1, hello.2, wrong, ?_, ?_, ?_, ?_,
          if_neg right⟩)) <;> rfl
    · rw [if_neg hello]
      refine Or.inr (Or.inr (Or.inr ⟨?_, rfl⟩))
      unfold Refuses
      cases state : c.initState with
      | waiting => exact Or.inl ⟨rfl, fun type => hello ⟨state, type⟩⟩
      | authenticated => exact absurd state authenticated
      | badInit => exact Or.inr (Or.inl rfl)
      | closed => exact Or.inr (Or.inr rfl)

/-- Messages behind the hello that opened the gate. -/
theorem Opened.append
    {protocolVersion : Byte}
    {expectedAuth : Fin 8 → Byte}
    {outputs more : List ConnectionOutput}
    {behind taken queued : List MuxMessage}
    (opened : Opened protocolVersion expectedAuth outputs behind taken)
    (callsMore : calls more = queued.map .addCommand) :
    Opened protocolVersion expectedAuth (outputs ++ more)
      (behind ++ handledMessages more) (taken ++ queued) := by
  obtain ⟨before, hello, resp, after, shape, first, type, data, quiet, handled, queue⟩ := opened
  refine ⟨before, hello, resp, after ++ more, ?_, first, type, data, quiet, ?_, ?_⟩
  · rw [shape, List.append_assoc]
  · rw [handledMessages_append, handled]
  · rw [calls_append, queue, callsMore, List.map_append]

/-! ## The invariant -/

/-- How the state of a connection goes with its outputs. -/
structure Gated (protocolVersion : Byte) (expectedAuth : Fin 8 → Byte) (c : Connection)
    (outputs : List ConnectionOutput) : Prop where
  version : c.protocolVersion = protocolVersion
  token : c.expectedAuth = expectedAuth
  waiting : c.initState = .waiting → calls outputs = [] ∧
    ∀ message ∈ handledMessages outputs, message.type ≠ MuxCommand.muxHello
  authenticated : c.initState = .authenticated →
    ∃ behind, Opened protocolVersion expectedAuth outputs behind behind
  opened : calls outputs = [] ∨ ∃ behind taken, taken <+: behind ∧
    Opened protocolVersion expectedAuth outputs behind taken
  refused : outputs.Pairwise fun output later =>
    FailsTest protocolVersion expectedAuth output → ¬isCall later
  failed : ∀ output ∈ outputs, FailsTest protocolVersion expectedAuth output → c.Refuses

namespace Gated

variable
  {protocolVersion : Byte}
  {expectedAuth : Fin 8 → Byte}
  {c next : Connection}
  {outputs : List ConnectionOutput}

theorem start : Gated protocolVersion expectedAuth (start protocolVersion expectedAuth) [] where
  version := rfl
  token := rfl
  waiting := fun _ => ⟨rfl, by simp [handledMessages]⟩
  authenticated := fun state => by cases state
  opened := Or.inl rfl
  refused := List.Pairwise.nil
  failed := by simp

/-- The state may change to one that refuses. -/
theorem move
    (gated : Gated protocolVersion expectedAuth c outputs)
    (version : next.protocolVersion = c.protocolVersion)
    (token : next.expectedAuth = c.expectedAuth)
    (state : next.initState = c.initState ∨ next.Refuses) :
    Gated protocolVersion expectedAuth next outputs := by
  refine ⟨version.trans gated.version, token.trans gated.token, ?_, ?_, gated.opened,
    gated.refused, ?_⟩
  · intro waits
    rcases state with same | refuses
    · exact gated.waiting (same ▸ waits)
    · exact absurd waits refuses.not_waiting
  · intro accepts
    rcases state with same | refuses
    · exact gated.authenticated (same ▸ accepts)
    · exact absurd accepts refuses.not_authenticated
  · intro output isOutput fails
    rcases state with same | refuses
    · exact (gated.failed output isOutput fails).imp same.trans same.trans
    · exact refuses

/-- Outputs that are neither messages handled nor calls do not matter. -/
theorem silent
    (gated : Gated protocolVersion expectedAuth c outputs)
    {output : ConnectionOutput}
    (noMessage : handledMessages [output] = [])
    (noCall : isCall output = false) :
    Gated protocolVersion expectedAuth c (outputs ++ [output]) := by
  have noCalls : calls [output] = [] := by
    rw [calls, List.filter_cons_of_neg (by rw [noCall]; decide), List.filter_nil]
  have passes : ¬FailsTest protocolVersion expectedAuth output := by
    cases output with
    | handled => simp [handledMessages] at noMessage
    | _ => exact id
  refine ⟨gated.version, gated.token, ?_, ?_, ?_, ?_, ?_⟩
  · rw [calls_append, handledMessages_append, noCalls, noMessage, List.append_nil,
      List.append_nil]
    exact gated.waiting
  · intro accepts
    obtain ⟨behind, opened⟩ := gated.authenticated accepts
    have longer := @Opened.append _ _ _ _ _ _ [] opened noCalls
    rw [noMessage, List.append_nil] at longer
    exact ⟨behind, longer⟩
  · rw [calls_append, noCalls, List.append_nil]
    refine gated.opened.imp id ?_
    rintro ⟨behind, taken, isPrefix, opened⟩
    have longer := @Opened.append _ _ _ _ _ _ [] opened noCalls
    rw [noMessage, List.append_nil, List.append_nil] at longer
    exact ⟨behind, taken, isPrefix, longer⟩
  · refine List.pairwise_append.mpr ⟨gated.refused, List.pairwise_singleton .., ?_⟩
    intro earlier _ later isLater _
    rw [List.mem_singleton.mp isLater, noCall]
    decide
  · intro earlier isOutput fails
    rcases List.mem_append.mp isOutput with old | new
    · exact gated.failed earlier old fails
    · exact absurd (List.mem_singleton.mp new ▸ fails) passes

/-- What is put out later, if the gate is open or nothing of it is a call. -/
theorem refused_append
    (gated : Gated protocolVersion expectedAuth c outputs)
    {more : List ConnectionOutput}
    (allowed : ¬c.Refuses ∨ calls more = [])
    (moreRefused : more.Pairwise fun output later =>
      FailsTest protocolVersion expectedAuth output → ¬isCall later) :
    (outputs ++ more).Pairwise fun output later =>
      FailsTest protocolVersion expectedAuth output → ¬isCall later := by
  refine List.pairwise_append.mpr ⟨gated.refused, moreRefused, ?_⟩
  intro output isOutput later isLater fails
  rcases allowed with accepts | noCalls
  · exact absurd (gated.failed output isOutput fails) accepts
  · exact List.filter_eq_nil_iff.mp noCalls later isLater

theorem failed_append
    (gated : Gated protocolVersion expectedAuth c outputs)
    {more : List ConnectionOutput}
    (stays : c.Refuses → next.Refuses)
    (moreFailed : ∀ output ∈ more, FailsTest protocolVersion expectedAuth output → next.Refuses) :
    ∀ output ∈ outputs ++ more,
      FailsTest protocolVersion expectedAuth output → next.Refuses := by
  intro output isOutput fails
  rcases List.mem_append.mp isOutput with old | new
  · exact stays (gated.failed output old fails)
  · exact moreFailed output new fails

/-- A message of an authenticated connection goes on to the queue. -/
theorem handled_authenticated
    (gated : Gated protocolVersion expectedAuth c outputs)
    (state : c.initState = .authenticated)
    (command : MuxMessage) :
    Gated protocolVersion expectedAuth c
      (outputs ++ [.handled .authenticated command, .addCommand command]) := by
  obtain ⟨behind, opened⟩ := gated.authenticated state
  have longer := @Opened.append _ _ _
    [.handled .authenticated command, .addCommand command] _ _ [command] opened rfl
  have accepts : ¬c.Refuses := fun refuses => refuses.not_authenticated state
  refine ⟨gated.version, gated.token, ?_, fun _ => ⟨_, longer⟩,
    Or.inr ⟨_, _, List.prefix_rfl, longer⟩, ?_, ?_⟩
  · intro waits
    rw [state] at waits
    cases waits
  · exact gated.refused_append (Or.inl accepts) (by simp [FailsTest])
  · exact gated.failed_append id (by simp [FailsTest])

/-- The right hello opens the gate. -/
theorem handled_hello
    (gated : Gated protocolVersion expectedAuth c outputs)
    (state : c.initState = .waiting)
    {hello : MuxMessage}
    (type : hello.type = MuxCommand.muxHello)
    (data : hello.data = helloPayload protocolVersion expectedAuth)
    (resp : MuxOutput)
    (version : next.protocolVersion = c.protocolVersion)
    (token : next.expectedAuth = c.expectedAuth)
    (opens : next.initState = .authenticated) :
    Gated protocolVersion expectedAuth next
      (outputs ++ [.handled .waiting hello, .wrote resp, .addClient]) := by
  obtain ⟨quiet, first⟩ := gated.waiting state
  have opened : Opened protocolVersion expectedAuth
      (outputs ++ [.handled .waiting hello, .wrote resp, .addClient]) [] [] :=
    ⟨outputs, hello, resp, [], (List.append_nil _).symm, first, type, data, quiet, rfl, rfl⟩
  have accepts : ¬c.Refuses := fun refuses => refuses.not_waiting state
  refine ⟨version.trans gated.version, token.trans gated.token, ?_, fun _ => ⟨_, opened⟩,
    Or.inr ⟨_, _, List.prefix_rfl, opened⟩, ?_, ?_⟩
  · intro waits
    rw [opens] at waits
    cases waits
  · exact gated.refused_append (Or.inl accepts) (by simp [FailsTest, data])
  · exact gated.failed_append (fun refuses => absurd refuses accepts)
      (by simp [FailsTest, data])

/-- A wrong hello shuts the gate. -/
theorem handled_wrong
    (gated : Gated protocolVersion expectedAuth c outputs)
    (state : c.initState = .waiting)
    (hello : MuxMessage)
    (resp : MuxOutput)
    (version : next.protocolVersion = c.protocolVersion)
    (token : next.expectedAuth = c.expectedAuth)
    (refuses : next.initState = .badInit) :
    Gated protocolVersion expectedAuth next
      (outputs ++ [.handled .waiting hello, .wrote resp]) := by
  obtain ⟨quiet, -⟩ := gated.waiting state
  refine ⟨version.trans gated.version, token.trans gated.token, ?_, ?_, Or.inl ?_, ?_, ?_⟩
  · intro waits
    rw [refuses] at waits
    cases waits
  · intro accepts
    rw [refuses] at accepts
    cases accepts
  · rw [calls_append, quiet]
    rfl
  · exact gated.refused_append (Or.inr rfl) (by simp [isCall])
  · exact gated.failed_append (fun _ => Or.inl refuses) (fun _ _ _ => Or.inl refuses)

/-- A message is discarded by a connection that waits for a hello or refuses. -/
theorem handled_ignored
    (gated : Gated protocolVersion expectedAuth c outputs)
    {command : MuxMessage}
    (ignores : c.initState = .waiting ∧ command.type ≠ MuxCommand.muxHello ∨ c.Refuses) :
    Gated protocolVersion expectedAuth c (outputs ++ [.handled c.initState command]) := by
  refine ⟨gated.version, gated.token, ?_, ?_, ?_, ?_, ?_⟩
  · intro waits
    obtain ⟨quiet, first⟩ := gated.waiting waits
    have other : command.type ≠ MuxCommand.muxHello := by
      rcases ignores with ⟨-, other⟩ | refuses
      · exact other
      · exact absurd waits refuses.not_waiting
    refine ⟨by rw [calls_append, quiet]; rfl, ?_⟩
    intro message isHandled
    rw [handledMessages_append, List.mem_append] at isHandled
    rcases isHandled with old | new
    · exact first message old
    · rw [List.mem_singleton.mp new]
      exact other
  · intro accepts
    rcases ignores with ⟨waits, -⟩ | refuses
    · rw [accepts] at waits
      cases waits
    · exact absurd accepts refuses.not_authenticated
  · refine gated.opened.imp ?_ ?_
    · intro quiet
      rw [calls_append, quiet]
      rfl
    · rintro ⟨behind, taken, isPrefix, opened⟩
      refine ⟨_, _, ?_, opened.append (show calls _ = List.map _ [] from rfl)⟩
      rw [List.append_nil]
      exact isPrefix.trans (List.prefix_append ..)
  · exact gated.refused_append (Or.inr rfl) (List.pairwise_singleton ..)
  · refine gated.failed_append id ?_
    intro output isOutput fails
    rw [List.mem_singleton.mp isOutput] at fails
    rcases ignores with ⟨-, other⟩ | refuses
    · exact absurd fails.1 other
    · exact refuses

/-- One message that is handled. -/
theorem handleCommand
    (gated : Gated protocolVersion expectedAuth c outputs)
    {command : MuxMessage}
    (short : command.data.length < 65536) :
    Gated protocolVersion expectedAuth (c.handleCommand command).1
      (outputs ++ .handled c.initState command :: (c.handleCommand command).2) := by
  have version := gated.version
  have token := gated.token
  rcases c.handleCommand_cases short with
    ⟨state, result⟩ |
    ⟨resp, opening, state, hello, right, opens, sameVersion, sameToken, -, result⟩ |
    ⟨resp, shut, state, -, -, refuses, sameVersion, sameToken, -, result⟩ |
    ⟨ignores, result⟩
  · rw [result, state]
    exact gated.handled_authenticated state command
  · rw [version, token] at right
    rw [result, state]
    exact gated.handled_hello state hello right resp sameVersion sameToken opens
  · rw [result, state]
    exact gated.handled_wrong state command resp sameVersion sameToken refuses
  · rw [result]
    exact gated.handled_ignored ignores

/-- The messages of one read. -/
theorem handleCommands
    {commands : List MuxMessage}
    (gated : Gated protocolVersion expectedAuth c outputs)
    (short : ∀ command ∈ commands, command.data.length < 65536) :
    Gated protocolVersion expectedAuth (c.handleCommands commands).1
      (outputs ++ (c.handleCommands commands).2) := by
  induction commands generalizing c outputs with
  | nil =>
      rw [handleCommands_nil, List.append_nil]
      exact gated
  | cons command rest inductionHypothesis =>
      rw [List.forall_mem_cons] at short
      have next := inductionHypothesis (gated.handleCommand short.1) short.2
      rw [List.append_assoc, List.cons_append] at next
      rw [handleCommands_cons]
      exact next

end Gated

/-! ## Events and runs -/

/-- Closing throws and leaves an open connection in its state, or closes it. -/
theorem close_cases (c : Connection) :
    (c.socketOpen ∧ c.peerGone ∧
      c.close = ({ c with authTimeout := c.authTimeout.cancel }, false)) ∨
    (¬(c.socketOpen ∧ c.peerGone) ∧
      c.close = ({ c with
        authTimeout := c.authTimeout.cancel
        socketOpen := false
        initState := .closed }, true)) := by
  unfold close Client.close
  by_cases throws : c.socketOpen ∧ c.peerGone
  · exact Or.inl ⟨throws.1, throws.2, by rw [if_pos throws]⟩
  · exact Or.inr ⟨throws, by rw [if_neg throws]⟩

/-- Closing changes neither what a hello is compared with nor the parser. -/
theorem close_frame (c : Connection) :
    c.close.1.protocolVersion = c.protocolVersion ∧
    c.close.1.expectedAuth = c.expectedAuth ∧
    c.close.1.parser = c.parser ∧
    (c.close.1.initState = c.initState ∨ c.close.1.initState = .closed) := by
  rcases c.close_cases with ⟨-, -, result⟩ | ⟨-, result⟩
  · rw [result]
    exact ⟨rfl, rfl, rfl, Or.inl rfl⟩
  · rw [result]
    exact ⟨rfl, rfl, rfl, Or.inr rfl⟩

/-- The timer's handler refuses, whether closing throws or not. -/
theorem handleAuthTimeout_refuses (c : Connection) : (c.handleAuthTimeout false).Refuses :=
  (close_frame { c with initState := .badInit }).2.2.2

/-- What an event other than a read can do. -/
theorem step_other
    (c : Connection)
    {event : ConnectionEvent}
    (notRead : ∀ data, event ≠ .read data) :
    (step c event).1.protocolVersion = c.protocolVersion ∧
    (step c event).1.expectedAuth = c.expectedAuth ∧
    (step c event).1.parser = c.parser ∧
    ((step c event).1.initState = c.initState ∨ (step c event).1.Refuses) ∧
    ((step c event).2 = [] ∨ (step c event).2 = [.removeClient]) := by
  cases event with
  | read data => exact absurd rfl (notRead data)
  | readError =>
      unfold step handleReadError
      split_ifs <;> simp
  | expire =>
      unfold step
      split_ifs <;> simp
  | authTimeout =>
      cases timer : c.authTimeout with
      | expired =>
          obtain ⟨version, token, parser, -⟩ :=
            close_frame { c with authTimeout := .handled, initState := .badInit }
          have refuses := handleAuthTimeout_refuses { c with authTimeout := .handled }
          simp only [step, timer]
          exact ⟨version, token, parser, Or.inr refuses, Or.inl trivial⟩
      | _ => simp [step, timer, handleAuthTimeout]
  | close =>
      obtain ⟨version, token, parser, state⟩ := c.close_frame
      exact ⟨version, token, parser, state.imp id Or.inr, Or.inl rfl⟩
  | hangUp => simp [step]

/-- What a read does, message by message. -/
theorem step_read
    (c : Connection)
    (data : ByteVector) :
    (∃ reading, step c (.read data) = ({ c with reading := reading }, [])) ∨
    ∃ final reading outputs,
      { c with parser := (c.parser.read data).2 }.handleCommands (c.parser.read data).1 =
        (final, outputs) ∧
      step c (.read data) =
        ({ final with reading := reading }, .received data :: outputs) := by
  unfold step
  dsimp only
  split_ifs with reading
  · unfold handleRead
    split_ifs
    · exact Or.inr ⟨_, _, _, rfl, rfl⟩
    · exact Or.inl ⟨false, rfl⟩
  · exact Or.inl ⟨c.reading, rfl⟩

theorem Gated.step
    {protocolVersion : Byte}
    {expectedAuth : Fin 8 → Byte}
    {c : Connection}
    {outputs : List ConnectionOutput}
    (gated : Gated protocolVersion expectedAuth c outputs)
    (event : ConnectionEvent) :
    Gated protocolVersion expectedAuth (Connection.step c event).1
      (outputs ++ (Connection.step c event).2) := by
  by_cases isRead : ∃ data, event = .read data
  · obtain ⟨data, rfl⟩ := isRead
    rcases c.step_read data with ⟨reading, result⟩ | ⟨final, reading, more, handled, result⟩
    · rw [result, List.append_nil]
      exact gated.move rfl rfl (Or.inl rfl)
    · have received : Gated protocolVersion expectedAuth c (outputs ++ [.received data]) :=
        gated.silent rfl rfl
      have parsed : Gated protocolVersion expectedAuth
          { c with parser := (c.parser.read data).2 } (outputs ++ [.received data]) :=
        received.move rfl rfl (Or.inl rfl)
      have done := parsed.handleCommands (c.parser.read_data_length data)
      rw [handled, List.append_assoc, List.singleton_append] at done
      rw [result]
      exact done.move rfl rfl (Or.inl rfl)
  · obtain ⟨version, token, -, state, silent⟩ :=
      c.step_other fun data isData => isRead ⟨data, isData⟩
    have moved := gated.move version token state
    rcases silent with nothing | removal
    · rw [nothing, List.append_nil]
      exact moved
    · rw [removal]
      exact moved.silent rfl rfl

/-- Handling a message neither parses nor handles another one. -/
theorem handleCommand_frame
    (c : Connection)
    (command : MuxMessage) :
    (c.handleCommand command).1.parser = c.parser ∧
      handledMessages (c.handleCommand command).2 = [] ∧
      receivedChunks (c.handleCommand command).2 = [] := by
  unfold handleCommand
  dsimp only
  split_ifs <;> exact ⟨rfl, rfl, rfl⟩

theorem handleCommands_frame
    (c : Connection)
    (commands : List MuxMessage) :
    (c.handleCommands commands).1.parser = c.parser ∧
      handledMessages (c.handleCommands commands).2 = commands ∧
      receivedChunks (c.handleCommands commands).2 = [] := by
  induction commands generalizing c with
  | nil => exact ⟨rfl, rfl, rfl⟩
  | cons command rest inductionHypothesis =>
      obtain ⟨parser, handled, received⟩ := c.handleCommand_frame command
      obtain ⟨parserRest, handledRest, receivedRest⟩ :=
        inductionHypothesis (c.handleCommand command).1
      rw [handleCommands_cons]
      refine ⟨parserRest.trans parser, ?_, ?_⟩
      · rw [handledMessages_cons_handled, handledMessages_append, handled, handledRest,
          List.nil_append]
      · rw [receivedChunks_cons_handled, receivedChunks_append, received, receivedRest,
          List.nil_append]

/-- The messages handled are those that the parser delivers for the bytes received. -/
theorem readChunks_run
    (protocolVersion : Byte)
    (expectedAuth : Fin 8 → Byte)
    (events : List ConnectionEvent) :
    MuxParser.new.readChunks
        (receivedChunks (observed protocolVersion expectedAuth events)) =
      (handledMessages (observed protocolVersion expectedAuth events),
        (Machine.run step (start protocolVersion expectedAuth) events).1.parser) := by
  refine @Machine.invariant_run _ _ _ step (fun _ _ => True)
    (fun c outputs => MuxParser.new.readChunks (receivedChunks outputs) =
      (handledMessages outputs, c.parser)) ?_ _ [] _ rfl (Machine.meets_true _ _)
  intro c outputs event parsed _
  by_cases isRead : ∃ data, event = .read data
  · obtain ⟨data, rfl⟩ := isRead
    rcases c.step_read data with ⟨reading, result⟩ | ⟨final, reading, more, handled, result⟩
    · rw [result, List.append_nil]
      exact parsed
    · obtain ⟨parser, messages, chunks⟩ := handleCommands_frame
        { c with parser := (c.parser.read data).2 } (c.parser.read data).1
      rw [handled] at parser messages chunks
      have received : receivedChunks (.received data :: more) = [data] := by
        change data :: receivedChunks more = _
        rw [chunks]
      have all : handledMessages (.received data :: more) = (c.parser.read data).1 := messages
      rw [result, receivedChunks_append, handledMessages_append, received, all,
        MuxParser.readChunks_append, parsed]
      simp only [MuxParser.readChunks, List.append_nil]
      rw [parser]
  · obtain ⟨-, -, parser, -, silent⟩ :=
      c.step_other fun data isData => isRead ⟨data, isData⟩
    rw [parser]
    rcases silent with nothing | removal
    · rw [nothing, List.append_nil]
      exact parsed
    · rw [removal, receivedChunks_append, handledMessages_append]
      change MuxParser.new.readChunks (_ ++ []) = (_ ++ [], _)
      rw [List.append_nil, List.append_nil]
      exact parsed

/-! ## The gate stays shut -/

theorem handleCommands_refuses
    {c : Connection}
    (refuses : c.Refuses)
    (commands : List MuxMessage) :
    (c.handleCommands commands).1 = c ∧ calls (c.handleCommands commands).2 = [] := by
  induction commands with
  | nil => exact ⟨rfl, rfl⟩
  | cons command rest inductionHypothesis =>
      have discards : c.handleCommand command = (c, []) := by
        unfold handleCommand
        rcases refuses with state | state <;> simp [state]
      rw [handleCommands_cons, discards]
      exact inductionHypothesis

theorem refuses_step
    {c : Connection}
    (refuses : c.Refuses)
    (event : ConnectionEvent) :
    (step c event).1.Refuses ∧ calls (step c event).2 = [] := by
  by_cases isRead : ∃ data, event = .read data
  · obtain ⟨data, rfl⟩ := isRead
    rcases c.step_read data with ⟨reading, result⟩ | ⟨final, reading, more, handled, result⟩
    · rw [result]
      exact ⟨refuses, rfl⟩
    · have kept := @handleCommands_refuses { c with parser := (c.parser.read data).2 }
        refuses (c.parser.read data).1
      rw [handled] at kept
      obtain ⟨same, quiet⟩ := kept
      dsimp only at same
      subst same
      rw [result]
      exact ⟨refuses, quiet⟩
  · obtain ⟨-, -, -, state, silent⟩ :=
      c.step_other fun data isData => isRead ⟨data, isData⟩
    constructor
    · rcases state with same | shut
      · exact refuses.imp same.trans same.trans
      · exact shut
    · rcases silent with nothing | removal
      · rw [nothing]
        rfl
      · rw [removal]
        rfl

/-- A connection that refuses makes no more calls. -/
theorem refuses_run
    {c : Connection}
    (refuses : c.Refuses)
    (events : List ConnectionEvent) :
    calls (Machine.run step c events).2 = [] := by
  refine (@Machine.invariant_run _ _ _ step (fun _ _ => True)
    (fun c outputs => c.Refuses ∧ calls outputs = []) ?_ _ [] _ ⟨refuses, rfl⟩
    (Machine.meets_true _ events)).2
  rintro c outputs event ⟨refuses, quiet⟩ _
  obtain ⟨stays, silent⟩ := refuses_step refuses event
  exact ⟨stays, by rw [calls_append, quiet, silent]; rfl⟩

/-! ## The gate -/

/-- A call of `close` can shut the socket down, or is not needed any more. -/
def CanClose (c : Connection) (event : ConnectionEvent) : Prop :=
  event = .close → ¬(c.socketOpen ∧ c.peerGone) ∨ c.Refuses

instance (c : Connection) (event : ConnectionEvent) : Decidable (c.CanClose event) :=
  inferInstanceAs (Decidable (_ → _))

/-- Behind a timeout or a call of `close` the gate is shut. -/
theorem refuses_of_ends
    {c : Connection}
    {event : ConnectionEvent}
    (canClose : c.CanClose event)
    (ends : Ends c event) :
    (step c event).1.Refuses := by
  rcases ends with ⟨rfl, expired⟩ | rfl
  · simp only [step, expired]
    exact handleAuthTimeout_refuses _
  · rcases c.close_cases with ⟨isOpen, gone, result⟩ | ⟨-, result⟩
    · have refuses := (canClose rfl).resolve_left (not_not.mpr ⟨isOpen, gone⟩)
      simp only [step, result]
      exact refuses
    · simp only [step, result]
      exact Or.inr rfl

/-- The gate holds in every run in which closing does not throw while it is open. -/
theorem authenticationGate_of_canClose
    (protocolVersion : Byte)
    (expectedAuth : Fin 8 → Byte)
    (events : List ConnectionEvent)
    (canClose : Machine.Meets step CanClose (start protocolVersion expectedAuth) events) :
    AuthenticationGate protocolVersion expectedAuth events := by
  have gated : Gated protocolVersion expectedAuth
      (Machine.run step (start protocolVersion expectedAuth) events).1
      (observed protocolVersion expectedAuth events) :=
    @Machine.invariant_run _ _ _ step (fun _ _ => True)
      (fun c outputs => Gated protocolVersion expectedAuth c outputs)
      (fun _ _ event gated _ => gated.step event) _ [] _ Gated.start
      (Machine.meets_true _ events)
  refine ⟨?_, gated.opened, gated.refused, ?_⟩
  · have delivered := MuxParser.new.readChunks_spec Represents.new MuxParser.referenceScan_new
      (receivedChunks (observed protocolVersion expectedAuth events))
    rw [readChunks_run, List.nil_append] at delivered
    exact delivered
  · rintro earlier event later c rfl rfl ends
    have now := (Machine.meets_append.mp canClose).2.1
    exact refuses_run (refuses_of_ends now ends) later

/-- A hello and a command in one chunk, the timer's end, and a call of `close`. -/
theorem authenticationGate_example :
    AuthenticationGate 4 (fun _ => 7)
      [.read ((MuxMessage.ofPayload MuxCommand.muxHello [4, 7, 7, 7, 7, 7, 7, 7, 7]).serialize ++
        (subscribeTo 32).serialize), .authTimeout, .close, .readError] :=
  authenticationGate_of_canClose 4 (fun _ => 7) _ (by decide +kernel)

/-- A shutdown that throws leaves the gate open: a chunk read after the call of `close`
goes on to the queue. -/
theorem failed_close_leaves_gate_open :
    ¬AuthenticationGate 4 (fun _ => 7)
      [.read (MuxMessage.ofPayload MuxCommand.muxHello [4, 7, 7, 7, 7, 7, 7, 7, 7]).serialize,
        .hangUp, .close, .read (subscribeTo 32).serialize] := by
  intro gate
  have silent := gate.ended
    [.read (MuxMessage.ofPayload MuxCommand.muxHello [4, 7, 7, 7, 7, 7, 7, 7, 7]).serialize,
      .hangUp] .close [.read (subscribeTo 32).serialize] _ rfl rfl (Or.inr rfl)
  revert silent
  decide +kernel

end Connection
end SerialMux
