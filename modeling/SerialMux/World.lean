import SerialMux.Delivery

/-!
# The mux and Picard

`World` adds Picard's side to the process: the requests it has received, and how
far it has answered them.  Picard answers a request by its type and number, in
the order in which the requests came, as often and as late as it likes; an
answer arrives when the Picard thread reads.  Other frames of Picard, a second
HELLO_RESPONSE among them, arrive in between.
-/

namespace SerialMux

/-- A request frame that Picard has received.  `owner` numbers the command that
it transmits among the commands accepted. -/
structure Request where
  owner : Nat
  type : Byte
  seqNo : Byte
  payload : ByteVector
  deriving DecidableEq, Repr

/-- The request in a frame that `sendCommand` writes. -/
def Request.ofFrame (owner : Nat) : ByteVector → Request
  | _ :: type :: seqNo :: _ :: payload =>
      { owner := owner, type := type, seqNo := seqNo, payload := payload }
  | _ => { owner := owner, type := 0, seqNo := 0, payload := [] }

/-- The frame with which Picard answers a request. -/
def Request.answerFrame (request : Request) (respCode : Byte) (payload : ByteVector) :
    ByteVector :=
  3 :: request.type :: request.seqNo :: BitVec.ofNat 8 (payload.length + 1) :: respCode ::
    payload

/-- The process and Picard.  `taken` counts the commands accepted, `answered` is
the position behind the request answered last, and `filter` is Picard's filter. -/
structure World extends Process where
  taken : Nat := 0
  received : List Request := []
  answered : Nat := 0
  filter : SubscriptionParams := {}

/-- A step of the process that is no frame, an answer to the request at a
position, or a frame of Picard that is no response. -/
inductive WorldAction
  | process (action : Action)
  | answer (index : Nat) (respCode : Byte) (payload : ByteVector)
  | announce (frame : ByteVector)
  deriving DecidableEq, Repr

namespace World

/-- What an output of the process changes at Picard. -/
def observe (w : World) : Output → World
  | .accepted _ => { w with taken := w.taken + 1 }
  | .sent frame => { w with received := w.received ++ [Request.ofFrame w.taken frame] }
  | .concluded _ | .response _ _ _ | .notified _ _ | .acked _ | .reset _ => w

/-- The world after a step of the process. -/
def advance (w : World) (result : Process × List Output) : World :=
  result.2.foldl observe { w with toProcess := result.1 }

/-- Picard's filter after it has answered a request. -/
def filterAfter (w : World) (request : Request) (respCode : Byte) : SubscriptionParams :=
  if request.type = Command.subscribe ∧ respCode = ErrorCode.ok then
    (vectorToFilter request.payload).getD w.filter
  else w.filter

/-- Whether the Picard thread can read a frame. -/
def reads (w : World) : Bool :=
  w.mux.picard == .reading && !w.mux.hasCrashed

/-- One step of the process or of Picard. -/
def step (retries : Int) (w : World) : WorldAction → World × List Output
  | .process action =>
      match action with
      | .receive _ => (w, [])
      | action =>
          (w.advance (w.toProcess.step retries action), (w.toProcess.step retries action).2)
  | .answer index respCode payload =>
      match w.received[index]? with
      | some request =>
          if w.reads ∧ w.answered ≤ index + 1 ∧ payload.length ≤ 254 then
            let answer := Action.receive (request.answerFrame respCode payload)
            ({ w.advance (w.toProcess.step retries answer) with
                answered := index + 1
                filter := w.filterAfter request respCode },
              (w.toProcess.step retries answer).2)
          else (w, [])
      | none => (w, [])
  | .announce frame =>
      if frame[1]?.all (· ≤ Command.notification) then
        (w.advance (w.toProcess.step retries (.receive frame)),
          (w.toProcess.step retries (.receive frame)).2)
      else (w, [])

/-- The world when the threads of the process are started. -/
def start (io : BasePicard) (protocolVersion : Byte) : World where
  toProcess := Process.start io protocolVersion

/-! ## What outputs and answers change -/

theorem foldl_observe_silent
    {outputs : List Output}
    (silent : ∀ output ∈ outputs, output.isSilent)
    (w : World) :
    outputs.foldl observe w = w := by
  induction outputs with
  | nil => rfl
  | cons output rest inductionHypothesis =>
      have first : w.observe output = w := by
        have isSilent := silent output List.mem_cons_self
        cases output <;> first | rfl | cases isSilent
      rw [List.foldl_cons, first]
      exact inductionHypothesis fun other mem => silent other (List.mem_cons_of_mem _ mem)

theorem foldl_observe_toProcess (outputs : List Output) (w : World) :
    (outputs.foldl observe w).toProcess = w.toProcess := by
  induction outputs generalizing w with
  | nil => rfl
  | cons output rest inductionHypothesis =>
      rw [List.foldl_cons, inductionHypothesis]
      cases output <;> rfl

@[simp] theorem advance_toProcess (w : World) (result : Process × List Output) :
    (w.advance result).toProcess = result.1 :=
  foldl_observe_toProcess result.2 _

/-- A step without such outputs changes only the process. -/
theorem advance_silent
    {w : World}
    {result : Process × List Output}
    (silent : ∀ output ∈ result.2, output.isSilent) :
    w.advance result = { w with toProcess := result.1 } :=
  foldl_observe_silent silent _

/-- What an answer does to the process: the number moves, and the Picard thread
validates the response if a handler is registered. -/
theorem step_answerFrame
    {w : World}
    (reads : w.reads)
    {request : Request}
    (inRange : Command.notification < request.type)
    {payload : ByteVector}
    (short : payload.length ≤ 254)
    (retries : Int)
    (respCode : Byte) :
    w.toProcess.step retries (.receive (request.answerFrame respCode payload)) =
      ({ w.toProcess with
          mux := { w.mux with
            io := { w.mux.io with seqNo := request.seqNo + 1 }
            picard :=
              if w.mux.io.callback then
                .validating
                  { cmdType := request.type, seqNo := request.seqNo, respCode := respCode,
                    payload := payload }
              else .reading } }, []) := by
  simp only [World.reads, Bool.and_eq_true, beq_iff_eq, Bool.not_eq_true'] at reads
  let response : Response :=
    { cmdType := request.type, seqNo := request.seqNo, respCode := respCode, payload := payload }
  exact @Process.step_frame response _ (by simp [reads.2]) reads.1 inRange short retries

theorem step_sound
    {w : World}
    (action : WorldAction)
    (sound : w.toProcess.Sound)
    (retries : Int) :
    (w.step retries action).1.toProcess.Sound := by
  cases action with
  | process action =>
      cases action with
      | receive frame => exact sound
      | _ => exact advance_toProcess w _ ▸ Process.step_sound _ sound
  | answer index respCode payload =>
      unfold step
      dsimp only
      split
      · split
        · exact advance_toProcess w _ ▸ Process.step_sound _ sound
        · exact sound
      · exact sound
  | announce frame =>
      unfold step
      dsimp only
      split
      · exact advance_toProcess w _ ▸ Process.step_sound _ sound
      · exact sound

/-- Apart from the command thread, a step of the process that is no frame changes
only the process. -/
theorem step_process
    {action : Action}
    (notLoop : action ≠ .loop)
    (notReceive : ∀ frame, action ≠ .receive frame)
    (retries : Int)
    (w : World) :
    (w.step retries (.process action)).1 =
      { w with toProcess := (w.toProcess.step retries action).1 } := by
  have next : (w.step retries (.process action)).1 =
      w.advance (w.toProcess.step retries action) := by
    cases action <;> first | rfl | exact absurd rfl (notReceive _)
  rw [next]
  apply advance_silent
  by_cases complete : action = .complete
  · subst complete
    by_cases crashed : w.mux.hasCrashed
    · rw [Process.step_of_crashed crashed]
      simp
    · rw [Process.step_complete crashed]
      have statement := Process.completeStep_statement w.toProcess
      generalize w.toProcess.completeStep = result at statement ⊢
      cases statement with
      | writes => exact Mux.sendResponse_silent _ _ _
      | _ => simp
  · rw [(Process.step_sameThreads notLoop complete notReceive).2]
    simp

/-- A frame that is no response only leads to outputs that do not concern a command. -/
theorem receive_silent
    (retries : Int)
    (p : Process)
    (frame : ByteVector) :
    ∀ output ∈ (p.step retries (.receive frame)).2, output.isSilent :=
  fun output mem =>
    Output.silent_of_passive (Process.step_receive_passive retries p frame output mem)

/-- A frame that is no response does not call `commandComplete`. -/
theorem step_announce_picard
    {frame : ByteVector}
    (announces : frame[1]?.all (· ≤ Command.notification))
    (retries : Int)
    (p : Process) :
    (p.step retries (.receive frame)).1.mux.picard = p.mux.picard ∨
      (p.step retries (.receive frame)).1.mux.picard = .stopped ∨
      (p.step retries (.receive frame)).1.mux.picard = .crashed := by
  by_cases crashed : p.mux.hasCrashed
  · rw [Process.step_of_crashed crashed]
    exact Or.inl rfl
  · rw [Process.step_receive crashed]
    rcases @Process.receive_cases retries p frame with waits | handled
    · rw [waits]
      exact Or.inl rfl
    · rw [handled, Process.outerStep, Mux.step, if_neg crashed]
      rcases Mux.receive_cases p.mux frame with ⟨response, -, inRange, shape, -⟩ | moved
      · rw [shape] at announces
        simp only [List.getElem?_cons_succ, List.getElem?_cons_zero, Option.all_some,
          decide_eq_true_eq] at announces
        exact absurd inRange (BitVec.not_lt.mpr announces)
      · exact moved

/-- Only a HELLO_RESPONSE moves the number among these frames. -/
theorem step_announce_seqNo
    {frame : ByteVector}
    (announces : frame[1]?.all (· ≤ Command.notification))
    (notHello : frame[1]? ≠ some Command.helloResponse)
    (retries : Int)
    (p : Process) :
    (p.step retries (.receive frame)).1.mux.io.seqNo = p.mux.io.seqNo := by
  by_cases crashed : p.mux.hasCrashed
  · rw [Process.step_of_crashed crashed]
  rw [Process.step_receive crashed]
  rcases @Process.receive_cases retries p frame with waits | handled
  · rw [waits]
  rw [handled, Process.outerStep, Mux.step, if_neg crashed]
  simp only [Mux.perform, Mux.receive]
  split
  · rw [Mux.handleEvents_seqNo]
    exact BasePicard.frameComplete_seqNo announces notHello p.mux.io
  · rfl

end World

end SerialMux
