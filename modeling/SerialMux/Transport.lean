import SerialMux.Acknowledgement
import SerialMux.SerialRead

/-!
# The serial line and UDP

`CPicardBoost_Serial` and `CPicardBoost_UDP` carry the frames of one `CBasePicardIO`: the one
as packets in a stream of bytes, of which every read returns some, the other as datagrams
behind a dummy byte.  The Picard thread reads, and the client thread writes at any time.  A
packet is written in one piece here: no lock keeps two calls of `asio::write` apart, and what
they write to the line at the same time may mix.
-/

namespace SerialMux

/-- What a port does: bytes that it gives to the parser, what it writes to the line, and the
calls of `frameComplete`. -/
inductive PortOutput (Wire : Type)
  | fed (bytes : ByteVector)
  | wrote (data : Wire)
  | called (event : PicardEvent)
  deriving DecidableEq, Repr

namespace PortOutput

variable {Wire : Type}

/-- An event, where `sendRaw` puts its data on the wire. -/
def ofEvent (sendRaw : ByteVector → Wire) : PicardEvent → PortOutput Wire
  | .sendRaw data => .wrote (sendRaw data)
  | .handleNotif notifType payload => .called (.handleNotif notifType payload)
  | .commandComplete response => .called (.commandComplete response)
  | .notifyConnect => .called .notifyConnect
  | .resetConnection => .called .resetConnection

def fedBytes : PortOutput Wire → ByteVector
  | .fed bytes => bytes
  | .wrote _ | .called _ => []

def written : PortOutput Wire → Option Wire
  | .wrote data => some data
  | .fed _ | .called _ => none

def call : PortOutput Wire → Option PicardEvent
  | .called event => some event
  | .fed _ | .wrote _ => none

end PortOutput

/-! ## The serial port -/

/-- A step of the read loop, or data that the client thread sends. -/
inductive SerialAction
  | read (action : ReadAction)
  | send (data : ByteVector)
  deriving DecidableEq, Repr

namespace SerialAction

def reading : SerialAction → Option ReadAction
  | .read action => some action
  | .send _ => none

/-- The data that is sent. -/
def sent : SerialAction → Option ByteVector
  | .read _ => none
  | .send data => some data

@[simp] theorem filterMap_reading_read (action : ReadAction) (rest : List SerialAction) :
    (.read action :: rest).filterMap reading = action :: rest.filterMap reading := rfl

end SerialAction

/-- `CPicardBoost_Serial` with its base class. -/
structure PicardSerial where
  reader : SerialReader := {}
  io : BasePicard

namespace PicardSerial

/-- One step: the parser gives its packets to `frameComplete`. -/
def step (serial : PicardSerial) : SerialAction → PicardSerial × List (PortOutput ByteVector)
  | .read action =>
      let (reader, outputs) := serial.reader.step action
      let (io, events) := serial.io.frames (outputs.flatMap ReadOutput.packets)
      ({ reader := reader, io := io },
        .fed (outputs.flatMap ReadOutput.fedBytes) ::
          events.flatten.map (PortOutput.ofEvent sendRaw))
  | .send data => (serial, [.wrote (sendRaw data)])

end PicardSerial

/-! ## UDP -/

/-- A datagram that `receive_from` returns with its sender, or data that the client thread
sends. -/
inductive UdpAction (Endpoint : Type)
  | receive (sender : Endpoint) (datagram : ByteVector)
  | send (data : ByteVector)
  deriving DecidableEq, Repr

def UdpAction.received {Endpoint : Type} : UdpAction Endpoint → Option ByteVector
  | .receive _ datagram => some datagram
  | .send _ => none

def UdpAction.sent {Endpoint : Type} : UdpAction Endpoint → Option ByteVector
  | .receive _ _ => none
  | .send data => some data

/-- `CPicardBoost_UDP` with its base class. -/
structure PicardUdp (Endpoint : Type) where
  endpoint : Endpoint
  io : BasePicard
  deriving DecidableEq, Repr

namespace PicardUdp

variable {Endpoint : Type}

/-- The datagram of `sendRaw`: a dummy byte and the data. -/
def sendRaw (data : ByteVector) : ByteVector := 0 :: data

/-- One step of `read` or `sendRaw`.  A read replaces the endpoint by the sender, cuts the
datagram to the size of the buffer and strips its first byte; without one it throws, and the
exception is caught. -/
def step (udp : PicardUdp Endpoint) :
    UdpAction Endpoint → PicardUdp Endpoint × List (PortOutput (Endpoint × ByteVector))
  | .receive sender datagram =>
      match datagram.take inputBufferLen with
      | [] => ({ udp with endpoint := sender }, [])
      | _ :: input =>
          let (io, events) := udp.io.frameComplete input
          ({ endpoint := sender, io := io },
            events.map (PortOutput.ofEvent fun data => (sender, sendRaw data)))
  | .send data => (udp, [.wrote (udp.endpoint, sendRaw data)])

end PicardUdp

/-! ## One frame -/

/-- A frame of more than 259 bytes is ignored. -/
theorem BasePicard.frameComplete_oversized
    (io : BasePicard)
    {frame : ByteVector}
    (oversized : 259 < frame.length) :
    io.frameComplete frame = (io, []) := by
  unfold frameComplete
  split
  · rename_i control type seqNo len payload
    have bound : len.toNat < 256 := len.isLt
    have different : len.toNat ≠ payload.length := by
      simp only [List.length_cons] at oversized
      omega
    rw [if_pos (Or.inr different)]
  · rfl

/-- What the buffer cuts off a frame makes no difference. -/
theorem BasePicard.frameComplete_take
    (io : BasePicard)
    {size : Nat}
    (large : 259 < size)
    (frame : ByteVector) :
    io.frameComplete (frame.take size) = io.frameComplete frame := by
  by_cases fits : frame.length ≤ size
  · rw [List.take_of_length_le fits]
  · rw [io.frameComplete_oversized, io.frameComplete_oversized]
    · omega
    · rw [List.length_take]
      omega

namespace PicardUdp

variable {Endpoint : Type}

/-- The datagram of a frame is handled as the frame. -/
theorem step_receive
    (udp : PicardUdp Endpoint)
    (sender : Endpoint)
    (frame : ByteVector) :
    udp.step (.receive sender (sendRaw frame)) =
      ({ endpoint := sender, io := (udp.io.frameComplete frame).1 },
        (udp.io.frameComplete frame).2.map
          (PortOutput.ofEvent fun data => (sender, sendRaw data))) := by
  have cut : (sendRaw frame).take inputBufferLen = 0 :: frame.take 1023 := rfl
  simp only [step, cut]
  rw [udp.io.frameComplete_take (by decide)]

/-- Datagrams of one peer are handled as their frames. -/
theorem run_receive
    (endpoint : Endpoint)
    (io : BasePicard)
    (frames : List ByteVector) :
    Machine.run step { endpoint := endpoint, io := io }
        (frames.map fun frame => .receive endpoint (sendRaw frame)) =
      ({ endpoint := endpoint, io := (io.frames frames).1 },
        (io.frames frames).2.flatten.map
          (PortOutput.ofEvent fun data => (endpoint, sendRaw data))) := by
  induction frames generalizing io with
  | nil => rfl
  | cons frame rest inductionHypothesis =>
      rw [List.map_cons, Machine.run_cons, step_receive, inductionHypothesis]
      simp [BasePicard.frames]

end PicardUdp

/-! ## Corresponding outputs -/

/-- The same events, and the same frames on the wire: packets here, and datagrams to the
endpoint there. -/
structure Corresponds
    {Endpoint : Type}
    (endpoint : Endpoint)
    (serial : List (PortOutput ByteVector))
    (udp : List (PortOutput (Endpoint × ByteVector))) : Prop where
  events : udp.filterMap PortOutput.call = serial.filterMap PortOutput.call
  frames : ∃ frames : List ByteVector, (∀ frame ∈ frames, frame ≠ []) ∧
    serial.filterMap PortOutput.written = frames.map PicardSerial.sendRaw ∧
    udp.filterMap PortOutput.written =
      frames.map fun frame => (endpoint, PicardUdp.sendRaw frame)

namespace Corresponds

variable {Endpoint : Type} {endpoint : Endpoint}

theorem append
    {serial more : List (PortOutput ByteVector)}
    {udp further : List (PortOutput (Endpoint × ByteVector))}
    (first : Corresponds endpoint serial udp)
    (second : Corresponds endpoint more further) :
    Corresponds endpoint (serial ++ more) (udp ++ further) := by
  obtain ⟨frames, nonempty, packets, datagrams⟩ := first.frames
  obtain ⟨others, present, morePackets, moreDatagrams⟩ := second.frames
  constructor
  · rw [List.filterMap_append, List.filterMap_append, first.events, second.events]
  · refine ⟨frames ++ others, List.forall_mem_append.mpr ⟨nonempty, present⟩, ?_, ?_⟩
    · rw [List.filterMap_append, packets, morePackets, List.map_append]
    · rw [List.filterMap_append, datagrams, moreDatagrams, List.map_append]

/-- Bytes that are given to the parser are neither written nor an event. -/
theorem fed
    {serial : List (PortOutput ByteVector)}
    {udp : List (PortOutput (Endpoint × ByteVector))}
    (bytes : ByteVector)
    (corresponds : Corresponds endpoint serial udp) :
    Corresponds endpoint (.fed bytes :: serial) udp :=
  ⟨corresponds.events.trans (List.filterMap_cons_none rfl).symm, by
    have skipped : (.fed bytes :: serial).filterMap PortOutput.written =
        serial.filterMap PortOutput.written := rfl
    rw [skipped]
    exact corresponds.frames⟩

/-- Data that is sent. -/
theorem sent
    {data : ByteVector}
    (nonempty : data ≠ []) :
    Corresponds endpoint [.wrote (PicardSerial.sendRaw data)]
      [.wrote (endpoint, PicardUdp.sendRaw data)] :=
  ⟨rfl, [data], by simpa using nonempty, rfl, rfl⟩

/-- Events of which those that send have something to send. -/
theorem ofEvents
    {events : List PicardEvent}
    (nonempty : ∀ data, .sendRaw data ∈ events → data ≠ []) :
    Corresponds endpoint (events.map (PortOutput.ofEvent PicardSerial.sendRaw))
      (events.map (PortOutput.ofEvent fun data => (endpoint, PicardUdp.sendRaw data))) := by
  induction events with
  | nil => exact ⟨rfl, [], by simp, rfl, rfl⟩
  | cons event rest inductionHypothesis =>
      have remaining := inductionHypothesis fun data mem => nonempty data (.tail _ mem)
      rw [List.map_cons, List.map_cons]
      cases event with
      | sendRaw data =>
          exact (sent (nonempty data List.mem_cons_self)).append remaining
      | handleNotif _ _ | commandComplete _ | notifyConnect | resetConnection =>
          exact (⟨rfl, [], by simp, rfl, rfl⟩ : Corresponds endpoint [_] [_]).append remaining

end Corresponds

/-- All that `frameComplete` sends are acknowledgements. -/
theorem BasePicard.nonempty_of_frameComplete_sends
    {io : BasePicard}
    {frame data : ByteVector}
    (sends : .sendRaw data ∈ (io.frameComplete frame).2) :
    data ≠ [] := by
  obtain ⟨rest, events, silent⟩ := io.frameComplete_acknowledges frame
  rw [events, List.mem_append, or_iff_left (silent data), Option.mem_toList] at sends
  obtain ⟨_, asked, same⟩ := Option.map_eq_some_iff.mp sends
  cases same
  exact ne_nil_of_acknowledgement asked

theorem BasePicard.nonempty_of_frames_sends
    {io : BasePicard}
    {received : List ByteVector}
    {data : ByteVector}
    (sends : .sendRaw data ∈ (io.frames received).2.flatten) :
    data ≠ [] := by
  induction received generalizing io with
  | nil => cases sends
  | cons frame rest inductionHypothesis =>
      rw [frames, List.flatten_cons, List.mem_append] at sends
      rcases sends with now | later
      · exact nonempty_of_frameComplete_sends now
      · exact inductionHypothesis later

/-! ## The same run over UDP -/

namespace PicardSerial

variable {Endpoint : Type}

/-- The packets of a run and the data that it sends as datagrams, in the same order. -/
def datagrams (endpoint : Endpoint) (serial : PicardSerial) :
    List SerialAction → List (UdpAction Endpoint)
  | [] => []
  | .read action :: rest =>
      ((serial.reader.step action).2.flatMap ReadOutput.packets).map
          (fun frame => .receive endpoint (PicardUdp.sendRaw frame)) ++
        datagrams endpoint (serial.step (.read action)).1 rest
  | .send data :: rest =>
      .send data :: datagrams endpoint (serial.step (.send data)).1 rest

/-- Over UDP the run goes through the same states. -/
theorem run_datagrams
    (endpoint : Endpoint)
    (serial : PicardSerial)
    {actions : List SerialAction}
    (nonempty : ∀ data, .send data ∈ actions → data ≠ []) :
    (Machine.run PicardUdp.step { endpoint := endpoint, io := serial.io }
        (serial.datagrams endpoint actions)).1 =
      { endpoint := endpoint, io := (Machine.run step serial actions).1.io } ∧
      Corresponds endpoint (Machine.run step serial actions).2
        (Machine.run PicardUdp.step { endpoint := endpoint, io := serial.io }
          (serial.datagrams endpoint actions)).2 := by
  induction actions generalizing serial with
  | nil => exact ⟨rfl, rfl, [], by simp, rfl, rfl⟩
  | cons action rest inductionHypothesis =>
      have remaining (next : PicardSerial) :=
        inductionHypothesis next fun data mem => nonempty data (.tail _ mem)
      cases action with
      | read action =>
          obtain ⟨state, outputs⟩ := remaining (serial.step (.read action)).1
          rw [datagrams, Machine.run_append, Machine.run_cons, PicardUdp.run_receive]
          exact ⟨state, ((Corresponds.ofEvents
            fun _ => BasePicard.nonempty_of_frames_sends).fed _).append outputs⟩
      | send data =>
          obtain ⟨state, outputs⟩ := remaining (serial.step (.send data)).1
          rw [datagrams, Machine.run_cons, Machine.run_cons]
          exact ⟨state, (Corresponds.sent (nonempty data List.mem_cons_self)).append outputs⟩

/-- The datagrams that are received carry the packets of the read loop. -/
theorem datagrams_received
    (endpoint : Endpoint)
    (serial : PicardSerial)
    (actions : List SerialAction) :
    (serial.datagrams endpoint actions).filterMap UdpAction.received =
      ((Machine.run SerialReader.step serial.reader
        (actions.filterMap SerialAction.reading)).2.flatMap ReadOutput.packets).map
          PicardUdp.sendRaw := by
  induction actions generalizing serial with
  | nil => rfl
  | cons action rest inductionHypothesis =>
      cases action with
      | read action =>
          rw [datagrams, List.filterMap_append, inductionHypothesis, List.filterMap_map,
            SerialAction.filterMap_reading_read, Machine.run_cons]
          dsimp only
          rw [List.flatMap_append, List.map_append]
          congr 1
          exact congrFun List.filterMap_eq_map' _
      | send data =>
          exact inductionHypothesis _

/-- The same data is sent. -/
theorem datagrams_sent
    (endpoint : Endpoint)
    (serial : PicardSerial)
    (actions : List SerialAction) :
    (serial.datagrams endpoint actions).filterMap UdpAction.sent =
      actions.filterMap SerialAction.sent := by
  induction actions generalizing serial with
  | nil => rfl
  | cons action rest inductionHypothesis =>
      cases action with
      | read action =>
          have none (frames : List ByteVector) :
              (frames.map fun frame => UdpAction.receive endpoint
                (PicardUdp.sendRaw frame)).filterMap UdpAction.sent = [] := by
            simp [List.filterMap_map, Function.comp_def, UdpAction.sent]
          rw [datagrams, List.filterMap_append, none, inductionHypothesis]
          rfl
      | send data => exact congrArg (data :: ·) (inductionHypothesis _)

/-- The parser is given the bytes that the read loop gives to it alone. -/
theorem run_reader (serial : PicardSerial) (actions : List SerialAction) :
    (Machine.run step serial actions).2.flatMap PortOutput.fedBytes =
      (Machine.run SerialReader.step serial.reader
        (actions.filterMap SerialAction.reading)).2.flatMap ReadOutput.fedBytes := by
  induction actions generalizing serial with
  | nil => rfl
  | cons action rest inductionHypothesis =>
      have bytes := inductionHypothesis (serial.step action).1
      cases action with
      | read action =>
          have silent (events : List PicardEvent) :
              (events.map (PortOutput.ofEvent sendRaw)).flatMap PortOutput.fedBytes = [] := by
            rw [List.flatMap_eq_nil_iff]
            intro output mem
            obtain ⟨event, -, rfl⟩ := List.mem_map.mp mem
            cases event <;> rfl
          rw [Machine.run_cons, SerialAction.filterMap_reading_read, Machine.run_cons]
          dsimp only
          rw [List.flatMap_append, List.flatMap_append, bytes]
          congr 1
          simp only [step, List.flatMap_cons, silent, List.append_nil]
          rfl
      | send data => exact bytes

theorem datagrams_append
    (endpoint : Endpoint)
    (serial : PicardSerial)
    (earlier later : List SerialAction) :
    serial.datagrams endpoint (earlier ++ later) =
      serial.datagrams endpoint earlier ++
        (Machine.run step serial earlier).1.datagrams endpoint later := by
  induction earlier generalizing serial with
  | nil => rfl
  | cons action rest inductionHypothesis =>
      cases action with
      | read action =>
          rw [List.cons_append, datagrams, datagrams, inductionHypothesis, List.append_assoc]
          rfl
      | send data =>
          rw [List.cons_append, datagrams, datagrams, inductionHypothesis]
          rfl

/-- A run of the serial port and one of the UDP port come to the same state, with the same
events, and what the one wrote to the line decodes to what the other sent as datagrams. -/
structure Refines
    (endpoint : Endpoint)
    (io : BasePicard)
    (actions : List SerialAction)
    (received : List (UdpAction Endpoint)) : Prop where
  state : (Machine.run PicardUdp.step { endpoint := endpoint, io := io } received).1 =
    { endpoint := endpoint, io := (Machine.run step { io := io } actions).1.io }
  events :
    (Machine.run PicardUdp.step { endpoint := endpoint, io := io } received).2.filterMap
        PortOutput.call =
      (Machine.run step { io := io } actions).2.filterMap PortOutput.call
  written :
    (Machine.run PicardUdp.step { endpoint := endpoint, io := io } received).2.filterMap
        PortOutput.written =
      (HDLC.fresh.feed
          ((Machine.run step { io := io } actions).2.filterMap
            PortOutput.written).flatten).2.map
        fun frame => (endpoint, PicardUdp.sendRaw frame)

theorem refines_datagrams
    (endpoint : Endpoint)
    (io : BasePicard)
    {actions : List SerialAction}
    (nonempty : ∀ data, .send data ∈ actions → data ≠ []) :
    Refines endpoint io actions (datagrams endpoint { io := io } actions) := by
  obtain ⟨state, corresponds⟩ := run_datagrams endpoint { io := io } nonempty
  obtain ⟨sent, present, packets, written⟩ := corresponds.frames
  have decoded : (HDLC.fresh.feed (sent.map sendRaw).flatten).2 = sent := by
    rw [← List.flatMap_def]
    exact congrArg Prod.snd (HDLC.feed_flatMap_encodeHDLC present)
  exact ⟨state, corresponds.events, by rw [packets, decoded, written]⟩

/-- However a line divides the packets of some frames into reads, and whatever is sent in
between: a serial port whose parser is given the packets goes through the states and the events
of a UDP port that receives the frames as datagrams, and Picard reads the same frames from
both. -/
theorem serial_line_carries_datagrams
    (endpoint : Endpoint)
    (io : BasePicard)
    (frames : List ByteVector)
    (actions : List SerialAction)
    (framed : ∀ frame ∈ frames, frame ≠ [])
    (nonempty : ∀ data, .send data ∈ actions → data ≠ [])
    (fed : (Machine.run step { io := io } actions).2.flatMap PortOutput.fedBytes =
      frames.flatMap encodeHDLC) :
    ∃ received : List (UdpAction Endpoint),
      received.filterMap UdpAction.received = frames.map PicardUdp.sendRaw ∧
      received.filterMap UdpAction.sent = actions.filterMap SerialAction.sent ∧
      Refines endpoint io actions received ∧
      ∀ earlier, earlier <+: actions →
        ∃ soFar, soFar <+: received ∧ Refines endpoint io earlier soFar := by
  refine ⟨datagrams endpoint { io := io } actions, ?_, datagrams_sent endpoint _ actions,
    refines_datagrams endpoint io nonempty, ?_⟩
  · have parsed := congrArg Prod.snd
      (SerialReader.run_feeds {} (actions.filterMap SerialAction.reading))
    rw [run_reader] at fed
    rw [fed, HDLC.feed_flatMap_encodeHDLC framed] at parsed
    rw [datagrams_received]
    exact congrArg (List.map PicardUdp.sendRaw) parsed.symm
  · rintro earlier ⟨later, rfl⟩
    refine ⟨datagrams endpoint { io := io } earlier, ?_, refines_datagrams endpoint io
      fun data mem => nonempty data (List.mem_append_left later mem)⟩
    rw [datagrams_append]
    exact List.prefix_append _ _

/-- A reliable notification that arrives in two reads, and a request that is sent between
them. -/
def dividedNotification : List SerialAction :=
  List.flatten [List.replicate 3 (.read .thread),
    [.read (.arrive 0 ((encodeHDLC [2, 0x14, 7, 2, 1, 0xAA]).take 5)), .read (.handle 0)],
    List.replicate 7 (.read .thread), [.send [2, 0x15, 0, 0]],
    List.replicate 3 (.read .thread),
    [.read (.arrive 0 ((encodeHDLC [2, 0x14, 7, 2, 1, 0xAA]).drop 5)), .read (.handle 0)],
    List.replicate 7 (.read .thread)]

theorem serial_line_carries_datagrams_example :
    ∃ received : List (UdpAction Nat),
      received.filterMap UdpAction.received =
        [[2, 0x14, 7, 2, 1, 0xAA]].map PicardUdp.sendRaw ∧
      received.filterMap UdpAction.sent = dividedNotification.filterMap SerialAction.sent ∧
      Refines 5000 { callback := true } dividedNotification received ∧
      ∀ earlier, earlier <+: dividedNotification →
        ∃ soFar, soFar <+: received ∧ Refines 5000 { callback := true } earlier soFar :=
  serial_line_carries_datagrams 5000 { callback := true } [[2, 0x14, 7, 2, 1, 0xAA]]
    dividedNotification (by decide)
    (by
      intro data mem
      have only : data = [2, 0x15, 0, 0] := by simpa [dividedNotification] using mem
      rw [only]
      decide)
    (by decide +kernel)

end PicardSerial

end SerialMux
