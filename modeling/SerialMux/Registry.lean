import SerialMux.AuthenticationGate
import SerialMux.ClientManager
import SerialMux.Library.FamilyLoop

/-!
# The registered clients

`Registry` puts the connections and the list `m_clients` of the client manager
together.  The connections' handlers register and remove them; a reset closes all
that are registered.  The list holds only live connections as long as no timer
that was queued in time closes a registered client, and no reset stops half way.
-/

namespace SerialMux

/-- The connections and the list of the registered ones. -/
structure Registry where
  connections : ClientId → Connection
  clients : List ClientId := []

/-- A handler of a connection is called, its peer goes away, or the connection to
Picard is reset. -/
inductive RegistryEvent
  | read (client : ClientId) (data : ByteVector)
  | readError (client : ClientId)
  | expire (client : ClientId)
  | authTimeout (client : ClientId)
  | hangUp (client : ClientId)
  | resetConnection
  deriving DecidableEq, Repr

namespace Registry

/-- Carry out a call of the client manager that changes its list. -/
def call (client : ClientId) (clients : List ClientId) : ConnectionOutput → List ClientId
  | .addClient => clients ++ [client]
  | .removeClient => clients.erase client
  | _ => clients

/-- One event of a connection. -/
def handle (r : Registry) (client : ClientId) (event : ConnectionEvent) :
    Registry × List (ClientId × ConnectionOutput) :=
  let (next, outputs) := (r.connections client).step event
  ({ connections := Function.update r.connections client next
     clients := outputs.foldl (call client) r.clients },
    outputs.map fun output => (client, output))

/-- Close connections until one throws; whether all could be closed. -/
def closeEach (connections : ClientId → Connection) :
    List ClientId → (ClientId → Connection) × Bool
  | [] => (connections, true)
  | client :: rest =>
      match (connections client).close with
      | (closed, true) => closeEach (Function.update connections client closed) rest
      | (cancelled, false) => (Function.update connections client cancelled, false)

/-- Close all registered clients.  The list is cleared if nothing is thrown. -/
def closeClients (r : Registry) : Registry :=
  match closeEach r.connections r.clients with
  | (connections, true) => { connections := connections, clients := [] }
  | (connections, false) => { r with connections := connections }

/-- One event. -/
def step (r : Registry) : RegistryEvent → Registry × List (ClientId × ConnectionOutput)
  | .read client data => r.handle client (.read data)
  | .readError client => r.handle client .readError
  | .expire client => r.handle client .expire
  | .authTimeout client => r.handle client .authTimeout
  | .hangUp client => r.handle client .hangUp
  | .resetConnection => (r.closeClients, [])

/-- No client is registered, and every connection is new. -/
def start (protocolVersion : Byte) (expectedAuth : Fin 8 → Byte) : Registry where
  connections := fun _ => Connection.start protocolVersion expectedAuth

/-- The state after a run. -/
def reached (protocolVersion : Byte) (expectedAuth : Fin 8 → Byte)
    (events : List RegistryEvent) : Registry :=
  (Machine.run step (start protocolVersion expectedAuth) events).1

/-- Every registered client is authenticated and open, and registered once. -/
structure Live (r : Registry) : Prop where
  once : r.clients.Nodup
  accepted : ∀ client ∈ r.clients, (r.connections client).initState = .authenticated ∧
    (r.connections client).socketOpen = true

/-- Shutting down the socket of a connection throws. -/
def ShutdownFails (c : Connection) : Prop :=
  c.socketOpen ∧ c.peerGone

instance (c : Connection) : Decidable (ShutdownFails c) :=
  inferInstanceAs (Decidable (_ ∧ _))

/-- No handler of an expired timer runs for a registered client, and no reset closes
a client before it meets one that it cannot close. -/
def KeepsLive (r : Registry) : RegistryEvent → Prop
  | .authTimeout client =>
      (r.connections client).authTimeout = .expired → client ∉ r.clients
  | .resetConnection =>
      (∀ client ∈ r.clients.head?, ShutdownFails (r.connections client)) ∨
        ∀ client ∈ r.clients, ¬ShutdownFails (r.connections client)
  | _ => True

/-! ## Handlers -/

/-- How reading changes a connection and the list: not in a way that matters, by
registering the connection, or by refusing it. -/
def Passage (c next : Connection) (client : ClientId) (clients after : List ClientId) : Prop :=
  (next.initState = c.initState ∧ next.socketOpen = c.socketOpen ∧ after = clients) ∨
  (c.initState = .waiting ∧ next.initState = .authenticated ∧
    next.socketOpen = c.socketOpen ∧ after = clients ++ [client]) ∨
  (c.initState = .waiting ∧ next.Refuses ∧ after = clients)

theorem Passage.trans
    {first second third : Connection}
    {client : ClientId}
    {clients between after : List ClientId}
    (earlier : Passage first second client clients between)
    (later : Passage second third client between after) :
    Passage first third client clients after := by
  rcases earlier with ⟨state, socket, rfl⟩ | ⟨waits, opens, socket, rfl⟩ | ⟨waits, refuses, rfl⟩
  · unfold Passage at later ⊢
    rw [← state, ← socket]
    exact later
  · rcases later with ⟨state, sameSocket, rfl⟩ | ⟨waitsAgain, -⟩ | ⟨waitsAgain, -⟩
    · exact Or.inr (Or.inl ⟨waits, state.trans opens, sameSocket.trans socket, rfl⟩)
    · rw [opens] at waitsAgain
      cases waitsAgain
    · rw [opens] at waitsAgain
      cases waitsAgain
  · rcases later with ⟨state, -, rfl⟩ | ⟨waitsAgain, -⟩ | ⟨waitsAgain, -⟩
    · exact Or.inr (Or.inr ⟨waits, refuses.imp state.trans state.trans, rfl⟩)
    · exact absurd waitsAgain refuses.not_waiting
    · exact absurd waitsAgain refuses.not_waiting

theorem handleCommand_passage
    (c : Connection)
    (command : MuxMessage)
    (client : ClientId)
    (clients : List ClientId) :
    Passage c (c.handleCommand command).1 client clients
      ((c.handleCommand command).2.foldl (call client) clients) := by
  unfold Connection.handleCommand
  dsimp only
  split_ifs with accepted hello right
  · exact Or.inl ⟨rfl, rfl, rfl⟩
  · exact Or.inr (Or.inl ⟨hello.1, rfl, rfl, rfl⟩)
  · exact Or.inr (Or.inr ⟨hello.1, Or.inl rfl, rfl⟩)
  · exact Or.inl ⟨rfl, rfl, rfl⟩

theorem handleCommands_passage
    (c : Connection)
    (commands : List MuxMessage)
    (client : ClientId)
    (clients : List ClientId) :
    Passage c (c.handleCommands commands).1 client clients
      ((c.handleCommands commands).2.foldl (call client) clients) := by
  induction commands generalizing c clients with
  | nil => exact Or.inl ⟨rfl, rfl, rfl⟩
  | cons command rest inductionHypothesis =>
      rw [Connection.handleCommands_cons, List.foldl_cons, List.foldl_append]
      exact (handleCommand_passage c command client clients).trans
        (inductionHypothesis (c.handleCommand command).1 _)

theorem read_passage
    (c : Connection)
    (data : ByteVector)
    (client : ClientId)
    (clients : List ClientId) :
    Passage c (c.step (.read data)).1 client clients
      ((c.step (.read data)).2.foldl (call client) clients) := by
  rcases c.step_read data with ⟨reading, result⟩ | ⟨final, reading, more, handled, result⟩
  · rw [result]
    exact Or.inl ⟨rfl, rfl, rfl⟩
  · have passage := handleCommands_passage { c with parser := (c.parser.read data).2 }
      (c.parser.read data).1 client clients
    rw [handled] at passage
    rw [result]
    exact passage

/-- The handlers that neither read nor close. -/
theorem step_keeps_state
    (c : Connection)
    {event : ConnectionEvent}
    (quiet : event = .readError ∨ event = .expire ∨ event = .hangUp ∨
      event = .authTimeout ∧ c.authTimeout ≠ .expired) :
    (c.step event).1.initState = c.initState ∧
      (c.step event).1.socketOpen = c.socketOpen ∧
      ((c.step event).2 = [] ∨
        event = .readError ∧ (c.step event).2 = [.removeClient]) := by
  rcases quiet with rfl | rfl | rfl | ⟨rfl, running⟩
  · unfold Connection.step Connection.handleReadError
    split_ifs <;> simp
  · unfold Connection.step
    split_ifs <;> simp
  · exact ⟨rfl, rfl, Or.inl rfl⟩
  · cases timer : c.authTimeout with
    | expired => exact absurd timer running
    | _ => simp [Connection.step, timer, Connection.handleAuthTimeout]

theorem authTimeout_refuses
    {c : Connection}
    (expired : c.authTimeout = .expired) :
    (c.step .authTimeout).1.Refuses ∧ (c.step .authTimeout).2 = [] := by
  simp only [Connection.step, expired]
  exact ⟨Connection.handleAuthTimeout_refuses _, trivial⟩

/-! ## What one event preserves -/

/-- The socket of a connection that waits for its hello is open. -/
def WaitsOpen (r : Registry) : Prop :=
  ∀ client, (r.connections client).initState = .waiting →
    (r.connections client).socketOpen = true

/-- A connection that waits is not registered. -/
theorem Live.not_mem_of_waiting
    {r : Registry}
    (live : r.Live)
    {client : ClientId}
    (waits : (r.connections client).initState = .waiting) :
    client ∉ r.clients := by
  intro listed
  rw [(live.accepted client listed).1] at waits
  cases waits

/-- A connection changes that is not registered, or in a way that does not matter. -/
theorem Live.update
    {r : Registry}
    (live : r.Live)
    {client : ClientId}
    {next : Connection}
    (harmless : client ∉ r.clients ∨
      next.initState = (r.connections client).initState ∧
        next.socketOpen = (r.connections client).socketOpen) :
    Live { r with connections := Function.update r.connections client next } := by
  refine ⟨live.once, ?_⟩
  intro other listed
  by_cases same : other = client
  · subst same
    obtain ⟨state, socket⟩ := harmless.resolve_left (not_not.mpr listed)
    dsimp only
    rw [Function.update_self, state, socket]
    exact live.accepted other listed
  · dsimp only
    rw [Function.update_of_ne same]
    exact live.accepted other listed

/-- A connection is registered that was not. -/
theorem Live.register
    {r : Registry}
    (live : r.Live)
    {client : ClientId}
    {next : Connection}
    (unlisted : client ∉ r.clients)
    (opens : next.initState = .authenticated)
    (isOpen : next.socketOpen = true) :
    Live
      { connections := Function.update r.connections client next
        clients := r.clients ++ [client] } := by
  constructor
  · refine List.nodup_append.mpr ⟨live.once, List.nodup_singleton _, ?_⟩
    intro other listed new isNew same
    rw [same, List.mem_singleton.mp isNew] at listed
    exact unlisted listed
  · intro other listed
    by_cases same : other = client
    · subst same
      dsimp only
      rw [Function.update_self]
      exact ⟨opens, isOpen⟩
    · have old := (List.mem_append.mp listed).resolve_right (by simpa using same)
      dsimp only
      rw [Function.update_of_ne same]
      exact live.accepted other old

/-- A connection is removed. -/
theorem Live.erase
    {r : Registry}
    (live : r.Live)
    (client : ClientId) :
    Live { r with clients := r.clients.erase client } :=
  ⟨live.once.erase client, fun other listed =>
    live.accepted other (List.mem_of_mem_erase listed)⟩

/-- A handler that reads. -/
theorem Live.passage
    {r : Registry}
    (live : r.Live)
    (waitsOpen : r.WaitsOpen)
    {client : ClientId}
    {next : Connection}
    {after : List ClientId}
    (passage : Passage (r.connections client) next client r.clients after) :
    Live { connections := Function.update r.connections client next, clients := after } := by
  rcases passage with ⟨state, socket, rfl⟩ | ⟨waits, opens, socket, rfl⟩ | ⟨waits, -, rfl⟩
  · exact live.update (Or.inr ⟨state, socket⟩)
  · exact live.register (live.not_mem_of_waiting waits) opens
      (socket.trans (waitsOpen client waits))
  · exact live.update (Or.inl (live.not_mem_of_waiting waits))

/-- A handler that neither reads nor closes. -/
theorem Live.keeps_state
    {r : Registry}
    (live : r.Live)
    (client : ClientId)
    {event : ConnectionEvent}
    (quiet : event = .readError ∨ event = .expire ∨ event = .hangUp ∨
      event = .authTimeout ∧ (r.connections client).authTimeout ≠ .expired) :
    (r.handle client event).1.Live := by
  obtain ⟨state, socket, outputs⟩ := step_keeps_state (r.connections client) quiet
  have updated := live.update (Or.inr ⟨state, socket⟩)
  unfold handle
  dsimp only
  rcases outputs with nothing | ⟨-, removal⟩
  · rw [nothing]
    exact updated
  · rw [removal]
    exact updated.erase client

/-! ## Closing all clients -/

/-- Closing fails, and changes nothing that matters, or it closes. -/
theorem close_state (c : Connection) :
    (ShutdownFails c ∧ c.close.2 = false ∧ c.close.1.initState = c.initState ∧
      c.close.1.socketOpen = c.socketOpen) ∨
    (¬ShutdownFails c ∧ c.close.2 = true ∧ c.close.1.initState = .closed ∧
      c.close.1.socketOpen = false) := by
  rcases c.close_cases with ⟨isOpen, gone, result⟩ | ⟨works, result⟩
  · rw [result]
    exact Or.inl ⟨⟨isOpen, gone⟩, rfl, rfl, rfl⟩
  · rw [result]
    exact Or.inr ⟨works, rfl, rfl, rfl⟩

theorem closeEach_cons
    (connections : ClientId → Connection)
    (client : ClientId)
    (rest : List ClientId) :
    closeEach connections (client :: rest) =
      if ShutdownFails (connections client) then
        (Function.update connections client (connections client).close.1, false)
      else closeEach (Function.update connections client (connections client).close.1) rest := by
  rw [closeEach]
  rcases close_state (connections client) with ⟨fails, throws, -, -⟩ | ⟨works, returns, -, -⟩
  · rw [if_pos fails]
    split
    · simp_all
    · simp_all
  · rw [if_neg works]
    split
    · simp_all
    · simp_all

/-- The loop over the connections, as one over a family. -/
theorem closeEach_eq_actEach
    (connections : ClientId → Connection)
    (clients : List ClientId) :
    closeEach connections clients = FamilyLoop.actEach Connection.close connections clients := by
  induction clients generalizing connections with
  | nil => rfl
  | cons client rest inductionHypothesis =>
      rw [closeEach, FamilyLoop.actEach]
      split
      · rename_i closed done
        rw [done, inductionHypothesis]
        rfl
      · rename_i cancelled throws
        rw [throws]
        rfl

/-- A connection is closed or stays what it was. -/
theorem closeEach_state
    (connections : ClientId → Connection)
    (clients : List ClientId)
    (other : ClientId) :
    (((closeEach connections clients).1 other).initState = (connections other).initState ∧
      ((closeEach connections clients).1 other).socketOpen = (connections other).socketOpen) ∨
    ((closeEach connections clients).1 other).initState = .closed := by
  rw [closeEach_eq_actEach]
  apply FamilyLoop.actEach_rel (fun before after : Connection =>
    (after.initState = before.initState ∧ after.socketOpen = before.socketOpen) ∨
      after.initState = .closed)
  · exact fun _ => Or.inl ⟨rfl, rfl⟩
  · rintro first second third earlier (⟨state, socket⟩ | closed)
    · rw [state, socket]
      exact earlier
    · exact Or.inr closed
  · intro connection
    rcases close_state connection with ⟨-, -, same⟩ | ⟨-, -, closed, -⟩
    · exact Or.inl same
    · exact Or.inr closed

/-- All connections can be closed if none of the shutdowns fails. -/
theorem closeEach_returns_iff
    (connections : ClientId → Connection)
    (clients : List ClientId) :
    (closeEach connections clients).2 = true ↔
      ∀ client ∈ clients, ¬ShutdownFails (connections client) := by
  rw [closeEach_eq_actEach]
  apply FamilyLoop.actEach_returns_iff
  · intro connection
    rcases close_state connection with ⟨fails, throws, -⟩ | ⟨works, returns, -⟩
    · exact iff_of_true throws fails
    · exact iff_of_false (by simp [returns]) works
  · intro connection works
    have isClosed := ((close_state connection).resolve_left
      (fun throws => works throws.1)).2.2.2
    simp [ShutdownFails, isClosed]

/-- A first connection that can be closed is closed, whatever follows. -/
theorem closeEach_first
    {connections : ClientId → Connection}
    {first : ClientId}
    (works : ¬ShutdownFails (connections first))
    (rest : List ClientId) :
    ((closeEach connections (first :: rest)).1 first).initState = .closed := by
  have closed := ((close_state (connections first)).resolve_left
    (fun throwing => works throwing.1)).2.2.1
  have later := closeEach_state
    (Function.update connections first (connections first).close.1) rest first
  rw [Function.update_self, closed] at later
  rw [closeEach_cons, if_neg works]
  exact later.elim And.left id

/-- The list is live after a reset exactly if no shutdown fails, or the first one
does. -/
theorem closeClients_live_iff
    {r : Registry}
    (live : r.Live) :
    r.closeClients.Live ↔ r.KeepsLive .resetConnection := by
  have returns := closeEach_returns_iff r.connections r.clients
  unfold closeClients KeepsLive
  by_cases works : ∀ client ∈ r.clients, ¬ShutdownFails (r.connections client)
  · refine iff_of_true ?_ (Or.inr works)
    split
    · exact ⟨List.nodup_nil, by simp⟩
    · rename_i connections throws
      rw [throws] at returns
      exact absurd (returns.mpr works) (by simp)
  · split
    · rename_i connections done
      rw [done] at returns
      exact absurd (returns.mp rfl) works
    · rename_i connections throws
      cases shape : r.clients with
      | nil => simp [shape] at works
      | cons first rest =>
          rw [shape] at throws
          by_cases fails : ShutdownFails (r.connections first)
          · refine iff_of_true ?_ (Or.inl (by simpa using fails))
            have unchanged := ((close_state (r.connections first)).resolve_right
              (fun returned => returned.1 fails)).2.2
            have updated := live.update (Or.inr unchanged)
            rw [closeEach_cons, if_pos fails] at throws
            rw [← (Prod.mk.inj throws).1, ← shape]
            exact updated
          · refine iff_of_false ?_ ?_
            · intro stillLive
              have state := (stillLive.accepted first List.mem_cons_self).1
              have closed := closeEach_first fails rest
              rw [throws] at closed
              dsimp only at state closed
              rw [state] at closed
              cases closed
            · rintro (firstFails | allWork)
              · exact fails (firstFails first rfl)
              · exact works (shape ▸ allWork)

/-! ## Runs -/

/-- A handler that leaves the connection as it is, or no longer waiting. -/
theorem WaitsOpen.handle
    {r : Registry}
    (waitsOpen : r.WaitsOpen)
    {client : ClientId}
    {event : ConnectionEvent}
    (change : (((r.connections client).step event).1.initState =
          (r.connections client).initState ∧
        ((r.connections client).step event).1.socketOpen =
          (r.connections client).socketOpen) ∨
      ((r.connections client).step event).1.initState ≠ .waiting) :
    (r.handle client event).1.WaitsOpen := by
  intro other waits
  unfold Registry.handle at waits ⊢
  dsimp only at waits ⊢
  by_cases same : other = client
  · subst same
    rw [Function.update_self] at waits ⊢
    rcases change with ⟨state, socket⟩ | left
    · rw [socket]
      exact waitsOpen other (state ▸ waits)
    · exact absurd waits left
  · rw [Function.update_of_ne same] at waits ⊢
    exact waitsOpen other waits

theorem WaitsOpen.keeps_state
    {r : Registry}
    (waitsOpen : r.WaitsOpen)
    (client : ClientId)
    {event : ConnectionEvent}
    (quiet : event = .readError ∨ event = .expire ∨ event = .hangUp ∨
      event = .authTimeout ∧ (r.connections client).authTimeout ≠ .expired) :
    (r.handle client event).1.WaitsOpen := by
  obtain ⟨state, socket, -⟩ := step_keeps_state (r.connections client) quiet
  exact waitsOpen.handle (Or.inl ⟨state, socket⟩)

theorem WaitsOpen.closeClients
    {r : Registry}
    (waitsOpen : r.WaitsOpen) :
    r.closeClients.WaitsOpen := by
  intro client waits
  have after := closeEach_state r.connections r.clients client
  revert waits
  unfold Registry.closeClients
  split
  all_goals
    rename_i connections result
    rw [result] at after
    intro waits
    rcases after with ⟨state, socket⟩ | closed
    · exact socket.trans (waitsOpen client (state.symm.trans waits))
    · exact absurd (closed.symm.trans waits) (by decide)

/-- Connections that wait keep their sockets open in every run. -/
theorem WaitsOpen.step
    {r : Registry}
    (waitsOpen : r.WaitsOpen)
    (event : RegistryEvent) :
    (r.step event).1.WaitsOpen := by
  cases event with
  | read client data =>
      apply waitsOpen.handle
      rcases read_passage (r.connections client) data client r.clients with
        ⟨state, socket, -⟩ | ⟨-, opens, -⟩ | ⟨-, refuses, -⟩
      · exact Or.inl ⟨state, socket⟩
      · right
        rw [opens]
        decide
      · exact Or.inr refuses.not_waiting
  | readError client => exact waitsOpen.keeps_state client (Or.inl rfl)
  | expire client => exact waitsOpen.keeps_state client (Or.inr (Or.inl rfl))
  | hangUp client => exact waitsOpen.keeps_state client (Or.inr (Or.inr (Or.inl rfl)))
  | authTimeout client =>
      by_cases expired : (r.connections client).authTimeout = .expired
      · exact waitsOpen.handle (Or.inr (authTimeout_refuses expired).1.not_waiting)
      · exact waitsOpen.keeps_state client (Or.inr (Or.inr (Or.inr ⟨rfl, expired⟩)))
  | resetConnection => exact waitsOpen.closeClients

/-- One event keeps the list live exactly under the condition. -/
theorem step_live_iff
    {r : Registry}
    (live : r.Live)
    (waitsOpen : r.WaitsOpen)
    (event : RegistryEvent) :
    (r.step event).1.Live ↔ r.KeepsLive event := by
  cases event with
  | read client data =>
      refine iff_of_true ?_ trivial
      exact live.passage waitsOpen (read_passage (r.connections client) data client r.clients)
  | readError client =>
      exact iff_of_true (live.keeps_state client (Or.inl rfl)) trivial
  | expire client =>
      exact iff_of_true (live.keeps_state client (Or.inr (Or.inl rfl))) trivial
  | hangUp client =>
      exact iff_of_true (live.keeps_state client (Or.inr (Or.inr (Or.inl rfl)))) trivial
  | authTimeout client =>
      by_cases expired : (r.connections client).authTimeout = .expired
      · obtain ⟨refuses, silent⟩ := authTimeout_refuses expired
        change (r.handle client .authTimeout).1.Live ↔ _
        unfold handle KeepsLive
        dsimp only
        rw [silent]
        constructor
        · intro stillLive _ listed
          have state := (stillLive.accepted client listed).1
          dsimp only at state
          rw [Function.update_self] at state
          exact refuses.not_authenticated state
        · intro unlisted
          exact live.update (Or.inl (unlisted expired))
      · exact iff_of_true (live.keeps_state client (Or.inr (Or.inr (Or.inr ⟨rfl, expired⟩))))
          fun isExpired => absurd isExpired expired
  | resetConnection => exact closeClients_live_iff live

/-- A run stays live exactly if no handler of an expired timer runs for a registered
client, and no reset stops half way. -/
theorem live_iff_keepsLive
    (protocolVersion : Byte)
    (expectedAuth : Fin 8 → Byte)
    (events : List RegistryEvent) :
    (∀ earlier, earlier <+: events → (reached protocolVersion expectedAuth earlier).Live) ↔
      Machine.Meets step KeepsLive (start protocolVersion expectedAuth) events := by
  refine Machine.forall_prefix_iff_meets Live WaitsOpen
    (fun _ event waitsOpen => waitsOpen.step event)
    (fun _ event live waitsOpen => step_live_iff live waitsOpen event) ?_ ?_
  · exact ⟨List.nodup_nil, by simp [start]⟩
  · intro client _
    rfl

/-- The timer expires before the hello is read, and its handler runs afterwards: it
closes a registered client, and the read error that follows does not remove it. -/
theorem expired_timer_closes_registered_client :
    ¬(reached 4 (fun _ => 7)
      [.expire 0,
        .read 0 (MuxMessage.ofPayload MuxCommand.muxHello [4, 7, 7, 7, 7, 7, 7, 7, 7]).serialize,
        .authTimeout 0, .readError 0]).Live := by
  intro live
  have accepted := (live.accepted 0 (by decide +kernel)).1
  revert accepted
  decide +kernel

end Registry
end SerialMux
