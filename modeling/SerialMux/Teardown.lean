import SerialMux.Steps

/-!
# Tearing the connection down

A reset closes all registered clients, then stops the listener and the I/O service.
`close` shuts a socket down without an error code, so a socket whose shutdown fails
throws through the loop over the clients and through the reset.
-/

namespace SerialMux

/-- Shutting down the socket of a client throws. -/
def Client.ShutdownFails (client : Client) : Prop :=
  client.socketOpen ∧ client.peerGone

instance (client : Client) : Decidable client.ShutdownFails :=
  inferInstanceAs (Decidable (_ ∧ _))

/-- Closing succeeds unless the shutdown fails. -/
theorem Client.close_eq_none_iff (client : Client) :
    client.close = none ↔ client.ShutdownFails := by
  unfold Client.close Client.ShutdownFails
  split <;> simp_all

namespace Mux

/-- A reset closes every registered client, clears their list and goes on to stop the
listener and the I/O service. -/
structure ClosesAll (m : Mux) : Prop where
  cleared : m.closeClients.1.clients = []
  closed : ∀ client ∈ m.clients,
    (m.closeClients.1.objects client).socketOpen = false ∧
      (m.closeClients.1.objects client).initState = .closed
  goesOn : m.resetConnection.1.listening = false ∧ m.resetConnection.1.serving = false

/-! ## The loop over the clients -/

/-- The loop comes to its end if no shutdown fails, and else throws. -/
theorem closeEach_returns_iff
    (objects : ClientId → Client)
    (clients : List ClientId) :
    (closeEach objects clients).2 = true ↔
      ∀ client ∈ clients, ¬(objects client).ShutdownFails := by
  rw [closeEach_eq_actEach]
  apply FamilyLoop.actEach_returns_iff
  · intro client
    rw [Option.isSome_eq_false_iff, Option.isNone_iff_eq_none, Client.close_eq_none_iff]
  · intro client works
    cases done : client.close with
    | none => exact works
    | some closed => simp [Client.ShutdownFails, (Client.close_closes done).2]

/-- The loop closes every client of the list if no shutdown fails. -/
theorem closeEach_closes
    {objects : ClientId → Client}
    {clients : List ClientId}
    (returns : (closeEach objects clients).2 = true) :
    ∀ client ∈ clients, ((closeEach objects clients).1 client).socketOpen = false ∧
      ((closeEach objects clients).1 client).initState = .closed := by
  rw [closeEach_eq_actEach] at returns ⊢
  apply FamilyLoop.actEach_done (fun client : Client =>
    client.socketOpen = false ∧ client.initState = .closed) _ _ returns
  · intro client succeeds
    obtain ⟨closed, done⟩ := Option.isSome_iff_exists.mp succeeds
    dsimp only
    rw [done]
    exact (Client.close_closes done).symm
  · intro client isClosed
    cases done : client.close with
    | none => exact isClosed
    | some closed => exact (Client.close_closes done).symm

/-! ## The reset -/

/-- A reset that throws leaves the list, the listener and the service as they are. -/
theorem resetConnection_throws
    {m : Mux}
    (throws : (closeEach m.objects m.clients).2 = false) :
    m.closeClients.1.clients = m.clients ∧
      m.resetConnection.1.listening = m.listening ∧
      m.resetConnection.1.serving = m.serving := by
  unfold resetConnection closeClients
  dsimp only
  split
  all_goals
    rename_i objects result
    rw [result] at throws
  · cases throws
  · exact ⟨rfl, rfl, rfl⟩

/-- A reset that does not throw stops the listener and the service. -/
theorem resetConnection_returns
    {m : Mux}
    (returns : (closeEach m.objects m.clients).2 = true) :
    m.closeClients.1.clients = [] ∧
      m.closeClients.1.objects = (closeEach m.objects m.clients).1 ∧
      m.resetConnection.1.listening = false ∧ m.resetConnection.1.serving = false := by
  unfold resetConnection closeClients
  dsimp only
  split
  all_goals
    rename_i objects result
    rw [result] at returns ⊢
  · exact ⟨rfl, rfl, rfl, rfl⟩
  · cases returns

/-- A reset closes all clients and goes on exactly if no registered client's shutdown
fails. -/
theorem closesAll_iff (m : Mux) :
    m.ClosesAll ↔ ∀ client ∈ m.clients, ¬(m.objects client).ShutdownFails := by
  rw [← closeEach_returns_iff]
  constructor
  · intro closesAll
    by_contra throws
    rw [Bool.not_eq_true] at throws
    have uncleared := (resetConnection_throws throws).1
    rw [closesAll.cleared] at uncleared
    rw [← uncleared] at throws
    cases throws
  · intro returns
    obtain ⟨cleared, objects, goesOn⟩ := resetConnection_returns returns
    refine ⟨cleared, ?_, goesOn⟩
    rw [objects]
    exact closeEach_closes returns

/-- The peer of the first of two clients is gone: the reset closes neither of them, and
the listener and the service go on. -/
theorem gone_peer_stops_reset :
    (Machine.run (step 3) (start {} 4) [.addClient 1, .addClient 2, .hangUp 1]).1.clients =
        [1, 2] ∧
      ¬(Machine.run (step 3) (start {} 4)
        [.addClient 1, .addClient 2, .hangUp 1]).1.ClosesAll := by
  refine ⟨by decide, ?_⟩
  intro closesAll
  have cleared := closesAll.cleared
  revert cleared
  decide

end Mux

end SerialMux
