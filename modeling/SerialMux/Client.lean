import SerialMux.MuxMessageParser

/-!
# Subscribers and clients

A subscriber holds the filter that is committed and the one of the SUBSCRIBE
command in progress.  A client is the connection object as the client manager
sees it: subscriber, state, and what closing its socket depends on.
-/

namespace SerialMux

/-- The class `CSubscriber`. -/
structure Subscriber where
  params : SubscriptionParams := {}
  inTransaction : Bool := false
  newParams : SubscriptionParams := {}
  deriving DecidableEq, Repr

namespace Subscriber

/-- The filter in its newest version. -/
def getSubscription (subscriber : Subscriber) : BitVec 32 :=
  subscriber.newParams.filter

/-- The unreliable mask in its newest version. -/
def getUnreliable (subscriber : Subscriber) : BitVec 32 :=
  subscriber.newParams.unreliable

/-- Open a new transaction. -/
def setSubscription (params : SubscriptionParams) (subscriber : Subscriber) :
    Subscriber :=
  { subscriber with inTransaction := true, newParams := params }

/-- Whether the committed filter lets a notification through. -/
def isSubscribed (subscriber : Subscriber) (notifType : Nat) : Option Bool :=
  subscribeFilterMatch subscriber.params notifType

/-- End the transaction with the old filter. -/
def resetFilter (subscriber : Subscriber) : Subscriber :=
  { subscriber with newParams := subscriber.params, inTransaction := false }

/-- End the transaction with the new filter. -/
def commitFilter (subscriber : Subscriber) : Subscriber :=
  { subscriber with params := subscriber.newParams, inTransaction := false }

@[simp] theorem setSubscription_params
    (params : SubscriptionParams)
    (subscriber : Subscriber) :
    (subscriber.setSubscription params).params = subscriber.params := rfl

@[simp] theorem setSubscription_newParams
    (params : SubscriptionParams)
    (subscriber : Subscriber) :
    (subscriber.setSubscription params).newParams = params := rfl

@[simp] theorem resetFilter_params (subscriber : Subscriber) :
    subscriber.resetFilter.params = subscriber.params := rfl

@[simp] theorem resetFilter_newParams (subscriber : Subscriber) :
    subscriber.resetFilter.newParams = subscriber.params := rfl

@[simp] theorem commitFilter_params (subscriber : Subscriber) :
    subscriber.commitFilter.params = subscriber.newParams := rfl

@[simp] theorem commitFilter_newParams (subscriber : Subscriber) :
    subscriber.commitFilter.newParams = subscriber.newParams := rfl

end Subscriber

/-- The enumeration `InitState` of `CBoostClient`. -/
inductive InitState
  | waiting
  | authenticated
  | badInit
  | closed
  deriving DecidableEq, Repr

/-- The class `CBoostClient`.  `reading` says whether a read is outstanding,
and `peerGone` whether shutting down the socket fails. -/
structure Client where
  subscriber : Subscriber := {}
  initState : InitState := .waiting
  protocolVersion : Byte := 0
  socketOpen : Bool := true
  peerGone : Bool := false
  reading : Bool := true
  deriving DecidableEq, Repr

namespace Client

/-- Close the connection.  Shutting down a socket whose peer is gone throws. -/
def close (client : Client) : Option Client :=
  if client.socketOpen ∧ client.peerGone then none
  else some { client with socketOpen := false, initState := .closed }

/-- A client that is closed has its socket closed and the state CLOSED. -/
theorem close_closes
    {client closed : Client}
    (done : client.close = some closed) :
    closed.initState = .closed ∧ closed.socketOpen = false := by
  unfold close at done
  split at done
  · cases done
  · rw [Option.some.injEq] at done
    rw [← done]
    exact ⟨rfl, rfl⟩

theorem close_subscriber
    {client closed : Client}
    (done : client.close = some closed) :
    closed.subscriber = client.subscriber := by
  unfold close at done
  split at done
  · cases done
  · rw [Option.some.injEq] at done
    rw [← done]

end Client

/-- A SUBSCRIBE of a filter and no unreliable notifications. -/
def subscribeTo (filter : Byte) : MuxMessage :=
  MuxMessage.ofPayload Command.subscribe [0, 0, 0, filter, 0, 0, 0, 0]

end SerialMux
