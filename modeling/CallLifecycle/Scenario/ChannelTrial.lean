import CallLifecycle.Channel
import CallLifecycle.Scenario.Answer

/-!
# Trials of channels

A trial works both ends of a channel of texts. Its wakers are numbers. The consumer may leave a read
standing, which then owns the consumer's end until it is answered or dropped.
-/

namespace CallLifecycle.Scenario

open Answer

/-- An operation on a channel. -/
inductive ChannelOp where
  | push (s : String)
  | finish
  | fail (e : String)
  | terminated
  /-- Looks at the standing read, which is made if there is none. -/
  | next (waker : Nat)
  | dropNext
  /-- Reads once. -/
  | poll (waker : Nat)
  /-- Looks for the next item. -/
  | item (waker : Nat)
  | debugSource
  | debugStream
  | unknown

/-- A channel, and whether a read stands. -/
structure ChannelTrial where
  channel : Channel String String Nat := {}
  standing : Bool := false
  done : Bool := false

/-- What became of an element. -/
def ofHandover : Handover → Answer
  | .accepted depth => fields [("accepted", flag true), ("depth", number depth)]
  | .dropped => fields [("accepted", flag false)]

/-- What a read gave. -/
def ofRead : Poll (Except String (Option String)) → Answer
  | .pending => text "pending"
  | .ready (.ok m) => ok (ofMessage? m)
  | .ready (.error e) => err (text e)

/-- What the look for an item gave. -/
def ofItem : Poll (Item String String) → Answer
  | .pending => text "pending"
  | .ready (.next a) => ok (text a)
  | .ready (.failed e) => err (text e)
  | .ready .ended => nothing

namespace ChannelTrial

/-- Takes over what the producer did. -/
def produced (t : ChannelTrial) (r : Channel String String Nat × Handover × List Nat) :
    ChannelTrial × Answer × List Nat :=
  ({ t with channel := r.1 }, ofHandover r.2.1, r.2.2)

/-- Carries an operation out: the state then, the answer, and who was woken. -/
def apply (t : ChannelTrial) : ChannelOp → ChannelTrial × Answer × List Nat
  | .push s => t.produced (t.channel.push s)
  | .finish => t.produced (t.channel.terminate .finished)
  | .fail e => t.produced (t.channel.terminate (.failed e))
  | .terminated => (t, flag t.channel.isTerminated, [])
  | .next w =>
    let (channel, r) := t.channel.poll w
    let channel := if r.isReady then channel.forget else channel
    ({ t with channel, standing := !r.isReady }, ofRead r, [])
  | .dropNext =>
    let channel := if t.standing then t.channel.forget else t.channel
    ({ t with channel, standing := false }, flag t.standing, [])
  | .poll w =>
    if t.standing then (t, text "busy", [])
    else
      let (channel, r) := t.channel.poll w
      ({ t with channel }, ofRead r, [])
  | .item w =>
    if t.standing then (t, text "busy", [])
    else
      let (channel, done, r) := t.channel.pollItem t.done w
      ({ t with channel, done }, ofItem r, [])
  | .debugSource => (t, text t.channel.debugSource, [])
  | .debugStream =>
    if t.standing then (t, text "busy", []) else (t, text t.channel.debugStream, [])
  | .unknown => (t, text "unknown op", [])

end ChannelTrial

/-- The wakers that were woken. -/
def ofWakers (woken : List Nat) : Answer := list (woken.map fun (n : Nat) => number n)

/-- Carries operations out. -/
def tryChannel : ChannelTrial → List ChannelOp → List Answer
  | _, [] => []
  | t, op :: rest =>
    let (t, r, woken) := t.apply op
    fields [("r", r), ("woken", ofWakers woken)] :: tryChannel t rest

end CallLifecycle.Scenario
