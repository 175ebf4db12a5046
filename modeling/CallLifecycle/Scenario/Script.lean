import CallLifecycle.Client.Call
import CallLifecycle.Scenario.Interceptors
import CallLifecycle.Scenario.Message
import CallLifecycle.Server.Call
import CallLifecycle.Server.Handler

/-!
# Scripts

A scenario of a call is given as data: what the handler does, how the two sides are set up, and what
the transport and the user do, step by step.

* `nested`, `concealing` — failures of the scenario's own;
* `HandlerStep` — a step of a handler;
* `ServerPlan`, `ClientPlan` — the two sides of a call;
* `Op` — a step of the scenario.
-/

namespace CallLifecycle.Scenario

/-- A failure that only the scenario knows, and which tells its cause. -/
def nested (inner : Failure) : Failure :=
  .foreign ("nested error: " ++ inner.display) ("Nested(" ++ inner.debug ++ ")") (some inner)

/-- A failure that only the scenario knows, and which hides its cause. -/
def concealing (inner : Failure) : Failure :=
  .foreign ("opaque error: " ++ inner.display) ("Opaque(" ++ inner.debug ++ ")") none

/-- What a handler does in a step. -/
inductive HandlerAction where
  /-- Reads the next request. -/
  | recv
  /-- Reads the next item of the request stream. -/
  | next
  /-- Reads all requests; they become the reply. -/
  | recvAll
  /-- Sends an answer to every request. -/
  | echo
  | dropRequests
  | debugRequests
  | debugResponses
  | debugContext
  | send (m : Outbound Message)
  /-- Sends so many messages, numbered from zero. -/
  | sendMany (label : String) (count : Nat)
  | drained
  | finish
  | set (setting : Server.Setting)
  /-- Tells what the handler knows of its call. -/
  | context
  /-- Waits until a gate is opened. -/
  | wait (gate : String)
  | sleep (ms : Nat)
  /-- Waits until the call is cancelled. -/
  | cancelled
  /-- Leaves what the handler holds to the scenario, as a second holder. -/
  | stash
  /-- Leaves the request stream to the scenario, as its only holder. -/
  | stashRequests
  | reply (m : Message)
  | fail (e : Failure)
  | breakOff
  | unknown

/-- A step of a handler. -/
structure HandlerStep where
  /-- The name under which the step is logged. -/
  name : String
  /-- A fault of the step ends the handler. -/
  strict : Bool
  action : HandlerAction

structure HandlerPlan where
  kind : Server.HandlerKind := .unary
  script : List HandlerStep := []

/-- What failures are told as; each percent sign of the message stands for the text of the failure. -/
structure Wording where
  code : Code
  message : String
  trailers : Metadata

/-- Tells a failure. -/
def Wording.tell (w : Wording) (e : Failure) : Status × Metadata :=
  (Status.of w.code (e.display.intercalate (w.message.splitOn "%")), w.trailers)

/-- How a server tells failures. -/
structure DelegatePlan where
  library : Option Wording := none
  handler : Option Wording := none

/-- Tells a failure by a wording, if there is one. -/
def tellBy (w : Option Wording) (e : Failure) (t : Tally) : (Status × Metadata) × Tally :=
  (match w with
    | some w => w.tell e
    | none => (Status.ofFailure e, {}), t)

def DelegatePlan.build (d : DelegatePlan) : Server.Delegate Tally where
  library := tellBy d.library
  handler := tellBy d.handler

/-- A server of a scenario. -/
structure ServerPlan where
  config : Server.Config := {}
  interceptors : List InterceptorPlan := []
  delegate : DelegatePlan := {}
  /-- Somebody may wait for the end of all tasks of the server. -/
  graceful : Bool := false

/-- The codec of all calls of scenarios. -/
def messageCodec : Codec Tally Message Message := Codec.json Message.shape Message.shape

def ServerPlan.setup (p : ServerPlan) : Server.Setup Tally Message Message where
  config := p.config
  codec := messageCodec
  pipeline := buildPipeline p.interceptors
  delegate := p.delegate.build

/-- A server in diagnostics, where nobody may wait for its end. -/
def ServerPlan.debug (p : ServerPlan) : String :=
  Text.partialRecord "Server"
    [("config", Text.record "ServerConfig" [("compression_enabled", Text.flag p.config.compression),
        ("timeout", Text.optional Duration.debug p.config.timeout),
        ("writer", p.config.writer.debug)]),
      ("interceptors", (buildPipeline p.interceptors).debug),
      ("executor", Text.record "Executor" [("shutdown", "None")])]

/-- A client of a scenario and its call. -/
structure ClientPlan where
  config : Client.Config := {}
  interceptors : List InterceptorPlan := []
  options : Client.Options := {}
  shape : Client.Shape := .unary
  request : Message := ""
  /-- What is routed to the call while its stream is opened. -/
  meanwhile : List ResponsePart := []
  /-- Why the stream cannot be opened. -/
  failure : Option Failure := none
  /-- Tasks can be started. -/
  runtime : Bool := true

def ClientPlan.setup (p : ClientPlan) : Client.Setup Tally Message Message where
  config := p.config
  options := p.options
  codec := messageCodec
  pipeline := buildPipeline p.interceptors

/-- What the transport of a server call does, or what is asked of the server. -/
inductive ServerOp where
  | hand (i : Server.Inbound)
  | completed (id : Nat)
  | dropHandle
  | dropTransport
  | debug
  | shutdown (id : Nat)

/-- What is done with the things that a handler left to the scenario. -/
inductive StashOp where
  | send (id : Nat) (m : Outbound Message)
  | drained (id : Nat)
  | finish
  | isFinished
  | set (id : Nat) (setting : Server.Setting)
  | cancelled (id : Nat)
  | isCancelled
  | read (id : Nat)
  | next (id : Nat)
  | drop

/-- What the transport and the user of a client call do. -/
inductive ClientOp where
  | tell (r : Client.Call.Routed)
  | debugRouter
  | cancel
  | dropCall
  | debug
  | send (id : Nat) (m : Outbound Message)
  | finish
  | isFinished
  | drained (id : Nat)
  | response (id : Nat)
  | responses
  | read (id : Nat)
  | next (id : Nat)
  | dropResponses
  | initial (id : Nat)
  | trailing (id : Nat)
  | status (id : Nat)

/-- A step of a scenario. -/
inductive Op where
  | server (o : ServerOp)
  | stash (o : StashOp)
  | client (o : ClientOp)
  | gate (name : String)
  | dropSlot (id : Nat)
  | advance (ms : Nat)
  /-- Several steps before anything runs. -/
  | batch (ops : List Op)
  | unknown

end CallLifecycle.Scenario
