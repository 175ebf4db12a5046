import CallLifecycle.Proofs.Client.Course

/-!
# The order of the steps of a client call

A program that starts a call takes the steps of its start one by one; only then is it given the call, and may use it.
The transport and the tasks of the call may come at any time.

* `Stage`, `Opens` — how far the start of a call is, and its steps;
* `Follows`, `Orderly` — the steps that may follow, and the runs made of them;
* `orderly_beginning` — a call that starts at once does so in order;
* `Call.accepted` — the request messages that were accepted in a run.
-/

namespace CallLifecycle.Client

inductive Stage where
  | unopened
  | opening
  | attached
  | armed
  /-- The request metadata were sent, or the stream could not be opened. -/
  | greeted
  /-- The only request message was sent. -/
  | posted
  | started
  deriving DecidableEq, Repr

namespace Stage

def isEarly : Stage → Bool
  | unopened | opening | attached | armed => true
  | _ => false

def isOpened : Stage → Bool
  | unopened | opening => false
  | _ => true

end Stage

/-- The steps of a call that starts, of a shape, with a single request if it does not stream its requests. -/
inductive Opens {Out W : Type} (shape : Shape) (request : Out) : Stage → Act Out W → Stage → Prop
  | opening : Opens shape request .unopened .opening .opening
  | refused (e : Failure) : Opens shape request .opening (.refused e) .greeted
  | connected : Opens shape request .opening .connected .attached
  | arm : Opens shape request .attached .arm .armed
  | metadata : Opens shape request .armed .sendMetadata .greeted
  | writer (streams : shape.streamsRequests = true) : Opens shape request .greeted .attachWriter .started
  | message (single : shape.streamsRequests = false) : Opens shape request .greeted (.sendMessage request) .posted
  | close (single : shape.streamsRequests = false) : Opens shape request .posted .sendEnd .started

def Act.isOutside {Out W : Type} : Act Out W → Bool
  | .routed _ | .expire | .stopWriter | .awaitDone _ => true
  | _ => false

def Act.isUse {Out W : Type} (shape : Shape) : Act Out W → Bool
  | .write _ | .awaitWrite _ | .awaitDrained _ | .finish => shape.streamsRequests
  | .cancel | .read _ | .take _ | .awaitInitial _ | .awaitTrailing _ | .awaitStatus _ | .drop => true
  | _ => false

/-- The steps that may follow in a run. -/
inductive Follows {Out W : Type} (shape : Shape) (request : Out) : Stage → Act Out W → Stage → Prop
  | opens {stage next : Stage} {a : Act Out W} (h : Opens shape request stage a next) :
      Follows shape request stage a next
  | outside {stage : Stage} {a : Act Out W} (h : a.isOutside = true) : Follows shape request stage a stage
  | use {a : Act Out W} (h : a.isUse shape = true) : Follows shape request .started a .started

/-- A run in order, and how far it has come with the start of its call. -/
inductive Orderly {Out W : Type} (shape : Shape) (request : Out) : List (Act Out W) → Stage → Prop
  | nil : Orderly shape request [] .unopened
  | snoc {acts : List (Act Out W)} {stage next : Stage} {a : Act Out W} (h : Orderly shape request acts stage)
      (follows : Follows shape request stage a next) : Orderly shape request (acts ++ [a]) next

section Orderly

variable {Out W : Type} {shape : Shape} {request : Out}

theorem Orderly.told {acts : List (Act Out W)} {stage : Stage} (h : Orderly shape request acts stage)
    (rs : List Call.Routed) : Orderly shape request (acts ++ rs.map .routed) stage := by
  induction rs generalizing acts with
  | nil => simpa using h
  | cons r rs ih => simpa using ih (h.snoc (.outside (a := .routed r) rfl))

/-- A call that starts at once does so in order. -/
theorem orderly_beginning (shape : Shape) (request : Out) (meanwhile : List Call.Routed) (failure : Option Failure) :
    Orderly shape request (Call.beginning shape request meanwhile failure : List (Act Out W)) .started := by
  have told : Orderly shape request ([.opening] ++ meanwhile.map (.routed : Call.Routed → Act Out W)) .opening :=
    (Orderly.nil.snoc (.opens .opening)).told meanwhile
  have opened : Orderly shape request (Call.opening meanwhile failure : List (Act Out W)) .greeted := by
    cases failure with
    | some e => exact told.snoc (.opens (.refused e))
    | none =>
      have greeted := ((told.snoc (.opens .connected)).snoc (.opens .arm)).snoc (.opens .metadata)
      simpa [Call.opening] using greeted
  unfold Call.beginning
  cases streams : shape.streamsRequests
  · have closed := (opened.snoc (.opens (.message streams))).snoc (.opens (.close streams))
    simpa using closed
  · exact opened.snoc (.opens (.writer streams))

end Orderly

namespace Call

variable {σ Out In W : Type}

/-- The request message that is accepted at a step: one that the request writer takes over, or the only one. -/
def accepts (c : Call σ Out In W) : Act Out W → List (Outbound Out)
  | .write m => if (c.writer.offer m).2.1.isAccepted then [m] else []
  | .sendMessage m => [{ message := m }]
  | _ => []

def accepted [DecidableEq W] (s : Setup σ Out In) (c : Call σ Out In W) (acts : List (Act Out W)) :
    List (Outbound Out) :=
  gather (step s) accepts c acts

end Call

end CallLifecycle.Client
