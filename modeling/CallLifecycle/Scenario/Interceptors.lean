import CallLifecycle.Interceptor

/-!
# Interceptors of scenarios

A scenario describes its interceptors by what they do with the parts that they look at. Each counts
the parts that it acts on; the counts are the memory of all of them.
-/

namespace CallLifecycle.Scenario

/-- How often each interceptor acted. -/
abbrev Tally := List Nat

/-- Counts an action of an interceptor: the new count, from one. -/
def Tally.bump (t : Tally) (i : Nat) : Nat × Tally :=
  let n := t[i]?.getD 0 + 1
  (n, (t ++ List.replicate (i + 1 - t.length) 0).set i n)

/-- What an interceptor does with a part. Whatever does not apply to a part leaves it alone. -/
inductive Action where
  | nothing
  /-- Rejects every part, or the nth one only. -/
  | reject (status : Status) (nth : Option Nat)
  /-- Adds to the metadata or the trailers. -/
  | add (key value : String)
  /-- Removes from the metadata or the trailers. -/
  | remove (key : String)
  /-- Changes the bytes of a message. -/
  | data (b : Bytes)
  /-- Changes whether a response message is compressed. -/
  | compress (b : Bool)
  /-- Changes the status of an end. -/
  | status (s : Status)
  /-- Replaces the part by another one. -/
  | replace (request : RequestPart) (response : ResponsePart)

/-- An interceptor of a scenario. -/
structure InterceptorPlan where
  name : String
  requests : Bool
  responses : Bool
  /-- The kinds of parts that it acts on. -/
  kinds : List PartKind
  action : Action

/-- The rejection of a part that a name or a value cannot be added to. -/
def rejectInvalid (e : InvalidMetadata) : Status := Status.of .internal e.message

/-- Removes a name, if it is one. -/
def removeKey (m : Metadata) (key : String) : Metadata :=
  match Name.ofString? key with
  | some n => m.remove n
  | none => m

namespace Action

/-- Whether the nth time is the time to reject. -/
def rejectsAt (nth : Option Nat) (n : Nat) : Bool := (nth.map (· == n)).getD true

/-- Acts on a request part for the nth time. -/
def onRequest (a : Action) (n : Nat) (p : RequestPart) : RequestPart × Option Status :=
  match a, p with
  | .reject s nth, p => (p, if rejectsAt nth n then some s else none)
  | .add key value, .metadata m =>
    match m.insertText key value with
    | .ok m => (.metadata m, none)
    | .error e => (p, some (rejectInvalid e))
  | .remove key, .metadata m => (.metadata (removeKey m key), none)
  | .data b, .message _ => (.message b, none)
  | .replace request _, _ => (request, none)
  | _, p => (p, none)

/-- Acts on a response part for the nth time. -/
def onResponse (a : Action) (n : Nat) (p : ResponsePart) : ResponsePart × Option Status :=
  match a, p with
  | .reject s nth, p => (p, if rejectsAt nth n then some s else none)
  | .add key value, .metadata m =>
    match m.insertText key value with
    | .ok m => (.metadata m, none)
    | .error e => (p, some (rejectInvalid e))
  | .add key value, .close s t =>
    match t.insertText key value with
    | .ok t => (.close s t, none)
    | .error e => (p, some (rejectInvalid e))
  | .remove key, .metadata m => (.metadata (removeKey m key), none)
  | .remove key, .close s t => (.close s (removeKey t key), none)
  | .data b, .message _ o => (.message b o, none)
  | .compress b, .message d o => (.message d { o with compress := b }, none)
  | .status s, .close _ t => (.close s t, none)
  | .replace _ response, _ => (response, none)
  | _, p => (p, none)

end Action

/-- A look that acts on some kinds of parts and counts these actions at a place of the tally. -/
def countedLook {P : Type} (i : Nat) (acts : P → Bool) (act : Nat → P → P × Option Status) :
    Look Tally P := fun p t =>
  if acts p then
    let (n, t) := t.bump i
    (act n p, t)
  else ((p, none), t)

/-- The interceptor of a plan, which counts at a place of the tally. -/
def InterceptorPlan.build (i : Nat) (plan : InterceptorPlan) : Interceptor Tally where
  name := plan.name
  request := if plan.requests then
      some (countedLook i (fun p => plan.kinds.contains p.kind) plan.action.onRequest)
    else none
  response := if plan.responses then
      some (countedLook i (fun p => plan.kinds.contains p.kind) plan.action.onResponse)
    else none

/-- The pipeline of some plans. -/
def buildPipeline (plans : List InterceptorPlan) : Pipeline Tally :=
  plans.zipIdx.map fun p => p.1.build p.2

/-- A visit as a line. -/
def visitText (v : Visit) : String :=
  v.name ++ ":" ++ (match v.direction with
    | .request => "req"
    | .response => "resp") ++ ":" ++ v.kind.name

/-- What became of a part that passed a pipeline. -/
structure PassageReport where
  part : AnyPart
  rejection : Option Status
  visits : List String

/-- Passes parts through a pipeline, one after the other. -/
def passParts (l : Pipeline Tally) (parts : List AnyPart) (t : Tally) : List PassageReport :=
  (passAll l.pass parts t).1.map fun r => ⟨r.part, r.rejection, r.visits.map visitText⟩

end CallLifecycle.Scenario
