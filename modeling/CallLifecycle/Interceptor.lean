import CallLifecycle.Part

/-!
# Interceptors

An interceptor looks at the parts of a call. It may change a part, replace it or reject it with a
status, and it may remember what it saw: its memory is a part of the surroundings `σ` of a call.

* `Pipeline.request` — a request part passes the interceptors in their order;
* `Pipeline.response` — a response part passes them in reverse;
* `Assembly` — interceptors grouped at will, and `Assembly.leaves`, the same without the groups;
* `passAll` — parts of either direction pass one after the other.

A passage tells the part as it stands at its end, the rejection that stopped it, if any, and which
interceptors were visited.
-/

namespace CallLifecycle

/-- What an interceptor does with a part: the part it leaves, and its rejection. -/
abbrev Look (σ P : Type) := P → σ → (P × Option Status) × σ

/-- An interceptor; it need not look at both directions. -/
structure Interceptor (σ : Type) where
  name : String
  request : Option (Look σ RequestPart)
  response : Option (Look σ ResponsePart)

/-- A look of a named interceptor at a part. -/
structure Visit where
  name : String
  direction : Direction
  kind : PartKind
  deriving DecidableEq, Repr

/-- What became of a part on its way through interceptors. -/
structure Passage (P : Type) where
  part : P
  rejection : Option Status := none
  visits : List Visit := []

/-- The same way of another part. -/
def Passage.map {P Q : Type} (f : P → Q) (r : Passage P) : Passage Q := ⟨f r.part, r.rejection, r.visits⟩

/-- Passes parts one after the other, each in the surroundings that those before it left. -/
def passAll {σ P : Type} (pass : P → σ → Passage P × σ) : List P → σ → List (Passage P) × σ
  | [], s => ([], s)
  | p :: rest, s =>
    let (r, s) := pass p s
    let (rs, s) := passAll pass rest s
    (r :: rs, s)

/-- Passes a part of either direction on the way of its direction. -/
def passAny {σ : Type} (request : RequestPart → σ → Passage RequestPart × σ)
    (response : ResponsePart → σ → Passage ResponsePart × σ) : AnyPart → σ → Passage AnyPart × σ
  | .request p, s => ((request p s).1.map .request, (request p s).2)
  | .response p, s => ((response p s).1.map .response, (response p s).2)

/-- Passes a part through looks, one after the other, up to the first rejection. -/
def passLooks {σ P : Type} : List (Look σ P × (P → Visit)) → P → σ → Passage P × σ
  | [], p, s => ({ part := p }, s)
  | (look, visit) :: rest, p, s =>
    match look p s with
    | ((q, some status), s) => ({ part := q, rejection := some status, visits := [visit p] }, s)
    | ((q, none), s) =>
      let (passage, s) := passLooks rest q s
      ({ passage with visits := visit p :: passage.visits }, s)

namespace Interceptor

variable {σ : Type}

/-- The look at requests, if the interceptor looks at them. -/
def requestLook (i : Interceptor σ) : Option (Look σ RequestPart × (RequestPart → Visit)) :=
  i.request.map fun f => (f, fun p => ⟨i.name, .request, p.kind⟩)

/-- The look at responses, if the interceptor looks at them. -/
def responseLook (i : Interceptor σ) : Option (Look σ ResponsePart × (ResponsePart → Visit)) :=
  i.response.map fun f => (f, fun p => ⟨i.name, .response, p.kind⟩)

end Interceptor

/-- Interceptors in the order in which requests pass them. -/
abbrev Pipeline (σ : Type) := List (Interceptor σ)

namespace Pipeline

variable {σ : Type}

/-- Passes a request part through the pipeline. -/
def request (l : Pipeline σ) (p : RequestPart) (s : σ) : Passage RequestPart × σ :=
  passLooks (l.filterMap Interceptor.requestLook) p s

/-- Passes a response part through the pipeline, against its order. -/
def response (l : Pipeline σ) (p : ResponsePart) (s : σ) : Passage ResponsePart × σ :=
  passLooks (l.reverse.filterMap Interceptor.responseLook) p s

/-- Passes a part of either direction through the pipeline. -/
def pass (l : Pipeline σ) : AnyPart → σ → Passage AnyPart × σ := passAny l.request l.response

def debug (l : Pipeline σ) : String :=
  Text.record "InterceptorPipeline" [("interceptors", toString l.length)]

end Pipeline

/-- Interceptors that are grouped: a group stands where a single interceptor may stand, and a shared
one is the same interceptor. -/
inductive Assembly (σ : Type) where
  | single (i : Interceptor σ)
  | shared (a : Assembly σ)
  | group (members : List (Assembly σ))

namespace Assembly

variable {σ : Type}

/-- Goes on with a passage unless it was stopped. -/
def andThen {P : Type} (first : Passage P × σ) (next : P → σ → Passage P × σ) : Passage P × σ :=
  match first with
  | (p, s) =>
    match p.rejection with
    | some _ => (p, s)
    | none =>
      let (q, s) := next p.part s
      ({ q with visits := p.visits ++ q.visits }, s)

mutual

/-- Passes a request part through an assembly. -/
def request : Assembly σ → RequestPart → σ → Passage RequestPart × σ
  | .single i, p, s => passLooks i.requestLook.toList p s
  | .shared a, p, s => request a p s
  | .group members, p, s => requestAll members p s

/-- Passes a request part through the members of a group. -/
def requestAll : List (Assembly σ) → RequestPart → σ → Passage RequestPart × σ
  | [], p, s => ({ part := p }, s)
  | a :: rest, p, s => andThen (request a p s) (requestAll rest)

end

mutual

/-- Passes a response part through an assembly. -/
def response : Assembly σ → ResponsePart → σ → Passage ResponsePart × σ
  | .single i, p, s => passLooks i.responseLook.toList p s
  | .shared a, p, s => response a p s
  | .group members, p, s => responseAll members p s

/-- Passes a response part through the members of a group, the last one first. -/
def responseAll : List (Assembly σ) → ResponsePart → σ → Passage ResponsePart × σ
  | [], p, s => ({ part := p }, s)
  | a :: rest, p, s => andThen (responseAll rest p s) (response a)

end

/-- Passes a part of either direction through an assembly. -/
def pass (a : Assembly σ) : AnyPart → σ → Passage AnyPart × σ := passAny a.request a.response

mutual

/-- The interceptors of an assembly, in order and without the groups. -/
def leaves : Assembly σ → Pipeline σ
  | .single i => [i]
  | .shared a => leaves a
  | .group members => leavesAll members

/-- The interceptors of the members of a group. -/
def leavesAll : List (Assembly σ) → Pipeline σ
  | [] => []
  | a :: rest => leaves a ++ leavesAll rest

end

end Assembly

end CallLifecycle
