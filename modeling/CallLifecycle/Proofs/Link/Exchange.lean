import CallLifecycle.Proofs.Client.Responses
import CallLifecycle.Proofs.Server.Requests

/-!
# Calls that are connected

A call of a client is connected with a call of a server by a transport. Either takes its steps by itself; the transport
hands every part over, in the order in which the parts were sent, and each as late as it likes.

* `Connection` — the two calls before their first steps, and the transport;
* `Exchange` — the runs of the two, whatever the order of their steps is;
* `Exchange.orderly` — the client's side is a run in order;
* `Exchange.carried`, `Exchange.brought` — what was handed over is the beginning of what was sent;
* `Exchange.starts`, `Exchange.uses`, `Exchange.serves`, `Exchange.carries`, `Exchange.brings` — exchanges that take
  place.
-/

namespace CallLifecycle

def Client.Effect.isCancelled {W : Type} : Client.Effect W → Bool
  | .cancelled => true
  | _ => false

/-- A step that a client takes while no part is handed to it; only a faulty transport fails its call. -/
def Client.Act.isFree {Out W : Type} (faulty : Bool) : Client.Act Out W → Bool
  | .routed (.part _) => false
  | .routed (.failure _) | .refused _ => faulty
  | _ => true

/-- A step that a server takes while no part is handed to it. Its transport tells it whether it can be written to, and
may forget it. A stream that the client `cancelled` is finished; only a faulty transport finishes or fails a call by
itself. -/
def Server.Act.isFree {Out W : Type} (faulty cancelled : Bool) : Server.Act Out W → Bool
  | .submit (.part _) => false
  | .submit .finish => faulty || cancelled
  | .submit (.error _) => faulty
  | _ => true

/-- A call of a client and a call of a server that are connected. -/
structure Connection (σ Out In τ Res Req : Type) where
  client : Client.Setup σ Out In
  shape : Client.Shape
  /-- The request message, if there is to be just one. -/
  request : Out
  /-- The client can start tasks. -/
  runtime : Bool
  here : σ
  server : Server.Setup τ Res Req
  there : τ
  /-- The transport may fail the calls by itself. -/
  faulty : Bool

namespace Connection

variable {σ Out In W τ Res Req V : Type} [DecidableEq W] [DecidableEq V]

omit [DecidableEq W] in
def clientStart (l : Connection σ Out In τ Res Req) : Client.Call σ Out In W :=
  .new l.client l.shape l.runtime l.here

omit [DecidableEq V] in
def serverStart (l : Connection σ Out In τ Res Req) : Server.Call τ Res Req V := .new l.server l.there

def clientAfter (l : Connection σ Out In τ Res Req) (acts : List (Client.Act Out W)) : Client.Call σ Out In W :=
  run (Client.Call.step l.client) l.clientStart acts

def serverAfter (l : Connection σ Out In τ Res Req) (acts : List (Server.Act Res V)) : Server.Call τ Res Req V :=
  run (Server.Call.step l.server) l.serverStart acts

theorem clientAfter_snoc (l : Connection σ Out In τ Res Req) (acts : List (Client.Act Out W)) (a : Client.Act Out W) :
    l.clientAfter (acts ++ [a]) = (l.clientAfter acts).step l.client a := by
  simp [clientAfter]

theorem serverAfter_snoc (l : Connection σ Out In τ Res Req) (acts : List (Server.Act Res V)) (a : Server.Act Res V) :
    l.serverAfter (acts ++ [a]) = (l.serverAfter acts).step l.server a := by
  simp [serverAfter]

end Connection

open Client (routedParts Stage)
open Server (submittedParts)

section Exchange

variable {σ Out In W τ Res Req V : Type} [DecidableEq W] [DecidableEq V]

/-- The steps that two connected calls took, and how far the client is with the start of its own. -/
inductive Exchange (l : Connection σ Out In τ Res Req) :
    List (Client.Act Out W) → Stage → List (Server.Act Res V) → Prop
  | nil : Exchange l [] .unopened []
  | client {near : List (Client.Act Out W)} {stage next : Stage} {far : List (Server.Act Res V)} {a : Client.Act Out W}
      (h : Exchange l near stage far) (follows : Client.Follows l.shape l.request stage a next)
      (free : a.isFree l.faulty = true) : Exchange l (near ++ [a]) next far
  | server {near : List (Client.Act Out W)} {stage : Stage} {far : List (Server.Act Res V)} {a : Server.Act Res V}
      (h : Exchange l near stage far)
      (free : a.isFree l.faulty ((l.clientAfter near).trace.any Client.Effect.isCancelled) = true) :
      Exchange l near stage (far ++ [a])
  /-- The next request part is handed to the server. -/
  | carry {near : List (Client.Act Out W)} {stage : Stage} {far : List (Server.Act Res V)} {p : RequestPart}
      (h : Exchange l near stage far) (next : submittedParts far ++ [p] <+: (l.clientAfter near).sent) :
      Exchange l near stage (far ++ [.submit (.part p)])
  /-- The next response part is handed to the client. -/
  | bring {near : List (Client.Act Out W)} {stage : Stage} {far : List (Server.Act Res V)} {p : ResponsePart}
      (h : Exchange l near stage far) (next : routedParts near ++ [p] <+: (l.serverAfter far).sent) :
      Exchange l (near ++ [.routed (.part p)]) stage far

variable {l : Connection σ Out In τ Res Req} {near : List (Client.Act Out W)} {stage : Stage}
  {far : List (Server.Act Res V)}

theorem Exchange.orderly (h : Exchange l near stage far) : Client.Orderly l.shape l.request near stage := by
  induction h with
  | nil => exact .nil
  | client _ follows _ ih => exact ih.snoc follows
  | server _ _ ih => exact ih
  | carry _ _ ih => exact ih
  | bring _ _ ih => exact ih.snoc (.outside rfl)

theorem Exchange.ledger (h : Exchange l near stage far) :
    ∃ said done phase, Client.Call.Ledger l.client l.shape stage (l.clientAfter near) (.finish ∈ near)
      (l.clientStart.accepted l.client near) said done phase :=
  Client.Call.ledger_of_orderly l.client l.runtime l.here h.orderly

theorem sent_clientAfter_snoc (l : Connection σ Out In τ Res Req) (near : List (Client.Act Out W))
    (a : Client.Act Out W) : (l.clientAfter near).sent <+: (l.clientAfter (near ++ [a])).sent := by
  rw [l.clientAfter_snoc]
  exact Client.Call.sent_step l.client _ a

theorem ledger_serverAfter (l : Connection σ Out In τ Res Req) (far : List (Server.Act Res V)) :
    ∃ said done, Server.Call.Ledger l.server (l.serverAfter far) (l.serverStart.accepted l.server far) said done :=
  Server.Call.ledger_after l.server l.there far

theorem intake_serverAfter (l : Connection σ Out In τ Res Req) (far : List (Server.Act Res V)) :
    Server.Call.Intake l.server (l.serverAfter far) (l.serverStart.handed l.server far)
      (l.serverStart.lookedAt l.server far) (l.serverStart.received l.server far) (l.serverStart.read l.server far)
      (l.serverStart.reported l.server far) :=
  Server.Call.intake_after l.server l.there far

theorem sent_serverAfter_snoc (l : Connection σ Out In τ Res Req) (far : List (Server.Act Res V))
    (a : Server.Act Res V) : (l.serverAfter far).sent <+: (l.serverAfter (far ++ [a])).sent := by
  obtain ⟨said, done, ledger⟩ := ledger_serverAfter l far
  rw [l.serverAfter_snoc]
  exact Server.Call.sent_step ledger a

theorem Exchange.carried (h : Exchange l near stage far) : submittedParts far <+: (l.clientAfter near).sent := by
  induction h with
  | nil => exact List.nil_prefix
  | client _ _ _ ih => exact ih.trans (sent_clientAfter_snoc l _ _)
  | @server near stage far a _ free ih =>
    have nothing : submittedParts [a] = [] := by
      cases a with
      | submit i => cases i <;> first | rfl | cases free
      | _ => rfl
    rw [Server.submittedParts_append, nothing, List.append_nil]
    exact ih
  | carry _ next _ =>
    rw [Server.submittedParts_append]
    exact next
  | bring _ _ ih => exact ih.trans (sent_clientAfter_snoc l _ _)

theorem Exchange.brought (h : Exchange l near stage far) : routedParts near <+: (l.serverAfter far).sent := by
  induction h with
  | nil => exact List.nil_prefix
  | @client near stage next far a _ _ free ih =>
    have nothing : routedParts [a] = [] := by
      cases a with
      | routed r => cases r <;> first | rfl | cases free
      | _ => rfl
    rw [Client.routedParts_append, nothing, List.append_nil]
    exact ih
  | server _ _ ih => exact ih.trans (sent_serverAfter_snoc l _ _)
  | carry _ _ ih => exact ih.trans (sent_serverAfter_snoc l _ _)
  | bring _ next _ =>
    rw [Client.routedParts_append]
    exact next

/-! ## exchanges that take place -/

theorem Exchange.starts (l : Connection σ Out In τ Res Req) :
    Exchange l (Client.Call.beginning l.shape l.request [] none : List (Client.Act Out W)) .started
      ([] : List (Server.Act Res V)) := by
  have opened : Exchange l (Client.Call.opening [] none : List (Client.Act Out W)) .greeted
      ([] : List (Server.Act Res V)) :=
    (((Exchange.nil.client (.opens .opening) rfl).client (.opens .connected) rfl).client (.opens .arm) rfl).client
      (.opens .metadata) rfl
  unfold Client.Call.beginning
  cases streams : l.shape.streamsRequests
  · have closed := (opened.client (.opens (.message streams)) rfl).client (.opens (.close streams)) rfl
    simpa using closed
  · exact opened.client (.opens (.writer streams)) rfl

theorem Exchange.uses (h : Exchange l near .started far) {acts : List (Client.Act Out W)}
    (use : acts.all (fun a => a.isUse l.shape && a.isFree l.faulty) = true) :
    Exchange l (near ++ acts) .started far := by
  induction acts using List.reverseRecOn with
  | nil => simpa using h
  | append_singleton acts a ih =>
    simp only [List.all_append, List.all_cons, List.all_nil, Bool.and_true, Bool.and_eq_true] at use
    obtain ⟨uses, use, free⟩ := use
    rw [← List.append_assoc]
    exact (ih uses).client (.use use) free

theorem Exchange.serves (h : Exchange l near stage far) {acts : List (Server.Act Res V)}
    (free : acts.all (Server.Act.isFree l.faulty ((l.clientAfter near).trace.any Client.Effect.isCancelled)) = true) :
    Exchange l near stage (far ++ acts) := by
  induction acts using List.reverseRecOn with
  | nil => simpa using h
  | append_singleton acts a ih =>
    simp only [List.all_append, List.all_cons, List.all_nil, Bool.and_true, Bool.and_eq_true] at free
    obtain ⟨frees, free⟩ := free
    rw [← List.append_assoc]
    exact (ih frees).server free

theorem Exchange.carries (h : Exchange l near stage far) (ps : List RequestPart)
    (next : submittedParts far ++ ps <+: (l.clientAfter near).sent) :
    Exchange l near stage (far ++ ps.map fun p => .submit (.part p)) := by
  induction ps using List.reverseRecOn with
  | nil => simpa using h
  | append_singleton ps p ih =>
    rw [← List.append_assoc] at next
    rw [List.map_append, ← List.append_assoc]
    have before := ih ((List.prefix_append _ _).trans next)
    refine before.carry ?_
    rw [Server.submittedParts_append]
    simpa [submittedParts, List.filterMap_map, Function.comp_def] using next

theorem Exchange.brings (h : Exchange l near stage far) (ps : List ResponsePart)
    (next : routedParts near ++ ps <+: (l.serverAfter far).sent) :
    Exchange l (near ++ ps.map fun p => .routed (.part p)) stage far := by
  induction ps using List.reverseRecOn with
  | nil => simpa using h
  | append_singleton ps p ih =>
    rw [← List.append_assoc] at next
    rw [List.map_append, ← List.append_assoc]
    have before := ih ((List.prefix_append _ _).trans next)
    refine before.bring ?_
    rw [Client.routedParts_append]
    simpa [routedParts, List.filterMap_map, Function.comp_def] using next

end Exchange

end CallLifecycle
