import CallLifecycle.Failure

/-!
# The parts of a call

A call is told in parts, in either direction: metadata, messages, and the close of the direction. A
response closes with a status and further metadata, the trailers.
-/

namespace CallLifecycle

/-- The kinds of parts. -/
inductive PartKind where
  | metadata
  | message
  | close
  deriving DecidableEq, Repr

def PartKind.name : PartKind → String
  | .metadata => "metadata"
  | .message => "message"
  | .close => "end"

/-- The two directions in which parts travel. -/
inductive Direction where
  | request
  | response
  deriving DecidableEq, Repr

/-- How a message is to be sent. -/
structure SendOptions where
  compress : Bool := false
  flush : Bool := true
  deriving DecidableEq, Repr

/-- A part on its way from the client to the server. -/
inductive RequestPart where
  | metadata (m : Metadata)
  | message (data : Bytes)
  | close
  deriving DecidableEq

/-- A part on its way from the server to the client. -/
inductive ResponsePart where
  | metadata (m : Metadata)
  | message (data : Bytes) (options : SendOptions)
  | close (status : Status) (trailers : Metadata)

/-- A part of either direction. -/
inductive AnyPart where
  | request (p : RequestPart)
  | response (p : ResponsePart)

def RequestPart.kind : RequestPart → PartKind
  | .metadata _ => .metadata
  | .message _ => .message
  | .close => .close

def ResponsePart.kind : ResponsePart → PartKind
  | .metadata _ => .metadata
  | .message .. => .message
  | .close .. => .close

end CallLifecycle
