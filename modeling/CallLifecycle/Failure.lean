import CallLifecycle.Metadata
import CallLifecycle.Status.Code

/-!
# Failures and statuses

A failure is whatever can go wrong with a call. Failures have causes: `Failure.chain` lists a
failure, its cause, the cause of that, and so on. A status is what the peer is told of a failure;
being a failure itself, it can have a cause too.

* `Failure.display`, `Failure.debug` — the two texts of a failure;
* `Failure.recognised` — the status that a failure stands for on its own, if it stands for one;
* `Status.ofFailure` — the status told to the peer: of the first recognised failure of the chain;
  `Status.tryOfFailure` gives a failure back in whose chain none is recognised.
-/

namespace CallLifecycle

/-- The outcome of a call, with a cause of type `ε`. -/
structure Report (ε : Type) where
  code : Code
  message : String := ""
  details : Bytes := []
  metadata : Metadata := {}
  source : Option ε := none

/-- Why a write was refused or did not stay. -/
inductive WriteFailure where
  | alreadyFinished
  | tooManyPendingWrites
  | cancelled
  deriving DecidableEq, Repr

/-- The kinds of failures that an operating system reports. -/
inductive SystemFault where
  | notFound | permissionDenied | connectionRefused | connectionReset | connectionAborted
  | notConnected | addrInUse | addrNotAvailable | brokenPipe | alreadyExists | wouldBlock
  | invalidInput | invalidData | timedOut | writeZero | interrupted | unexpectedEof | unsupported
  | outOfMemory | hostUnreachable | networkUnreachable | networkDown | resourceBusy | deadlock
  | storageFull | other
  deriving DecidableEq, Repr

/-- What can go wrong with a call. -/
inductive Failure where
  /-- A status, as the peer or a part of the program reports it. -/
  | status (report : Report Failure)
  /-- The peer broke the order of the parts. -/
  | violation (reason : String)
  /-- A write was refused or did not stay. -/
  | write (fault : WriteFailure)
  /-- The time of the call ran out. -/
  | deadlineExceeded
  /-- No connection, for the inner reason. -/
  | connect (inner : Failure)
  /-- A fault of the operating system, told by the inner failure if there is one. -/
  | system (fault : SystemFault) (inner : Option Failure)
  /-- A failure that the library knows nothing about but its texts and its cause. -/
  | foreign (display debug : String) (source : Option Failure)

/-- The outcome of a call, as told to the peer. -/
abbrev Status := Report Failure

instance : Inhabited Failure := ⟨.deadlineExceeded⟩

instance : Inhabited Status := ⟨⟨.unknown, "", [], {}, none⟩⟩

namespace WriteFailure

def message : WriteFailure → String
  | alreadyFinished => "writer already finished"
  | tooManyPendingWrites => "too many pending writes"
  | cancelled => "writer cancelled"

def name : WriteFailure → String
  | alreadyFinished => "AlreadyFinished"
  | tooManyPendingWrites => "TooManyPendingWrites"
  | cancelled => "Cancelled"

/-- The code that tells of a refused write. -/
def code : WriteFailure → Code
  | alreadyFinished => .failedPrecondition
  | tooManyPendingWrites => .resourceExhausted
  | cancelled => .cancelled

def all : List WriteFailure := [alreadyFinished, tooManyPendingWrites, cancelled]

end WriteFailure

namespace SystemFault

/-- The name of a fault and its meaning. -/
def texts : SystemFault → String × String
  | notFound => ("NotFound", "entity not found")
  | permissionDenied => ("PermissionDenied", "permission denied")
  | connectionRefused => ("ConnectionRefused", "connection refused")
  | connectionReset => ("ConnectionReset", "connection reset")
  | connectionAborted => ("ConnectionAborted", "connection aborted")
  | notConnected => ("NotConnected", "not connected")
  | addrInUse => ("AddrInUse", "address in use")
  | addrNotAvailable => ("AddrNotAvailable", "address not available")
  | brokenPipe => ("BrokenPipe", "broken pipe")
  | alreadyExists => ("AlreadyExists", "entity already exists")
  | wouldBlock => ("WouldBlock", "operation would block")
  | invalidInput => ("InvalidInput", "invalid input parameter")
  | invalidData => ("InvalidData", "invalid data")
  | timedOut => ("TimedOut", "timed out")
  | writeZero => ("WriteZero", "write zero")
  | interrupted => ("Interrupted", "operation interrupted")
  | unexpectedEof => ("UnexpectedEof", "unexpected end of file")
  | unsupported => ("Unsupported", "unsupported")
  | outOfMemory => ("OutOfMemory", "out of memory")
  | hostUnreachable => ("HostUnreachable", "host unreachable")
  | networkUnreachable => ("NetworkUnreachable", "network unreachable")
  | networkDown => ("NetworkDown", "network down")
  | resourceBusy => ("ResourceBusy", "resource busy")
  | deadlock => ("Deadlock", "deadlock")
  | storageFull => ("StorageFull", "no storage space")
  | other => ("Other", "other error")

def name (f : SystemFault) : String := f.texts.1

def message (f : SystemFault) : String := f.texts.2

def all : List SystemFault :=
  [notFound, permissionDenied, connectionRefused, connectionReset, connectionAborted,
    notConnected, addrInUse, addrNotAvailable, brokenPipe, alreadyExists, wouldBlock,
    invalidInput, invalidData, timedOut, writeZero, interrupted, unexpectedEof, unsupported,
    outOfMemory, hostUnreachable, networkUnreachable, networkDown, resourceBusy, deadlock,
    storageFull, other]

/-- The code that tells of a fault of the operating system. -/
def code : SystemFault → Code
  | brokenPipe | wouldBlock | writeZero | interrupted => .internal
  | connectionRefused | connectionReset | notConnected | addrInUse | addrNotAvailable =>
    .unavailable
  | alreadyExists => .alreadyExists
  | connectionAborted => .aborted
  | invalidData => .dataLoss
  | invalidInput => .invalidArgument
  | notFound => .notFound
  | permissionDenied => .permissionDenied
  | timedOut => .deadlineExceeded
  | unexpectedEof => .outOfRange
  | _ => .unknown

end SystemFault

namespace Failure

mutual

/-- A failure in diagnostics. -/
def debug : Failure → String
  | .status r => debugReport r
  | .violation reason => Text.record "ProtocolViolation" [("reason", Text.quote reason)]
  | .write f => f.name
  | .deadlineExceeded => "DeadlineExceeded"
  | .connect inner => "ConnectError(" ++ debug inner ++ ")"
  | .system f none => "Kind(" ++ f.name ++ ")"
  | .system f (some inner) =>
    Text.record "Custom" [("kind", f.name), ("error", debug inner)]
  | .foreign _ d _ => d

/-- A status in diagnostics: what is empty is not shown, the cause always is. -/
def debugReport : Report Failure → String
  | ⟨code, message, details, metadata, source⟩ =>
    Text.record "Status" <|
      [("code", code.name)]
      ++ (if message.isEmpty then [] else [("message", Text.quote message)])
      ++ (if details.isEmpty then [] else [("details", Text.quoteBytes details)])
      ++ (if metadata.isEmpty then [] else [("metadata", metadata.debug)])
      ++ [("source", debugSource source)]

/-- A cause in diagnostics. -/
def debugSource : Option Failure → String
  | none => "None"
  | some e => "Some(" ++ debug e ++ ")"

end

/-- A status as a sentence. -/
def displayReport (r : Report Failure) : String :=
  "code: '" ++ r.code.description ++ "'"
    ++ (if r.message.isEmpty then "" else ", message: " ++ Text.quote r.message)
    ++ (if r.metadata.isEmpty then "" else ", metadata: " ++ r.metadata.debug)
    ++ (match r.source with
      | none => ""
      | some e => ", source: " ++ e.debug)

/-- A failure as a sentence. -/
def display : Failure → String
  | .status r => displayReport r
  | .violation reason => "protocol violation: " ++ reason
  | .write f => f.message
  | .deadlineExceeded => "deadline exceeded before the call completed"
  | .connect inner => display inner
  | .system f none => f.message
  | .system _ (some inner) => display inner
  | .foreign d _ _ => d

/-- The cause of a failure. A fault of the operating system speaks for its inner failure, so its
cause is that failure's. -/
def source : Failure → Option Failure
  | .status r => r.source
  | .connect inner => some inner
  | .system _ (some inner) => source inner
  | .foreign _ _ s => s
  | _ => none

theorem sizeOf_source_lt {e s : Failure} (h : e.source = some s) : sizeOf s < sizeOf e := by
  fun_induction source e with
  | case1 r =>
    obtain ⟨_, _, _, _, src⟩ := r
    simp only at h
    subst h
    simp
    omega
  | case2 inner => simp_all
  | case3 _ inner ih => have := ih h; simp; omega
  | case4 _ _ src => subst h; simp; omega
  | case5 => simp at h

/-- A failure, its cause, the cause of that, and so on. -/
def chain (e : Failure) : List Failure :=
  e :: match h : e.source with
    | none => []
    | some s => have := sizeOf_source_lt h; chain s
  termination_by sizeOf e

theorem chain_of_source_some {e s : Failure} (h : e.source = some s) :
    e.chain = e :: s.chain := by
  rw [chain]; split <;> simp_all

/-- A failure that is only a text. -/
def text (message : String) : Failure := .foreign message (Text.quote message) none

/-- The status that a failure stands for on its own, whatever its cause. -/
def recognised : Failure → Option Status
  | .status r => some { r with source := none }
  | e@(.violation _) => some { code := .internal, message := e.display }
  | .write f => some { code := f.code, message := f.message }
  | e@.deadlineExceeded => some { code := .deadlineExceeded, message := e.display }
  | e@(.connect _) => some { code := .unavailable, message := e.display }
  | e@(.system f _) => some { code := f.code, message := e.display }
  | .foreign .. => none

/-- What the chain of a failure is told as: the first failure of it that stands for a status. -/
def told (e : Failure) : Option Status := e.chain.findSome? recognised

end Failure

namespace Status

/-- A status of a code and a message. -/
def of (code : Code) (message : String) : Status := { code, message }

/-- A status that tells of success. -/
def isOk (s : Status) : Bool := s.code = .ok

/-- The status of a failure, if something in its chain is recognised; else the failure is given back.
A status is told as it is; any other failure becomes the cause of the status it is told as. -/
def tryOfFailure : Failure → Except Failure Status
  | .status s => .ok s
  | e =>
    match e.told with
    | some s => .ok { s with source := some e }
    | none => .error e

/-- The status of a failure; one that nothing recognises is told by its text. -/
def ofFailure (e : Failure) : Status :=
  match tryOfFailure e with
  | .ok s => s
  | .error e => { code := .unknown, message := e.display, source := some e }

/-- A failure that stands for a status on its own, and is none, is told as that status. -/
theorem ofFailure_of_recognised {e : Failure} {r : Status} (h : e.recognised = some r)
    (other : ∀ report, e ≠ .status report) : ofFailure e = { r with source := some e } := by
  have told : e.told = some r := by rw [Failure.told, Failure.chain, List.findSome?_cons, h]
  cases e with
  | status report => exact absurd rfl (other report)
  | _ => simp only [ofFailure, tryOfFailure, told]

theorem isOk_ofFailure_connect (e : Failure) : (ofFailure (.connect e)).isOk = false := by
  rw [ofFailure_of_recognised rfl (by simp)]
  rfl

theorem code_ofFailure_violation (reason : String) : (ofFailure (.violation reason)).code = .internal := by
  rw [ofFailure_of_recognised rfl (by simp)]

theorem isOk_ofFailure_violation (reason : String) : (ofFailure (.violation reason)).isOk = false := by
  rw [isOk, code_ofFailure_violation]
  rfl

theorem code_ofFailure_deadlineExceeded : (ofFailure .deadlineExceeded).code = .deadlineExceeded := by
  rw [ofFailure_of_recognised rfl (by simp)]

theorem isOk_ofFailure_deadlineExceeded : (ofFailure .deadlineExceeded).isOk = false := by
  rw [isOk, code_ofFailure_deadlineExceeded]
  rfl

/-- The causes of a status. -/
def causes (s : Status) : List Failure := (Failure.status s).chain.tail

end Status

end CallLifecycle
