import CallLifecycle.Failure
import CallLifecycle.Json.Value

/-!
# Codecs

A codec turns messages into bytes and bytes into messages. It may remember things from one message
to the next: its memory is a part of the surroundings `σ` of a call.

* `Codec.bytes` — messages that are byte strings already;
* `Codec.json` — messages written as JSON, each type by its `Json.Shape`.
-/

namespace CallLifecycle

/-- Writes messages of type `Out` and reads messages of type `In`. -/
structure Codec (σ Out In : Type) where
  encode : Out → StateM σ (Except Status Bytes)
  decode : Bytes → StateM σ (Except Status In)

/-- How values of a type are written and read as JSON. Writing may be refused, with a reason. -/
structure Json.Shape (α : Type) where
  write : α → Except String String
  read : Json.Reader α

namespace Json.Shape

/-- Texts. -/
def text : Json.Shape String where
  write s := .ok (Json.writeText s)
  read := Json.Reader.string

/-- Whole numbers of 32 bits. -/
def word : Json.Shape Nat where
  write n := .ok (toString n)
  read := Json.Reader.word32

/-- Lists of texts. -/
def texts : Json.Shape (List String) where
  write l := .ok ("[" ++ ",".intercalate (l.map Json.writeText) ++ "]")
  read := Json.Reader.list Json.Reader.string

end Json.Shape

namespace Codec

variable {σ : Type}

/-- Byte strings as they are. -/
def bytes : Codec σ Bytes Bytes where
  encode b := pure (.ok b)
  decode b := pure (.ok b)

/-- Writes a value, or tells why it was refused. -/
def write {α : Type} (shape : Json.Shape α) (a : α) : Except Status Bytes :=
  match shape.write a with
  | .ok s => .ok (Bytes.ofString s)
  | .error reason => .error (Status.of .internal ("failed to encode json message: " ++ reason))

/-- Reads a value, or tells what is wrong with its text. -/
def read {α : Type} (shape : Json.Shape α) (b : Bytes) : Except Status α :=
  match Json.decode shape.read b with
  | .ok a => .ok a
  | .error e => .error (Status.of .internal ("failed to decode json message: " ++ e.message))

/-- Messages written as JSON. -/
def json {Out In : Type} (out : Json.Shape Out) (inn : Json.Shape In) : Codec σ Out In where
  encode a := pure (write out a)
  decode b := pure (read inn b)

end Codec

end CallLifecycle
