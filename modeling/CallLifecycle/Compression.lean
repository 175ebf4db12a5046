/-!
# Compression of single messages

A message is compressed if compression is on for the whole call and either the message asks for it
or it leaves the choice to a call that asks for it.
-/

namespace CallLifecycle

/-- What a message asks for. -/
inductive CompressionChoice where
  | inherit
  | enable
  | disable
  deriving DecidableEq, Repr, Inhabited

namespace CompressionChoice

def ofBool (b : Bool) : CompressionChoice := if b then enable else disable

/-- Settles a choice that is left to the call. -/
def resolve (c : CompressionChoice) (default : Bool) : Bool :=
  match c with
  | inherit => default
  | enable => true
  | disable => false

def name : CompressionChoice → String
  | inherit => "Inherit"
  | enable => "Enable"
  | disable => "Disable"

end CompressionChoice

/-- Whether a message is compressed. -/
def shouldCompress (enabled : Bool) (choice : CompressionChoice) (default : Bool) : Bool :=
  enabled && choice.resolve default

end CallLifecycle
