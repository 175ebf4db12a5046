import CallLifecycle.Text.Bytes
import CallLifecycle.Text.Unseen

/-!
# Quoted text in diagnostics

Three kinds of values are written between quotes in diagnostic texts, each with escapes of its own:

* `Text.quote` — a text: the quote, the backslash and all that is not seen are escaped;
* `Bytes.quote` — a byte string: everything outside the visible characters is escaped;
* `Text.quoteValue` — a metadata value: only its quotes and its invisible bytes are escaped.
-/

namespace CallLifecycle.Text

/-- One character of a quoted text. -/
def escapeChar (c : Char) : String :=
  if c = '"' then "\\\""
  else if c = '\\' then "\\\\"
  else if c = '\n' then "\\n"
  else if c = '\r' then "\\r"
  else if c = '\t' then "\\t"
  else if c.toNat = 0 then "\\0"
  else if isUnseen c then "\\u\x7b" ++ hexText c.toNat ++ "\x7d"
  else c.toString

/-- A text between quotes. -/
def quote (s : String) : String := "\"" ++ String.join (s.toList.map escapeChar) ++ "\""

/-- One byte of a quoted byte string. -/
def escapeByte (b : UInt8) : String :=
  if b = 34 then "\\\""
  else if b = 92 then "\\\\"
  else if b = 10 then "\\n"
  else if b = 13 then "\\r"
  else if b = 9 then "\\t"
  else if b = 0 then "\\0"
  else if 32 ≤ b && b < 127 then (Char.ofNat b.toNat).toString
  else "\\x" ++ hexByte b

/-- A byte string between quotes, marked as such. -/
def quoteBytes (b : Bytes) : String := "b\"" ++ String.join (b.map escapeByte) ++ "\""

/-- One byte of a quoted metadata value: a backslash stands for itself. -/
def escapeValueByte (b : UInt8) : String :=
  if b = 34 then "\\\""
  else if (32 ≤ b && b < 127) || b = 9 then (Char.ofNat b.toNat).toString
  else "\\x" ++ hexText b.toNat

/-- A metadata value between quotes. -/
def quoteValue (b : Bytes) : String := "\"" ++ String.join (b.map escapeValueByte) ++ "\""

/-- A record in diagnostics: its name and its fields in order. -/
def record (name : String) (fields : List (String × String)) : String :=
  if fields.isEmpty then name
  else name ++ " \x7b " ++ ", ".intercalate (fields.map fun f => f.1 ++ ": " ++ f.2) ++ " \x7d"

/-- A record of which some fields are not shown. -/
def partialRecord (name : String) (fields : List (String × String)) : String :=
  name ++ " \x7b " ++ String.join (fields.map fun f => f.1 ++ ": " ++ f.2 ++ ", ") ++ ".. \x7d"

/-- A truth value in diagnostics. -/
def flag (b : Bool) : String := if b then "true" else "false"

/-- A value that may be missing, in diagnostics. -/
def optional {α : Type} (text : α → String) : Option α → String
  | none => "None"
  | some a => "Some(" ++ text a ++ ")"

end CallLifecycle.Text
