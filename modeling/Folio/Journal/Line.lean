import Folio.Json.Escape

/-!
# Journal lines

Every event is one line: a JSON object with the name of the event, its level, and its fields in the
order of their keys. Fields with equal keys keep their order.
-/

namespace Folio

/-- How much an event matters. -/
inductive Level where
  | trace
  | info
  | warn
  | error
  | fatal
  deriving DecidableEq

namespace Level

/-- All levels, lowest first. -/
def all : List Level := [.trace, .info, .warn, .error, .fatal]

/-- The name of a level. -/
def text : Level → String
  | .trace => "TRACE"
  | .info => "INFO"
  | .warn => "WARN"
  | .error => "ERROR"
  | .fatal => "FATAL"

/-- The level of that name. -/
def ofText? (s : String) : Option Level := all.find? fun level => level.text == s

/-- The place of a level in the order of levels. -/
def rank : Level → Nat
  | .trace => 0
  | .info => 1
  | .warn => 2
  | .error => 3
  | .fatal => 4

/-- Whether a level reaches a threshold. -/
def reaches (level threshold : Level) : Bool := threshold.rank ≤ level.rank

end Level

namespace Journal

/-- Whether a character is a control. -/
def isControl (c : Char) : Bool := c < ' ' || ('\x7f' ≤ c && c.toNat < 0xA0)

/-- The escapes of journal lines: short ones for quotes, backslashes, line ends and tabs, and codes
for the other controls. -/
def escaping : Json.Escaping where
  short c :=
    if c = '"' then some '"'
    else if c = '\\' then some '\\'
    else if c = '\n' then some 'n'
    else if c = '\r' then some 'r'
    else if c = '\t' then some 't'
    else none
  coded := isControl

/-- A field as it is written. -/
def entry (field : String × String) : List Char :=
  escaping.quote field.1 ++ ':' :: escaping.quote field.2

/-- The fields of a line in the order in which they are written. -/
def arranged (event : String) (level : Level) (fields : List (String × String)) :
    List (String × String) :=
  ("event", event) :: ("severity", level.text) :: fields.mergeSort fun a b => a.1 ≤ b.1

/-- The line of an event, with the line feed at its end. -/
def line (level : Level) (event : String) (fields : List (String × String)) : String :=
  String.ofList
    ('\x7b' :: [','].intercalate ((arranged event level fields).map entry) ++ ['\x7d', '\n'])

end Journal

end Folio
