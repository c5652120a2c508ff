import Leasehold.Config.Schema
import Leasehold.Json.Writer
import Leasehold.Log.Context
import Leasehold.Log.Entry
import Leasehold.Log.Threshold

/-! # Log lines

An `Output` fixes which entries are written, and how: as JSON, or as coloured text for a terminal. A
line carries the log context, the name of the service and the fields of its entry; of two fields
with one name the later in that order counts, and the event, the level and the time are always the
entry's own. -/

namespace Leasehold.Log

/-- A way to write entries. Entries below `threshold` are not written. -/
structure Output where
  threshold : Int
  isJson : Bool
  service : Value

namespace Output

def defaultService : String := "lock-service"

/-- The output of a level, a format and a service name. A level must be a text; every format but
`json` is text. -/
def ofValues (level format service : Value) : Except Fault Output := do
  match level with
  | .text name => return ⟨← Threshold.ofName name, format.text? = some "json", service⟩
  | v => throw (.withoutMember v.kind "upper")

def ofSection (s : Config.LogSection) : Except Fault Output :=
  ofValues (.text s.level) (.text s.format) (.text defaultService)

def admits (o : Output) (e : Entry) : Bool := o.threshold ≤ e.level.severity

/-- The fields of a line, its event, level and time apart. -/
def fields (o : Output) (context : Context) (e : Entry) : Value.Fields :=
  let all := (Assoc.put context "service" o.service).putAll e.fields
  all.drop ["event", "level", "timestamp"].contains

/-- The line as JSON. The fields that ask for the fault or the calls behind an entry are not
shown. -/
def jsonLine (o : Output) (time : String) (context : Context) (e : Entry) : String :=
  let shown := (o.fields context e).drop ["exc_info", "stack_info"].contains
  let own : Value.Fields :=
    [("event", .text e.event), ("level", .text e.level.name), ("timestamp", .text time)]
  Json.render (.map (shown ++ own))

/-- Switches the terminal to a rendition. -/
def rendition (code : String) : String := "\x1b[" ++ code ++ "m"

def reset : String := rendition "0"
def bold : String := rendition "1"
def dim : String := rendition "2"
def red : String := rendition "31"
def green : String := rendition "32"
def yellow : String := rendition "33"
def blue : String := rendition "34"
def magenta : String := rendition "35"
def cyan : String := rendition "36"

def color : Level → String
  | .debug | .info => green
  | .warning => yellow
  | .error | .critical => red

def pad (width : Nat) (s : String) : String := s ++ String.ofList (List.replicate (width - s.length) ' ')

/-- The characters that a text must not hold to stand without quotes. -/
def isDelicate (c : Char) : Bool := [' ', '\t', '=', '\r', '\n', '"', '\''].contains c

def shown : Value → String
  | .text s => if s.toList.any isDelicate then Text.quoted s else s
  | v => v.written

def fieldText (field : String × Value) : String :=
  " " ++ cyan ++ field.1 ++ reset ++ "=" ++ magenta ++ shown field.2 ++ reset

def nameText (v : Value) : String := " [" ++ reset ++ bold ++ blue ++ v.plain ++ reset ++ "]" ++ reset

/-- What the fields of an entry tell of the calls and the fault behind it, on lines of their own. -/
def reports (fields : Value.Fields) : String :=
  match fields.find? "stack", fields.find? "exception" with
  | some calls, some fault =>
    "\n" ++ calls.plain ++ "\n\n" ++ String.ofList (List.replicate 79 '=') ++ "\n\n" ++ fault.plain
  | some calls, none => "\n" ++ calls.plain
  | none, some fault => "\n" ++ fault.plain
  | none, none => ""

/-- The line as text: the names of the log first, then the other fields in the order of their
names. -/
def textLine (o : Output) (time : String) (context : Context) (e : Entry) : String :=
  let all := (o.fields context e).drop ["exc_info"].contains
  let names := ["logger", "logger_name"]
  let named := names.filterMap all.find?
  let rest := all.drop (names ++ ["stack", "exception"]).contains
  let sorted := rest.mergeSort fun a b => a.1 ≤ b.1
  dim ++ time ++ reset ++ " [" ++ color e.level ++ bold ++ pad 9 e.level.name ++ reset ++ "] "
    ++ bold ++ pad 30 e.event ++ reset ++ String.join (named.map nameText)
    ++ String.join (sorted.map fieldText)
    ++ reports (all.filter fun f => !Context.isNull f.2)

def line? (o : Output) (time : String) (context : Context) (e : Entry) : Option String :=
  if o.admits e then
    some (if o.isJson then o.jsonLine time context e else o.textLine time context e)
  else none

/-- The lines of entries. An entry with a field that names a part of its own call is refused,
written or not. -/
def lines (o : Output) (time : String) (context : Context) : List Entry → Except Fault (List String)
  | [] => .ok []
  | e :: es => do
    if let some f := e.refused? then throw f
    return (o.line? time context e).toList ++ (← o.lines time context es)

end Output

end Leasehold.Log
