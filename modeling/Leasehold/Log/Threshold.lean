import Leasehold.Fault

/-! # Thresholds

The severity from which on entries are written is set by name, in any case. Unknown names stand for
`INFO`, and two names that are known for other reasons are refused. -/

namespace Leasehold.Log.Threshold

/-- The severities that a name may stand for. -/
def severities : List (String × Int) :=
  [("CRITICAL", 50), ("FATAL", 50), ("ERROR", 40), ("WARNING", 30), ("WARN", 30), ("INFO", 20),
    ("DEBUG", 10),
   ("NOTSET", 0)]

/-- A character in upper case, as far as names of levels are concerned: four characters beyond ASCII
have letters of such names in it. -/
def upper (c : Char) : List Char :=
  if c = 'ı' then ['I']
  else if c = 'ſ' then ['S']
  else if c = 'ﬅ' || c = 'ﬆ' then ['S', 'T']
  else [c.toUpper]

/-- The first template of a line. -/
def basicTemplate : String := "%(levelname)s:%(name)s:%(message)s"

/-- The templates of a line, one for each sign that a template may mark its parts with. -/
def templates : List (String × String × String) :=
  [("%", "logging.PercentStyle", basicTemplate),
   ("\x7b", "logging.StrFormatStyle", "\x7blevelname\x7d:\x7bname\x7d:\x7bmessage\x7d"),
   ("$", "logging.StringTemplateStyle", "$\x7blevelname\x7d:$\x7bname\x7d:$\x7bmessage\x7d")]

def templatesWritten : String :=
  let one (t : String × String × String) : String :=
    Text.quoted t.1 ++ ": (<class " ++ Text.quoted t.2.1 ++ ">, " ++ Text.quoted t.2.2 ++ ")"
  "\x7b" ++ ", ".intercalate (templates.map one) ++ "\x7d"

/-- Names that are known and stand for no severity, with what asking for them ends in. -/
def strangers : List (String × Fault) :=
  [("BASIC_FORMAT", .reported .badValue none ("Unknown level: " ++ Text.quoted basicTemplate)),
   ("_STYLES", .reported .wrongType none ("Level not an integer or a valid string: " ++ templatesWritten))]

def ofName (level : String) : Except Fault Int :=
  let name := String.ofList (level.toList.flatMap upper)
  match Assoc.find? strangers name with
  | some f => .error f
  | none => .ok ((Assoc.find? severities name).getD 20)

end Leasehold.Log.Threshold
