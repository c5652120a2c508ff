import Leasehold.Fault

/-! # Errors

What a caller gets to see when an operation does not answer: a refused argument, an error of the
service with its code, settings that break the schema, or a fault that nobody answered for. -/

namespace Leasehold

/-- One thing wrong with settings: where, of which type, and in words. -/
structure Issue where
  place : List String
  type : String
  text : String
deriving DecidableEq, Repr

/-- The first line of a report on several issues. -/
def Issue.heading (subject : String) (issues : List Issue) : String :=
  let n := issues.length
  s!"{n} validation error" ++ (if n = 1 then "" else "s") ++ " for " ++ subject

inductive FileError where
  | notFound
  | isDirectory
  | notDirectory
  | nameTooLong
deriving DecidableEq, Repr

/-- What lies behind an error of the service. -/
inductive Cause where
  | fault (f : Fault)
  | file (e : FileError)
  /-- The text of a file breaks the rules of the markup. -/
  | markup
  | issues (found : List Issue)
deriving DecidableEq, Repr

/-- What an operation may end in instead of an answer. -/
inductive Error where
  /-- The argument `field` is refused. -/
  | argument (field text : String)
  | service (code text : String) (cause : Option Cause)
  /-- Settings named `subject` break the schema. -/
  | schema (subject : String) (issues : List Issue)
  /-- The file holds bytes that are not UTF-8 text. -/
  | undecodable (text : String)
  | fault (f : Fault)
deriving DecidableEq, Repr

namespace Error

def argumentCode : String := "INVALID_ARGUMENT"

def message : Error → String
  | .argument _ text => argumentCode ++ ": " ++ text
  | .service code text _ => code ++ ": " ++ text
  | .schema subject issues => Issue.heading subject issues
  | .undecodable text => text
  | .fault f => f.message

def required (field : String) : Error := .argument field (field ++ " is required")

def invalidConfig (text : String) : Error := .service "INVALID_CONFIG" text none

def notOpened (backend : String) (f : Fault) : Error :=
  .service "BACKEND_INIT_ERROR" ("Failed to initialize " ++ backend ++ " lock backend") (some (.fault f))

def unreadableFile (path : String) (e : FileError) : Error :=
  .service "READ_FILE_ERROR" ("Failed to read config file: " ++ path) (some (.file e))

def badMarkup (path : String) : Error :=
  .service "PARSE_YAML_ERROR" ("Failed to parse YAML: " ++ path) (some .markup)

def rootNotMap (path : String) : Error :=
  .service "PARSE_YAML_ERROR" ("Config root must be a mapping: " ++ path) none

def sectionRequired (backend : String) : Error :=
  .service "VALIDATION_ERROR"
    ("Config section '" ++ backend ++ "' is required when backend is '" ++ backend ++ "'") none

def badConfig (subject : String) (issues : List Issue) : Error :=
  .service "VALIDATION_ERROR" ("Config validation failed: " ++ Issue.heading subject issues)
    (some (.issues issues))

end Error

end Leasehold
