import Leasehold.Error

/-! # Arguments of requests

Namespaces, lock names and instance ids are short identifiers; a lease lasts from one second to a
day; the name of an SQL table is a plain SQL identifier. Requests come from outside, so each check
takes any value. -/

namespace Leasehold.Argument

def isAsciiLetter (c : Char) : Bool := ('a' ≤ c && c ≤ 'z') || ('A' ≤ c && c ≤ 'Z')

def isAsciiDigit (c : Char) : Bool := '0' ≤ c && c ≤ '9'

def isIdentifierChar (c : Char) : Bool := isAsciiLetter c || isAsciiDigit c || c = '_' || c = '-'

/-- Three to sixty-four letters, digits, underscores and hyphens. -/
def isIdentifier (s : String) : Bool :=
  3 ≤ s.length && s.length ≤ 64 && s.toList.all isIdentifierChar

/-- The refusal of a value, in a text that ends with it. A value that cannot be written makes the
refusal itself fail. -/
def refusal (field text : String) (v : Value) : Error :=
  if v.isOverlong then .fault .longInteger else .argument field (field ++ text ++ v.written)

def identifierRule : String := " must be 3-64 characters of letters, digits, '_' or '-': "

def identifier (field : String) (v : Value) : Except Error String :=
  match v with
  | .null => .error (.required field)
  | .text s => if isIdentifier s then .ok s else .error (refusal field identifierRule v)
  | _ => .error (refusal field identifierRule v)

def minLease : Int := 1

def maxLease : Int := 86400

def termRule : String := s!" must be {minLease}-{maxLease}, got "

/-- The lease duration given, in seconds. -/
def leaseDuration (v : Value) : Except Error Int :=
  let field := "lease_duration"
  match v with
  | .null => .error (.required field)
  | .int n =>
    if minLease ≤ n && n ≤ maxLease then .ok n
    else .error (refusal field termRule v)
  | _ => .error (refusal field " must be an integer, got " v)

/-- A letter or underscore, then letters, digits and underscores. -/
def isTableName (s : String) : Bool :=
  match s.toList with
  | [] => false
  | c :: cs => (isAsciiLetter c || c = '_') && cs.all fun c => isAsciiLetter c || isAsciiDigit c || c = '_'

def maxTableName : Nat := 63

def tableNameText (s : String) : Except Error String :=
  if s = "" then .error (.invalidConfig "Table name cannot be empty")
  else if !isTableName s then
    .error (.invalidConfig ("Invalid table name. Table name must start with a letter or underscore "
      ++ "and contain only letters, numbers, and underscores."))
  else if maxTableName < s.length then
    .error (.invalidConfig s!"Table name cannot exceed {maxTableName} characters")
  else .ok s

/-- The table name given. Whatever is not truthy counts as empty. -/
def tableName (v : Value) : Except Error String :=
  match v with
  | .text s => tableNameText s
  | _ =>
    if v.isTruthy then
      .error (.fault (.reported .wrongType none
        ("expected string or bytes-like object, got '" ++ v.kind ++ "'")))
    else .error (.invalidConfig "Table name cannot be empty")

theorem tableNameText_eq_ok {s t : String} (h : tableNameText s = .ok t) : t = s := by
  simp only [tableNameText] at h
  repeat' split at h
  all_goals simp_all

end Leasehold.Argument
