import Leasehold.Value

/-! # Faults

A fault is trouble below the lock rules: a store client that fails, a stored record that cannot be
read, a number out of range. Every fault has a `Fault.Kind`; a backend takes the kinds it answers
for and lets the others through. -/

namespace Leasehold

inductive Fault.Kind where
  /-- A field, key or name that is not there. -/
  | lookup
  | index
  | wrongType
  | badValue
  | unsupported
  | overflow
  | runtime
  /-- A structure nested deeper than the reader follows it. -/
  | nesting
  | notInstalled
  | system
  | disconnected
  | refused
  | timeout
  | database
  | databaseClient
  /-- The item service answered with an error. -/
  | response
  /-- A number that the client of the item service would have to round. -/
  | arithmetic
  | unreachable
  | transport
  | unavailable
  | deadline
  /-- The document service: the transaction lost a race. -/
  | aborted
  /-- The document service, anything else. -/
  | remote
deriving DecidableEq, Repr

/-- What is wrong with a calendar date, a time of day or a zone offset. -/
inductive CalendarError where
  | year (n : Nat)
  | month
  | day
  | hour
  | minute
  | second
  /-- A zone offset of a day or more, in minutes. -/
  | offset (minutes : Int)
deriving DecidableEq, Repr

/-- The wording. A zone offset is shown as whole days and the seconds left over. -/
def CalendarError.message : CalendarError → String
  | .year n => s!"year {n} is out of range"
  | .month => "month must be in 1..12"
  | .day => "day is out of range for month"
  | .hour => "hour must be in 0..23"
  | .minute => "minute must be in 0..59"
  | .second => "second must be in 0..59"
  | .offset minutes =>
    let days := Int.fdiv minutes 1440
    let seconds := Int.fmod minutes 1440 * 60
    let parts :=
      (if days = 0 then [] else [s!"days={days}"]) ++
        (if seconds = 0 then [] else [s!"seconds={seconds}"])
    "offset must be a timedelta strictly between -timedelta(hours=24) and timedelta(hours=24), not "
      ++ "datetime.timedelta(" ++ ", ".intercalate parts ++ ")."

/-- How many calls may be open inside one another before one more is too deep. -/
def maxCalls : Nat := 980

/-- Trouble below the lock rules. -/
inductive Fault where
  | missing (field : String)
  | number (e : NumberError)
  /-- A value of the named kind where a map is needed. -/
  | notMap (kind : String)
  | notJson
  /-- A value of the named kind, which JSON has no form for. -/
  | notSerializable (kind : String)
  /-- An integer of too many digits to be written. -/
  | longInteger
  /-- Two values of the named kinds that have no order. -/
  | incomparable (left right : String)
  /-- A sum with a lease duration that is not there. -/
  | noLease
  /-- A point in time that no calendar year from 1 to 9999 holds. -/
  | outsideCalendar
  /-- A point in time whose year does not fit a machine word. -/
  | yearTooLarge
  | instantTooLarge
  | quotientTooLarge
  /-- A transaction that lost every attempt. -/
  | contention (attempts : Nat)
  | calendar (e : CalendarError)
  | notFraction (text : String)
  /-- An escape for a character beyond the last. -/
  | notCharacter
  /-- An escape for a character whose number does not fit a machine word. -/
  | characterTooLarge
  | emptyText
  /-- A value of the named kind that is asked for a member it does not have. -/
  | withoutMember (kind member : String)
  /-- A value of the named kind that is searched as if it were a text. -/
  | notSearchable (kind : String)
  | integerTooLarge
  | tooDeep
  | zeroInName
  | nameTooLong (path : String)
  /-- What a client reports about itself; a response may carry a code. -/
  | reported (kind : Fault.Kind) (code : Option String) (text : String)
deriving DecidableEq, Repr

namespace Fault

def kind : Fault → Kind
  | .missing _ => .lookup
  | .number (.wrongKind _) => .wrongType
  | .number (.infinite _) => .overflow
  | .number _ => .badValue
  | .notMap _ => .wrongType
  | .notJson => .badValue
  | .notSerializable _ => .wrongType
  | .longInteger => .badValue
  | .incomparable _ _ => .wrongType
  | .noLease => .wrongType
  | .outsideCalendar => .badValue
  | .yearTooLarge => .system
  | .instantTooLarge => .overflow
  | .quotientTooLarge => .overflow
  | .contention _ => .badValue
  | .calendar _ => .badValue
  | .notFraction _ => .badValue
  | .notCharacter => .badValue
  | .characterTooLarge => .overflow
  | .emptyText => .index
  | .withoutMember _ _ => .unsupported
  | .notSearchable _ => .wrongType
  | .integerTooLarge => .overflow
  | .tooDeep => .nesting
  | .zeroInName => .badValue
  | .nameTooLong _ => .system
  | .reported kind _ _ => kind

/-- The wording of a report. Lookups show their key in quotes; the document service puts a status
before some of its texts, and the item client has words of its own. -/
def reportText (kind : Kind) (code : Option String) (text : String) : String :=
  match kind with
  | .lookup => Text.quoted text
  | .response =>
    "An error occurred (" ++ code.getD "Unknown" ++ ") when calling the operation: "
      ++ (if code.isSome then text else "Unknown")
  | .unreachable => "Could not connect to the endpoint URL: \"" ++ text ++ "\""
  | .transport => "An unspecified error occurred"
  | .unavailable => "503 " ++ text
  | .deadline => "504 " ++ text
  | .aborted => "409 " ++ text
  | _ => text

def message : Fault → String
  | .missing field => Text.quoted field
  | .number e => e.message
  | .notMap kind =>
    if kind = "list" then "list indices must be integers or slices, not str"
    else if kind = "str" then "string indices must be integers, not 'str'"
    else "'" ++ kind ++ "' object is not subscriptable"
  | .notJson => "Expecting value"
  | .notSerializable kind => "Object of type " ++ kind ++ " is not JSON serializable"
  | .longInteger =>
    s!"Exceeds the limit ({maxDigits} digits) for integer string conversion; "
      ++ "use sys.set_int_max_str_digits() to increase the limit"
  | .incomparable left right =>
    "'<' not supported between instances of '" ++ left ++ "' and '" ++ right ++ "'"
  | .noLease => "unsupported operand type(s) for +: 'int' and 'NoneType'"
  | .outsideCalendar => "year is out of range"
  | .yearTooLarge => "[Errno 75] Value too large for defined data type"
  | .instantTooLarge => "timestamp out of range for platform time_t"
  | .quotientTooLarge => "integer division result too large for a float"
  | .contention attempts => s!"Failed to commit transaction in {attempts} attempts."
  | .calendar e => e.message
  | .notFraction text => "could not convert string to float: " ++ Text.quoted text
  | .notCharacter => "chr() arg not in range(0x110000)"
  | .characterTooLarge => "Python int too large to convert to C int"
  | .emptyText => "string index out of range"
  | .withoutMember kind member => "'" ++ kind ++ "' object has no attribute '" ++ member ++ "'"
  | .notSearchable kind => "expected string or bytes-like object, got '" ++ kind ++ "'"
  | .integerTooLarge => "int too large to convert to float"
  | .tooDeep => "maximum recursion depth exceeded"
  | .zeroInName => "embedded null byte"
  | .nameTooLong path => "[Errno 36] File name too long: " ++ Text.quoted path
  | .reported kind code text => reportText kind code text

end Fault

end Leasehold
