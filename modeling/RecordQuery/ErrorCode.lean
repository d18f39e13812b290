/-!
# Error codes

Every error has a number of four digits, whose first digit tells what was at fault. A reader of a
message can look the number up: `ErrorCode.describe`.
-/

namespace RecordQuery.ErrorCode

/-! ## What a caller passed -/

def nullArgument : Nat := 1001

/-! ## Values that do not fit a type -/

def coercion : Nat := 2000
def guid : Nat := 2001
def date : Nat := 2002
def enum : Nat := 2003
def numeric : Nat := 2004
def bool : Nat := 2005
def unsupported : Nat := 2006

/-! ## Requests -/

def request : Nat := 3000
def unknownOperator : Nat := 3001
def unknownJoiner : Nat := 3002
def unknownDirection : Nat := 3003
def malformedClause : Nat := 3004
def invalidPaging : Nat := 3005
def malformedRequest : Nat := 3006

/-! ## Settings -/

def settings : Nat := 4000
def settingsNotFound : Nat := 4001
def malformedSettings : Nat := 4002
def invalidSetting : Nat := 4003

/-! ## Access to records -/

def access : Nat := 5000
def noSuchMember : Nat := 5001
def readOnly : Nat := 5002
def typeMismatch : Nat := 5003

/-! ## All else -/

def other : Nat := 9000

/-- What a code stands for. -/
def describe : Nat → String
  | 1000 => "Invalid argument"
  | 1001 => "Required argument was null"
  | 1002 => "Argument has an unsupported shape"
  | 2000 => "Value could not be coerced"
  | 2001 => "Malformed GUID literal"
  | 2002 => "Malformed date or date-offset literal"
  | 2003 => "Value does not name an enum member"
  | 2004 => "Malformed or out-of-range numeric literal"
  | 2005 => "Malformed boolean literal"
  | 2006 => "Target type does not accept literal values"
  | 3000 => "Invalid query request"
  | 3001 => "Unknown filter operator"
  | 3002 => "Unknown clause joiner"
  | 3003 => "Unknown sort direction"
  | 3004 => "Filter clause populates neither or both of operator and predicates"
  | 3005 => "Invalid skip/take paging"
  | 3006 => "Failed to parse query request"
  | 4000 => "Generic configuration error"
  | 4001 => "Configuration file not found"
  | 4002 => "Failed to parse configuration"
  | 4003 => "Invalid value in configuration"
  | 5000 => "Record access failed"
  | 5001 => "Record has no such member"
  | 5002 => "Record member is read-only"
  | 5003 => "Value does not fit the member type"
  | 9000 => "Unexpected error"
  | _ => "Unknown error code"

end RecordQuery.ErrorCode
