import SnowflakeSqlApi.Python.Json

/-!
# Exceptions

The hierarchy of `exceptions.py`, with the two kinds of foreign exception the code
tells apart: `httpx.TransportError`, which the retry loop absorbs, and every other
class, which it lets through.

A message is the list of the pieces its f-string formats, since a piece can be any
value the server sent.
-/

namespace SnowflakeSqlApi

inductive ExcClass
  | config
  | auth
  | request
  | forbidden
  | programming
  | timeout
  | retry
  | notReady
  /-- `httpx.TransportError` or the named subclass of it. -/
  | transport (name : PyStr)
  /-- A class outside this library and outside `httpx.TransportError`. -/
  | foreign (name : PyStr)
  deriving DecidableEq

/-- An exception object. The fields after `message` are its attributes; `null` and `none`
stand for an attribute that is `None` or missing, which `getattr(exc, name, None)` does
not tell apart. `cause` is `__cause__` and `notes` is `__notes__`. -/
structure Exc where
  cls : ExcClass
  message : List Json
  statusCode : Option Nat := none
  code : Json := .null
  sqlState : Json := .null
  statementHandle : Json := .null
  submissionAttempts : Option Nat := none
  requestId : Option PyStr := none
  cause : Option Exc := none
  cancelError : Option Exc := none
  notes : List (List Json) := []

/-- The piece of a message that the source spells out. -/
def lit (s : String) : Json := .str (py s)

namespace ExcClass

/-- `isinstance(exc, SnowflakeRequestError)`. -/
def isRequest : ExcClass → Bool
  | request | forbidden | programming => true
  | _ => false

/-- `isinstance(exc, SnowflakeError)`. -/
def isSnowflake : ExcClass → Bool
  | transport _ | foreign _ => false
  | _ => true

def name : ExcClass → PyStr
  | config => py "SnowflakeConfigError"
  | auth => py "SnowflakeAuthError"
  | request => py "SnowflakeRequestError"
  | forbidden => py "SnowflakeForbiddenError"
  | programming => py "SnowflakeProgrammingError"
  | timeout => py "SnowflakeTimeoutError"
  | retry => py "SnowflakeRetryError"
  | notReady => py "ResultNotReady"
  | transport name | foreign name => name

end ExcClass

namespace Exc

def config (message : List Json) : Exc := { cls := .config, message }

def builtin (name : String) (message : List Json) : Exc :=
  { cls := .foreign (py name), message }

def typeError (message : List Json) : Exc := builtin "TypeError" message
def valueError (message : List Json) : Exc := builtin "ValueError" message
def overflowError (message : List Json) : Exc := builtin "OverflowError" message
def attributeError (message : List Json) : Exc := builtin "AttributeError" message
def keyError (message : List Json) : Exc := builtin "KeyError" message

/-- What `int` and `str` raise for too many digits. -/
def tooManyDigits : Exc :=
  valueError [lit "Exceeds the limit (4300 digits) for integer string conversion"]

/-- An exception that Python itself raises, with a text. -/
def IsBuiltin (e : Exc) : Prop := ∃ name message, message ≠ [] ∧ e = builtin name message

theorem IsBuiltin.foreign {e : Exc} (h : e.IsBuiltin) : ∃ name, e.cls = .foreign name := by
  obtain ⟨name, message, _, rfl⟩ := h
  exact ⟨py name, rfl⟩

end Exc

/-- `str(n)`. -/
def intStr (n : Int) : Except Exc PyStr :=
  if FewDigits n then .ok (strInt n) else .error .tooManyDigits

theorem intStr_of_few {n : Int} (h : FewDigits n) : intStr n = .ok (strInt n) := if_pos h

theorem intStr_eq_ok {n : Int} {s : PyStr} : intStr n = .ok s ↔ FewDigits n ∧ s = strInt n := by
  rw [intStr]
  split
  · next h => exact ⟨fun hs => ⟨h, (Except.ok.inj hs).symm⟩, fun hs => by rw [hs.2]⟩
  · next h => exact ⟨(fun hs => by cases hs), fun hs => absurd hs.1 h⟩

end SnowflakeSqlApi
