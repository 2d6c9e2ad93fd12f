import CapabilityBroker.Error
import CapabilityBroker.Memory.Usage
import CapabilityBroker.Text.Quoted
/-!
# The memory report of the kernel

A text of lines, each with a name and an amount in kibibytes, of which two
are read: the total memory and the available memory. Of several lines with
one of these names the last counts, and none of them may hold anything but
a number.
-/

namespace CapabilityBroker

namespace Meminfo

/-- Why a word is not a 64-bit number. -/
inductive NumberError where
  | empty
  | invalidDigit
  | tooLarge
  deriving DecidableEq, Repr

/-- The message of such an error. -/
def NumberError.message : NumberError → String
  | empty => "cannot parse integer from empty string"
  | invalidDigit => "invalid digit found in string"
  | tooLarge => "number too large to fit in target type"

/-- The greatest number. -/
def numberLimit : Nat := UInt64.size - 1

/-- Digits appended to a number, from left to right. The first character
that is no digit, or that makes the number too large, decides the error. -/
def readDigits (n : Nat) : List Char → Except NumberError Nat
  | [] => .ok n
  | c :: cs =>
    if !c.isDigit then .error .invalidDigit
    else
      let next := 10 * n + (c.toNat - 48)
      if numberLimit < next then .error .tooLarge else readDigits next cs

/-- The number that a word is: digits, with a plus sign before them or
without. -/
def readNumber : List Char → Except NumberError Nat
  | [] => .error .empty
  | ['+'] => .error .invalidDigit
  | '+' :: cs => readDigits 0 cs
  | cs => readDigits 0 cs

/-- The first two words of a line; missing ones are empty. -/
def fields (line : List Char) : List Char × List Char :=
  let (key, rest) := Text.nextWord line
  (key, (Text.nextWord rest).1)

/-- The name of the line for the total memory. -/
def totalName : String := "MemTotal"

/-- The name of the line for the available memory. -/
def availableName : String := "MemAvailable"

/-- The amount of a line. -/
def readAmount (name : String) (value : List Char) : Except Error Nat :=
  match readNumber value with
  | .ok n => .ok n
  | .error e =>
    .error (.memorySample ("invalid " ++ name ++ " value " ++ Text.quoted (String.ofList value)
      ++ ": " ++ e.message))

/-- The amounts read so far, with those of one more line. -/
def readLine (amounts : Option Nat × Option Nat) (line : List Char) :
    Except Error (Option Nat × Option Nat) :=
  let (key, value) := fields line
  if key = (totalName ++ ":").toList then
    (readAmount totalName value).map fun n => (some n, amounts.2)
  else if key = (availableName ++ ":").toList then
    (readAmount availableName value).map fun n => (amounts.1, some n)
  else .ok amounts

/-- The amounts of all lines. -/
def readLines (amounts : Option Nat × Option Nat) :
    List (List Char) → Except Error (Option Nat × Option Nat)
  | [] => .ok amounts
  | line :: rest =>
    match readLine amounts line with
    | .ok amounts => readLines amounts rest
    | .error e => .error e

/-- An amount in kibibytes as bytes, as far as they can be counted. -/
def bytes (kibibytes : Nat) : Nat := min (1024 * kibibytes) numberLimit

/-- The error that a line is missing. -/
def missing (name : String) : Error := .memorySample (name ++ " missing from meminfo")

/-- The reading that a report holds. -/
def parse (report : List Char) : Except Error MemoryUsage :=
  match readLines (none, none) (Text.lines report) with
  | .error e => .error e
  | .ok (none, _) => .error (missing totalName)
  | .ok (some _, none) => .error (missing availableName)
  | .ok (some total, some available) => .ok ⟨bytes total, bytes available⟩

/-- What the file of a report holds: there may be none, and its bytes may
be no text. -/
inductive Source where
  | absent
  | notText
  | text (content : String)

/-- The reading of a file. -/
def sample (path : String) : Source → Except Error MemoryUsage
  | .absent => .error (.memorySample (path ++ ": No such file or directory (os error 2)"))
  | .notText => .error (.memorySample (path ++ ": stream did not contain valid UTF-8"))
  | .text content => parse content.toList

end Meminfo

end CapabilityBroker
