import InlineCompletion.Calendar
import InlineCompletion.Json.Basic
import InlineCompletion.Text.Quoted

/-!
# Faults

The causes for which an operation ends without a result, and the words in which
each is told.
-/

namespace InlineCompletion

inductive Refusal where
  /-- The agent's process does not run. -/
  | notRunning
  /-- The process did not take the bytes, for a reason that may be empty. -/
  | writeFailed (reason : String)
  /-- The other end is closed. -/
  | pipeClosed
  /-- The link takes notifications only. -/
  | oneWay
  deriving DecidableEq, Repr

def Refusal.message : Refusal → String
  | .notRunning => "Completion agent is not running"
  | .writeFailed reason =>
      if reason = "" then "Write to completion agent failed" else reason
  | .pipeClosed => "pipe closed"
  | .oneWay => ""

inductive SettingsPart where
  /-- A code point that no such file holds. -/
  | character
  /-- Code points that make no token. -/
  | token
  /-- A token where another is due. -/
  | arrangement
  /-- A name that is given twice or to nothing, or a second document. -/
  | reference
  /-- A value that its tag does not allow. -/
  | meaning
  /-- A truth value that is none of the words. -/
  | word
  /-- A number without figures. -/
  | figure
  /-- A timestamp that is not written as one. -/
  | day
  deriving DecidableEq, Repr

inductive Fault where
  /-- A value was asked for something that its kind does not have. -/
  | wrongShape
  /-- A value of a kind that the operation does not take. -/
  | wrongKind
  /-- A text is no integer in a base. -/
  | notAnInteger (base : Nat) (text : Text)
  | tooManyDigits (digits : Nat)
  /-- An integer has more digits than are shown. -/
  | tooLongToShow
  /-- An integer is beyond all numbers with a point. -/
  | beyondDoubles
  /-- Values are nested too deeply. -/
  | tooDeep
  /-- A text is no number with a point. -/
  | notANumber (text : Text)
  | noNumber
  | infiniteNumber
  /-- The host of an address opens a bracket and does not close it, or closes
  one that it did not open. -/
  | invalidAddress
  /-- A host in brackets is no numeric address. -/
  | invalidHost (host : Text)
  /-- A host in brackets is an address of four octets. -/
  | bracketedOctets
  /-- A host in brackets announces a later kind of address and does not give
  one. -/
  | invalidFutureHost
  /-- A host holds a character that stands for a delimiter. -/
  | disguisedDelimiter (host : Text)
  /-- A value, as it is shown, stands for no reason to ask. -/
  | unknownTrigger (shown : Text)
  | unknownLevel (name : Text)
  | noCommand
  | notListening
  | refused (r : Refusal)
  | notText
  | missingFile
  | directory
  /-- A path goes on behind a file. -/
  | notDirectory
  | nameTooLong
  | nullInPath
  /-- A settings file cannot be read, because of a part of it. -/
  | badSettings (part : SettingsPart)
  | badDate (mistake : Date.Mistake)
  /-- An escape by number names no code point. -/
  | noCodePoint (number : Nat)
  /-- The command line asks for an end with a code. -/
  | ended (code : Int)
  /-- A callback failed in words of its own. -/
  | raised (message : String)
  deriving DecidableEq, Repr

namespace Fault

def message : Fault → String
  | .notAnInteger base t =>
      "invalid literal for int() with base " ++ toString base ++ ": "
        ++ String.ofList ((Text.quoted t).take 200)
  | .tooManyDigits n =>
      "Exceeds the limit (4300 digits) for integer string conversion: value has "
        ++ toString n ++
          " digits; use sys.set_int_max_str_digits() to increase the limit"
  | .tooLongToShow =>
      "Exceeds the limit (4300 digits) for integer string conversion; "
        ++ "use sys.set_int_max_str_digits() to increase the limit"
  | .notANumber t =>
      "could not convert string to float: " ++ String.ofList (Text.quoted t)
  | .noNumber => "cannot convert float NaN to integer"
  | .invalidAddress => "Invalid IPv6 URL"
  | .invalidHost t =>
      String.ofList (Text.quoted t) ++
        " does not appear to be an IPv4 or IPv6 address"
  | .bracketedOctets => "An IPv4 address cannot be in brackets"
  | .invalidFutureHost => "IPvFuture address is invalid"
  | .disguisedDelimiter t =>
      "netloc '" ++ String.ofList t ++
        "' contains invalid characters under NFKC normalization"
  | .unknownTrigger t => String.ofList t ++ " is not a valid TriggerKind"
  | .unknownLevel t => "Unknown level: " ++ String.ofList (Text.quoted t)
  | .noCommand => "No command configured for the completion agent"
  | .notListening => "not connected"
  | .nullInPath => "embedded null byte"
  | .badDate m => m.message
  | .noCodePoint _ => "chr() arg not in range(0x110000)"
  | .refused r => r.message
  | .ended code => String.ofList (Integer.text code)
  | .raised m => m
  | _ => ""

def ofInteger (t : Text) : Integer.ReadError → Fault
  | .malformed => .notAnInteger 10 t
  | .tooLong digits => .tooManyDigits digits

def readInteger (t : Text) : Except Fault Int :=
  (Integer.read t).mapError (ofInteger t)

end Fault

def Double.cut (d : Double) : Except Fault Int :=
  match d with
  | .notANumber => .error .noNumber
  | d =>
      match d.truncate? with
      | some n => .ok n
      | none => .error .infiniteNumber

/-- The integer that a value stands for: a number is cut towards zero, a text is
read. -/
def Json.toInteger : Json → Except Fault Int
  | .int n => .ok n
  | .bool b => .ok (if b then 1 else 0)
  | .float d => d.cut
  | .str s => Fault.readInteger s.shown.toList
  | _ => .error .wrongKind

end InlineCompletion
