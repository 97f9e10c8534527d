import AppendLog.Log.Header
import AppendLog.Storage.Error

/-! What can go wrong with a log. -/

set_option autoImplicit false

namespace AppendLog

inductive Step where
  | openFile | readSize | readHeader | readFooter | readRecord
  | writeMeta | writeData | writeFooter | writeHeader | trimTail
  | sync | flush
  deriving DecidableEq, Repr

def Step.name : Step → String
  | openFile => "open"
  | readSize => "size"
  | readHeader => "read header"
  | readFooter => "read footer"
  | readRecord => "read record"
  | writeMeta => "write meta"
  | writeData => "write data"
  | writeFooter => "write footer"
  | writeHeader => "write header"
  | trimTail => "trim tail"
  | sync => "sync"
  | flush => "flush"

inductive FormatFlaw where
  | noHeader
  | footerInHeader (offset : Nat)
  | countMismatch (listed total : Nat)
  | countTooLarge (count : Nat)
  | firstRecordElsewhere (offset : Nat)
  /-- A record ends before its meta does. -/
  | recordTooShort (index offset boundary : Nat)
  | recordReversed (offset boundary : Nat)
  deriving DecidableEq, Repr

def FormatFlaw.message : FormatFlaw → String
  | noHeader => "empty file has no header"
  | footerInHeader offset => "footer offset " ++ Nat.repr offset ++ " overlaps the header"
  | countMismatch listed total =>
    "footer lists " ++ Nat.repr listed ++ " records, header says " ++ Nat.repr total
  | countTooLarge count => "footer count " ++ Nat.repr count ++ " too large"
  | firstRecordElsewhere offset =>
    "first record at " ++ Nat.repr offset ++ ", expected " ++ Nat.repr Header.width
  | recordTooShort index offset boundary =>
    "record " ++ Nat.repr index ++ " at " ++ Nat.repr offset
      ++ " is shorter than its meta (next boundary " ++ Nat.repr boundary ++ ")"
  | recordReversed offset boundary =>
    "record spans " ++ Nat.repr offset ++ ".." ++ Nat.repr boundary

inductive LogError where
  | io (step : Step) (source : StorageError)
  | codec (source : CodecError)
  | invalidFormat (flaw : FormatFlaw)
  | unsupportedVersion (found : UInt8)
  | recordRead (index : Nat) (source : LogError)
  | recordOutOfRange (index total : Nat)
  | notFound (path : String)
  | alreadyExists (path : String)
  | closed
  | readOnly
  deriving DecidableEq, Repr

namespace LogError

def message : LogError → String
  | io step source => "I/O error during " ++ step.name ++ ": " ++ source.message
  | codec source => "codec error: " ++ source.message
  | invalidFormat flaw => "invalid log format: " ++ flaw.message
  | unsupportedVersion found =>
    "unsupported log version " ++ Nat.repr found.toNat ++ ", expected "
      ++ Nat.repr Header.currentVersion.toNat
  | recordRead index source => "failed to read record " ++ Nat.repr index ++ ": " ++ source.message
  | recordOutOfRange index total =>
    "record " ++ Nat.repr index ++ " out of range, log holds " ++ Nat.repr total
  | notFound path => "log not found: " ++ path
  | alreadyExists path => "log already exists: " ++ path
  | closed => "log is closed"
  | readOnly => "log is read-only"

def step? : LogError → Option Step
  | io step _ => some step
  | recordRead _ source => source.step?
  | _ => none

/-- Part of the wording of the error is the operating system's. -/
def isRefusal : LogError → Bool
  | io _ source => source.isRefusal
  | recordRead _ source => source.isRefusal
  | _ => false

end LogError

end AppendLog
