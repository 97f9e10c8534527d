import AppendLog.Log.Error
import AppendLog.Shape.Parser
import AppendLog.Text.Quoted

/-! What a command reports when it fails: the error with all its fields. -/

set_option autoImplicit false

namespace AppendLog.Command

def fields (name : String) (members : List (String × String)) : String :=
  name ++ " \x7b " ++ ", ".intercalate (members.map fun (label, value) => label ++ ": " ++ value)
    ++ " \x7d"

def wrapped (name inner : String) : String := name ++ "(" ++ inner ++ ")"

def describeDevice : DeviceFailure → String
  | .refused => "Os"
  | .isFolder =>
    fields "Os" [("code", "21"), ("kind", "IsADirectory"), ("message", Text.quoted "Is a directory")]
  | .zeroInName =>
    fields "Error"
      [("kind", "InvalidInput"), ("message", Text.quoted DeviceFailure.zeroInName.message)]
  | .cutShort =>
    fields "Error"
      [("kind", "UnexpectedEof"), ("message", Text.quoted DeviceFailure.cutShort.message)]
  | .broken reason => fields "Custom" [("kind", "Other"), ("error", Text.quoted reason)]

def describeStorage : StorageError → String
  | .device failure => wrapped "Io" (describeDevice failure)
  | .readPastEnd offset length size =>
    fields "ReadPastEnd"
      [("offset", Nat.repr offset), ("len", Nat.repr length), ("size", Nat.repr size)]
  | .writePastEnd offset size =>
    fields "WritePastEnd" [("offset", Nat.repr offset), ("size", Nat.repr size)]
  | .truncateBeyondEnd wanted size =>
    fields "TruncateBeyondEnd" [("new_size", Nat.repr wanted), ("size", Nat.repr size)]

def describeCodec : CodecError → String
  | .unexpectedEnd needed remaining =>
    fields "UnexpectedEof" [("needed", Nat.repr needed), ("remaining", Nat.repr remaining)]
  | .lengthMismatch expected found =>
    fields "LengthMismatch" [("expected", Nat.repr expected), ("actual", Nat.repr found)]
  | .tooManyItems length limit =>
    fields "TooManyItems" [("len", Nat.repr length), ("limit", Nat.repr limit)]
  | .lengthOverflow length => fields "LengthOverflow" [("len", Nat.repr length)]
  | .invalidBool byte => wrapped "InvalidBool" (Nat.repr byte.toNat)
  | .invalidPresence byte => wrapped "InvalidPresenceFlag" (Nat.repr byte.toNat)
  | .invalidTag family tag =>
    fields "InvalidTag" [("type_name", Text.quoted family), ("tag", Nat.repr tag.toNat)]
  | .invalidText => "InvalidUtf8"
  | .trailingBytes remaining => fields "TrailingBytes" [("remaining", Nat.repr remaining)]
  | .shapeMismatch expected found =>
    fields "ShapeMismatch"
      [("expected", Text.quoted expected.render), ("found", Text.quoted found.describe)]
  | .fieldMismatch expected found =>
    fields "ShapeMismatch"
      [("expected", Text.quoted ("field " ++ expected)), ("found", Text.quoted ("field " ++ found))]

def describeShape : Shape.ParseError → String
  | .unknownName name => fields "UnsupportedType" [("type_name", Text.quoted name)]
  | .malformed position flaw =>
    fields "InvalidShape"
      [("position", Nat.repr position), ("message", Text.quoted flaw.message)]

def describeLog : LogError → String
  | .io step source =>
    fields "Io" [("op", Text.quoted step.name), ("source", describeStorage source)]
  | .codec source => wrapped "Codec" (describeCodec source)
  | .invalidFormat flaw => fields "InvalidFormat" [("message", Text.quoted flaw.message)]
  | .unsupportedVersion found =>
    fields "UnsupportedVersion"
      [("found", Nat.repr found.toNat), ("expected", Nat.repr Header.currentVersion.toNat)]
  | .recordRead index source =>
    fields "RecordRead" [("index", Nat.repr index), ("source", describeLog source)]
  | .recordOutOfRange index total =>
    fields "RecordOutOfRange" [("index", Nat.repr index), ("total", Nat.repr total)]
  | .notFound path => fields "NotFound" [("path", Text.quoted path)]
  | .alreadyExists path => fields "AlreadyExists" [("path", Text.quoted path)]
  | .closed => "LogClosed"
  | .readOnly => "ReadOnly"

inductive Failure where
  | notice (text : String)
  | shape (error : Shape.ParseError)
  | log (error : LogError)
  deriving DecidableEq, Repr

def Failure.describe : Failure → String
  | notice text => Text.quoted text
  | shape error => describeShape error
  | log error => describeLog error

end AppendLog.Command
