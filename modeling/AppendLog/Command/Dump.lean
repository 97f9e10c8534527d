import AppendLog.Command.Verify
import AppendLog.Value.Json

/-! Dumping a log: listing a window of its records.

A payload that is no value of the shape is listed with the error in place of the value;
a record that cannot be read ends the command.
-/

set_option autoImplicit false

namespace AppendLog.Command

structure Listing where
  record : Record
  /-- The payload by the shape, if one was given. -/
  payload : Option (Except CodecError Value)

def describe (shape : Option Shape) (record : Record) : Listing :=
  ⟨record, shape.map (payloadValue · record)⟩

def listAll (shape : Option Shape) : List Reading → Except LogError (List Listing)
  | [] => .ok []
  | .error error :: _ => .error error
  | .ok record :: rest => do return describe shape record :: (← listAll shape rest)

def collect (shape : Option Shape) (start : Nat) (limit : Option Nat) : LogOp (List Listing) := do
  let walk ← Log.walk start
  let (readings, after) := walk.readings limit (← get)
  set after
  match listAll shape readings with
  | .ok listings => return listings
  | .error error => throw error

namespace Listing

def payloadMembers (listing : Listing) : List (String × Json) :=
  match listing.payload with
  | none => []
  | some (.ok value) => [("data", value.toJson)]
  | some (.error error) => [("error", .string error.message)]

def toJson (listing : Listing) : Json :=
  let record := listing.record
  .object <|
    [("index", .ofNat record.index), ("offset", .ofNat record.offset),
      ("size", .ofNat record.size), ("at", .ofInt record.info.time),
      ("kind", .string record.info.kind.describe), ("op", .string record.info.op.name)]
    ++ listing.payloadMembers

def toText (listing : Listing) : String :=
  let record := listing.record
  line ("[" ++ padLeft 6 (Nat.repr record.index) ++ "] @" ++ padRight 8 (Nat.repr record.offset)
    ++ " " ++ padRight 7 record.info.op.name ++ " " ++ padLeft 5 (Nat.repr record.size) ++ "B at="
    ++ Int.repr record.info.time ++ " kind=" ++ record.info.kind.describe
    ++ (match listing.payload with
      | none => ""
      | some (.ok value) => " " ++ value.toJson.compact
      | some (.error error) => " error: " ++ error.message))

end Listing

def listingsText (listings : List Listing) : String :=
  line ("Records (" ++ Nat.repr listings.length ++ " shown)")
    ++ line "================"
    ++ line ""
    ++ String.join (listings.map Listing.toText)

end AppendLog.Command
