import AppendLog.Command.Arguments
import AppendLog.Command.Dump
import AppendLog.Command.Failure

/-! Running a command on a folder.

Commands open logs read-only. What they print before they fail stays printed.
-/

set_option autoImplicit false

namespace AppendLog.Command

structure Report where
  exitCode : UInt32
  output : String
  errors : String
  deriving DecidableEq, Repr

def programVersion : String := "0.1.0"

def usage : String :=
  line "Usage: apo [--path PATH] [--verbose] COMMAND"
    ++ line ""
    ++ line "  inspect [--offsets] [--format text|json]"
    ++ line "  verify [--shape SHAPE]"
    ++ line "  dump [--shape SHAPE] [--start INDEX] [--limit COUNT] [--format text|json]"
    ++ line "  version"

structure Progress where
  output : String
  failure : Option Failure

def Progress.report (progress : Progress) : Report :=
  match progress.failure with
  | none => ⟨0, progress.output, ""⟩
  | some failure => ⟨1, progress.output, line ("Error: " ++ failure.describe)⟩

def readOnlyConfig : Config :=
  { Config.standard with createIfMissing := false, readOnly := true }

def parseShape : Option String → Except Failure (Option Shape)
  | none => .ok none
  | some text =>
    match Shape.parse text with
    | .ok shape => .ok (some shape)
    | .error error => .error (.shape error)

def onLog {α : Type} (folder : Folder) (path : String) (op : LogOp α) (print : α → String) :
    Progress × Folder :=
  match Log.openIn folder path readOnlyConfig with
  | (.error error, folder) => (⟨"", some (.log error)⟩, folder)
  | (.ok log, folder) =>
    match op log with
    | .ok value _ => (⟨print value, none⟩, folder)
    | .error error _ => (⟨"", some (.log error)⟩, folder)

def isJson (request : Request) : Bool := request.text? "format" == some "json"

def runInspect (request : Request) (folder : Folder) (path : String) : Progress × Folder :=
  onLog folder path (inspect (request.isSet "offsets")) fun inspection =>
    if isJson request then line inspection.toJson.pretty else inspection.toText

def runDump (request : Request) (folder : Folder) (path : String) : Progress × Folder :=
  match parseShape (request.text? "shape") with
  | .error failure => (⟨"", some failure⟩, folder)
  | .ok shape =>
    onLog folder path (collect shape ((request.number? "start").getD 0) (request.number? "limit"))
      fun listings =>
        if isJson request then line (Json.array (listings.map Listing.toJson)).pretty
        else listingsText listings

def runVerify (request : Request) (folder : Folder) (path : String) : Progress × Folder :=
  let opening := line ("Verifying log at " ++ Text.quoted path) ++ line ""
  let judged (note : String) (verdict : Verdict) : Progress :=
    ⟨opening ++ note ++ verdict.toText,
      if verdict.passed then none else some (.notice "Verification failed")⟩
  match parseShape (request.text? "shape") with
  | .error failure => (⟨opening, some failure⟩, folder)
  | .ok shape =>
    match Log.openIn folder path readOnlyConfig with
    | (.error (.notFound path), folder) => (⟨opening, some (.log (.notFound path))⟩, folder)
    | (.error error, folder) => (judged "" (.unopened error), folder)
    | (.ok log, folder) =>
      match verify shape log with
      | .error error _ => (⟨opening, some (.log error)⟩, folder)
      | .ok (verdict, orphaned) _ =>
        let note :=
          if 0 < orphaned then
            line ("Note: " ++ Nat.repr orphaned
              ++ " bytes past the footer will be trimmed on the next write")
          else ""
        (judged note verdict, folder)

def runVersion : Progress :=
  ⟨line ("apo CLI v" ++ programVersion) ++ line ("apo core v" ++ programVersion), none⟩

def runRequest (request : Request) (folder : Folder) : Progress × Folder :=
  match request.command, request.path with
  | .version, _ => (runVersion, folder)
  | command, none => (⟨"", some (.notice ("Log path required for " ++ command.name))⟩, folder)
  | .inspect, some path => runInspect request folder path
  | .verify, some path => runVerify request folder path
  | .dump, some path => runDump request folder path

def run (folder : Folder) (arguments : List String) : Report × Folder :=
  match parse arguments with
  | .error .badUsage => (⟨2, "", usage⟩, folder)
  | .error .help => (⟨0, usage, ""⟩, folder)
  | .error .programVersion => (⟨0, line ("apo " ++ programVersion), ""⟩, folder)
  | .ok request =>
    let (progress, folder) := runRequest request folder
    (progress.report, folder)

end AppendLog.Command
