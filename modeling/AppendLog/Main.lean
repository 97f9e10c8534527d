import AppendLog.Command.Run

/-! The command line program: it reads the file that the arguments name, runs the
command and prints its report. -/

set_option autoImplicit false

open AppendLog

def isFolderCode : UInt32 := 21

def findAt (path : String) : IO (FolderAccess Unit) := do
  try
    let content ← IO.FS.readBinFile path
    return do
      Folder.makeParents path
      modify (·.write path content.data.toList)
  catch
    | .inappropriateType _ code _ =>
      return if code = isFolderCode then Folder.makeFolders (Folder.origin path) (Folder.steps path)
        else return
    | _ => return return

def loadFolder (path : String) : IO Folder := do
  match (← findAt path) Folder.empty with
  | .ok _ folder | .error _ folder => return folder

def main (arguments : List String) : IO UInt32 := do
  let path := (Command.parse arguments).toOption.bind Command.Request.path
  let folder ← match path with
    | some path => loadFolder path
    | none => pure Folder.empty
  let (report, _) := Command.run folder arguments
  IO.print report.output
  IO.eprint report.errors
  return report.exitCode
