import AppendLog.Proofs.Handles
import AppendLog.Proofs.Paths

/-! Logs in the files of a folder.

A file that is there is opened as a medium is opened once more, and keeps what the log
has stored in it.
-/

set_option autoImplicit false

namespace AppendLog

namespace Log

variable {folder : Folder} {path : String} {content : Bytes} {config : Config}

theorem openFile_eq (found : folder.content? path = some content) :
    openFile path config folder =
      .ok (.ofContent content (if config.readOnly then .readOnly else .readWrite)) folder := by
  obtain ⟨location, located⟩ := Folder.content?_eq_some.mp found
  obtain ⟨unobjected, followed⟩ := Folder.follow_of_locate located (by simp)
  cases readOnly : config.readOnly with
  | true =>
    simp [openFile, readOnly, Folder.openReadOnly, unobjected, located, bind, EStateM.bind]
  | false =>
    have made := (Folder.follow_eq_file.mp followed).1.makeParents unobjected
    cases create : config.createParentFolders <;>
      simp [openFile, readOnly, create, Folder.openCreatingFolders, Folder.openOrCreate, made, unobjected,
        located, bind, EStateM.bind]

theorem openIn_eq (found : folder.content? path = some content)
    (allowed : config.errorIfExists = false) :
    openIn folder path config =
      let (result, device) := openOn (some path) config
        (.sound ((Medium.file (.ofContent content .readWrite)).reopened config.readOnly))
      (result, folder.write path device.medium.content) := by
  simp [openIn, Folder.hasPath_of_content found, allowed, openFile_eq found, Medium.reopened, OpenFile.ofContent]

end Log

end AppendLog
