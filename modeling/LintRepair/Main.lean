import LintRepair.Command

/-!
The program.

Runs the command on the disk: its script's requests are answered by the system, its output is
printed, and its exit status is returned.
-/

namespace LintRepair.Disk

/-- The cause behind an error of the system. -/
def ioError : IO.Error → IoError
  | .noFileOrDirectory .. => .notFound
  | .inappropriateType _ code details =>
      if code = 20 then .notAFolder
      else if code = 21 then .isAFolder
      else .other details
  | .invalidArgument _ code details => if code = 36 then .nameTooLong else .other details
  | e => .other (toString e)

/-- Does something on the disk and catches its error. -/
def attempt {α : Type} (path : Path) (action : IO α) : IO (Except IoError α) := do
  if path.text.toList.contains '\x00' then return .error .nulInPath
  match ← action.toBaseIO with
  | .ok value => return .ok value
  | .error e => return .error (ioError e)

/-- The bytes of a file. -/
def read (path : Path) : IO (Except IoError ByteArray) :=
  attempt path (IO.FS.readBinFile path.text)

/-- What a path names. -/
def kind (path : Path) : IO (Option FileKind) := do
  match ← read path with
  | .ok _ => return some .file
  | .error .isAFolder => return some .folder
  | .error _ => return none

/-- Reads a stream to its end. -/
partial def readAll (stream : IO.FS.Stream) (bytes : ByteArray) : IO ByteArray := do
  let more ← stream.read 65536
  if more.isEmpty then return bytes else readAll stream (bytes ++ more)

/-- Answers all requests of a script from the disk. -/
def perform {α : Type} (history : History) : Script α → IO α
  | .done value => return value
  | .kind path next => do perform history (next (← kind path))
  | .read path next => do perform history (next (← read path))
  | .write path bytes next => do
      let written ← attempt path (IO.FS.writeBinFile path.text bytes)
      perform history (next written)
  | .record path digest next =>
      perform (history.record path digest).2 (next (history.record path digest).1)
  | .input next => do perform history (next (← readAll (← IO.getStdin) ByteArray.empty))

end LintRepair.Disk

open LintRepair in
/-- Runs the command with its arguments. -/
def main (arguments : List String) : IO UInt32 := do
  let environment : Command.Environment :=
    { settings := ← IO.getEnv "STYLEPATCH_CONFIG"
      settingsFolder := ← IO.getEnv "STYLEPATCH_CONFIG_DIR"
      home := ← IO.getEnv "HOME" }
  let result ← Disk.perform History.empty (Command.run arguments environment)
  IO.print result.stdout
  if let some message := result.error then
    IO.eprintln ("Error: " ++ message)
  return result.exit.toUInt32
