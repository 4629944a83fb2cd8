import TieredUdf.CommandLine.Run
import TieredUdf.CommandLine.Usage
import TieredUdf.Exchange.Report

/-!
# The command line

Carries scripts out on real files and prints what they answer.
-/

namespace TieredUdf.CommandLine

open Files (Fault)

def faultOf : IO.Error → Fault
  | .noFileOrDirectory .. => .notFound
  | .alreadyExists .. => .alreadyExists
  | .inappropriateType _ code _ => if code = 20 then .notDirectory else .isDirectory
  | .permissionDenied _ code _ =>
      .other ("Permission denied (os error " ++ toString code ++ ")")
  | e => .other (toString e)

def attempt {α : Type} (act : IO α) : IO (Except Fault α) := do
  return (← act.toBaseIO).mapError faultOf

def readBytes (path : String) : IO (List UInt8) := do
  return (← IO.FS.readBinFile path).toList

/-- Make a directory, unless it exists, and list it. -/
def listDirectory (path : String) : IO Directory := do
  IO.FS.createDirAll path
  let entries ← (System.mkFilePath [path]).readDir
  let items ← entries.toList.mapM fun entry => do
    if ← entry.path.isDir then return (entry.fileName, DirectoryItem.folder)
    else return (entry.fileName, .file (← readBytes entry.path.toString))
  return ⟨true, items⟩

def changeFile (path : String) : FileOp → IO Unit
  | .write name data => IO.FS.writeBinFile (System.mkFilePath [path, name]) ⟨data.toArray⟩
  | .rename source target =>
      IO.FS.rename (System.mkFilePath [path, source]) (System.mkFilePath [path, target])
  | .remove name => IO.FS.removeFile (System.mkFilePath [path, name])

/-- Carry out a script; `began` is the time at which the clock of the machine was at zero. -/
def Script.perform {α : Type} (began : Nat) : Script α → IO α
  | .done a => pure a
  | .read path next => do
      let data ← attempt (readBytes path)
      (next data).perform began
  | .openDirectory path next => do
      let d ← attempt (listDirectory path)
      (next d).perform began
  | .change path ops next => do
      ops.forM fun op => do
        let _ ← attempt (changeFile path op)
      next.perform began
  | .clock next => do
      let time ← IO.monoNanosNow
      (next (began + time)).perform began

/-- The time of day in nanoseconds, as it is given to a new file. -/
def timeOfDay : IO Nat := do
  let (_, path) ← IO.FS.createTempFile
  let modified := (← path.metadata).modified
  IO.FS.removeFile path
  return modified.sec.toNat * 1000000000 + modified.nsec.toNat

/-- The directory of the cache, when no settings give one. -/
def defaultCacheDir : IO (Option String) := do
  let home := (← IO.getEnv "HOME").map fun h => Files.Path.join h ".cache"
  let base := match ← IO.getEnv "XDG_CACHE_HOME" with
    | some d => if Files.Path.isAbsolute d then some d else home
    | none => home
  return base.map fun d => Files.Path.join d "quidditch/udf-native"

/-- Whether a log line is shown at a verbosity. -/
def isShown (verbosity : Nat) : Host.Level → Bool
  | .error | .warn => true
  | .info => 1 ≤ verbosity
  | .debug => 2 ≤ verbosity
  | .trace => 3 ≤ verbosity

def printAnswer (verbosity : Nat) : Except Failure Answer → IO UInt32
  | .ok a => do
      for line in a.lines.reverse do
        if isShown verbosity line.level then
          IO.eprintln (Exchange.levelName line.level ++ " " ++ line.text)
      IO.println a.report.pretty
      return 0
  | .error f => do
      IO.eprintln ("error: " ++ f.message)
      return 1

def serve (words : List String) : IO UInt32 := do
  match Request.read words with
  | .error (.page page) =>
      IO.println page.text
      return 0
  | .error .usage =>
      IO.eprintln usageText
      return 2
  | .ok (request, verbosity) =>
      let defaults := Config.defaults (← defaultCacheDir) 1
      let time ← (attempt timeOfDay)
      let began := (time.toOption.getD 0) - (← IO.monoNanosNow)
      printAnswer verbosity (← (request.script defaults).perform began)

end TieredUdf.CommandLine

def main (words : List String) : IO UInt32 := TieredUdf.CommandLine.serve words
