import TieredUdf.CommandLine.Form
import TieredUdf.Config

/-!
# Requests

A request is to inspect a module, or to run the module of a manifest.  Options for all commands
stand before or after the name of the command; what stands after it counts.
-/

namespace TieredUdf.CommandLine

open Numeric (Double)

structure RunRequest where
  /-- The file of the settings. -/
  config : Option String
  manifest : String
  /-- The file of the document's fields. -/
  document : Option String
  documentId : String
  score : Double
  /-- Parameters as they are written. -/
  params : List String
  iterations : Nat
  /-- How long to wait for native code, in milliseconds. -/
  waitMs : Option Nat
  deriving Repr, Inhabited

inductive Request where
  | inspect (wasm : String) (maxPages : Nat)
  | run (r : RunRequest)
  deriving Repr, Inhabited

namespace Request

def valueOption (name : String) (kind : ValueKind) : OptionForm :=
  ⟨name, none, .value kind false⟩

def sharedOptions : List OptionForm :=
  [⟨"verbose", some 'v', .count⟩, valueOption "config" .path, ⟨"help", some 'h', .ask .help⟩]

def topForm : CommandForm :=
  { options := ⟨"version", some 'V', .ask .version⟩ :: sharedOptions
    arguments := []
    commands := ["inspect", "run", "help"] }

def inspectForm : CommandForm :=
  { options := valueOption "max-memory-pages" .word32 :: sharedOptions
    arguments := [("wasm", .path)]
    commands := [] }

def runForm : CommandForm :=
  { options :=
      [valueOption "doc" .path, valueOption "doc-id" .text, valueOption "score" .real,
        ⟨"param", none, .value .text true⟩, ⟨"iterations", some 'n', .value .word32 false⟩,
        valueOption "wait-native-ms" .word64] ++ sharedOptions
    arguments := [("manifest", .path)]
    commands := [] }

/-- What the command `help` answers: a page for at most one command. -/
def helpAnswer : List String → Refusal
  | [] => .page .help
  | [command] => if topForm.commands.contains command then .page .help else .usage
  | _ => .usage

def inspectRequest (r : Reading) : Request :=
  .inspect ((r.value? "wasm").getD "")
    (((r.value? "max-memory-pages").bind word32?).getD 256)

def runRequest (top r : Reading) : Request :=
  .run {
    config := (r.value? "config").or (top.value? "config")
    manifest := (r.value? "manifest").getD ""
    document := r.value? "doc"
    documentId := (r.value? "doc-id").getD "doc-1"
    score := ((r.value? "score").bind real?).getD (.ofInt 1)
    params := r.values? "param"
    iterations := ((r.value? "iterations").bind word32?).getD 1
    waitMs := (r.value? "wait-native-ms").bind word64? }

/-- How much is to be told on the side: the number of times that this was asked for. -/
def verbosity (top r : Reading) : Nat :=
  let below := (r.values? "verbose").length
  if 0 < below then below else (top.values? "verbose").length

def read (words : List String) : Except Refusal (Request × Nat) := do
  let (top, below) ← Reading.read topForm .empty words
  match below with
  | none => throw .usage
  | some ("help", rest) => throw (helpAnswer rest)
  | some (name, rest) =>
      let inspects := name = "inspect"
      let form := if inspects then inspectForm else runForm
      let (r, _) ← Reading.read form .empty rest
      let r ← r.complete form
      let top ← top.settle
      return (if inspects then inspectRequest r else runRequest top r, verbosity top r)

end Request

end TieredUdf.CommandLine
