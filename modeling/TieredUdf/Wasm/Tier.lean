import TieredUdf.Module.Invocation
import TieredUdf.Wasm.Instance

/-!
# The two tiers of WebAssembly

Both tiers run programs in the same way, with the same instruction budgets; native code may nest
its calls deeper.  A native artifact is the bytecode behind a mark that tells it apart from
anything else.
-/

namespace TieredUdf.Wasm

def interpreterDepth : Nat := 1024

def nativeDepth : Nat := 8192

def factory {β : Type} (p : Program) (maxDepth : Nat) (spec : InstanceSpec) :
    Factory (World β) Instance := fun world =>
  let (host, result) := (Instance.instantiate p maxDepth spec).run world.host
  (result, { world with host := host })

def interpreter {β : Type} : Interpreter (World β) Instance := fun bytecode spec =>
  match Program.ofBytes? bytecode with
  | some p => .ok (factory p interpreterDepth spec)
  | none => .error "unsupported module"

/-- What an artifact begins with. -/
def artifactMark : List UInt8 := "native:".toUTF8.toList

def bytecodeOf? (artifact : List UInt8) : Option (List UInt8) :=
  if artifactMark.isPrefixOf artifact then some (artifact.drop artifactMark.length) else none

def backend {β : Type} : Backend (World β) Instance :=
  { name := "wasmtime-cranelift"
    compile := fun bytecode world =>
      match Program.ofBytes? bytecode with
      | some _ => (.ok (artifactMark ++ bytecode), world)
      | none => (.error (.codegen "unsupported module"), world)
    load := fun artifact spec world =>
      match (bytecodeOf? artifact).bind Program.ofBytes? with
      | some p => (.ok (factory p nativeDepth spec), world)
      | none => (.error (.load "not a native artifact"), world) }

def caller : Caller Instance := Instance.call

end TieredUdf.Wasm
