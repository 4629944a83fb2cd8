import TieredUdf.Tier.Instance
import TieredUdf.Wasm.Machine

/-!
# Instances of a program

An instance is a program with a store that lives as long as the instance.  Every call starts
with the full instruction budget.  A call that traps spends the instance: its store is gone.
-/

namespace TieredUdf.Wasm

open Guest (Dialogue)

structure Instance where
  program : Program
  store : Store
  entry : Nat
  results : List ScalarType
  fuel : Nat
  maxDepth : Nat

namespace Instance

/-- The budget when instructions are not counted, which no run reaches. -/
def unlimited : Nat := Numeric.powerOfTwo 62

def instantiationError (t : Trap) : ExecError := .instantiation t.detail

def instantiate (p : Program) (maxDepth : Nat) (spec : InstanceSpec) :
    Dialogue (Except ExecError Instance) :=
  let fuel := spec.fuel.getD unlimited
  match p.exported? spec.entry with
  | none => .done (.error (.instantiation ("missing export '" ++ spec.entry ++ "'")))
  | some entry =>
      let results := (p.functionTypes.getD entry default).results.filterMap ValType.scalar?
      let finish (store : Store) : Instance := ⟨p, store, entry, results, fuel, maxDepth⟩
      match Store.instantiate p (spec.maxMemoryBytes / pageSize) with
      | .error t => .done (.error (instantiationError t))
      | .ok store =>
          match p.module.start with
          | none => .done (.ok (finish store))
          | some start =>
              (callIndex p maxDepth fuel store start []).map fun
                | .ok (_, store) => .ok (finish store)
                | .error t => .error (instantiationError t)

def call (i : Instance) (args : List Scalar) :
    Dialogue (Except ExecError (List Scalar) × Instance) :=
  match i with
  | ⟨program, store, entry, results, fuel, maxDepth⟩ =>
      (callIndex program maxDepth fuel store entry args).map fun
        | .ok (words, store) =>
            (.ok ((results.zip words).map fun (t, w) => scalarOfWord t w),
              ⟨program, store, entry, results, fuel, maxDepth⟩)
        | .error t =>
            (.error t.toExecError, ⟨program, default, entry, results, fuel, maxDepth⟩)

end Instance

/-- The program of some bytecode; `none` when it is not valid or cannot be run. -/
def Program.ofBytes? (bytes : List UInt8) : Option Program :=
  (Module.ofBytes? bytes).bind ofModule?

end TieredUdf.Wasm
