import TieredUdf.Error
import TieredUdf.Guest.Dialogue
import TieredUdf.Tier.Mode
import TieredUdf.Value.Basic

/-!
# Instances and what makes them

A factory makes instances of one module on one tier.  It may depend on surroundings and change
them, and any attempt may fail.  How an instance runs is a dialogue with the host that ends with
its results and the instance after the call.
-/

namespace TieredUdf

/-- What a factory needs to know of a module. -/
structure InstanceSpec where
  entry : String
  resultCount : Nat
  /-- Instruction budget of a call; `none` when instructions are not counted. -/
  fuel : Option Nat
  maxMemoryBytes : Nat
  deriving DecidableEq, Repr, Inhabited

/-- Makes an instance, or says why not.  `ω` is the type of the surroundings, `ι` that of
instances. -/
abbrev Factory (ω ι : Type) : Type := ω → Except ExecError ι × ω

/-- Calls the entry point of an instance; the first argument is the context's identifier. -/
abbrev Caller (ι : Type) : Type :=
  ι → List Scalar → Guest.Dialogue (Except ExecError (List Scalar) × ι)

/-- Turns bytecode into a factory that interprets it, or says why it cannot. -/
abbrev Interpreter (ω ι : Type) : Type :=
  List UInt8 → InstanceSpec → Except String (Factory ω ι)

/-- A native compiler.  An artifact is all that has to be stored of a compiled module. -/
structure Backend (ω ι : Type) where
  name : String
  /-- Compile bytecode to an artifact. -/
  compile : List UInt8 → ω → Except CompileError (List UInt8) × ω
  /-- Turn an artifact into a factory. -/
  load : List UInt8 → InstanceSpec → ω → Except CompileError (Factory ω ι) × ω

end TieredUdf
