import TieredUdf.Error
import TieredUdf.Module.Descriptor

/-!
# Binding of arguments and results

A call gives parameters by name.  Binding puts them in the order of their declarations: a value
that is given is widened to the declared type, and a missing one is the default or, without a
default, zero.  Texts are set apart, because the guest asks for them by name.
-/

namespace TieredUdf

abbrev Arguments : Type := List (String × Value)

namespace Arguments

def get? (args : Arguments) (name : String) : Option Value :=
  (args.find? fun a => a.1 == name).map Prod.snd

end Arguments

/-- The parameters of a call in declaration order. -/
structure BoundCall where
  positional : List Scalar
  texts : List (String × String)
  deriving DecidableEq, Repr, Inhabited

namespace BoundCall

/-- The arguments of the entry point; the context's identifier comes first. -/
def arguments (c : BoundCall) (ctx : Int64) : List Scalar := .i64 ctx :: c.positional

def cons (name : String) (value : Value) (c : BoundCall) : BoundCall :=
  match value with
  | .string s => { c with texts := (name, s) :: c.texts }
  | value =>
      match value.toScalar? with
      | some raw => { c with positional := raw :: c.positional }
      | none => c

end BoundCall

namespace Param

/-- The value of a parameter that is not given. -/
def absent (p : Param) : Value :=
  (p.default.bind fun d => d.coerce? p.type).getD (.zero p.type)

def bind (p : Param) (args : Arguments) : Except ExecError Value :=
  match args.get? p.name with
  | some given =>
      match given.widen? p.type with
      | some value => .ok value
      | none => .error (.parameterType p.name p.type given.type)
  | none => if p.required then .error (.missingParameter p.name) else .ok p.absent

end Param

namespace Descriptor

def bindParams (args : Arguments) : List Param → Except ExecError BoundCall
  | [] => .ok ⟨[], []⟩
  | p :: rest => do
      let value ← p.bind args
      let more ← bindParams args rest
      return more.cons p.name value

/-- Bind the parameters of a call; one that is not declared is refused first. -/
def bind (d : Descriptor) (args : Arguments) : Except ExecError BoundCall :=
  match args.find? fun a => (d.param? a.1).isNone with
  | some (name, _) => .error (.unknownParameter name)
  | none => bindParams args d.params

/-- Take results as values of the declared types, from a position on. -/
def convertFrom (index : Nat) : List ValueType → List Scalar → Except ExecError (List Value)
  | t :: returns, raw :: more => do
      match Value.ofScalar? t raw with
      | none => .error (.resultType index t raw.type.natural)
      | some value => return value :: (← convertFrom (index + 1) returns more)
  | _, _ => .ok []

def convertResults (returns : List ValueType) (raw : List Scalar) :
    Except ExecError (List Value) :=
  if raw.length = returns.length then convertFrom 0 returns raw
  else .error (.resultArity returns.length raw.length)

end Descriptor

end TieredUdf
