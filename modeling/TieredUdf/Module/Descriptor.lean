import TieredUdf.Digest.ContentHash
import TieredUdf.Module.Key
import TieredUdf.Value.Basic

/-!
# Module descriptors

What is submitted to be registered: a key, an entry point with its declared parameters and
returns, the bytecode, and what is said about it.  A text parameter is not passed by position.
-/

namespace TieredUdf

structure Param where
  name : String
  type : ValueType
  required : Bool
  default : Option Value
  deriving DecidableEq, Repr, Inhabited

namespace Param

/-- Whether the parameter is an argument of the entry point. -/
def isPositional (p : Param) : Bool := p.type != .string

end Param

structure Metadata where
  description : Option String
  author : Option String
  category : Option String
  tags : List String
  license : Option String
  /-- Further entries, in the order of their names. -/
  custom : List (String × String)
  deriving DecidableEq, Repr, Inhabited

/-- What a module asks for instead of the defaults. -/
structure ModuleLimits where
  poolSize : Option Nat
  fuel : Option Nat
  deriving DecidableEq, Repr, Inhabited

structure Descriptor where
  key : ModuleKey
  entry : String
  params : List Param
  returns : List ValueType
  bytecode : List UInt8
  /-- The hash of the bytecode. -/
  hash : ContentHash
  metadata : Metadata
  limits : ModuleLimits
  deriving Repr, Inhabited

namespace Descriptor

def ofBytecode (key : ModuleKey) (entry : String) (params : List Param)
    (returns : List ValueType) (bytecode : List UInt8) (metadata : Metadata)
    (limits : ModuleLimits) : Descriptor :=
  ⟨key, entry, params, returns, bytecode, .ofBytes bytecode, metadata, limits⟩

def param? (d : Descriptor) (name : String) : Option Param :=
  d.params.find? fun p => p.name == name

end Descriptor

end TieredUdf
