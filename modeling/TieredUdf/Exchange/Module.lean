import TieredUdf.Document.Basic
import TieredUdf.Engine.Query
import TieredUdf.Exchange.Value
import TieredUdf.Json.Parser
import TieredUdf.Module.Shape

/-!
# The exchange form of modules and documents

A descriptor is an object with its bytecode in hexadecimal digits.  A document is given by the
text of its JSON fields, by named values, or without fields.
-/

namespace TieredUdf.Exchange

/-! ### Descriptors -/

def toParam (j : Json) : Param :=
  ⟨j.text "name", toType j "ty", j.flag "required", (j.given? "default").map toValue⟩

/-- What is said about a module.  One that is put together step by step has only an author, a
category and tags. -/
def toMetadata (j : Json) : Metadata :=
  let custom := (j.members "custom").filterMap fun m => m.2.asText?.map fun s => (m.1, s)
  if j.flag "via_builder" then
    ⟨none, j.text? "author", j.text? "category", j.texts "tags", none, []⟩
  else
    ⟨j.text? "description", j.text? "author", j.text? "category", j.texts "tags",
      j.text? "license", custom.mergeSort fun a b => decide (a.1 ≤ b.1)⟩

def toKey (j : Json) : ModuleKey := ⟨j.text "name", j.text "version"⟩

def toDescriptor (j : Json) : Descriptor :=
  let limits := j.member "limits"
  .ofBytecode (toKey j) (j.text "entry") ((j.items "params").map toParam) (toTypes j "returns")
    (toBytes j "wasm") (toMetadata (j.member "meta"))
    ⟨limits.natural? "pool_size", limits.natural? "fuel"⟩

def ofParam (p : Param) : Json :=
  .object [("name", .string p.name), ("ty", ofType p.type), ("required", .bool p.required),
    ("default", Json.ofOption ofValue p.default), ("positional", .bool p.isPositional)]

def ofMetadata (m : Metadata) : Json :=
  .object [("author", Json.ofOption .string m.author),
    ("category", Json.ofOption .string m.category),
    ("custom", .object (m.custom.map fun c => (c.1, .string c.2))),
    ("description", Json.ofOption .string m.description),
    ("license", Json.ofOption .string m.license), ("tags", Json.ofList .string m.tags)]

/-- What every view of a module tells. -/
def descriptorMembers (d : Descriptor) : List (String × Json) :=
  [("key", .string d.key.text), ("entry", .string d.entry),
    ("params", Json.ofList ofParam d.params), ("returns", Json.ofList ofType d.returns),
    ("bytecode_len", Json.ofNat d.bytecode.length), ("meta", ofMetadata d.metadata)]

/-- A descriptor, with some members more. -/
def ofDescriptor (d : Descriptor) (more : List (String × Json)) : Json :=
  let limits := .object [("fuel", Json.ofOption Json.ofNat d.limits.fuel),
    ("pool_size", Json.ofOption Json.ofNat d.limits.poolSize)]
  .object (descriptorMembers d ++
    [("name", .string d.key.name), ("version", .string d.key.version),
      ("hash", .string d.hash.hex), ("limits", limits)] ++ more)

def ofInfo (i : ModuleInfo) : Json :=
  .object (descriptorMembers i.descriptor ++
    [("hash", .string i.descriptor.hash.short), ("mode", .string i.mode.name)])

/-! ### Shapes -/

def ofSignature (s : Signature) : Json :=
  .array [Json.ofList ofScalarType s.params, Json.ofList ofScalarType s.results]

def ofExport (f : ExportedFunction) : Json :=
  .object [("name", .string f.name), ("display", .string f.type.text),
    ("scalar", Json.ofOption ofSignature f.type.signature?)]

def ofShape (s : ModuleShape) (lookup : Option String) : Json :=
  let found := (lookup.bind s.function?).map fun f => f.type.text
  .object [("imports", Json.ofList .string s.imports),
    ("functions", Json.ofList ofExport s.functions), ("exports_memory", .bool s.exportsMemory),
    ("initial_memory_pages", Json.ofNat s.initialPages),
    ("lookup", Json.ofOption .string found)]

/-! ### Documents -/

def toFields? (j : Json) : Option Fields :=
  match j.text? "doc", j.given? "map" with
  | some s, _ => (Json.parse? s).map .json
  | none, some _ => some (.values (toNamedValues j "map"))
  | none, none => some (.json .null)

/-- A document; `none` when the text of its fields is not JSON. -/
def toDocument? (j : Json) : Option Document :=
  (toFields? j).map fun f => ⟨j.textOr "doc_id" "doc-1", toDouble (j.member "score"), f⟩

def fieldKind : Field → String × Json
  | .int n => ("int", .integer n)
  | .float x => ("float", ofDouble x)
  | .bool b => ("bool", .bool b)
  | .text s => ("str", .string s)
  | .other => ("other", .null)

/-- A field with every view of it. -/
def ofField (f : Field) : Json :=
  .object [("kind", .string (fieldKind f).1), ("value", (fieldKind f).2),
    ("as_f64", Json.ofOption ofDouble f.toDouble?),
    ("as_i64", Json.ofOption Json.integer f.toInt?),
    ("as_bool", Json.ofOption Json.bool f.toBool?),
    ("as_str", Json.ofOption .string f.text?)]

end TieredUdf.Exchange
