import Mathlib.Data.List.Forall2
import TieredUdf.Module.Shape
import TieredUdf.Proofs.Module.Signature
import TieredUdf.Proofs.Wasm.Sections

/-! # The sandbox

A module is admitted exactly when it is valid, imports nothing but host functions, each with its
own type, and starts with memories that stay within the page limit.  The shape of an admitted
module lists what the module imports and exports, with the type that each exported function has
by its number.
-/

namespace TieredUdf

/-! ## Host functions by name -/

theorem Host.Function.mem_all (f : Function) : f ∈ all := by cases f <;> decide

theorem Host.Function.ofName?_eq_some {s : String} {f : Function} :
    ofName? s = some f ↔ f.name = s := by
  constructor
  · intro h
    simpa using List.find?_some h
  · rintro rfl
    cases f <;> decide

theorem Host.Function.name_injective {f g : Function} (h : f.name = g.name) : f = g := by
  have hf := ofName?_eq_some.mpr h
  rw [ofName?_eq_some.mpr rfl] at hf
  exact (Option.some.inj hf).symm

namespace Wasm

/-! ## What validity resolves -/

namespace Module

theorem nodup_of_allDistinct {names : List String} (h : allDistinct names = true) :
    names.Nodup := by
  induction names with
  | nil => exact .nil
  | cons n names ih =>
      simp only [allDistinct, Bool.and_eq_true, Bool.not_eq_true', List.contains_eq_mem,
        decide_eq_false_iff_not] at h
      exact List.nodup_cons.mpr ⟨h.1, ih h.2⟩

/-- What the rules promise about the imports and exports of a module whose functions have the
given types. -/
structure Resolved (m : Module) (functions : List FuncType) : Prop where
  types : m.functionTypesResolved? = some functions
  imports : ∀ i ∈ m.imports, m.importOk i = true
  exports : ∀ e ∈ m.exports, m.exportOk (m.context functions) e = true
  names : (m.exports.map Export.name).Nodup

theorem resolved_of_isValid {m : Module} (h : m.isValid = true) :
    ∃ functions, m.Resolved functions := by
  unfold isValid at h
  split at h
  · cases h
  · rename_i functions hf
    simp only [Bool.and_eq_true, List.all_eq_true] at h
    exact ⟨functions, hf, h.1.1.1.1.1.1.1.1.1.1.1.1.1.2, h.1.1.1.1.1.1.1.1.2,
      nodup_of_allDistinct h.1.1.1.1.1.1.1.2⟩

/-- The type that a valid module gives to the function of a number: imported functions are
numbered before those the module defines. -/
def HasFunction (m : Module) (index : Nat) (type : FuncType) : Prop :=
  ∃ typeIndex, (m.importedFunctions ++ m.functions)[index]? = some typeIndex ∧
    m.types[typeIndex]? = some type

theorem HasFunction.unique {m : Module} {index : Nat} {type other : FuncType}
    (h : m.HasFunction index type) (k : m.HasFunction index other) : type = other := by
  obtain ⟨i, hi, ht⟩ := h
  obtain ⟨j, hj, hu⟩ := k
  cases hi.symm.trans hj
  exact Option.some.inj (ht.symm.trans hu)

theorem functionType?_eq_some {m : Module} {index : Nat} {type : FuncType} :
    m.functionType? index = some type ↔ m.HasFunction index type := by
  unfold functionType? HasFunction functionTypes
  rw [Option.bind_eq_bind, Option.bind_eq_some_iff]

/-- Every exported function of a valid module exists and has a type. -/
theorem exported_hasFunction {m : Module} (h : m.isValid = true) {e : Export}
    (exported : e ∈ m.exports) (isFunc : e.kind = .func) :
    ∃ type, m.functionType? e.index = some type ∧ m.HasFunction e.index type := by
  obtain ⟨functions, resolved⟩ := resolved_of_isValid h
  have below : e.index < functions.length := by
    simpa [exportOk, isFunc, context] using resolved.exports e exported
  have looked := getElem?_of_mapM resolved.types e.index
  rw [List.getElem?_eq_getElem below] at looked
  have found : m.functionType? e.index = some functions[e.index] := looked.symm
  exact ⟨_, found, functionType?_eq_some.mp found⟩

end Module

end Wasm

namespace ModuleShape

open Wasm (Import FuncType MemoryType)

/-! ## Imports and memories -/

/-- An import of a host function with exactly that function's type. -/
def IsHostImport (types : List FuncType) (i : Import) : Prop :=
  ∃ f ∈ Host.Function.all, ∃ typeIndex, i.module = "env" ∧ i.name = f.name ∧
    i.kind = .func typeIndex ∧ types[typeIndex]? = some (.ofSignature ⟨f.params, f.results⟩)

def importText (i : Import) : String := i.module ++ "." ++ i.name

/-- The import of a host function by its name depends on its type alone. -/
theorem isHostImport_named {types : List FuncType} {f : Host.Function} {typeIndex : Nat} :
    IsHostImport types ⟨"env", f.name, .func typeIndex⟩ ↔
      types[typeIndex]? = some (.ofSignature (hostSignature f)) := by
  constructor
  · rintro ⟨g, _, index, _, hname, hkind, htype⟩
    cases Host.Function.name_injective hname
    cases hkind
    exact htype
  · intro htype
    exact ⟨f, f.mem_all, typeIndex, rfl, rfl, rfl, htype⟩

theorem checkImport_eq_ok {m : Wasm.Module} {i : Import} (resolved : m.importOk i = true)
    {text : String} :
    checkImport m.types i = .ok text ↔ IsHostImport m.types i ∧ text = importText i := by
  obtain ⟨module, name, kind⟩ := i
  cases kind with
  | func typeIndex =>
      have below : typeIndex < m.types.length := by simpa [Wasm.Module.importOk] using resolved
      obtain ⟨type, found⟩ : ∃ type, m.types[typeIndex]? = some type :=
        ⟨_, List.getElem?_eq_getElem below⟩
      simp only [checkImport, Host.moduleName, found]
      by_cases hm : module = "env"
      · subst hm
        rw [if_neg (not_not_intro rfl)]
        cases hf : Host.Function.ofName? name with
        | none =>
            have unknown : ∀ f : Host.Function, name ≠ f.name := fun f e => by
              rw [Host.Function.ofName?_eq_some.mpr e.symm] at hf
              cases hf
            simp [IsHostImport, unknown]
        | some f =>
            rw [Host.Function.ofName?_eq_some] at hf
            subst hf
            rw [isHostImport_named, found, Option.some.injEq, ← FuncType.signature?_eq_some]
            dsimp only
            split
            · rename_i typed
              rw [Except.ok.injEq, eq_comm]
              exact (and_iff_right typed).symm
            · rename_i untyped
              simp [untyped]
      · rw [if_pos hm]
        simp [IsHostImport, hm]
  | table t => simp [checkImport, IsHostImport]
  | memory t => simp [checkImport, IsHostImport]
  | global t => simp [checkImport, IsHostImport]

theorem checkImports_eq_ok {m : Wasm.Module} {imports : List Import}
    (resolved : ∀ i ∈ imports, m.importOk i = true) {texts : List String} :
    checkImports m.types imports = .ok texts ↔
      (∀ i ∈ imports, IsHostImport m.types i) ∧ texts = imports.map importText := by
  induction imports generalizing texts with
  | nil => simp [checkImports, eq_comm]
  | cons i imports ih =>
      obtain ⟨hi, hrest⟩ := List.forall_mem_cons.mp resolved
      rw [checkImports, List.forall_mem_cons, List.map_cons]
      constructor
      · intro h
        obtain ⟨text, hc, h⟩ := bind_eq_ok.mp h
        obtain ⟨more, hcs, h⟩ := bind_eq_ok.mp h
        cases h
        obtain ⟨host, rfl⟩ := (checkImport_eq_ok hi).mp hc
        obtain ⟨hosts, rfl⟩ := (ih hrest).mp hcs
        exact ⟨⟨host, hosts⟩, rfl⟩
      · rintro ⟨⟨host, hosts⟩, rfl⟩
        rw [(checkImport_eq_ok hi).mpr ⟨host, rfl⟩, (ih hrest).mpr ⟨hosts, rfl⟩]
        rfl

theorem checkMemories_eq_ok {limit : Nat} {memories : List MemoryType} :
    checkMemories limit memories = .ok () ↔ ∀ t ∈ memories, t.limits.initial ≤ limit := by
  induction memories with
  | nil => simp [checkMemories]
  | cons t memories ih =>
      rw [checkMemories, List.forall_mem_cons]
      split
      · simp; omega
      · rw [ih]
        constructor
        · intro h
          exact ⟨by omega, h⟩
        · exact And.right

/-! ## Exports -/

/-- The functions among some exports are told, in their order, once each of them has a type. -/
theorem exportedFunctions_eq_ok {m : Wasm.Module} {exports : List Wasm.Export}
    (typed : ∀ e ∈ exports, e.kind = .func →
      ∃ type, m.functionType? e.index = some type ∧ m.HasFunction e.index type) :
    ∃ functions, exportedFunctions m exports = .ok functions ∧
      List.Forall₂ (fun e f => f.name = e.name ∧ m.HasFunction e.index f.type)
        (exports.filter fun e => e.kind = .func) functions := by
  induction exports with
  | nil => exact ⟨[], rfl, .nil⟩
  | cons e exports ih =>
      obtain ⟨he, hrest⟩ := List.forall_mem_cons.mp typed
      obtain ⟨functions, told, pairs⟩ := ih hrest
      rw [exportedFunctions]
      by_cases hk : e.kind = .func
      · obtain ⟨type, found, has⟩ := he hk
        rw [if_neg (not_not_intro hk), found, List.filter_cons_of_pos (by simpa using hk)]
        exact ⟨_, bind_eq_ok.mpr ⟨functions, told, rfl⟩, .cons ⟨rfl, has⟩ pairs⟩
      · rw [if_pos hk, List.filter_cons_of_neg (by simpa using hk)]
        exact ⟨functions, told, pairs⟩

/-! ## Errors -/

/-- Why a module is not admitted.  A signature that is told is not that of the function found. -/
inductive Refused : ValidationError → Prop
  | empty : Refused .emptyBytecode
  | malformed (detail : String) : Refused (.malformedBytecode detail)
  | foreign (module name : String) : Refused (.forbiddenImport module name)
  | mistyped (name : String) {expected : Signature} {found : FuncType}
      (other : found.signature? ≠ some expected) :
      Refused (.importSignatureMismatch name expected.text found.text)
  | large {requested limit : Nat} (above : limit < requested) :
      Refused (.memoryLimitExceeded requested limit)

variable {error : ValidationError}

theorem refused_of_checkImport {types : List FuncType} {i : Import}
    (failed : checkImport types i = .error error) : Refused error := by
  unfold checkImport at failed
  split at failed
  · split at failed
    · cases failed
      exact .foreign _ _
    · split at failed
      · cases failed
        exact .foreign _ _
      · split at failed
        · cases failed
          exact .malformed _
        · split at failed
          · cases failed
          · rename_i other
            cases failed
            exact .mistyped _ other
  · cases failed
    exact .foreign _ _

theorem refused_of_checkImports {types : List FuncType} {imports : List Import}
    (failed : checkImports types imports = .error error) : Refused error := by
  induction imports with
  | nil => cases failed
  | cons i imports ih =>
      rcases bind_eq_error.mp failed with first | ⟨_, _, rest⟩
      · exact refused_of_checkImport first
      · rcases bind_eq_error.mp rest with later | ⟨_, _, ⟨⟩⟩
        exact ih later

theorem refused_of_checkMemories {limit : Nat} {memories : List MemoryType}
    (failed : checkMemories limit memories = .error error) : Refused error := by
  induction memories with
  | nil => cases failed
  | cons t memories ih =>
      rw [checkMemories] at failed
      split at failed
      · rename_i above
        cases failed
        exact .large above
      · exact ih failed

theorem refused_of_exportedFunctions {m : Wasm.Module} {exports : List Wasm.Export}
    (failed : exportedFunctions m exports = .error error) : Refused error := by
  induction exports with
  | nil => cases failed
  | cons e exports ih =>
      rw [exportedFunctions] at failed
      split at failed
      · exact ih failed
      · split at failed
        · cases failed
          exact .malformed _
        · rcases bind_eq_error.mp failed with later | ⟨_, _, ⟨⟩⟩
          exact ih later

theorem refused_of_ofBytecode {bytes : List UInt8} {limit : Nat}
    (failed : ofBytecode bytes limit = .error error) : Refused error := by
  unfold ofBytecode at failed
  split at failed
  · cases failed
    exact .empty
  · split at failed
    · rcases bind_eq_error.mp failed with imports | ⟨_, _, rest⟩
      · exact refused_of_checkImports imports
      · rcases bind_eq_error.mp rest with memories | ⟨_, _, rest⟩
        · exact refused_of_checkMemories memories
        · rcases bind_eq_error.mp rest with exports | ⟨_, _, ⟨⟩⟩
          exact refused_of_exportedFunctions exports
    · cases failed
      exact .malformed _

/-! ## Admission -/

/-- What the sandbox asks of a module: host functions alone are imported, and no memory starts
with more pages than the limit. -/
structure Sandboxed (m : Wasm.Module) (limit : Nat) : Prop where
  imports : ∀ i ∈ m.imports, IsHostImport m.types i
  memories : ∀ t ∈ m.memories, t.limits.initial ≤ limit

/-- A shape tells what a module imports and exports, everything in its order. -/
structure Describes (s : ModuleShape) (m : Wasm.Module) : Prop where
  imports : s.imports = m.imports.map importText
  exportsMemory : s.exportsMemory = true ↔ ∃ e ∈ m.exports, e.kind = .memory ∧ e.name = "memory"
  functions : List.Forall₂ (fun e f => f.name = e.name ∧ m.HasFunction e.index f.type)
    (m.exports.filter fun e => e.kind = .func) s.functions

theorem ofBytes?_eq_some {bytes : List UInt8} {m : Wasm.Module} :
    Wasm.Module.ofBytes? bytes = some m ↔
      Wasm.Module.decode? bytes = some m ∧ m.isValid = true := by
  unfold Wasm.Module.ofBytes?
  cases Wasm.Module.decode? bytes with
  | none => simp
  | some found =>
      dsimp only
      split
      · rename_i valid
        constructor
        · intro same
          cases same
          exact ⟨rfl, valid⟩
        · exact And.left
      · rename_i invalid
        constructor
        · intro none
          cases none
        · rintro ⟨same, valid⟩
          cases same
          exact absurd valid invalid

theorem ofModule_eq_ok {m : Wasm.Module} (valid : m.isValid = true) {limit : Nat}
    {s : ModuleShape} :
    ofModule m limit = .ok s ↔ Sandboxed m limit ∧ ∃ functions,
      exportedFunctions m m.exports = .ok functions ∧ s =
      { imports := m.imports.map importText
        functions := functions
        exportsMemory := m.exports.any fun e => e.kind == .memory && e.name == Host.memoryName
        initialPages := (m.memories.getLast?.map fun t => t.limits.initial).getD 0 } := by
  obtain ⟨_, resolved⟩ := Wasm.Module.resolved_of_isValid valid
  unfold ofModule
  constructor
  · intro h
    obtain ⟨texts, hi, h⟩ := bind_eq_ok.mp h
    obtain ⟨_, hm, h⟩ := bind_eq_ok.mp h
    obtain ⟨functions, hf, h⟩ := bind_eq_ok.mp h
    cases h
    obtain ⟨hosts, rfl⟩ := (checkImports_eq_ok resolved.imports).mp hi
    exact ⟨⟨hosts, checkMemories_eq_ok.mp hm⟩, functions, hf, rfl⟩
  · rintro ⟨⟨hosts, memories⟩, functions, told, rfl⟩
    exact bind_eq_ok.mpr ⟨_, (checkImports_eq_ok resolved.imports).mpr ⟨hosts, rfl⟩,
      bind_eq_ok.mpr ⟨(), checkMemories_eq_ok.mpr memories,
        bind_eq_ok.mpr ⟨functions, told, rfl⟩⟩⟩

theorem ofBytecode_eq_ok {bytes : List UInt8} {limit : Nat} {s : ModuleShape}
    (h : ofBytecode bytes limit = .ok s) :
    ∃ m, Wasm.Module.ofBytes? bytes = some m ∧ Sandboxed m limit ∧ s.Describes m := by
  unfold ofBytecode at h
  split at h
  · cases h
  · split at h
    · rename_i m hb
      obtain ⟨_, valid⟩ := ofBytes?_eq_some.mp hb
      obtain ⟨sandboxed, functions, told, rfl⟩ := (ofModule_eq_ok valid).mp h
      obtain ⟨_, same, pairs⟩ :=
        exportedFunctions_eq_ok fun e => Wasm.Module.exported_hasFunction valid (e := e)
      cases told.symm.trans same
      refine ⟨m, hb, sandboxed, rfl, ?_, pairs⟩
      simp [Host.memoryName]
    · cases h

/-- A core module is admitted exactly when it is valid and obeys the sandbox, and its shape
describes the module that its sections write. -/
theorem ofBytecode_admits_iff {bytes : List UInt8} (core : bytes.take 8 = Wasm.Module.heading)
    (limit : Nat) :
    ((∃ s, ofBytecode bytes limit = .ok s) ↔
      ∃ m, Wasm.Module.ofBytes? bytes = some m ∧ Sandboxed m limit) ∧
    ∀ s, ofBytecode bytes limit = .ok s → ∃ m sections,
      Wasm.Module.ofBytes? bytes = some m ∧ Wasm.Layout (bytes.drop 8) sections ∧
      m.ReadFrom sections ∧ s.Describes m := by
  refine ⟨⟨?_, ?_⟩, ?_⟩
  · rintro ⟨s, h⟩
    obtain ⟨m, hb, sandboxed, _⟩ := ofBytecode_eq_ok h
    exact ⟨m, hb, sandboxed⟩
  · rintro ⟨m, hb, sandboxed⟩
    have nonempty : bytes ≠ [] := fun e => by
      rw [e] at core
      cases core
    have valid := (ofBytes?_eq_some.mp hb).2
    obtain ⟨functions, told, _⟩ :=
      exportedFunctions_eq_ok fun e => Wasm.Module.exported_hasFunction valid (e := e)
    have admitted := (ofModule_eq_ok valid).mpr ⟨sandboxed, functions, told, rfl⟩
    exact ⟨_, by rw [ofBytecode, if_neg nonempty, hb]; exact admitted⟩
  · intro s h
    obtain ⟨m, hb, _, describes⟩ := ofBytecode_eq_ok h
    obtain ⟨sections, layout, parts⟩ :=
      Wasm.Module.readFrom_of_decode? core (ofBytes?_eq_some.mp hb).1
    exact ⟨m, sections, hb, layout, parts, describes⟩

/-- A module that imports a host function, exports its memory of one page, and exports the one
function it defines, whose number comes after that of the import. -/
def boostBytes : List UInt8 :=
  [0x00, 0x61, 0x73, 0x6d, 0x01, 0x00, 0x00, 0x00, 0x01, 0x0c, 0x02, 0x60, 0x01, 0x7e, 0x01,
   0x7c, 0x60, 0x02, 0x7e, 0x7c, 0x01, 0x7c, 0x02, 0x11, 0x01, 0x03, 0x65, 0x6e, 0x76, 0x09,
   0x67, 0x65, 0x74, 0x5f, 0x73, 0x63, 0x6f, 0x72, 0x65, 0x00, 0x00, 0x03, 0x02, 0x01, 0x01,
   0x05, 0x03, 0x01, 0x00, 0x01, 0x07, 0x12, 0x02, 0x06, 0x6d, 0x65, 0x6d, 0x6f, 0x72, 0x79,
   0x02, 0x00, 0x05, 0x73, 0x63, 0x6f, 0x72, 0x65, 0x00, 0x01, 0x0a, 0x0b, 0x01, 0x09, 0x00,
   0x20, 0x00, 0x10, 0x00, 0x20, 0x01, 0xa2, 0x0b]

theorem ofBytecode_admits_boost :
    boostBytes.take 8 = Wasm.Module.heading ∧
    (∃ m sections, Wasm.Module.ofBytes? boostBytes = some m ∧
      Wasm.Layout (boostBytes.drop 8) sections ∧ m.ReadFrom sections ∧
      Describes ⟨["env.get_score"], [⟨"score", ⟨[.i64, .f64], [.f64]⟩⟩], true, 1⟩ m) := by
  have core : boostBytes.take 8 = Wasm.Module.heading := by decide
  exact ⟨core, (ofBytecode_admits_iff core 1).2 _ (by decide +kernel)⟩

end ModuleShape

end TieredUdf
