import Mathlib.Data.List.Nodup
import TieredUdf.Module.Validation
import TieredUdf.Proofs.Module.Entering
import TieredUdf.Proofs.Module.Sandbox

/-! # Types of arguments and results

Binding, the check of the entry point and the conversion of results agree on one list of scalar
types.  A module that passed validation is therefore called with exactly the arguments that its
entry function takes, and what the function gives converts to the declared returns.
-/

namespace TieredUdf

/-! ## Types of values -/

namespace Value

theorem type_widen? {v w : Value} {t : ValueType} (h : v.widen? t = some w) : w.type = t := by
  unfold widen? at h
  split at h
  · rename_i same
    cases h
    exact same
  · split at h <;> cases h <;> rfl

theorem type_ofInt32? {n : Int} {w : Value} (h : ofInt32? n = some w) : w.type = .i32 := by
  unfold ofInt32? at h
  split at h <;> cases h
  rfl

theorem type_coerce? {v w : Value} {t : ValueType} (h : v.coerce? t = some w) : w.type = t := by
  unfold coerce? at h
  split at h
  · rename_i same
    cases h
    exact same
  · split at h
    · cases h
    · cases t with
      | i32 =>
          obtain ⟨n, _, hn⟩ := Option.bind_eq_some_iff.mp h
          exact type_ofInt32? hn
      | i64 | f32 | f64 =>
          obtain ⟨x, _, rfl⟩ := Option.map_eq_some_iff.mp h
          rfl
      | string | bool => cases h

@[simp] theorem type_zero (t : ValueType) : (zero t).type = t := by cases t <;> rfl

/-- A scalar of the right type can be taken as a value of a declared type. -/
theorem ofScalar?_total {t : ValueType} {raw : Scalar} (h : t.scalar? = some raw.type) :
    ∃ v, ofScalar? t raw = some v ∧ v.type = t := by
  cases t <;> cases raw <;> first | exact ⟨_, rfl, rfl⟩ | cases h

end Value

/-! ## Arguments -/

theorem Param.type_absent (p : Param) : p.absent.type = p.type := by
  unfold absent
  cases hd : p.default.bind fun d => d.coerce? p.type with
  | none => exact Value.type_zero p.type
  | some v =>
      obtain ⟨d, _, hv⟩ := Option.bind_eq_some_iff.mp hd
      exact Value.type_coerce? hv

theorem Param.type_bind {p : Param} {args : Arguments} {v : Value} (h : p.bind args = .ok v) :
    v.type = p.type := by
  unfold Param.bind at h
  split at h
  · split at h
    · cases h
      exact Value.type_widen? ‹_›
    · cases h
  · split at h
    · cases h
    · cases h
      exact p.type_absent

theorem Param.bind_error {p : Param} {args : Arguments} {e : ExecError}
    (h : p.bind args = .error e) : e.isBindingError = true := by
  unfold Param.bind at h
  split at h
  · split at h <;> cases h
    rfl
  · split at h <;> cases h
    rfl

/-- A value takes a position exactly when its type has a scalar. -/
theorem BoundCall.cons_types (name : String) (v : Value) (c : BoundCall) :
    (c.cons name v).positional.map Scalar.type =
      v.type.scalar?.toList ++ c.positional.map Scalar.type := by
  cases v <;> rfl

namespace Descriptor

theorem bindParams_types {args : Arguments} {params : List Param} {bound : BoundCall}
    (h : bindParams args params = .ok bound) :
    bound.positional.map Scalar.type = params.filterMap fun p => p.type.scalar? := by
  induction params generalizing bound with
  | nil =>
      cases h
      rfl
  | cons p params ih =>
      obtain ⟨v, hv, h⟩ := bind_eq_ok.mp h
      obtain ⟨more, hmore, h⟩ := bind_eq_ok.mp h
      cases h
      rw [BoundCall.cons_types, ih hmore, Param.type_bind hv, List.filterMap_cons]
      cases p.type.scalar? <;> rfl

/-- The arguments of a call have the types that the entry point has to take. -/
theorem arguments_types {d : Descriptor} {args : Arguments} {bound : BoundCall}
    (h : d.bind args = .ok bound) (ctx : Int64) :
    (bound.arguments ctx).map Scalar.type = d.entrySignature.params := by
  unfold Descriptor.bind at h
  split at h
  · cases h
  · simp [BoundCall.arguments, entrySignature, Scalar.type, bindParams_types h]

theorem bindParams_error {args : Arguments} {params : List Param} {e : ExecError}
    (h : bindParams args params = .error e) : e.isBindingError = true := by
  induction params with
  | nil => cases h
  | cons p params ih =>
      rcases bind_eq_error.mp h with refused | ⟨v, _, h⟩
      · exact Param.bind_error refused
      · rcases bind_eq_error.mp h with later | ⟨more, _, h⟩
        · exact ih later
        · cases h

/-- Arguments that do not bind are at fault themselves. -/
theorem bind_error {d : Descriptor} {args : Arguments} {e : ExecError}
    (h : d.bind args = .error e) : e.isBindingError = true := by
  unfold Descriptor.bind at h
  split at h
  · cases h
    rfl
  · exact bindParams_error h

/-! ## Results -/

theorem convertFrom_types {returns : List ValueType} {raw : List Scalar}
    (h : raw.map (fun r => some r.type) = returns.map ValueType.scalar?) (index : Nat) :
    ∃ values, convertFrom index returns raw = .ok values ∧ values.map Value.type = returns := by
  induction returns generalizing raw index with
  | nil =>
      cases raw with
      | nil => exact ⟨[], rfl, rfl⟩
      | cons r raw => cases h
  | cons t returns ih =>
      cases raw with
      | nil => cases h
      | cons r raw =>
          obtain ⟨hr, hraw⟩ := List.cons.inj h
          obtain ⟨v, hv, ht⟩ := Value.ofScalar?_total hr.symm
          obtain ⟨values, hvalues, htypes⟩ := ih hraw (index + 1)
          refine ⟨v :: values, ?_, by rw [List.map_cons, ht, htypes]⟩
          rw [convertFrom, hv]
          exact bind_eq_ok.mpr ⟨values, hvalues, rfl⟩

/-- Without a text among them, the returns have a scalar each. -/
theorem filterMap_scalar?_of_no_text {returns : List ValueType} (h : .string ∉ returns) :
    (returns.filterMap ValueType.scalar?).map some = returns.map ValueType.scalar? := by
  induction returns with
  | nil => rfl
  | cons t returns ih =>
      obtain ⟨ht, hrest⟩ := List.ne_and_not_mem_of_not_mem_cons h
      cases t <;> first | exact absurd rfl ht | simpa [ValueType.scalar?] using ih hrest

/-- Results of the types that the entry point has to give convert to the declared returns. -/
theorem convertResults_types {d : Descriptor} (noText : .string ∉ d.returns) {raw : List Scalar}
    (h : raw.map Scalar.type = d.entrySignature.results) :
    ∃ values, convertResults d.returns raw = .ok values ∧ values.map Value.type = d.returns := by
  have each : raw.map (fun r => some r.type) = d.returns.map ValueType.scalar? := by
    rw [← filterMap_scalar?_of_no_text noText]
    simpa [entrySignature, Function.comp_def] using congrArg (List.map some) h
  have count : raw.length = d.returns.length := by
    simpa using congrArg List.length each
  rw [convertResults, if_pos count]
  exact convertFrom_types each 0

/-! ## Validation -/

theorem checkReturns_no_text {returns : List ValueType} (h : checkReturns returns = .ok ()) :
    .string ∉ returns := by
  unfold checkReturns at h
  split at h
  · cases h
  · split at h
    · cases h
    · rename_i noText
      simpa using noText

theorem checkFields_eq_ok {d : Descriptor} (h : d.checkFields = .ok ()) :
    checkParams [] 0 d.params = .ok () ∧ checkReturns d.returns = .ok () := by
  unfold checkFields at h
  iterate 5 (split at h; · cases h)
  obtain ⟨_, params, returns⟩ := bind_eq_ok.mp h
  exact ⟨params, returns⟩

theorem checkFields_no_text {d : Descriptor} (h : d.checkFields = .ok ()) :
    .string ∉ d.returns := checkReturns_no_text (checkFields_eq_ok h).2

/-- What the check of one parameter asks before it goes on with the next one. -/
theorem checkParams_cons {seen : List String} {index : Nat} {p : Param} {rest : List Param}
    (h : checkParams seen index (p :: rest) = .ok ()) :
    p.name ∉ seen ∧ (∀ v, p.default = some v → (v.coerce? p.type).isSome = true) ∧
      checkParams (p.name :: seen) (index + 1) rest = .ok () := by
  unfold checkParams at h
  split at h
  · cases h
  · split at h
    · cases h
    · rename_i new
      refine ⟨by simpa using new, ?_⟩
      cases default : p.default with
      | none =>
          rw [default] at h
          exact ⟨nofun, h⟩
      | some u =>
          simp only [default] at h
          split at h
          · rename_i coerced
            refine ⟨?_, h⟩
            rintro v ⟨⟩
            exact coerced
          · cases h

theorem checkEntry_eq_ok {d : Descriptor} {s : ModuleShape} (h : d.checkEntry s = .ok ()) :
    ∃ f ∈ s.functions, f.name = d.entry ∧ f.type = .ofSignature d.entrySignature := by
  unfold checkEntry ModuleShape.function? at h
  split at h
  · cases h
  · rename_i f found
    split at h
    · rename_i same
      exact ⟨f, List.mem_of_find?_eq_some found, by simpa using List.find?_some found,
        Wasm.FuncType.signature?_eq_some.mp same⟩
    · cases h

/-- The entry function of a descriptor: the function that its bytecode exports under the name of
its entry point. -/
structure EntryFunction (d : Descriptor) (m : Wasm.Module) (e : Wasm.Export)
    (type : Wasm.FuncType) : Prop where
  written : Wasm.Module.ofBytes? d.bytecode = some m
  exported : e ∈ m.exports
  isFunction : e.kind = .func
  named : e.name = d.entry
  typed : m.HasFunction e.index type

theorem EntryFunction.unique {d : Descriptor} {m n : Wasm.Module} {e f : Wasm.Export}
    {type other : Wasm.FuncType} (h : d.EntryFunction m e type) (k : d.EntryFunction n f other) :
    type = other := by
  cases h.written.symm.trans k.written
  obtain ⟨_, resolved⟩ := Wasm.Module.resolved_of_isValid
    (ModuleShape.ofBytes?_eq_some.mp h.written).2
  cases List.inj_on_of_nodup_map resolved.names h.exported k.exported (h.named.trans k.named.symm)
  exact h.typed.unique k.typed

/-- A valid descriptor has an entry function, of just the type that the descriptor asks for, and
declares no text among its returns. -/
theorem entryFunction_of_validate {d : Descriptor} {limit : Nat} {s : ModuleShape}
    (h : d.validate limit = .ok s) :
    .string ∉ d.returns ∧ ∃ m e, d.EntryFunction m e (.ofSignature d.entrySignature) := by
  obtain ⟨_, hf, h⟩ := bind_eq_ok.mp h
  obtain ⟨shape, hs, h⟩ := bind_eq_ok.mp h
  obtain ⟨_, he, _⟩ := bind_eq_ok.mp h
  refine ⟨checkFields_no_text hf, ?_⟩
  obtain ⟨m, written, _, describes⟩ := ModuleShape.ofBytecode_eq_ok hs
  obtain ⟨f, listed, name, typed⟩ := checkEntry_eq_ok he
  obtain ⟨i, below, rfl⟩ := List.getElem_of_mem listed
  obtain ⟨same, has⟩ := describes.functions.get (describes.functions.length_eq ▸ below) below
  have exported := List.mem_filter.mp (List.get_mem (m.exports.filter fun e => e.kind = .func)
    ⟨i, describes.functions.length_eq ▸ below⟩)
  exact ⟨m, _, written, exported.1, by simpa using exported.2, same.symm.trans name, typed ▸ has⟩

end Descriptor

end TieredUdf
