import Mathlib.Data.List.Nodup
import TieredUdf.Proofs.Module.CallTypes

/-! # The acceptance of descriptors

A descriptor is accepted exactly if it passes all checks, and otherwise the first check in order
that it does not pass gives the error.  The parameters are checked one after the other, each of
them for its name, against the names before it, and for its default.
-/

namespace TieredUdf

/-- A text has a character that is not blank. -/
def Text.Visible (s : String) : Prop := ∃ c ∈ s.toList, isBlankChar c = false

theorem Text.isBlank_iff {s : String} : isBlank s = true ↔ ¬ Visible s := by
  simp [isBlank, Visible]

open Text (Visible)

/-! ## Checks in order -/

/-- A check: the errors that it may end in. -/
abbrev Check := ValidationError → Prop

namespace Check

/-- The check that asks for something, and ends in an error unless it is so. -/
def asks (asked : Prop) (error : ValidationError) : Check := fun e => ¬ asked ∧ e = error

def Passes (c : Check) : Prop := ∀ e, ¬ c e

theorem passes_asks {asked : Prop} {error : ValidationError} :
    (asks asked error).Passes ↔ asked := by
  simp [Passes, asks]

/-- The first check that fails gives the error. -/
def FirstFailure (checks : List Check) (e : ValidationError) : Prop :=
  ∃ before c after, checks = before ++ c :: after ∧ (∀ b ∈ before, b.Passes) ∧ c e

variable {c : Check} {checks more : List Check} {e : ValidationError}

theorem not_firstFailure_nil : ¬ FirstFailure [] e := by
  rintro ⟨before, c, after, split, _⟩
  simp at split

theorem firstFailure_cons :
    FirstFailure (c :: checks) e ↔ c e ∨ c.Passes ∧ FirstFailure checks e := by
  constructor
  · rintro ⟨before, d, after, split, passed, fails⟩
    cases before with
    | nil =>
        cases split
        exact .inl fails
    | cons first before =>
        cases split
        obtain ⟨here, later⟩ := List.forall_mem_cons.mp passed
        exact .inr ⟨here, before, d, after, rfl, later, fails⟩
  · rintro (fails | ⟨here, before, d, after, rfl, later, fails⟩)
    · exact ⟨[], c, checks, rfl, nofun, fails⟩
    · exact ⟨c :: before, d, after, rfl, List.forall_mem_cons.mpr ⟨here, later⟩, fails⟩

theorem firstFailure_append : FirstFailure (checks ++ more) e ↔
    FirstFailure checks e ∨ (∀ c ∈ checks, c.Passes) ∧ FirstFailure more e := by
  induction checks with
  | nil => simp [not_firstFailure_nil]
  | cons c checks ih =>
      rw [List.cons_append, firstFailure_cons, firstFailure_cons, ih, List.forall_mem_cons]
      tauto

/-- Some check comes first among those that fail. -/
theorem exists_firstFailure :
    (∃ e, FirstFailure checks e) ↔ ∃ c ∈ checks, ¬ c.Passes := by
  induction checks with
  | nil => simp [not_firstFailure_nil]
  | cons c checks ih =>
      simp only [firstFailure_cons, exists_or, exists_and_left, ih, List.exists_mem_cons_iff]
      by_cases passes : c.Passes
      · have nothing : ¬ ∃ e, c e := fun ⟨e, fails⟩ => passes e fails
        simp [passes, nothing]
      · have something : ∃ e, c e := by simpa [Passes] using passes
        simp [passes, something]

/-- A result is an error just as the first check that fails says. -/
def Decides {α : Type} (checks : List Check) (result : Except ValidationError α) : Prop :=
  ∀ e, result = .error e ↔ FirstFailure checks e

namespace Decides

variable {α β : Type} {x : Except ValidationError α} {f : α → Except ValidationError β}

theorem ok (a : α) : Decides [] (.ok a : Except ValidationError α) := fun e => by
  simp [not_firstFailure_nil]

/-- No check fails exactly if there is a result. -/
theorem exists_ok (h : Decides checks x) : (∃ a, x = .ok a) ↔ ∀ c ∈ checks, c.Passes := by
  have fails : (∃ e, FirstFailure checks e) ↔ ∃ c ∈ checks, ¬ c.Passes := exists_firstFailure
  simp only [← h _] at fails
  cases x with
  | ok a => simpa using fails
  | error e => simpa using fails

theorem cons (h : Decides checks x) (passes : c.Passes) : Decides (c :: checks) x := fun e => by
  rw [firstFailure_cons, h e]
  simp [passes, passes e]

theorem fail (fails : c e) (once : ∀ other, c other → other = e) :
    Decides (c :: checks) (.error e : Except ValidationError α) := fun other => by
  have impassable : ¬ c.Passes := fun passes => passes e fails
  rw [firstFailure_cons, Except.error.injEq]
  simp only [impassable, false_and, or_false]
  exact ⟨fun same => same ▸ fails, fun h => (once other h).symm⟩

theorem ite {asked bad : Prop} [Decidable bad] {error : ValidationError} (tells : bad ↔ ¬ asked)
    (rest : Decides checks x) :
    Decides (asks asked error :: checks) (if bad then .error error else x) := by
  split
  · rename_i broken
    exact fail ⟨tells.mp broken, rfl⟩ fun _ h => h.2
  · rename_i kept
    exact rest.cons (passes_asks.mpr (not_not.mp (mt tells.mpr kept)))

theorem bind (first : Decides checks x) (rest : ∀ a, x = .ok a → Decides more (f a)) :
    Decides (checks ++ more) (x >>= f) := fun e => by
  rw [firstFailure_append, ← first e, bind_eq_error, ← first.exists_ok]
  refine or_congr_right ?_
  constructor
  · rintro ⟨a, made, failed⟩
    exact ⟨⟨a, made⟩, (rest a made e).mp failed⟩
  · rintro ⟨⟨a, made⟩, fails⟩
    exact ⟨a, made, (rest a made e).mpr fails⟩

end Decides

end Check

/-! ## The checks of a descriptor -/

def Param.checks (earlier : List Param) (p : Param) : List Check :=
  [.asks (Visible p.name) (.emptyParameterName earlier.length),
    .asks (∀ q ∈ earlier, q.name ≠ p.name) (.duplicateParameter p.name),
    fun e => ∃ v, p.default = some v ∧ v.coerce? p.type = none ∧
      e = .defaultTypeMismatch p.name p.type v.type]

namespace Descriptor

def paramChecks (earlier : List Param) : List Param → List Check
  | [] => []
  | p :: rest => p.checks earlier ++ paramChecks (earlier ++ [p]) rest

def checks (d : Descriptor) (limit : Nat) : List Check :=
  [.asks (Visible d.key.name) (.emptyField "name"),
    .asks (Visible d.key.version) (.emptyField "version"),
    .asks (Visible d.entry) (.emptyField "entry point"),
    .asks (d.bytecode ≠ []) .emptyBytecode,
    .asks (d.limits.fuel ≠ some 0) .zeroFuel] ++
  (paramChecks [] d.params ++
  [.asks (d.returns ≠ []) .noReturnType,
    .asks (.string ∉ d.returns) (.unsupportedReturnType .string)]) ++
  [fun e => ModuleShape.ofBytecode d.bytecode limit = .error e,
    fun e => ∃ shape, ModuleShape.ofBytecode d.bytecode limit = .ok shape ∧
      (∀ f ∈ shape.functions, f.name ≠ d.entry) ∧ e = .missingEntryPoint d.entry,
    fun e => ∃ shape, ModuleShape.ofBytecode d.bytecode limit = .ok shape ∧
      ∃ f ∈ shape.functions, f.name = d.entry ∧ f.type ≠ .ofSignature d.entrySignature ∧
        e = .signatureMismatch d.entry d.entrySignature.text f.type.text]

/-- What an accepted descriptor is like, and the shape that its bytecode then has. -/
structure Acceptable (d : Descriptor) (limit : Nat) (shape : ModuleShape) : Prop where
  name : Visible d.key.name
  version : Visible d.key.version
  entry : Visible d.entry
  bytecode : d.bytecode ≠ []
  fuel : d.limits.fuel ≠ some 0
  paramNames : ∀ p ∈ d.params, Visible p.name
  distinct : (d.params.map Param.name).Nodup
  defaults : ∀ p ∈ d.params, ∀ v, p.default = some v → ∃ w, v.coerce? p.type = some w
  returns : d.returns ≠ []
  noText : .string ∉ d.returns
  admitted : ModuleShape.ofBytecode d.bytecode limit = .ok shape
  exported : ∃ f ∈ shape.functions, f.name = d.entry ∧ f.type = .ofSignature d.entrySignature

variable {d : Descriptor} {limit : Nat}

open Check (Decides FirstFailure)

/-! ## Parameters -/

theorem decides_checkParams {earlier params : List Param} {seen : List String}
    (names : ∀ name, name ∈ seen ↔ ∃ q ∈ earlier, q.name = name) :
    Decides (paramChecks earlier params) (checkParams seen earlier.length params) := by
  induction params generalizing earlier seen with
  | nil => exact .ok ()
  | cons p params ih =>
      have later : ∀ name, name ∈ p.name :: seen ↔ ∃ q ∈ earlier ++ [p], q.name = name := by
        intro name
        rw [List.mem_cons, names]
        simp only [List.mem_append, List.mem_singleton]
        grind
      have rest := ih later
      rw [List.length_append, List.length_singleton] at rest
      have new : seen.contains p.name = true ↔ ¬ ∀ q ∈ earlier, q.name ≠ p.name := by
        simp [names]
      rw [checkParams, paramChecks, Param.checks, List.cons_append, List.cons_append,
        List.singleton_append]
      refine .ite Text.isBlank_iff (.ite new ?_)
      cases default : p.default with
      | none => exact rest.cons fun e => by simp
      | some v =>
          dsimp only
          split
          · rename_i coerced
            refine rest.cons fun e => ?_
            rintro ⟨w, same, failed, _⟩
            cases same
            simp [failed] at coerced
          · rename_i failed
            exact .fail ⟨v, rfl, by simpa using failed, rfl⟩ (by rintro _ ⟨w, ⟨⟩, _, rfl⟩; rfl)

theorem passes_checks {earlier : List Param} {p : Param} :
    (∀ c ∈ p.checks earlier, c.Passes) ↔ Visible p.name ∧ (∀ q ∈ earlier, q.name ≠ p.name) ∧
      ∀ v, p.default = some v → ∃ w, v.coerce? p.type = some w := by
  have default : Check.Passes (fun e => ∃ v, p.default = some v ∧ v.coerce? p.type = none ∧
      e = .defaultTypeMismatch p.name p.type v.type) ↔
      ∀ v, p.default = some v → ∃ w, v.coerce? p.type = some w := by
    simp only [Check.Passes, ← Option.isSome_iff_exists, ← Option.ne_none_iff_isSome]
    exact ⟨fun h v given failed => h _ ⟨v, given, failed, rfl⟩,
      fun h _ ⟨v, given, failed, _⟩ => h v given failed⟩
  simp [Param.checks, Check.passes_asks, default]

theorem passes_paramChecks {earlier params : List Param} :
    (∀ c ∈ paramChecks earlier params, c.Passes) ↔
      (∀ p ∈ params, Visible p.name) ∧ (params.map Param.name).Nodup ∧
      (∀ p ∈ params, ∀ q ∈ earlier, q.name ≠ p.name) ∧
      ∀ p ∈ params, ∀ v, p.default = some v → ∃ w, v.coerce? p.type = some w := by
  induction params generalizing earlier with
  | nil => simp [paramChecks]
  | cons p params ih =>
      rw [paramChecks, List.forall_mem_append, passes_checks, ih]
      simp only [List.forall_mem_cons, List.map_cons, List.nodup_cons, List.mem_map,
        List.mem_append, List.mem_singleton]
      grind

/-- The parameters before the first one with a failing check pass all of theirs. -/
theorem firstFailure_paramChecks {earlier params : List Param} {e : ValidationError}
    (h : FirstFailure (paramChecks earlier params) e) :
    ∃ front p back, params = front ++ p :: back ∧
      (∀ c ∈ paramChecks earlier front, c.Passes) ∧
      FirstFailure (p.checks (earlier ++ front)) e := by
  induction params generalizing earlier with
  | nil => exact absurd h Check.not_firstFailure_nil
  | cons p params ih =>
      rw [paramChecks, Check.firstFailure_append] at h
      rcases h with here | ⟨passed, later⟩
      · exact ⟨[], p, params, rfl, by simp [paramChecks], by simpa using here⟩
      · obtain ⟨front, q, back, rfl, sound, fails⟩ := ih later
        refine ⟨p :: front, q, back, rfl, ?_, by simpa using fails⟩
        rw [paramChecks]
        exact List.forall_mem_append.mpr ⟨passed, sound⟩

/-! ## The whole descriptor -/

theorem decides_checkReturns (returns : List ValueType) :
    Decides [.asks (returns ≠ []) .noReturnType,
      .asks (.string ∉ returns) (.unsupportedReturnType .string)] (checkReturns returns) := by
  unfold checkReturns
  exact .ite not_not.symm (.ite (by simp) (.ok ()))

theorem decides_checkFields (d : Descriptor) :
    Decides ([.asks (Visible d.key.name) (.emptyField "name"),
      .asks (Visible d.key.version) (.emptyField "version"),
      .asks (Visible d.entry) (.emptyField "entry point"),
      .asks (d.bytecode ≠ []) .emptyBytecode,
      .asks (d.limits.fuel ≠ some 0) .zeroFuel] ++
      (paramChecks [] d.params ++ [.asks (d.returns ≠ []) .noReturnType,
        .asks (.string ∉ d.returns) (.unsupportedReturnType .string)])) d.checkFields := by
  unfold checkFields
  refine .ite Text.isBlank_iff (.ite Text.isBlank_iff (.ite Text.isBlank_iff
    (.ite not_not.symm (.ite not_not.symm ?_))))
  have params : Decides (paramChecks [] d.params) (checkParams [] 0 d.params) :=
    decides_checkParams (by simp)
  exact params.bind fun _ _ => decides_checkReturns d.returns

end Descriptor

namespace ModuleShape

/-- The functions that an admitted module exports have different names. -/
theorem names_nodup {bytes : List UInt8} {limit : Nat} {s : ModuleShape}
    (h : ofBytecode bytes limit = .ok s) : (s.functions.map ExportedFunction.name).Nodup := by
  obtain ⟨m, read, _, describes⟩ := ofBytecode_eq_ok h
  obtain ⟨_, resolved⟩ := Wasm.Module.resolved_of_isValid (ofBytes?_eq_some.mp read).2
  have same : s.functions.map ExportedFunction.name =
      (m.exports.filter fun e => e.kind = .func).map Wasm.Export.name := by
    have pairs := describes.functions
    generalize (m.exports.filter fun e => e.kind = .func) = exports at pairs
    generalize s.functions = functions at pairs
    induction pairs with
    | nil => rfl
    | cons first _ ih => rw [List.map_cons, List.map_cons, ih, first.1]
  rw [same]
  exact resolved.names.sublist (List.filter_sublist.map _)

theorem function?_eq_some {bytes : List UInt8} {limit : Nat} {s : ModuleShape}
    (h : ofBytecode bytes limit = .ok s) {name : String} {f : ExportedFunction} :
    s.function? name = some f ↔ f ∈ s.functions ∧ f.name = name := by
  constructor
  · intro found
    exact ⟨List.mem_of_find?_eq_some found, by simpa using List.find?_some found⟩
  · rintro ⟨listed, named⟩
    cases found : s.function? name with
    | none => exact absurd named (by simpa using List.find?_eq_none.mp found f listed)
    | some g =>
        have listed' := List.mem_of_find?_eq_some found
        have named' : g.name = name := by simpa using List.find?_some found
        rw [List.inj_on_of_nodup_map (names_nodup h) listed listed' (named.trans named'.symm)]

end ModuleShape

namespace Descriptor

variable {d : Descriptor} {limit : Nat}

open Check (Decides FirstFailure)

theorem decides_checkEntry {shape : ModuleShape}
    (h : ModuleShape.ofBytecode d.bytecode limit = .ok shape) :
    Decides [fun e => (∀ f ∈ shape.functions, f.name ≠ d.entry) ∧ e = .missingEntryPoint d.entry,
      fun e => ∃ f ∈ shape.functions, f.name = d.entry ∧ f.type ≠ .ofSignature d.entrySignature ∧
        e = .signatureMismatch d.entry d.entrySignature.text f.type.text] (d.checkEntry shape) := by
  unfold checkEntry
  cases found : shape.function? d.entry with
  | none =>
      have missing : ∀ f ∈ shape.functions, f.name ≠ d.entry := fun f listed named => by
        rw [(ModuleShape.function?_eq_some h).mpr ⟨listed, named⟩] at found
        cases found
      exact .fail ⟨missing, rfl⟩ fun _ h => h.2
  | some f =>
      obtain ⟨listed, named⟩ := (ModuleShape.function?_eq_some h).mp found
      have only : ∀ g ∈ shape.functions, g.name = d.entry → g = f := fun g hg same => by
        have found' := (ModuleShape.function?_eq_some h).mpr ⟨hg, same⟩
        exact Option.some.inj (found'.symm.trans found)
      refine .cons ?_ fun e missing => missing.1 f listed named
      dsimp only
      split
      · rename_i typed
        refine .cons (.ok ()) ?_
        rintro e ⟨g, hg, same, other, _⟩
        exact other (only g hg same ▸ Wasm.FuncType.signature?_eq_some.mp typed)
      · rename_i other
        refine .fail ⟨f, listed, named, mt Wasm.FuncType.signature?_eq_some.mpr other, rfl⟩ ?_
        rintro e ⟨g, hg, same, _, rfl⟩
        rw [only g hg same]

theorem checkEntry_iff {shape : ModuleShape}
    (h : ModuleShape.ofBytecode d.bytecode limit = .ok shape) : d.checkEntry shape = .ok () ↔
      ∃ f ∈ shape.functions, f.name = d.entry ∧ f.type = .ofSignature d.entrySignature := by
  refine ⟨checkEntry_eq_ok, ?_⟩
  rintro ⟨f, listed, named, typed⟩
  have found := (ModuleShape.function?_eq_some h).mpr ⟨listed, named⟩
  unfold checkEntry
  rw [found]
  exact if_pos (Wasm.FuncType.signature?_eq_some.mpr typed)

theorem checkFields_iff : d.checkFields = .ok () ↔
    (Visible d.key.name ∧ Visible d.key.version ∧ Visible d.entry ∧ d.bytecode ≠ [] ∧
      d.limits.fuel ≠ some 0) ∧
    ((∀ p ∈ d.params, Visible p.name) ∧ (d.params.map Param.name).Nodup ∧
      ∀ p ∈ d.params, ∀ v, p.default = some v → ∃ w, v.coerce? p.type = some w) ∧
    d.returns ≠ [] ∧ .string ∉ d.returns := by
  have passed : d.checkFields = .ok () ↔ ∃ a, d.checkFields = .ok a :=
    ⟨fun h => ⟨(), h⟩, fun ⟨_, h⟩ => h⟩
  rw [passed, (decides_checkFields d).exists_ok, List.forall_mem_append, List.forall_mem_append,
    passes_paramChecks]
  simp [Check.passes_asks]

theorem decides_validate (d : Descriptor) (limit : Nat) :
    Decides (d.checks limit) (d.validate limit) := by
  refine (decides_checkFields d).bind fun _ _ => ?_
  cases read : ModuleShape.ofBytecode d.bytecode limit with
  | error e => exact .fail rfl fun other same => (Except.error.inj same).symm
  | ok shape =>
      refine .cons ?_ nofun
      have entry := decides_checkEntry read
      simp only [Except.ok.injEq, exists_eq_left']
      exact entry.bind fun _ _ => .ok shape

theorem validate_eq_ok {shape : ModuleShape} :
    d.validate limit = .ok shape ↔ d.Acceptable limit shape := by
  constructor
  · intro accepted
    obtain ⟨_, fields, rest⟩ := bind_eq_ok.mp accepted
    obtain ⟨_, admitted, rest⟩ := bind_eq_ok.mp rest
    obtain ⟨_, entry, ⟨⟩⟩ := bind_eq_ok.mp rest
    obtain ⟨⟨name, version, named, bytecode, fuel⟩, ⟨paramNames, distinct, defaults⟩, returns,
      noText⟩ := checkFields_iff.mp fields
    exact ⟨name, version, named, bytecode, fuel, paramNames, distinct, defaults, returns, noText,
      admitted, checkEntry_eq_ok entry⟩
  · intro h
    have fields : d.checkFields = .ok () := checkFields_iff.mpr
      ⟨⟨h.name, h.version, h.entry, h.bytecode, h.fuel⟩, ⟨h.paramNames, h.distinct, h.defaults⟩,
        h.returns, h.noText⟩
    have entry := (checkEntry_iff h.admitted).mpr h.exported
    exact bind_eq_ok.mpr ⟨(), fields, bind_eq_ok.mpr ⟨shape, h.admitted,
      bind_eq_ok.mpr ⟨(), entry, rfl⟩⟩⟩

/-- Only the checks of the parameters tell a repeated name. -/
theorem params_of_duplicate {name : String}
    (h : d.validate limit = .error (.duplicateParameter name)) :
    FirstFailure (paramChecks [] d.params) (.duplicateParameter name) := by
  have fields : d.checkFields = .error (.duplicateParameter name) := by
    rcases bind_eq_error.mp h with fields | ⟨_, _, rest⟩
    · exact fields
    · rcases bind_eq_error.mp rest with admitted | ⟨shape, _, rest⟩
      · cases ModuleShape.refused_of_ofBytecode admitted
      · rcases bind_eq_error.mp rest with entry | ⟨_, _, ⟨⟩⟩
        unfold checkEntry at entry
        grind
  rcases Check.firstFailure_append.mp ((decides_checkFields d _).mp fields) with
    texts | ⟨_, rest⟩
  · simp [Check.firstFailure_cons, Check.not_firstFailure_nil, Check.asks] at texts
  · rcases Check.firstFailure_append.mp rest with params | ⟨_, returns⟩
    · exact params
    · simp [Check.firstFailure_cons, Check.not_firstFailure_nil, Check.asks] at returns

/-- A descriptor is accepted exactly if it is acceptable, with the shape of its bytecode, and it is
refused with an error exactly if the first check that fails ends in that error.  A repeated name
that is told is that of the first parameter that repeats the name of an earlier one. -/
theorem validate_exactly (d : Descriptor) (limit : Nat) :
    (∀ shape, d.validate limit = .ok shape ↔ d.Acceptable limit shape) ∧
    (∀ e, d.validate limit = .error e ↔ FirstFailure (d.checks limit) e) ∧
    ∀ name, d.validate limit = .error (.duplicateParameter name) →
      ∃ front p back, d.params = front ++ p :: back ∧ p.name = name ∧
        (∃ q ∈ front, q.name = name) ∧ (front.map Param.name).Nodup := by
  refine ⟨fun _ => validate_eq_ok, decides_validate d limit, fun name refused => ?_⟩
  obtain ⟨front, p, back, split, passed, fails⟩ :=
    firstFailure_paramChecks (params_of_duplicate refused)
  obtain ⟨_, distinct, _⟩ := passes_paramChecks.mp passed
  have repeats : Check.Passes (.asks (Visible p.name) (.emptyParameterName front.length)) ∧
      (∃ q ∈ front, q.name = p.name) ∧ name = p.name := by
    simpa [Param.checks, Check.firstFailure_cons, Check.not_firstFailure_nil, Check.asks]
      using fails
  obtain ⟨_, repeated, rfl⟩ := repeats
  exact ⟨front, p, back, split, rfl, repeated, distinct⟩

/-- Of two faults the earlier check tells. -/
example : Descriptor.validate ⟨⟨"boost", " "⟩, "score", [], [], ModuleShape.boostBytes, default,
    default, default⟩ 1 = .error (.emptyField "version") := by decide +kernel

end Descriptor

end TieredUdf
