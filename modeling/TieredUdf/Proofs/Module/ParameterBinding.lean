import TieredUdf.Proofs.Module.TextParameters
import TieredUdf.Proofs.Numeric.Widening
import TieredUdf.Proofs.Value.Coercion

/-! # Binding of parameters

A name that is not declared is refused first.  Then the parameters are gone through in the order of
their declarations, and the first one that is missing or has a value of a wrong type decides.
Otherwise every parameter has one value: the one given, widened without loss, else its default, else
zero.  An accepted descriptor has no default that would give way to zero.
-/

namespace TieredUdf

open Numeric (Single Double)

/-! ## Widening -/

namespace Value

/-- The same value as a value of some type, with nothing lost. -/
inductive Widens : Value → ValueType → Value → Prop where
  | same (v : Value) : Widens v v.type v
  | integer {n : Int32} {m : Int64} (number : m.toInt = n.toInt) : Widens (.i32 n) .i64 (.i64 m)
  | whole {n : Int32} {x : Double} (number : x.decode.rational? = some (n.toInt : ℚ)) :
      Widens (.i32 n) .f64 (.f64 x)
  | double {x : Single} {y : Double} (number : x.decode.Same y.decode) :
      Widens (.f32 x) .f64 (.f64 y)

theorem widens_of_widen? {v w : Value} {t : ValueType} (h : v.widen? t = some w) :
    v.Widens t w := by
  unfold widen? at h
  split at h
  · rename_i same
    cases h
    exact same ▸ .same v
  · split at h <;> cases h
    case h_1 n _ =>
      have low := n.le_toInt
      have high := n.toInt_lt
      exact .integer (Int64.toInt_ofInt_of_le (by omega) (by omega))
    case h_2 n _ => exact .whole (Double.rational?_ofInt n)
    case h_3 x _ => exact .double (Single.same_toDouble x)

/-- A value is widened exactly when its type is accepted. -/
theorem isSome_widen? (v : Value) (t : ValueType) :
    (v.widen? t).isSome = t.accepts v.type := by
  cases v <;> cases t <;> rfl

end Value

/-! ## One parameter -/

namespace Param

/-- The value that a parameter has in a call. -/
inductive Takes (p : Param) (args : Arguments) : Value → Prop where
  | given {g v : Value} (found : args.get? p.name = some g) (widened : g.widen? p.type = some v)
      (lossless : g.Widens p.type v) : Takes p args v
  | default {u v : Value} (missing : args.get? p.name = none) (optional : p.required = false)
      (declared : p.default = some u) (coerced : u.coerce? p.type = some v) : Takes p args v
  | zero (missing : args.get? p.name = none) (optional : p.required = false)
      (unusable : ∀ u, p.default = some u → u.coerce? p.type = none) :
      Takes p args (.zero p.type)

/-- What is wrong with a parameter in a call. -/
inductive Fault (p : Param) (args : Arguments) : ExecError → Prop where
  | missing (absent : args.get? p.name = none) (required : p.required = true) :
      Fault p args (.missingParameter p.name)
  | type {g : Value} (found : args.get? p.name = some g)
      (refused : p.type.accepts g.type = false) :
      Fault p args (.parameterType p.name p.type g.type)

variable {p : Param} {args : Arguments}

theorem absent_cases (p : Param) :
    (∃ u, p.default = some u ∧ u.coerce? p.type = some p.absent) ∨
    ((∀ u, p.default = some u → u.coerce? p.type = none) ∧ p.absent = .zero p.type) := by
  unfold absent
  cases p.default with
  | none => exact Or.inr ⟨nofun, rfl⟩
  | some u =>
      cases coerced : u.coerce? p.type with
      | some v => exact Or.inl ⟨u, rfl, by rw [coerced, Option.bind_some, coerced]; rfl⟩
      | none => exact Or.inr ⟨fun _ same => Option.some.inj same ▸ coerced, by simp [coerced]⟩

/-- A parameter has a value in a call, or there is one thing wrong with it. -/
theorem bind_cases (p : Param) (args : Arguments) :
    (∃ v, p.bind args = .ok v ∧ p.Takes args v) ∨
      ∃ e, p.bind args = .error e ∧ p.Fault args e := by
  unfold bind
  cases found : args.get? p.name with
  | some g =>
      dsimp only
      cases widened : g.widen? p.type with
      | some v => exact Or.inl ⟨v, rfl, .given found widened (Value.widens_of_widen? widened)⟩
      | none =>
          refine Or.inr ⟨_, rfl, .type found ?_⟩
          rw [← Value.isSome_widen?, widened]
          rfl
  | none =>
      dsimp only
      by_cases required : p.required = true
      · exact Or.inr ⟨_, if_pos required, .missing found required⟩
      · have optional : p.required = false := Bool.not_eq_true _ ▸ required
        refine Or.inl ⟨_, if_neg required, ?_⟩
        rcases p.absent_cases with ⟨u, declared, coerced⟩ | ⟨unusable, zero⟩
        · exact .default found optional declared coerced
        · exact zero ▸ .zero found optional unusable

theorem Fault.bind {e : ExecError} (h : p.Fault args e) : p.bind args = .error e := by
  unfold Param.bind
  cases h with
  | missing absent required =>
      rw [absent]
      exact if_pos required
  | @type g found refused =>
      rw [found]
      dsimp only
      rw [← Value.isSome_widen?, Option.isSome_eq_false_iff, Option.isNone_iff_eq_none] at refused
      rw [refused]

theorem Takes.bind {v : Value} (h : p.Takes args v) : p.bind args = .ok v := by
  unfold Param.bind
  cases h with
  | given found widened _ =>
      rw [found]
      dsimp only
      rw [widened]
  | default missing optional declared coerced =>
      rw [missing, optional]
      simp [absent, declared, coerced]
  | zero missing optional unusable =>
      rw [missing, optional]
      rcases p.absent_cases with ⟨u, declared, coerced⟩ | ⟨_, zero⟩
      · rw [unusable u declared] at coerced
        cases coerced
      · simp [zero]

/-- A default that can be taken at the type is the only value for a parameter that is left out. -/
theorem Takes.eq_default {u v w : Value} (h : p.Takes args w) (missing : args.get? p.name = none)
    (declared : p.default = some u) (coerced : u.coerce? p.type = some v) : w = v := by
  cases h with
  | given found _ _ =>
      rw [missing] at found
      cases found
  | default _ _ other taken =>
      cases declared.symm.trans other
      exact Option.some.inj (taken.symm.trans coerced)
  | zero _ _ unusable =>
      rw [unusable u declared] at coerced
      cases coerced

theorem bind_eq_ok_iff {v : Value} : p.bind args = .ok v ↔ p.Takes args v := by
  refine ⟨fun h => ?_, Takes.bind⟩
  rcases p.bind_cases args with ⟨w, bound, takes⟩ | ⟨e, failed, _⟩
  · rw [bound] at h
    cases h
    exact takes
  · rw [failed] at h
    cases h

theorem bind_eq_error_iff {e : ExecError} : p.bind args = .error e ↔ p.Fault args e := by
  refine ⟨fun h => ?_, Fault.bind⟩
  rcases p.bind_cases args with ⟨w, bound, _⟩ | ⟨f, failed, fault⟩
  · rw [bound] at h
    cases h
  · rw [failed] at h
    cases h
    exact fault

end Param

/-! ## All parameters -/

/-- The call with given values of its parameters: the values that are no texts as they travel, and
the texts with the names of their parameters, both in order. -/
def BoundCall.ofValues (params : List Param) (values : List Value) : BoundCall where
  positional := values.filterMap Value.toScalar?
  texts := (params.zip values).filterMap fun (p, v) => v.text?.map fun text => (p.name, text)

theorem BoundCall.cons_ofValues (p : Param) (v : Value) (params : List Param)
    (values : List Value) :
    (BoundCall.ofValues params values).cons p.name v =
      BoundCall.ofValues (p :: params) (v :: values) := by
  cases v <;> rfl

namespace Descriptor

variable {args : Arguments} {params : List Param}

theorem bindParams_eq_ok_iff {call : BoundCall} :
    bindParams args params = .ok call ↔
      ∃ values, List.Forall₂ (fun p v => p.Takes args v) params values ∧
        call = .ofValues params values := by
  induction params generalizing call with
  | nil =>
      constructor
      · rintro ⟨⟩
        exact ⟨[], .nil, rfl⟩
      · rintro ⟨values, ⟨⟩, rfl⟩
        rfl
  | cons p params ih =>
      constructor
      · intro h
        obtain ⟨v, hv, h⟩ := bind_eq_ok.mp h
        obtain ⟨more, hmore, h⟩ := bind_eq_ok.mp h
        obtain ⟨values, takes, rfl⟩ := ih.mp hmore
        cases h
        exact ⟨v :: values, .cons (Param.bind_eq_ok_iff.mp hv) takes,
          BoundCall.cons_ofValues p v params values⟩
      · rintro ⟨_, takes, rfl⟩
        cases takes with
        | @cons _ v _ values first rest =>
            refine bind_eq_ok.mpr ⟨v, first.bind, ?_⟩
            refine bind_eq_ok.mpr ⟨.ofValues params values, ih.mpr ⟨values, rest, rfl⟩, ?_⟩
            exact congrArg _ (BoundCall.cons_ofValues p v params values)

/-- The first parameter with which something is wrong decides. -/
def FirstFault (params : List Param) (args : Arguments) (e : ExecError) : Prop :=
  ∃ before p after, params = before ++ p :: after ∧
    (∀ q ∈ before, ∀ f, ¬ q.Fault args f) ∧ p.Fault args e

theorem firstFault_cons {p : Param} {e : ExecError} :
    FirstFault (p :: params) args e ↔
      p.Fault args e ∨ (∀ f, ¬ p.Fault args f) ∧ FirstFault params args e := by
  constructor
  · rintro ⟨before, q, after, split, sound, fault⟩
    cases before with
    | nil =>
        cases split
        exact Or.inl fault
    | cons first before =>
        cases split
        obtain ⟨here, later⟩ := List.forall_mem_cons.mp sound
        exact Or.inr ⟨here, before, q, after, rfl, later, fault⟩
  · rintro (fault | ⟨sound, before, q, after, rfl, later, fault⟩)
    · exact ⟨[], p, params, rfl, nofun, fault⟩
    · exact ⟨p :: before, q, after, rfl, List.forall_mem_cons.mpr ⟨sound, later⟩, fault⟩

theorem bindParams_eq_error_iff {e : ExecError} :
    bindParams args params = .error e ↔ FirstFault params args e := by
  induction params with
  | nil =>
      refine iff_of_false nofun ?_
      rintro ⟨before, p, after, split, _⟩
      simp at split
  | cons p params ih =>
      have parts : bindParams args (p :: params) = .error e ↔ p.bind args = .error e ∨
          ∃ v, p.bind args = .ok v ∧ bindParams args params = .error e := by
        refine bind_eq_error.trans (or_congr_right (exists_congr fun v => and_congr_right fun _ => ?_))
        refine bind_eq_error.trans (or_iff_left ?_)
        rintro ⟨more, _, ⟨⟩⟩
      rw [parts, firstFault_cons, Param.bind_eq_error_iff, ih]
      refine or_congr_right ?_
      constructor
      · rintro ⟨v, bound, rest⟩
        refine ⟨fun f fault => ?_, rest⟩
        rw [fault.bind] at bound
        cases bound
      · rintro ⟨sound, rest⟩
        rcases p.bind_cases args with ⟨v, bound, _⟩ | ⟨f, _, fault⟩
        · exact ⟨v, bound, rest⟩
        · exact absurd fault (sound f)

theorem exists_bindParams_iff :
    (∃ call, bindParams args params = .ok call) ↔ ∀ p ∈ params, ∀ e, ¬ p.Fault args e := by
  constructor
  · rintro ⟨call, h⟩
    obtain ⟨values, takes, -⟩ := bindParams_eq_ok_iff.mp h
    clear h
    induction takes with
    | nil => nofun
    | cons first _ ih =>
        refine List.forall_mem_cons.mpr ⟨fun e fault => ?_, ih⟩
        cases first.bind.symm.trans fault.bind
  · intro sound
    cases result : bindParams args params with
    | ok call => exact ⟨call, rfl⟩
    | error e =>
        obtain ⟨before, p, after, rfl, _, fault⟩ := bindParams_eq_error_iff.mp result
        exact absurd fault (sound p (by simp) e)

def Declares (d : Descriptor) (name : String) : Prop := ∃ p ∈ d.params, p.name = name

theorem isNone_param? {d : Descriptor} {name : String} :
    (d.param? name).isNone = true ↔ ¬ d.Declares name := by
  simp [param?, Declares]

/-- What a descriptor that declares all names does with them. -/
theorem bind_of_declared {d : Descriptor} (declared : ∀ a ∈ args, d.Declares a.1) :
    d.bind args = bindParams args d.params := by
  have none_unknown : args.find? (fun a => (d.param? a.1).isNone) = none := by
    rw [List.find?_eq_none]
    exact fun a ha unknown => isNone_param?.mp unknown (declared a ha)
  unfold Descriptor.bind
  rw [none_unknown]

theorem bindParams_ne_unknown {name : String} :
    bindParams args params ≠ .error (.unknownParameter name) := by
  intro h
  obtain ⟨_, p, _, _, _, fault⟩ := bindParams_eq_error_iff.mp h
  cases fault

theorem bind_eq_unknown {d : Descriptor} {name : String}
    (h : d.bind args = .error (.unknownParameter name)) :
    (∃ v, (name, v) ∈ args) ∧ ¬ d.Declares name := by
  unfold Descriptor.bind at h
  split at h
  · rename_i unknown v found
    cases h
    exact ⟨⟨v, List.mem_of_find?_eq_some found⟩, isNone_param?.mp (by simpa using List.find?_some found)⟩
  · exact absurd h bindParams_ne_unknown

theorem exists_unknown {d : Descriptor} {a : String × Value} (given : a ∈ args)
    (undeclared : ¬ d.Declares a.1) : ∃ name, d.bind args = .error (.unknownParameter name) := by
  unfold Descriptor.bind
  cases found : args.find? fun a => (d.param? a.1).isNone with
  | some other => exact ⟨other.1, rfl⟩
  | none => exact absurd (isNone_param?.mpr undeclared) (List.find?_eq_none.mp found a given)

/-- Whatever is given: an undeclared name is refused, and it is the name that is told.  Otherwise
the first fault is told, if there is one, and else every parameter takes its value.  A parameter of
an accepted descriptor that is left out takes its default, if it has one, and never zero for it. -/
theorem bind_exactly (d : Descriptor) (args : Arguments) :
    ((∃ name, d.bind args = .error (.unknownParameter name)) ↔ ∃ a ∈ args, ¬ d.Declares a.1) ∧
    (∀ name, d.bind args = .error (.unknownParameter name) →
      (∃ v, (name, v) ∈ args) ∧ ¬ d.Declares name) ∧
    ((∀ a ∈ args, d.Declares a.1) →
      (∀ e, d.bind args = .error e ↔ FirstFault d.params args e) ∧
      ((∃ call, d.bind args = .ok call) ↔ ∀ p ∈ d.params, ∀ e, ¬ p.Fault args e) ∧
      ∀ call, d.bind args = .ok call ↔
        ∃ values, List.Forall₂ (fun p v => p.Takes args v) d.params values ∧
          call = .ofValues d.params values) ∧
    ∀ limit shape, d.validate limit = .ok shape → ∀ p ∈ d.params, ∀ u, p.default = some u →
      ∃ v, u.coerce? p.type = some v ∧
        ∀ w, args.get? p.name = none → p.Takes args w → w = v := by
  refine ⟨⟨?_, fun ⟨a, given, undeclared⟩ => exists_unknown given undeclared⟩,
    fun name => bind_eq_unknown, ?_, ?_⟩
  · rintro ⟨name, h⟩
    obtain ⟨⟨v, given⟩, undeclared⟩ := bind_eq_unknown h
    exact ⟨(name, v), given, undeclared⟩
  · intro declared
    rw [bind_of_declared declared]
    exact ⟨fun e => bindParams_eq_error_iff, exists_bindParams_iff, fun call => bindParams_eq_ok_iff⟩
  · intro limit shape valid p mem u default
    obtain ⟨_, fields, _⟩ := bind_eq_ok.mp valid
    obtain ⟨v, coerced⟩ := Option.isSome_iff_exists.mp
      (default_accepted (checkFields_eq_ok fields).1 mem default)
    exact ⟨v, coerced, fun w missing takes => takes.eq_default missing default coerced⟩

/-- A weight given as an integer is widened, the language is left out; then a name is misspelt. -/
theorem bind_exactly_boost :
    boostIn.bind [("boost", .i32 3)] = .ok ⟨[.f64 ⟨0x4008000000000000⟩], [("lang", "en")]⟩ ∧
    (∃ name, boostIn.bind [("boots", .i32 3)] = .error (.unknownParameter name)) ∧
    ∃ v, (Value.string "en").coerce? .string = some v ∧
      ∀ w, (⟨"lang", .string, false, some (.string "en")⟩ : Param).Takes [("boost", .i32 3)] w →
        w = v := by
  have accepted : boostIn.validate 1 =
    .ok ⟨["env.get_score"], [⟨"score", ⟨[.i64, .f64], [.f64]⟩⟩], true, 1⟩ := by decide +kernel
  have given := bind_exactly boostIn [("boost", .i32 3)]
  have misspelt := bind_exactly boostIn [("boots", .i32 3)]
  refine ⟨?_, misspelt.1.mpr ⟨_, List.mem_cons_self, by simp [Declares, boostIn]⟩, ?_⟩
  · refine ((given.2.2.1 ?_).2.2 _).mpr ⟨[.string "en", .f64 ⟨0x4008000000000000⟩], ?_, rfl⟩
    · simp [Declares, boostIn]
    · exact .cons (.default rfl rfl rfl rfl) (.cons (.given rfl (by decide +kernel)
        (.whole (by decide +kernel))) .nil)
  · obtain ⟨v, coerced, only⟩ := given.2.2.2 _ _ accepted _ List.mem_cons_self _ rfl
    exact ⟨v, coerced, fun w => only w (by decide +kernel)⟩

end Descriptor

end TieredUdf
