import TieredUdf.Engine.Registration
import TieredUdf.Proofs.Module.Sandbox

/-! # The texts of signatures

A function type can be read back from its text, since no name of a type has a comma or a dash in it.
So the text of a function type is that of a signature exactly if it has this signature, and an error
that tells what was expected and what was found never tells the same text twice.
-/

namespace TieredUdf

/-! ## Lists of names -/

/-- A name that can be told from its surroundings in the text of a function type. -/
def Separable (name : String) : Prop := name ≠ "" ∧ ',' ∉ name.toList ∧ '-' ∉ name.toList

/-- Two texts that each end where a stop first stands, or without one. -/
theorem append_inj_of_stop (stop : Char) {xs ys front back : List Char} (hx : stop ∉ xs)
    (hy : stop ∉ ys) (hf : ∀ c ∈ front.head?, c = stop) (hb : ∀ c ∈ back.head?, c = stop)
    (same : xs ++ front = ys ++ back) : xs = ys ∧ front = back := by
  induction xs generalizing ys with
  | nil =>
      cases ys with
      | nil => exact ⟨rfl, same⟩
      | cons y ys =>
          rw [List.nil_append] at same
          have := hf y (by simp [same])
          simp [this] at hy
  | cons x xs ih =>
      cases ys with
      | nil =>
          rw [List.nil_append] at same
          have := hb x (by simp [← same])
          simp [this] at hx
      | cons y ys =>
          obtain ⟨rfl, rest⟩ := List.cons.inj same
          rw [List.mem_cons, not_or] at hx hy
          obtain ⟨rfl, tails⟩ := ih hx.2 hy.2 rest
          exact ⟨rfl, tails⟩

/-- The names behind the first one, each with the comma before it. -/
def behind (names : List String) : List Char := names.flatMap fun n => ',' :: ' ' :: n.toList

theorem toList_joinNames (name : String) (names : List String) :
    (joinNames (name :: names)).toList = name.toList ++ behind names := by
  induction names generalizing name with
  | nil => simp [joinNames, behind]
  | cons next names ih => simp [joinNames, ih, behind]

theorem head?_behind (names : List String) : ∀ c ∈ (behind names).head?, c = ',' := by
  cases names <;> simp [behind]

theorem behind_injective {ns ms : List String} (hn : ∀ n ∈ ns, Separable n)
    (hm : ∀ m ∈ ms, Separable m) (same : behind ns = behind ms) : ns = ms := by
  induction ns generalizing ms with
  | nil =>
      cases ms with
      | nil => rfl
      | cons m ms => simp [behind] at same
  | cons n ns ih =>
      cases ms with
      | nil => simp [behind] at same
      | cons m ms =>
          obtain ⟨first, others⟩ := List.forall_mem_cons.mp hn
          obtain ⟨first', others'⟩ := List.forall_mem_cons.mp hm
          have texts : n.toList ++ behind ns = m.toList ++ behind ms := by
            simpa [behind] using same
          obtain ⟨name, rest⟩ := append_inj_of_stop ',' first.2.1 first'.2.1 (head?_behind ns)
            (head?_behind ms) texts
          rw [String.toList_inj.mp name, ih others others' rest]

theorem joinNames_injective {ns ms : List String} (hn : ∀ n ∈ ns, Separable n)
    (hm : ∀ m ∈ ms, Separable m) (same : joinNames ns = joinNames ms) : ns = ms := by
  cases ns with
  | nil =>
      cases ms with
      | nil => rfl
      | cons m ms =>
          have texts := congrArg String.toList same
          rw [toList_joinNames] at texts
          simp [joinNames, (List.forall_mem_cons.mp hm).1.1] at texts
  | cons n ns =>
      cases ms with
      | nil =>
          have texts := congrArg String.toList same
          rw [toList_joinNames] at texts
          simp [joinNames, (List.forall_mem_cons.mp hn).1.1] at texts
      | cons m ms =>
          apply behind_injective hn hm
          have texts := congrArg String.toList same
          rw [toList_joinNames, toList_joinNames] at texts
          simpa [behind] using texts

theorem dash_notMem_joinNames {names : List String} (h : ∀ n ∈ names, Separable n) :
    '-' ∉ (joinNames names).toList := by
  cases names with
  | nil => simp [joinNames]
  | cons n names =>
      obtain ⟨first, others⟩ := List.forall_mem_cons.mp h
      rw [toList_joinNames]
      simp [behind, first.2.2]
      exact fun m hm => (others m hm).2.2

theorem toList_renderTypes (params results : List String) :
    (renderTypes params results).toList =
      ('(' :: (joinNames params).toList ++ [')', ' ']) ++
        '-' :: ('>' :: ' ' :: '(' :: (joinNames results).toList ++ [')']) := by
  simp [renderTypes]

theorem renderTypes_injective {ps rs ps' rs' : List String} (hp : ∀ n ∈ ps, Separable n)
    (hr : ∀ n ∈ rs, Separable n) (hp' : ∀ n ∈ ps', Separable n) (hr' : ∀ n ∈ rs', Separable n)
    (same : renderTypes ps rs = renderTypes ps' rs') : ps = ps' ∧ rs = rs' := by
  have texts := congrArg String.toList same
  rw [toList_renderTypes, toList_renderTypes] at texts
  obtain ⟨params, results⟩ := append_inj_of_stop '-'
    (by simpa using dash_notMem_joinNames hp) (by simpa using dash_notMem_joinNames hp')
    (by simp) (by simp) texts
  constructor
  · exact joinNames_injective hp hp' (String.toList_inj.mp (by simpa using params))
  · exact joinNames_injective hr hr' (String.toList_inj.mp (by simpa using results))

/-! ## The two ways to write a type -/

/-- Write names behind a text, from a position on: a comma stands before every name but the one at
position zero. -/
def writeNames (out : String) (index : Nat) : List String → String
  | [] => out
  | n :: rest => writeNames ((if 0 < index then out ++ ", " else out) ++ n) (index + 1) rest

theorem writeNames_behind (out : String) (index : Nat) (names : List String) :
    (writeNames out (index + 1) names).toList = out.toList ++ behind names := by
  induction names generalizing out index with
  | nil => simp [writeNames, behind]
  | cons n names ih => simp [writeNames, ih, behind]

theorem writeNames_eq (out : String) (names : List String) :
    writeNames out 0 names = out ++ joinNames names := by
  apply String.toList_inj.mp
  cases names with
  | nil => simp [writeNames, joinNames]
  | cons n names => simp [writeNames, writeNames_behind, toList_joinNames]

theorem intercalate_eq (names : List String) : ", ".intercalate names = joinNames names := by
  induction names with
  | nil => rfl
  | cons n names ih =>
      apply String.toList_inj.mp
      rw [toList_joinNames, String.toList_intercalate]
      cases names with
      | nil => simp [behind]
      | cons m names =>
          rw [List.map_cons, List.map_cons, List.intercalate_cons_cons, ← List.map_cons,
            ← String.toList_intercalate, ih, toList_joinNames]
          simp [behind]

/-- The text of a signature, written name by name. -/
def Signature.written (s : Signature) : String :=
  let params := writeNames "(" 0 (s.params.map ScalarType.name)
  writeNames (params ++ ") -> (") 0 (s.results.map ScalarType.name) ++ ")"

theorem Signature.written_eq_text (s : Signature) : s.written = s.text := by
  simp [written, writeNames_eq, text, renderTypes, String.append_assoc]

namespace Wasm

/-- The name of a type as its declaration spells it. -/
def ValType.spelling : ValType → String
  | .i32 => "I32"
  | .i64 => "I64"
  | .f32 => "F32"
  | .f64 => "F64"
  | .v128 => "V128"
  | .funcref => "Ref(funcref)"
  | .externref => "Ref(externref)"

theorem ValType.toLower_spelling (t : ValType) : t.spelling.toLower = t.name := by
  apply String.toList_inj.mp
  change (t.spelling.map Char.toLower).toList = t.name.toList
  rw [String.toList_map]
  cases t <;> rfl

/-- The text of a function type, made of the spellings of its types in small letters. -/
def FuncType.joined (t : FuncType) : String :=
  "(" ++ ", ".intercalate (t.params.map fun v => v.spelling.toLower) ++ ") -> (" ++
    ", ".intercalate (t.results.map fun v => v.spelling.toLower) ++ ")"

theorem FuncType.joined_eq_text (t : FuncType) : t.joined = t.text := by
  simp only [joined, ValType.toLower_spelling, intercalate_eq]
  rfl

/-! ## Reading a type back -/

theorem ValType.separable_name (t : ValType) : Separable t.name := by
  unfold Separable
  cases t <;> decide

theorem ValType.name_injective {t u : ValType} (h : t.name = u.name) : t = u := by
  revert h
  cases t <;> cases u <;> decide

theorem ValType.name_ofScalar (s : ScalarType) : (ofScalar s).name = s.name := by
  cases s <;> rfl

theorem FuncType.text_injective {t u : FuncType} (h : t.text = u.text) : t = u := by
  have separable : ∀ types : List ValType, ∀ n ∈ types.map ValType.name, Separable n := by
    simp [ValType.separable_name]
  obtain ⟨params, results⟩ := renderTypes_injective (separable _) (separable _) (separable _)
    (separable _) h
  obtain ⟨ps, rs⟩ := t
  obtain ⟨ps', rs'⟩ := u
  have names : ∀ v w : ValType, v.name = w.name → v = w := fun _ _ => ValType.name_injective
  rw [FuncType.mk.injEq]
  exact ⟨(List.map_inj_right names).mp params, (List.map_inj_right names).mp results⟩

theorem FuncType.text_ofSignature (s : Signature) : (ofSignature s).text = s.text := by
  simp [ofSignature, FuncType.text, Signature.text, Function.comp_def, ValType.name_ofScalar]

theorem FuncType.ofSignature_injective {s u : Signature} (h : ofSignature s = ofSignature u) :
    s = u := by
  have same := signature?_eq_some.mpr h
  rw [signature?_eq_some.mpr rfl] at same
  exact Option.some.inj same

/-- The text of a function type is that of its own signature and of no other one. -/
theorem FuncType.text_eq_iff {t : FuncType} {s : Signature} :
    t.text = s.text ↔ t.signature? = some s := by
  rw [signature?_eq_some, ← text_ofSignature]
  exact ⟨text_injective, congrArg text⟩

theorem FuncType.exists_signature {t : FuncType}
    (scalars : ∀ v ∈ t.params ++ t.results, v.scalar? ≠ none) : ∃ s, t.signature? = some s := by
  have each : ∀ types : List ValType, (∀ v ∈ types, v.scalar? ≠ none) →
      ∃ ss, types.mapM ValType.scalar? = some ss := by
    intro types given
    induction types with
    | nil => exact ⟨[], rfl⟩
    | cons v types ih =>
        obtain ⟨first, others⟩ := List.forall_mem_cons.mp given
        obtain ⟨s, hs⟩ := Option.ne_none_iff_exists'.mp first
        obtain ⟨ss, hss⟩ := ih others
        exact ⟨s :: ss, mapM_cons_eq_some.mpr ⟨s, ss, hs, hss, rfl⟩⟩
  obtain ⟨params, hp⟩ := each t.params fun v hv => scalars v (List.mem_append_left _ hv)
  obtain ⟨results, hr⟩ := each t.results fun v hv => scalars v (List.mem_append_right _ hv)
  exact ⟨⟨params, results⟩, by simp [signature?, hp, hr]⟩

theorem FuncType.scalar_of_signature? {t : FuncType} {s : Signature} (h : t.signature? = some s) :
    ∀ v ∈ t.params ++ t.results, v.scalar? ≠ none := by
  rw [signature?_eq_some] at h
  subst h
  intro v hv
  obtain ⟨r, rfl⟩ : ∃ r, v = .ofScalar r := by
    simp only [ofSignature, List.mem_append, List.mem_map] at hv
    rcases hv with ⟨r, _, rfl⟩ | ⟨r, _, rfl⟩ <;> exact ⟨r, rfl⟩
  simp [ValType.scalar?_eq_some.mpr rfl]

end Wasm

/-! ## Errors with two texts -/

/-- An error that tells two texts, what was expected and what was found, tells different ones. -/
def ValidationError.Contrasts : ValidationError → Prop
  | .signatureMismatch _ expected found => expected ≠ found
  | .importSignatureMismatch _ expected found => expected ≠ found
  | _ => True

/-- Every error that a check may end in contrasts. -/
def Contrasting {α : Type} (x : Except ValidationError α) : Prop :=
  ∀ e, x = .error e → e.Contrasts

section Contrasting

variable {α β : Type}

theorem contrasting_ok (a : α) : Contrasting (.ok a) := nofun

theorem contrasting_error {e : ValidationError} (h : e.Contrasts) :
    Contrasting (.error e : Except ValidationError α) := by
  rintro _ ⟨⟩
  exact h

theorem Contrasting.bind {x : Except ValidationError α} {f : α → Except ValidationError β}
    (first : Contrasting x) (rest : ∀ a, Contrasting (f a)) : Contrasting (x >>= f) := by
  intro e failed
  rcases bind_eq_error.mp failed with early | ⟨a, _, late⟩
  · exact first e early
  · exact rest a e late

theorem text_ne_of_signature? {t : Wasm.FuncType} {s : Signature} (h : t.signature? ≠ some s) :
    s.text ≠ t.text :=
  fun same => h (Wasm.FuncType.text_eq_iff.mp same.symm)

end Contrasting

namespace ModuleShape

theorem contrasting_ofBytecode (bytes : List UInt8) (limit : Nat) :
    Contrasting (ofBytecode bytes limit) := by
  intro e failed
  cases refused_of_ofBytecode failed with
  | mistyped name other => exact text_ne_of_signature? other
  | empty | malformed | foreign | large => trivial

end ModuleShape

namespace Descriptor

theorem contrasting_checkParams (seen : List String) (index : Nat) (params : List Param) :
    Contrasting (checkParams seen index params) := by
  induction params generalizing seen index with
  | nil => exact contrasting_ok _
  | cons p params ih =>
      unfold checkParams
      split
      · exact contrasting_error trivial
      · split
        · exact contrasting_error trivial
        · split
          · exact ih _ _
          · split
            · exact ih _ _
            · exact contrasting_error trivial

theorem contrasting_checkReturns (returns : List ValueType) :
    Contrasting (checkReturns returns) := by
  unfold checkReturns
  split
  · exact contrasting_error trivial
  · split
    · exact contrasting_error trivial
    · exact contrasting_ok _

theorem contrasting_checkFields (d : Descriptor) : Contrasting d.checkFields := by
  unfold checkFields
  repeat' split
  iterate 5 exact contrasting_error trivial
  exact (contrasting_checkParams _ _ _).bind fun _ => contrasting_checkReturns _

theorem contrasting_checkEntry (d : Descriptor) (s : ModuleShape) :
    Contrasting (d.checkEntry s) := by
  unfold checkEntry
  split
  · exact contrasting_error trivial
  · split
    · exact contrasting_ok _
    · exact contrasting_error (text_ne_of_signature? ‹_›)

theorem contrasting_validate (d : Descriptor) (limit : Nat) : Contrasting (d.validate limit) :=
  (contrasting_checkFields d).bind fun _ => (ModuleShape.contrasting_ofBytecode _ _).bind fun _ =>
    (contrasting_checkEntry d _).bind fun _ => contrasting_ok _

end Descriptor

namespace Engine

variable {β ι : Type}

theorem contrasting_check (e : Engine β ι) (d : Descriptor) : Contrasting (e.check d) := by
  refine (d.contrasting_validate _).bind fun _ => .bind ?_ fun _ => ?_
  · unfold Descriptor.validateLimits
    split
    · exact contrasting_error trivial
    · exact contrasting_ok _
  · split
    · exact contrasting_error trivial
    · exact contrasting_ok _

theorem contrasting_load (e : Engine β ι) (d : Descriptor) (now : Nat) :
    Contrasting (e.load d now).1 := by
  unfold load
  split
  · exact contrasting_ok _
  · dsimp only [loadInterpreted]
    split
    · exact contrasting_error trivial
    · split
      · exact contrasting_error trivial
      · exact contrasting_ok _

theorem contrasting_register (e : Engine β ι) (d : Descriptor) (now : Nat) :
    Contrasting (e.register d now).1 := by
  have checked := e.contrasting_check d
  have loaded := e.contrasting_load d now
  unfold register
  split
  · rename_i failed
    exact contrasting_error (checked _ failed)
  · split
    · rename_i failed
      rw [failed] at loaded
      exact contrasting_error (loaded _ rfl)
    · exact contrasting_ok _

end Engine

namespace Signature

/-- The text of a signature is what is written name by name, and that of a function type is what is
joined from the spellings of its types.  Different signatures have different texts.  A function type
of scalars alone has the text of its signature, and one with any other type has the text of no
signature.  So no error of a check, of a validation or of a registration that tells two texts tells
the same one twice. -/
theorem texts_faithful {β ι : Type} :
    (∀ s : Signature, s.written = s.text) ∧
    (∀ t : Wasm.FuncType, t.joined = t.text) ∧
    Function.Injective text ∧
    (∀ t : Wasm.FuncType, (∀ v ∈ t.params ++ t.results, v.scalar? ≠ none) →
      ∃ s, t.signature? = some s ∧ t.text = s.text) ∧
    (∀ t : Wasm.FuncType, (∃ v ∈ t.params ++ t.results, v.scalar? = none) →
      ∀ s : Signature, t.text ≠ s.text) ∧
    (∀ bytes limit e, ModuleShape.ofBytecode bytes limit = .error e → e.Contrasts) ∧
    (∀ (d : Descriptor) limit e, d.validate limit = .error e → e.Contrasts) ∧
    ∀ (engine : Engine β ι) d now e, (engine.register d now).1 = .error e → e.Contrasts := by
  refine ⟨written_eq_text, Wasm.FuncType.joined_eq_text, fun s u same => ?_, fun t scalars => ?_,
    fun t ⟨v, hv, other⟩ s same => ?_, ModuleShape.contrasting_ofBytecode,
    Descriptor.contrasting_validate, Engine.contrasting_register⟩
  · rw [← Wasm.FuncType.text_ofSignature, ← Wasm.FuncType.text_ofSignature] at same
    exact Wasm.FuncType.ofSignature_injective (Wasm.FuncType.text_injective same)
  · obtain ⟨s, signed⟩ := Wasm.FuncType.exists_signature scalars
    exact ⟨s, signed, Wasm.FuncType.text_eq_iff.mpr signed⟩
  · exact Wasm.FuncType.scalar_of_signature? (Wasm.FuncType.text_eq_iff.mp same) v hv other

/-- Types that are not scalars show in a text. -/
example : Wasm.FuncType.text ⟨[.i64, .externref], []⟩ = "(i64, ref(externref)) -> ()" := by decide

end Signature

end TieredUdf
