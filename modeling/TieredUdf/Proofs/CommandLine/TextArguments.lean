import TieredUdf.Proofs.Json.Scalars
import TieredUdf.Proofs.Module.TypedCalls
import TieredUdf.Proofs.Value.Coercion

/-! # Text parameters of a command

A parameter that is declared as a text is given the text as it stands, unless that can be read as
JSON: a literal stands for the text that it denotes, and every other JSON is refused.
-/

namespace TieredUdf

theorem Value.ofJson?_string_eq_some {j : Json} {v : Value} :
    ofJson? .string j = some v ↔ ∃ s, j = .string s ∧ v = .string s := by
  constructor
  · intro h
    obtain ⟨w, parsed, coerced⟩ := Option.bind_eq_some_iff.mp h
    cases j with
    | string s =>
        cases parsed
        cases coerced
        exact ⟨s, rfl, rfl⟩
    | null | array items | object members => cases parsed
    | bool b | number x =>
        cases parsed
        cases coerced
    | integer n =>
        simp only [ofJsonScalar?, Option.some.injEq] at parsed
        subst parsed
        split at coerced <;> cases coerced
  · rintro ⟨s, rfl, rfl⟩
    rfl

namespace CommandLine

open Json (Literal Writes Bracketed)

/-- A text reads as JSON that is no text: as a word, a number, an array or an object. -/
def Foreign (t : String) : Prop :=
  (∃ j, Writes t j ∧ ∀ s, j ≠ .string s) ∨ Bracketed t ∧ (Json.parse? t).isSome = true

theorem Foreign.parse? {t : String} (h : Foreign t) :
    ∃ j, Json.parse? t = some j ∧ ∀ s, j ≠ .string s := by
  rcases h with ⟨j, writes, other⟩ | ⟨bracket, some⟩
  · exact ⟨j, writes.parse?, other⟩
  · obtain ⟨j, parsed⟩ := Option.isSome_iff_exists.mp some
    refine ⟨j, parsed, ?_⟩
    rintro s rfl
    have scalar : (Json.string s).IsScalar := trivial
    exact bracket.not_writes _ ((Json.parse?_eq_scalar scalar).mp parsed)

/-- Every text is a literal, other JSON or none at all. -/
theorem parse?_eq_none {t : String} (noLiteral : ∀ s, ¬ Literal t s) (noOther : ¬ Foreign t) :
    Json.parse? t = none := by
  refine Option.eq_none_iff_forall_ne_some.mpr fun j parsed => ?_
  rcases Json.parse?_cases parsed with writes | ⟨_, bracket⟩
  · by_cases string : ∃ s, j = .string s
    · obtain ⟨s, rfl⟩ := string
      exact noLiteral s (Json.writes_string.mp writes)
    · exact noOther (.inl ⟨j, writes, fun s same => string ⟨s, same⟩⟩)
  · exact noOther (.inr ⟨bracket, Option.isSome_of_eq_some parsed⟩)

variable {d : Descriptor} {name t : String} {p : Param}

/-- A literal gives the string that it denotes, and a text that is no JSON gives itself.  A text
that is other JSON is refused. -/
theorem text_argument (plain : '=' ∉ name.toList) (declared : d.param? name = some p)
    (text : p.type = .string) :
    (∀ s, Literal t s → toParameter d (name ++ "=" ++ t) = .ok (name, .string s)) ∧
    ((∀ s, ¬ Literal t s) → ¬ Foreign t →
      toParameter d (name ++ "=" ++ t) = .ok (name, .string t)) ∧
    (Foreign t → toParameter d (name ++ "=" ++ t) = .error (.wrongType name .string t)) := by
  rw [toParameter_declared plain declared, text]
  refine ⟨fun s literal => ?_, fun noLiteral noOther => ?_, fun other => ?_⟩
  · have parsed := (Json.writes_string.mpr literal).parse?
    rw [parsed]
    rfl
  · rw [parse?_eq_none noLiteral noOther]
    rfl
  · obtain ⟨j, parsed, noString⟩ := other.parse?
    have refused : Value.ofJson? .string j = none := by
      refine Option.eq_none_iff_forall_ne_some.mpr fun v taken => ?_
      obtain ⟨s, same, _⟩ := Value.ofJson?_string_eq_some.mp taken
      exact noString s same
    rw [parsed, Option.getD_some, refused]

theorem literal_five : Literal "\"5\"" "5" := by
  refine ⟨[], ['5', '"'], [], rfl, nofun, ?_, nofun⟩
  exact .letter (.plain (by decide) (by decide) (by decide)) .close

theorem text_argument_quoted :
    '=' ∉ "lang".toList ∧ Descriptor.boost.param? "lang" = some ⟨"lang", .string, false, none⟩ ∧
      toParameter Descriptor.boost "lang=\"5\"" = .ok ("lang", .string "5") := by
  have plain : '=' ∉ "lang".toList := by decide
  exact ⟨plain, rfl, (text_argument plain rfl rfl).1 "5" literal_five⟩

/-- Without quotes it is a number and is refused. -/
theorem not_every_text_argument :
    ¬ ∀ (d : Descriptor) (name t : String) (p : Param), '=' ∉ name.toList →
      d.param? name = some p → p.type = .string → (∀ s, ¬ Literal t s) →
        toParameter d (name ++ "=" ++ t) = .ok (name, .string t) := by
  intro every
  have parsed : Json.parse? "5" = some (.integer 5) := rfl
  have noLiteral : ∀ s, ¬ Literal "5" s := by
    intro s literal
    have string := (Json.writes_string.mpr literal).parse?
    rw [parsed] at string
    cases string
  have plain : '=' ∉ "lang".toList := by decide
  have carried := every Descriptor.boost "lang" "5" _ plain rfl rfl noLiteral
  rw [toParameter_declared plain rfl, parsed] at carried
  cases carried

end CommandLine

end TieredUdf
