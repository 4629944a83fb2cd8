import Mathlib.Data.List.Basic
import TieredUdf.Proofs.Engine.References

/-! # The texts of module keys

A key is written as its name and its version with a separator between them.  A text is read back
at its last separator, so a separator may stand in the name; validation lets it stand in the
version as well, and then the text is that of another key.
-/

namespace TieredUdf

namespace ModuleKey

/-! ## The last separator -/

theorem splitLast?_eq_none {separator : Char} {cs : List Char} :
    splitLast? separator cs = none ↔ separator ∉ cs := by
  induction cs with
  | nil => simp [splitLast?]
  | cons c rest ih =>
      rw [splitLast?, List.mem_cons, not_or, ← ih]
      cases splitLast? separator rest with
      | some parts => simp
      | none =>
          by_cases here : c = separator
          · simp [here]
          · simp [here, Ne.symm here]

theorem splitLast?_append {separator : Char} (front : List Char) {back : List Char}
    (absent : separator ∉ back) :
    splitLast? separator (front ++ separator :: back) = some (front, back) := by
  induction front with
  | nil => simp [splitLast?, splitLast?_eq_none.mpr absent]
  | cons c front ih => simp [splitLast?, ih]

theorem splitLast?_eq_some {separator : Char} {cs front back : List Char} :
    splitLast? separator cs = some (front, back) ↔
      cs = front ++ separator :: back ∧ separator ∉ back := by
  refine ⟨fun split => ?_, fun ⟨same, absent⟩ => same ▸ splitLast?_append front absent⟩
  induction cs generalizing front with
  | nil => cases split
  | cons c rest ih =>
      rw [splitLast?] at split
      cases found : splitLast? separator rest with
      | some parts =>
          rw [found] at split
          cases split
          obtain ⟨rfl, absent⟩ := ih found
          exact ⟨rfl, absent⟩
      | none =>
          rw [found] at split
          by_cases here : c = separator
          · rw [if_pos here] at split
            cases split
            exact ⟨by rw [here, List.nil_append], splitLast?_eq_none.mp found⟩
          · rw [if_neg here] at split
            cases split

/-! ## Reading back -/

theorem toList_text (k : ModuleKey) : k.text.toList = k.name.toList ++ '@' :: k.version.toList := by
  simp [text]

/-- The texts that are read are those of keys with two parts and no separator in the version. -/
theorem parse?_eq_some {s : String} {k : ModuleKey} :
    parse? s = some k ↔
      k.text = s ∧ k.name ≠ "" ∧ k.version ≠ "" ∧ '@' ∉ k.version.toList := by
  constructor
  · intro read
    unfold parse? at read
    cases found : splitLast? '@' s.toList with
    | none =>
        rw [found] at read
        cases read
    | some parts =>
        obtain ⟨same, absent⟩ := splitLast?_eq_some.mp found
        rw [found] at read
        dsimp only at read
        split at read
        · cases read
        · rename_i given
          cases read
          refine ⟨String.toList_inj.mp ?_, ?_, ?_, ?_⟩
          · rw [toList_text, same, String.toList_ofList, String.toList_ofList]
          · simpa using fun empty => given (.inl empty)
          · simpa using fun empty => given (.inr empty)
          · rwa [String.toList_ofList]
  · rintro ⟨rfl, name, version, absent⟩
    have found : splitLast? '@' k.text.toList = some (k.name.toList, k.version.toList) :=
      toList_text k ▸ splitLast?_append _ absent
    have given : ¬ (k.name.toList = [] ∨ k.version.toList = []) := by
      simpa using ⟨name, version⟩
    unfold parse?
    rw [found]
    dsimp only
    rw [if_neg given, String.ofList_toList, String.ofList_toList]

theorem parse?_text {k : ModuleKey} :
    parse? k.text = some k ↔ k.name ≠ "" ∧ k.version ≠ "" ∧ '@' ∉ k.version.toList :=
  parse?_eq_some.trans (and_iff_right rfl)

/-! ## Keys of the same text -/

/-- The first parts of a key's version belong to the name of another key. -/
def Shifts (k l : ModuleKey) : Prop :=
  ∃ part, l.name = k.name ++ "@" ++ part ∧ k.version = part ++ "@" ++ l.version

theorem Shifts.text {k l : ModuleKey} (h : k.Shifts l) : k.text = l.text := by
  obtain ⟨part, name, version⟩ := h
  unfold ModuleKey.text
  rw [name, version]
  simp only [String.append_assoc]

theorem Shifts.separator_mem {k l : ModuleKey} (h : k.Shifts l) : '@' ∈ k.version.toList := by
  obtain ⟨part, _, version⟩ := h
  simp [version]

/-- Keys of the same text, the second one with the longer name. -/
theorem shifts_of_longer {k l : ModuleKey} {more : List Char}
    (name : l.name.toList = k.name.toList ++ more)
    (rest : '@' :: k.version.toList = more ++ '@' :: l.version.toList) :
    k = l ∨ k.Shifts l := by
  cases more with
  | nil =>
      left
      rw [List.append_nil] at name
      rw [List.nil_append, List.cons.injEq] at rest
      have names : k.name = l.name := String.toList_inj.mp name.symm
      have versions : k.version = l.version := String.toList_inj.mp rest.2
      change (⟨k.name, k.version⟩ : ModuleKey) = ⟨l.name, l.version⟩
      rw [names, versions]
  | cons c part =>
      right
      rw [List.cons_append, List.cons.injEq] at rest
      obtain ⟨rfl, version⟩ := rest
      refine ⟨String.ofList part, String.toList_inj.mp ?_, String.toList_inj.mp ?_⟩
      · simp [name]
      · simp [version]

/-- Two keys have the same text exactly if they are the same, or the part of a version up to one
of its separators is the end of the other key's name. -/
theorem text_eq_text_iff {k l : ModuleKey} :
    k.text = l.text ↔ k = l ∨ k.Shifts l ∨ l.Shifts k := by
  constructor
  · intro same
    have letters : k.name.toList ++ '@' :: k.version.toList =
        l.name.toList ++ '@' :: l.version.toList := by
      rw [← toList_text, ← toList_text, same]
    -- The names begin alike, and one of them is as long as the other or longer.
    rcases List.append_eq_append_iff.mp letters with ⟨more, name, rest⟩ | ⟨more, name, rest⟩
    · exact (shifts_of_longer name rest).imp_right .inl
    · rcases shifts_of_longer name rest with same | shifts
      · exact .inl same.symm
      · exact .inr (.inr shifts)
  · rintro (rfl | shifts | shifts)
    · rfl
    · exact shifts.text
    · exact shifts.text.symm

theorem Shifts.ne {k l : ModuleKey} (h : k.Shifts l) : k ≠ l := by
  obtain ⟨part, name, _⟩ := h
  rintro rfl
  have lengths := congrArg String.length name
  simp only [String.length_append] at lengths
  have separator : "@".length = 1 := rfl
  omega

/-- Different keys have the same text exactly if one of them shifts into the other. -/
theorem text_clash_iff {k l : ModuleKey} :
    k ≠ l ∧ k.text = l.text ↔ k.Shifts l ∨ l.Shifts k := by
  rw [text_eq_text_iff]
  constructor
  · rintro ⟨different, same | shifts⟩
    · exact absurd same different
    · exact shifts
  · rintro (shifts | shifts)
    · exact ⟨shifts.ne, .inr (.inl shifts)⟩
    · exact ⟨shifts.ne.symm, .inr (.inr shifts)⟩

/-! ## Keys that pass validation -/

/-- Neither part of the key is blank. -/
def Given (k : ModuleKey) : Prop := Text.isBlank k.name = false ∧ Text.isBlank k.version = false

theorem ne_empty_of_not_blank {s : String} (h : Text.isBlank s = false) : s ≠ "" := by
  rintro rfl
  cases h

theorem Given.nonempty {k : ModuleKey} (h : k.Given) : k.name ≠ "" ∧ k.version ≠ "" :=
  ⟨ne_empty_of_not_blank h.1, ne_empty_of_not_blank h.2⟩

end ModuleKey

namespace Descriptor

open ModuleKey

theorem given_of_validate {d : Descriptor} {pageLimit : Nat} {shape : ModuleShape}
    (valid : d.validate pageLimit = .ok shape) : d.key.Given := by
  obtain ⟨_, fields, _⟩ := bind_eq_ok.mp valid
  unfold checkFields at fields
  split at fields
  · cases fields
  · split at fields
    · cases fields
    · rename_i name version
      exact ⟨Bool.eq_false_of_not_eq_true name, Bool.eq_false_of_not_eq_true version⟩

/-- Validation asks nothing else of a key. -/
theorem validate_withKey {d : Descriptor} {key : ModuleKey} (own : d.key.Given) (other : key.Given)
    (pageLimit : Nat) : { d with key := key }.validate pageLimit = d.validate pageLimit := by
  have fields : { d with key := key }.checkFields = d.checkFields := by
    unfold checkFields
    simp only [own.1, own.2, other.1, other.2]
  have entry : { d with key := key }.checkEntry = d.checkEntry := rfl
  unfold validate
  rw [fields, entry]

/-- The key of a module that passes validation is read back from its text if and only if there is
no separator in its version.  Validation asks of a key only that neither part is blank, and any
other such key is accepted with the same module; two different keys have the same text exactly if
the part of a version up to one of its separators is the end of the other key's name.  So keys
without separators in their versions are told apart by their texts.  And a text that is read is the
text of the key that is read. -/
theorem keys_read_back (d : Descriptor) (pageLimit : Nat) :
    (∀ shape : ModuleShape, d.validate pageLimit = .ok shape →
      (parse? d.key.text = some d.key ↔ '@' ∉ d.key.version.toList) ∧ d.key.Given ∧
      (∀ key : ModuleKey, key.Given → { d with key := key }.validate pageLimit = .ok shape) ∧
      ∀ (e : Descriptor) (otherShape : ModuleShape), e.validate pageLimit = .ok otherShape →
        (d.key ≠ e.key ∧ d.key.text = e.key.text ↔
          d.key.Shifts e.key ∨ e.key.Shifts d.key) ∧
        ('@' ∉ d.key.version.toList → '@' ∉ e.key.version.toList →
          d.key.text = e.key.text → d.key = e.key)) ∧
    ∀ (s : String) (k : ModuleKey), parse? s = some k → k.text = s := by
  refine ⟨fun shape valid => ?_, fun s k read => (parse?_eq_some.mp read).1⟩
  have given := given_of_validate valid
  refine ⟨?_, given, fun key other => (validate_withKey given other pageLimit).trans valid,
    fun e otherShape _ => ⟨text_clash_iff, fun left right same => ?_⟩⟩
  · rw [parse?_text]
    exact ⟨fun h => h.2.2, fun absent => ⟨given.nonempty.1, given.nonempty.2, absent⟩⟩
  · rcases text_eq_text_iff.mp same with equal | shifts | shifts
    · exact equal
    · exact absurd shifts.separator_mem left
    · exact absurd shifts.separator_mem right

def boostAs (key : ModuleKey) : Descriptor := { boost with key := key }

theorem boostAs_accepted {key : ModuleKey} (given : key.Given) :
    (boostAs key).validate 1 =
      .ok ⟨["env.get_score"], [⟨"score", ⟨[.i64, .f64], [.f64]⟩⟩], true, 1⟩ := by
  have accepted : boost.validate 1 =
      .ok ⟨["env.get_score"], [⟨"score", ⟨[.i64, .f64], [.f64]⟩⟩], true, 1⟩ := by decide +kernel
  exact (validate_withKey (given_of_validate accepted) given 1).trans accepted

/-- A separator in the name does no harm. -/
theorem keys_read_back_separated :
    (boostAs ⟨"my@udf", "2.1"⟩).validate 1 =
      .ok ⟨["env.get_score"], [⟨"score", ⟨[.i64, .f64], [.f64]⟩⟩], true, 1⟩ ∧
    parse? "my@udf@2.1" = some ⟨"my@udf", "2.1"⟩ := by
  have given : Given ⟨"my@udf", "2.1"⟩ := ⟨by decide, by decide⟩
  have accepted := boostAs_accepted given
  exact ⟨accepted, ((keys_read_back _ 1).1 _ accepted).1.mpr (by decide)⟩

/-- Two modules are registered side by side whose keys have the same text, and only one of the
keys is read from it. -/
theorem not_always_read_back :
    let d := boostAs ⟨"a", "1@2"⟩
    let e := boostAs ⟨"a@1", "2"⟩
    (∃ shape, d.validate 1 = .ok shape ∧ e.validate 1 = .ok shape) ∧
    (Engine.unloaded.actAll [.register d 0, .register e 1]).registered.map Prod.fst =
      [d.key, e.key] ∧
    d.key ≠ e.key ∧ d.key.text = e.key.text ∧ parse? d.key.text = some e.key ∧
    ¬ ∀ (d : Descriptor) (pageLimit : Nat) (shape : ModuleShape),
      d.validate pageLimit = .ok shape → parse? d.key.text = some d.key := by
  intro d e
  have accepted : d.validate 1 = _ := boostAs_accepted ⟨by decide, by decide⟩
  have read : parse? d.key.text = some e.key :=
    parse?_eq_some.mpr ⟨rfl, by decide, by decide, by decide⟩
  have other : d.key ≠ e.key := by decide
  refine ⟨⟨_, accepted, boostAs_accepted ⟨by decide, by decide⟩⟩, by decide +kernel, other, rfl,
    read, fun always => other ?_⟩
  exact Option.some.inj ((always d 1 _ accepted).symm.trans read)

end Descriptor

end TieredUdf
