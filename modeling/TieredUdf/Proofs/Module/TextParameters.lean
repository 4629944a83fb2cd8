import Mathlib.Algebra.Group.Nat.Defs
import Mathlib.Data.List.Nodup
import TieredUdf.Proofs.Host.Lookups
import TieredUdf.Proofs.Host.Reading
import TieredUdf.Proofs.Module.TypedCalls

/-! # Texts of a call

A text parameter is no argument of the entry point: its text is registered with the context of the
call, and the guest asks for it by name.  The names of an accepted descriptor are distinct, so that
the first text of a name is the only one, and nothing that happens at the host while the call runs
changes it.
-/

namespace TieredUdf

/-! ## Binding -/

namespace Param

/-- The text of a text parameter in a call: the one given, else the default, else the empty one. -/
def boundText (p : Param) (args : Arguments) : String :=
  match (args.get? p.name).or p.default with
  | some (.string s) => s
  | _ => ""

theorem absent_text {p : Param} (text : p.type = .string) {args : Arguments}
    (missing : args.get? p.name = none) : p.absent = .string (p.boundText args) := by
  rw [absent, boundText, missing, text]
  cases p.default with
  | none => rfl
  | some d => cases d <;> rfl

theorem bind_text {p : Param} (text : p.type = .string) {args : Arguments} {v : Value}
    (h : p.bind args = .ok v) : v = .string (p.boundText args) := by
  unfold bind at h
  cases given : args.get? p.name with
  | none =>
      rw [given] at h
      dsimp only at h
      split at h
      · cases h
      · cases h
        exact absent_text text given
  | some value =>
      rw [given, text] at h
      -- No other value widens to a text.
      cases value <;> cases h
      rw [boundText, given]
      rfl

end Param

namespace Descriptor

/-- The texts of a call are those of the text parameters, in the order of the declarations. -/
theorem bindParams_texts {args : Arguments} {params : List Param} {bound : BoundCall}
    (h : bindParams args params = .ok bound) :
    bound.texts = (params.filter fun p => p.type = .string).map fun p =>
      (p.name, p.boundText args) := by
  induction params generalizing bound with
  | nil =>
      cases h
      rfl
  | cons p params ih =>
      obtain ⟨v, hv, h⟩ := bind_eq_ok.mp h
      obtain ⟨more, hmore, h⟩ := bind_eq_ok.mp h
      cases h
      by_cases text : p.type = .string
      · rw [List.filter_cons_of_pos (by simpa using text), List.map_cons, ← ih hmore,
          Param.bind_text text hv]
        rfl
      · have type := Param.type_bind hv
        rw [List.filter_cons_of_neg (by simpa using text), ← ih hmore]
        cases v <;> first | rfl | exact absurd type.symm text

theorem bindParams_of_bind {d : Descriptor} {args : Arguments} {bound : BoundCall}
    (h : d.bind args = .ok bound) : bindParams args d.params = .ok bound := by
  unfold Descriptor.bind at h
  split at h
  · cases h
  · exact h

/-! ## Names -/

/-- Parameters that pass their check have names of their own. -/
theorem checkParams_names {seen : List String} {index : Nat} {params : List Param}
    (h : checkParams seen index params = .ok ()) :
    (params.map Param.name).Nodup ∧ ∀ p ∈ params, p.name ∉ seen := by
  induction params generalizing seen index with
  | nil => exact ⟨List.nodup_nil, nofun⟩
  | cons p params ih =>
      obtain ⟨new, _, rest⟩ := checkParams_cons h
      obtain ⟨distinct, apart⟩ := ih rest
      have other : p.name ∉ params.map Param.name := by
        intro again
        obtain ⟨q, hq, same⟩ := List.mem_map.mp again
        exact apart q hq (same ▸ List.mem_cons_self)
      refine ⟨List.nodup_cons.mpr ⟨other, distinct⟩, ?_⟩
      rw [List.forall_mem_cons]
      exact ⟨new, fun q hq old => apart q hq (List.mem_cons_of_mem _ old)⟩

/-- The parameters of an accepted descriptor have different names. -/
theorem names_of_validate {d : Descriptor} {limit : Nat} {shape : ModuleShape}
    (h : d.validate limit = .ok shape) : (d.params.map Param.name).Nodup := by
  obtain ⟨_, fields, _⟩ := bind_eq_ok.mp h
  exact (checkParams_names (checkFields_eq_ok fields).1).1

/-- A guest that asks for the text of a parameter finds the one that was bound for it, and the
context has a text of no other name. -/
theorem text?_of_bind {d : Descriptor} (distinct : (d.params.map Param.name).Nodup)
    {args : Arguments} {bound : BoundCall} (h : d.bind args = .ok bound) (document : Document) :
    (∀ p ∈ d.params, p.type = .string →
      (Host.CallContext.ofDocument document bound.texts).text? p.name =
        some (p.boundText args)) ∧
    ∀ name, (∀ p ∈ d.params, p.type = .string → p.name ≠ name) →
      (Host.CallContext.ofDocument document bound.texts).text? name = none := by
  have first : ∀ name, (Host.CallContext.ofDocument document bound.texts).text? name =
      (d.params.find? fun p => p.type = .string ∧ p.name = name).map fun p =>
        p.boundText args := by
    intro name
    unfold Host.CallContext.text? Host.CallContext.ofDocument
    dsimp only
    rw [bindParams_texts (bindParams_of_bind h), List.find?_map, List.find?_filter, Option.map_map]
    simp only [Function.comp_def, beq_iff_eq, decide_eq_true_eq]
  refine ⟨fun p declared text => ?_, fun name undeclared => ?_⟩
  · have found : d.params.find? (fun q => q.type = .string ∧ q.name = p.name) = some p := by
      cases hq : d.params.find? fun q => q.type = .string ∧ q.name = p.name with
      | none =>
          exact absurd (decide_eq_true ⟨text, rfl⟩) (List.find?_eq_none.mp hq p declared)
      | some q =>
          have named : q.type = .string ∧ q.name = p.name := by simpa using List.find?_some hq
          rw [List.inj_on_of_nodup_map distinct (List.mem_of_find?_eq_some hq) declared named.2]
    rw [first, found, Option.map_some]
  · have missing : d.params.find? (fun q => q.type = .string ∧ q.name = name) = none := by
      rw [List.find?_eq_none]
      intro q declared named
      have named := of_decide_eq_true named
      exact undeclared q declared named.1 named.2
    rw [first, missing, Option.map_none]

end Descriptor

/-! ## While a call runs -/

namespace Host

theorem Registry.get?_remove_other (r : Registry) {id other : Nat} (h : other ≠ id) :
    (r.remove id).get? other = r.get? other := by
  unfold get? remove
  rw [List.find?_filter]
  congr 2
  funext e
  rw [Bool.eq_iff_iff, decide_eq_true_iff, bne_iff_ne, beq_iff_eq]
  exact ⟨And.right, fun same => ⟨same ▸ h, same⟩⟩

namespace State

inductive Event where
  /-- A guest asks the host, with whichever memory it has then. -/
  | ask (memory : Option Guest.Memory) (call : Call)
  /-- A call begins and registers what its guest may see. -/
  | enter (c : CallContext)
  /-- The call of an identifier ends. -/
  | leave (id : Nat)

def step (s : State) : Event → State
  | .ask memory call => (s.perform memory call).state
  | .enter c => s.withContext c
  | .leave id => { s with contexts := s.contexts.remove id }

def run (s : State) (events : List Event) : State := events.foldl step s

theorem numbered_step {s : State} (h : s.contexts.Numbered) (event : Event) :
    (s.step event).contexts.Numbered := by
  cases event with
  | ask memory call => exact h.undisturbed (s.undisturbed_perform memory call)
  | enter c =>
      intro e he
      rcases List.mem_append.mp he with old | new
      · exact Nat.lt_succ_of_lt (h e old)
      · rw [List.mem_singleton.mp new]
        exact Nat.lt_succ_self _
  | leave id => exact fun e he => h e (List.mem_filter.mp he).1

theorem numbered_run {s : State} (h : s.contexts.Numbered) (events : List Event) :
    (s.run events).contexts.Numbered := by
  induction events generalizing s with
  | nil => exact h
  | cons event events ih => exact ih (numbered_step h event)

/-- What is registered under an identifier, as far as a guest can see it. -/
def Shows (s : State) (id : Nat) (c : CallContext) : Prop :=
  (s.contexts.get? id).map CallContext.view = some c.view

theorem shows_withContext {s : State} (h : s.contexts.Numbered) (c : CallContext) :
    (s.withContext c).Shows s.contexts.nextId c := by
  unfold Shows withContext
  rw [Registry.get?_register, h.fresh (Nat.le_refl _), if_pos rfl]
  rfl

/-- What a guest can see stays until its own call ends. -/
theorem Shows.step {s : State} {id : Nat} {c : CallContext} (h : s.Shows id c) {event : Event}
    (stays : event ≠ .leave id) : (s.step event).Shows id c := by
  cases event with
  | ask memory call => exact ((s.keeps_perform memory call).views id).trans h
  | enter other =>
      obtain ⟨own, found, _⟩ := Option.map_eq_some_iff.mp h
      unfold Shows State.step withContext
      rw [Registry.get?_register, found, Option.some_or, ← found]
      exact h
  | leave other =>
      have apart : id ≠ other := fun same => stays (congrArg Event.leave same.symm)
      unfold Shows State.step
      rw [Registry.get?_remove_other _ apart]
      exact h

theorem Shows.run {s : State} {id : Nat} {c : CallContext} (h : s.Shows id c)
    {events : List Event} (stays : .leave id ∉ events) : (s.run events).Shows id c := by
  induction events generalizing s with
  | nil => exact h
  | cons event events ih =>
      obtain ⟨first, rest⟩ := List.ne_and_not_mem_of_not_mem_cons stays
      exact ih (h.step first.symm) rest

/-- The text of a name that a guest finds under the identifier that it was given. -/
theorem Shows.text? {s : State} {id : Nat} {c : CallContext} (h : s.Shows id c)
    (fits : id < 2 ^ 63) (name : String) :
    ((s.contexts.resolve? (Registry.guestId id)).bind fun c => c.text? name) = c.text? name := by
  have positive : (Registry.guestId id).toInt = id := Int64.toInt_ofNat_of_lt fits
  have seen : s.contexts.view? (Registry.guestId id) = some c.view := by
    unfold Registry.view? Registry.resolve?
    rw [if_neg (by omega), positive, Int.toNat_natCast]
    exact h
  rw [Registry.resolve?_text, seen]
  rfl

theorem perform_getParamString (s : State) {memory : Option Guest.Memory} {name : Range}
    {n : String} (stands : TextAt memory name.ptr.toInt name.len.toInt n)
    (short : name.len.toInt ≤ 1024) (ctx : Int64) (out : Range) :
    s.perform memory (.getParamString ctx name out) =
      s.answerText memory ((s.contexts.resolve? ctx).bind fun c => c.text? n) out := by
  unfold perform
  dsimp only
  rw [readName?_eq_some.mpr ⟨stands, short⟩]

end State

end Host

/-! ## Asking for a text -/

namespace Descriptor

open Guest (Memory)
open Host (Range State TextAt)

/-- Each text of a call arrives as it was bound.  While the call runs, whatever it and other calls
have asked and will ask and however many begin and end: a guest that asks for a text parameter, with
its name anywhere in its memory and room for the text anywhere else or in the same place, is told
the length of the text and finds the bytes of the text there.  For any other name there is no
text. -/
theorem texts_arrive {d : Descriptor} {limit : Nat} {shape : ModuleShape}
    (accepted : d.validate limit = .ok shape) {args : Arguments} {bound : BoundCall}
    (binds : d.bind args = .ok bound) (document : Document) (before after : List State.Event)
    (fits : (State.empty.run before).contexts.nextId < 2 ^ 63)
    (runs : .leave (State.empty.run before).contexts.nextId ∉ after) :
    let host := State.empty.run before
    let now := (host.withContext (.ofDocument document bound.texts)).run after
    let ctx := Host.Registry.guestId host.contexts.nextId
    (∀ p ∈ d.params, p.type = .string → p.name.utf8ByteSize ≤ 1024 →
      ∀ (m : Memory) (name out : Range), TextAt (some m) name.ptr.toInt name.len.toInt p.name →
        out.Takes m (p.boundText args) →
        ∃ left n, now.answer (some m) (.getParamString ctx name out) = (some left, [.i32 n]) ∧
          n.toInt = (p.boundText args).utf8ByteSize ∧ out.Written m left (p.boundText args)) ∧
    ∀ (memory : Option Memory) (name out : Range) (n : String),
      TextAt memory name.ptr.toInt name.len.toInt n → name.len.toInt ≤ 1024 →
      (∀ p ∈ d.params, p.type = .string → p.name ≠ n) →
      now.answer memory (.getParamString ctx name out) = (memory, [.i32 (-1)]) := by
  intro host now ctx
  have numbered : host.contexts.Numbered := State.numbered_run Host.Registry.numbered_empty before
  have shows := (State.shows_withContext numbered (.ofDocument document bound.texts)).run runs
  obtain ⟨declared, undeclared⟩ := text?_of_bind (names_of_validate accepted) binds document
  refine ⟨fun p hp text short m name out stands takes => ?_,
    fun memory name out n stands short other => ?_⟩
  · have performed := State.perform_getParamString now stands (stands.len_eq ▸ by omega) ctx out
    rw [shows.text? fits, declared p hp text] at performed
    obtain ⟨left, n, answer, length, written⟩ := takes.answerText now
    refine ⟨left, n, ?_, length, written⟩
    rw [State.answer, performed, answer]
  · have performed := State.perform_getParamString now stands short ctx out
    rw [shows.text? fits, undeclared n other] at performed
    rw [State.answer, performed]
    rfl

def boostIn : Descriptor :=
  { boost with params :=
      [⟨"lang", .string, false, some (.string "en")⟩, ⟨"boost", .f64, true, none⟩] }

def namingMemory : Memory := ⟨64, "langboost".toUTF8⟩

/-- A host at which a call of that module runs without a text, between others. -/
def boostHost : State :=
  ((State.empty.run [.enter default]).withContext
    (.ofDocument (.bare "d" .zero) [("lang", "en")])).run
      [.leave 1, .enter default, .ask (some namingMemory) (.getParamString 2 ⟨0, 4⟩ ⟨2, 8⟩)]

theorem texts_arrive_lang :
    (boostIn.validate 1).isOk ∧
    boostIn.bind [("boost", .f64 .zero)] = .ok ⟨[.f64 .zero], [("lang", "en")]⟩ ∧
    (∃ left n, boostHost.answer (some namingMemory) (.getParamString 2 ⟨0, 4⟩ ⟨2, 8⟩) =
        (some left, [.i32 n]) ∧ n.toInt = 2 ∧ Range.Written ⟨2, 8⟩ namingMemory left "en") ∧
    boostHost.answer (some namingMemory) (.getParamString 2 ⟨4, 5⟩ ⟨2, 8⟩) =
      (some namingMemory, [.i32 (-1)]) := by
  have accepted : boostIn.validate 1 =
      .ok ⟨["env.get_score"], [⟨"score", ⟨[.i64, .f64], [.f64]⟩⟩], true, 1⟩ := by decide +kernel
  have binds : boostIn.bind [("boost", .f64 .zero)] =
      .ok ⟨[.f64 .zero], [("lang", "en")]⟩ := by decide +kernel
  have arrive := texts_arrive accepted binds (.bare "d" .zero) [.enter default]
    [.leave 1, .enter default, .ask (some namingMemory) (.getParamString 2 ⟨0, 4⟩ ⟨2, 8⟩)]
    (by decide) (by simp [State.run, State.step, State.withContext, Host.Registry.register,
      State.empty, Host.Registry.empty])
  have lang : TextAt (some namingMemory) 0 4 "lang" :=
    ⟨by decide, by decide, namingMemory, rfl, by decide, by decide +kernel⟩
  have boost : TextAt (some namingMemory) 4 5 "boost" :=
    ⟨by decide, by decide, namingMemory, rfl, by decide, by decide +kernel⟩
  refine ⟨by rw [accepted]; rfl, binds, ?_, ?_⟩
  · exact arrive.1 ⟨"lang", .string, false, some (.string "en")⟩ List.mem_cons_self rfl
      (by decide +kernel) namingMemory ⟨0, 4⟩ ⟨2, 8⟩ lang ⟨by decide, by decide, by decide +kernel⟩
  · exact arrive.2 (some namingMemory) ⟨4, 5⟩ ⟨2, 8⟩ "boost" boost (by decide) (by decide)

end Descriptor

end TieredUdf
