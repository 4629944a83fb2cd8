import TieredUdf.Host.Call
import TieredUdf.Proofs.Host.Registry

/-! # What the host answers

The answer to a call depends on nothing but the guest's memory and what can be seen under the
one identifier that the call names.  Whether that identifier belongs to the caller plays no part.
-/

namespace TieredUdf.Host

/-- The identifier that a call names; writing a log line names none. -/
def Call.context? : Call → Option Int64
  | .getScore ctx | .getFieldF64 ctx _ | .getFieldI64 ctx _ | .getFieldBool ctx _
  | .hasField ctx _ | .getFieldString ctx _ _ | .getDocumentId ctx _
  | .getParamString ctx _ _ => some ctx
  | .log .. => none

namespace State

/-! ## What a call changes -/

theorem keeps_lookup (s : State) (ctx : Int64) (path : String) :
    s.contexts.Keeps (s.lookup ctx path).1.contexts := by
  unfold lookup
  split
  · exact .refl _
  · exact s.contexts.keeps_countRead ctx

theorem keeps_lookupAt (s : State) (memory : Option Guest.Memory) (ctx : Int64) (name : Range) :
    s.contexts.Keeps (s.lookupAt memory ctx name).1.contexts := by
  unfold lookupAt
  split
  · exact .refl _
  · exact s.keeps_lookup ctx _

theorem answerText_state (s : State) (memory : Option Guest.Memory) (text : Option String)
    (out : Range) : (s.answerText memory text out).state = s := by
  unfold answerText
  split
  · rfl
  · split <;> rfl

theorem log_contexts (s : State) (memory : Option Guest.Memory) (level : Int32) (text : Range) :
    (s.log memory level text).contexts = s.contexts := by
  unfold log
  split <;> rfl

/-- A call changes nothing that any guest can see. -/
theorem keeps_perform (s : State) (memory : Option Guest.Memory) (call : Call) :
    s.contexts.Keeps (s.perform memory call).state.contexts := by
  cases call with
  | getScore ctx => exact .refl _
  | getFieldF64 ctx name | getFieldI64 ctx name | getFieldBool ctx name | hasField ctx name =>
      exact s.keeps_lookupAt memory ctx name
  | getFieldString ctx name out =>
      unfold perform
      dsimp only
      split
      · exact .refl _
      · rw [answerText_state]
        exact s.keeps_lookup ctx _
  | getDocumentId ctx out =>
      rw [perform, answerText_state]
      exact .refl _
  | getParamString ctx name out =>
      unfold perform
      dsimp only
      split
      · exact .refl _
      · rw [answerText_state]
        exact .refl _
  | log level text =>
      rw [perform, log_contexts]
      exact .refl _

/-! ## What a call is answered -/

/-- What a call gives back to the guest: the memory as it is left and the results. -/
def answer (s : State) (memory : Option Guest.Memory) (call : Call) :
    Option Guest.Memory × List Scalar :=
  ((s.perform memory call).memory, (s.perform memory call).results)

/-- Two hosts answer every call alike that names a given context. -/
def AlikeAt (ctx : Int64) (s t : State) : Prop :=
  ∀ memory call, call.context? = some ctx → s.answer memory call = t.answer memory call

theorem AlikeAt.symm {ctx : Int64} {s t : State} (h : AlikeAt ctx s t) : AlikeAt ctx t s :=
  fun memory call named => (h memory call named).symm

theorem AlikeAt.trans {ctx : Int64} {s t u : State} (h : AlikeAt ctx s t) (k : AlikeAt ctx t u) :
    AlikeAt ctx s u :=
  fun memory call named => (h memory call named).trans (k memory call named)

/-- A call that names no context is answered by nothing. -/
theorem answer_unnamed {call : Call} (h : call.context? = none) (s t : State)
    (memory : Option Guest.Memory) : s.answer memory call = t.answer memory call := by
  cases call <;> first | rfl | cases h

theorem lookup_field (s : State) (ctx : Int64) (path : String) :
    (s.lookup ctx path).2 = (s.contexts.view? ctx).bind fun v => v.1.field? path := by
  unfold lookup Registry.view?
  cases s.contexts.resolve? ctx <;> rfl

theorem lookupAt_field (s : State) (memory : Option Guest.Memory) (ctx : Int64) (name : Range) :
    (s.lookupAt memory ctx name).2 = (readName? memory name).bind fun path =>
      (s.contexts.view? ctx).bind fun v => v.1.field? path := by
  unfold lookupAt
  cases readName? memory name with
  | none => rfl
  | some path => exact s.lookup_field ctx path

def scoreAt (s : State) (ctx : Int64) : Numeric.Double :=
  ((s.contexts.view? ctx).map fun v => v.1.score).getD .zero

theorem answer_getScore (s : State) (memory : Option Guest.Memory) (ctx : Int64) :
    s.answer memory (.getScore ctx) = (memory, [.f64 (s.scoreAt ctx)]) := by
  cases found : s.contexts.resolve? ctx <;>
    simp [answer, perform, scoreAt, Registry.view?, CallContext.view, found]

/-- How a text is handed out does not depend on the host. -/
theorem answerText_answer (s t : State) (memory : Option Guest.Memory) (text : Option String)
    (out : Range) :
    ((s.answerText memory text out).memory, (s.answerText memory text out).results) =
      ((t.answerText memory text out).memory, (t.answerText memory text out).results) := by
  unfold answerText
  split
  · rfl
  · split <;> rfl

/-- Hosts under whose identifier the same can be seen answer alike there. -/
theorem alikeAt_of_view {ctx : Int64} {s t : State}
    (same : s.contexts.view? ctx = t.contexts.view? ctx) : AlikeAt ctx s t := by
  intro memory call named
  cases call with
  | getScore _ =>
      cases named
      rw [answer_getScore, answer_getScore, scoreAt, same, scoreAt]
  | getFieldF64 _ name | getFieldI64 _ name | getFieldBool _ name | hasField _ name =>
      cases named
      simp only [answer, perform, lookupAt_field, same]
  | getFieldString _ name out =>
      cases named
      unfold answer perform
      dsimp only
      cases readName? memory name with
      | none => rfl
      | some path =>
          simp only [lookup_field, same]
          exact answerText_answer _ _ memory _ out
  | getDocumentId _ out =>
      cases named
      simp only [answer, perform, Registry.resolve?_documentId, same]
      exact answerText_answer s t memory _ out
  | getParamString _ name out =>
      cases named
      unfold answer perform
      dsimp only
      cases readName? memory name with
      | none => rfl
      | some n =>
          simp only [Registry.resolve?_text, same]
          exact answerText_answer s t memory _ out
  | log level text => cases named

/-- What a host has answered once it answers again. -/
theorem alikeAt_of_keeps {s t : State} (h : s.contexts.Keeps t.contexts) (ctx : Int64) :
    AlikeAt ctx s t :=
  alikeAt_of_view (h.view? ctx).symm

/-- A guest finds out whether a context is there, even without a memory: only a missing context
has no identifier to hand out. -/
theorem answer_missing (s : State) (ctx : Int64) :
    (s.answer none (.getDocumentId ctx ⟨0, 0⟩)).2 = [.i32 (-1)] ↔
      s.contexts.resolve? ctx = none := by
  unfold answer perform
  dsimp only
  cases s.contexts.resolve? ctx with
  | none => exact ⟨fun _ => rfl, fun _ => rfl⟩
  | some c =>
      have refused : copyOut none c.document.id ⟨0, 0⟩ = .error .tooSmall ∨
          copyOut none c.document.id ⟨0, 0⟩ = .error .memoryFault := by
        unfold copyOut
        dsimp only
        rw [if_neg (by decide)]
        split
        · exact Or.inl rfl
        · exact Or.inr rfl
      rcases refused with h | h <;> simp [answerText, fail, h, Failure.status]

theorem AlikeAt.isSome_eq {ctx : Int64} {s t : State} (h : AlikeAt ctx s t) :
    (s.contexts.resolve? ctx).isSome = (t.contexts.resolve? ctx).isSome := by
  have asked := congrArg Prod.snd (h none (.getDocumentId ctx ⟨0, 0⟩) rfl)
  have missing : s.contexts.resolve? ctx = none ↔ t.contexts.resolve? ctx = none := by
    rw [← answer_missing, ← answer_missing, asked]
  rw [Bool.eq_iff_iff, Option.isSome_iff_ne_none, Option.isSome_iff_ne_none, not_iff_not]
  exact missing

theorem AlikeAt.scoreAt_eq {ctx : Int64} {s t : State} (h : AlikeAt ctx s t) :
    s.scoreAt ctx = t.scoreAt ctx := by
  have asked := h none (.getScore ctx) rfl
  rw [answer_getScore, answer_getScore] at asked
  simpa using asked

/-! ## Registrations -/

def withContext (s : State) (c : CallContext) : State :=
  { s with contexts := (s.contexts.register c).1 }

/-- Hosts that are alike under an identifier stay so when both register the same context under
the same fresh identifier. -/
theorem AlikeAt.withContext {ctx : Int64} {s t : State} (h : AlikeAt ctx s t)
    (next : s.contexts.nextId = t.contexts.nextId)
    (freshLeft : s.contexts.get? s.contexts.nextId = none)
    (freshRight : t.contexts.get? t.contexts.nextId = none) (c : CallContext) :
    AlikeAt ctx (s.withContext c) (t.withContext c) := by
  have left := Registry.view?_register freshLeft c ctx
  have right := Registry.view?_register freshRight c ctx
  by_cases own : 0 ≤ ctx.toInt ∧ ctx.toInt.toNat = s.contexts.nextId
  · rw [if_pos own] at left
    rw [← next, if_pos own] at right
    exact alikeAt_of_view (left.trans right.symm)
  · rw [if_neg own] at left
    rw [← next, if_neg own] at right
    exact (alikeAt_of_view left).trans (h.trans (alikeAt_of_view right.symm))

/-- The identifier of the next registration is one that nothing can be seen under. -/
theorem alikeAt_next {s t : State} (next : s.contexts.nextId = t.contexts.nextId)
    (small : s.contexts.nextId < UInt64.size)
    (freshLeft : s.contexts.get? s.contexts.nextId = none)
    (freshRight : t.contexts.get? t.contexts.nextId = none) :
    AlikeAt (Registry.guestId s.contexts.nextId) s t := by
  apply alikeAt_of_view
  unfold Registry.view? Registry.resolve?
  split
  · rfl
  · rw [Registry.toNat_guestId small (by omega), freshLeft, next, freshRight]

end State

end TieredUdf.Host
