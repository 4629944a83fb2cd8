import TieredUdf.Guest.Dialogue
import TieredUdf.Proofs.Host.Answers

/-! # Guests that name only some contexts

A guest that names no contexts but some, whatever it is answered, learns nothing of the others:
hosts that answer alike under the identifiers it may name cannot be told apart by it.
-/

namespace TieredUdf.Guest.Dialogue

open Host (State Registry)

variable {α β : Type}

/-- A call of a host function with everything that is exchanged. -/
structure Exchange where
  call : Host.Call
  /-- The memory that the guest hands over. -/
  memory : Option Memory
  answer : Option Memory × List Scalar

/-- Everything that a guest and the host exchange, in order. -/
def transcript (host : State) : Dialogue α → List Exchange
  | .done _ => []
  | .ask call memory resume =>
      let answer := host.answer memory call
      ⟨call, memory, answer⟩ ::
        (resume answer.1 answer.2).transcript (host.perform memory call).state

/-- Whatever it is answered, the guest names no contexts but some. -/
def Confined (P : Int64 → Prop) : Dialogue α → Prop
  | .done _ => True
  | .ask call _ resume =>
      (∀ ctx, call.context? = some ctx → P ctx) ∧
        ∀ memory results, (resume memory results).Confined P

theorem confined_true (d : Dialogue α) : d.Confined fun _ => True := by
  induction d with
  | done result => trivial
  | ask call memory resume ih => exact ⟨fun _ _ => trivial, ih⟩

theorem Confined.mono {P Q : Int64 → Prop} {d : Dialogue α} (h : d.Confined P)
    (weaker : ∀ ctx, P ctx → Q ctx) : d.Confined Q := by
  induction d with
  | done result => trivial
  | ask call memory resume ih =>
      exact ⟨fun ctx named => weaker ctx (h.1 ctx named), fun m r => ih m r (h.2 m r)⟩

theorem run_map (f : α → β) (d : Dialogue α) (s : State) :
    (d.map f).run s = ((d.run s).1, f (d.run s).2) := by
  induction d generalizing s with
  | done result => rfl
  | ask call memory resume ih => exact ih _ _ _

theorem keeps_run (d : Dialogue α) (s : State) : s.contexts.Keeps (d.run s).1.contexts := by
  induction d generalizing s with
  | done result => exact .refl _
  | ask call memory resume ih => exact (s.keeps_perform memory call).trans (ih _ _ _)

/-- Hosts that answer alike under all identifiers that a guest may name cannot be told apart by
it: the guest receives the same answers and ends alike. -/
theorem run_alike {P : Int64 → Prop} {d : Dialogue α} (confined : d.Confined P) {s t : State}
    (alike : ∀ ctx, P ctx → State.AlikeAt ctx s t) :
    d.transcript s = d.transcript t ∧ (d.run s).2 = (d.run t).2 := by
  induction d generalizing s t with
  | done result => exact ⟨rfl, rfl⟩
  | ask call memory resume ih =>
      have same : s.answer memory call = t.answer memory call := by
        cases named : call.context? with
        | none => exact State.answer_unnamed named s t memory
        | some ctx => exact alike ctx (confined.1 ctx named) memory call named
      have after : ∀ ctx, P ctx →
          State.AlikeAt ctx (s.perform memory call).state (t.perform memory call).state :=
        fun ctx may => ((State.alikeAt_of_keeps (s.keeps_perform memory call) ctx).symm.trans
          (alike ctx may)).trans (State.alikeAt_of_keeps (t.keeps_perform memory call) ctx)
      obtain ⟨transcripts, ends⟩ := ih (s.answer memory call).1 (s.answer memory call).2
        (confined.2 _ _) after
      constructor
      · rw [transcript, transcript, transcripts, same]
      · refine ends.trans ?_
        rw [same]
        rfl

end TieredUdf.Guest.Dialogue
