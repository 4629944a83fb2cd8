import TieredUdf.Proofs.Host.Lookups
import TieredUdf.Proofs.Host.Reading

/-! # What is counted as a field lookup

A guest looks a field up when it names a context that is there and a name that it can read at that
moment, whether or not the document has the field.  The context counts exactly these lookups, and
nothing else about any context changes.
-/

namespace TieredUdf

namespace Host

def Call.field? : Call → Option (Int64 × Range)
  | .getFieldF64 ctx name | .getFieldI64 ctx name | .getFieldBool ctx name | .hasField ctx name
  | .getFieldString ctx name _ => some (ctx, name)
  | .getScore _ | .getDocumentId .. | .getParamString .. | .log .. => none

theorem Call.lookup?_eq (call : Call) (memory : Option Guest.Memory) :
    call.lookup? memory = call.field?.bind fun f =>
      if (readName? memory f.2).isSome then some f.1 else none := by
  cases call <;> rfl

theorem Registry.names_iff {ctx : Int64} {id : Nat} : names ctx id ↔ ctx.toInt = id := by
  unfold names
  rw [Bool.and_eq_true, decide_eq_true_iff, beq_iff_eq]
  omega

end Host

namespace Guest.Dialogue

open Host (State Readable Registry)

variable {α : Type}

namespace Exchange

/-- A field is looked up under an identifier with a name that can be read. -/
def Reads (id : Nat) (x : Exchange) : Prop :=
  ∃ ctx name, x.call.field? = some (ctx, name) ∧ ctx.toInt = id ∧ Readable x.memory name

theorem looksUp_iff {id : Nat} {x : Exchange} : x.looksUp id ↔ x.Reads id := by
  unfold looksUp Reads
  rw [Host.Call.lookup?_eq]
  cases x.call.field? with
  | none => simp
  | some f =>
      obtain ⟨ctx, name⟩ := f
      by_cases readable : Readable x.memory name
      · have read := Host.isSome_readName?.mpr readable
        simp [read, readable, Registry.names_iff]
      · have refused := mt Host.isSome_readName?.mp readable
        simp only [Bool.not_eq_true] at refused
        simp [refused, readable]

instance (id : Nat) (x : Exchange) : Decidable (x.Reads id) := decidable_of_iff _ looksUp_iff

end Exchange

theorem lookups_eq (id : Nat) (s : State) (d : Dialogue α) :
    d.lookups id s = (d.transcript s).countP fun x => x.Reads id :=
  List.countP_congr fun _ _ => by rw [Exchange.looksUp_iff, decide_eq_true_iff]

/-- Whatever a guest asks the host, with whichever identifiers and arguments, and whatever it does
with its memory between: every registered context has afterwards counted as many lookups more as
the guest made field lookups under its identifier with names that it could read then, and nothing
else about any context has changed.  A single call counts for the context that it names, when it is
such a lookup, and for no other one. -/
theorem run_counts_reads (d : Dialogue α) (s : State) :
    (∀ id, (d.run s).1.contexts.get? id = (s.contexts.get? id).map
      (advance ((d.transcript s).countP fun x => x.Reads id))) ∧
    ∀ memory call id, (s.perform memory call).state.contexts.get? id = (s.contexts.get? id).map
      (advance (if Exchange.Reads id ⟨call, memory, s.answer memory call⟩ then 1 else 0)) := by
  refine ⟨fun id => ?_, fun memory call id => ?_⟩
  · rw [← lookups_eq]
    exact d.get?_run s id
  · rw [get?_perform s memory call (s.answer memory call) id]
    simp only [Exchange.looksUp_iff]

end Guest.Dialogue

end TieredUdf
