import Mathlib.Logic.Function.Defs
import TieredUdf.Module.Signature
import TieredUdf.Proofs.Attempts

/-! # Scalar signatures of function types

A function type has a scalar signature exactly when all its types are scalars, and the signature
determines the type.
-/

namespace TieredUdf

namespace Wasm

theorem ValType.scalar?_eq_some {t : ValType} {s : ScalarType} :
    t.scalar? = some s ↔ t = .ofScalar s := by
  cases t <;> cases s <;> simp [scalar?, ofScalar]

theorem ValType.ofScalar_injective : Function.Injective ofScalar := by
  intro s t h
  cases s <;> cases t <;> first | rfl | cases h

theorem ValType.mapM_scalar?_eq_some {ts : List ValType} {ss : List ScalarType} :
    ts.mapM scalar? = some ss ↔ ts = ss.map ofScalar := by
  induction ts generalizing ss with
  | nil => cases ss <;> simp
  | cons t ts ih =>
      rw [mapM_cons_eq_some]
      cases ss with
      | nil => simp
      | cons s ss => simp [scalar?_eq_some, ih]

def FuncType.ofSignature (s : Signature) : FuncType :=
  ⟨s.params.map .ofScalar, s.results.map .ofScalar⟩

theorem FuncType.signature?_eq_some {t : FuncType} {s : Signature} :
    t.signature? = some s ↔ t = .ofSignature s := by
  obtain ⟨params, results⟩ := t
  obtain ⟨ps, rs⟩ := s
  rw [FuncType.ofSignature, FuncType.mk.injEq, ← ValType.mapM_scalar?_eq_some,
    ← ValType.mapM_scalar?_eq_some]
  unfold signature?
  cases params.mapM ValType.scalar? <;> cases results.mapM ValType.scalar? <;> simp

end Wasm

end TieredUdf
