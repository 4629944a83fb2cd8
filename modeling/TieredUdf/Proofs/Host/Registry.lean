import Mathlib.Data.Option.Basic
import TieredUdf.Host.Registry

/-! # Laws of the registry of contexts

What each operation does to the context that an identifier stands for, and what it leaves of
everything that a guest can see.
-/

namespace TieredUdf.Host

/-- What a guest can see of a context: everything but the number of lookups. -/
def CallContext.view (c : CallContext) : Document × List (String × String) :=
  (c.document, c.texts)

namespace Registry

/-! ## Identifiers of guests -/

theorem guestId_toNat {ctx : Int64} (h : 0 ≤ ctx.toInt) : guestId ctx.toInt.toNat = ctx := by
  unfold guestId
  rw [← Int64.ofInt_eq_ofNat, Int.toNat_of_nonneg h, Int64.ofInt_toInt]

/-- The counter has 64 bits; an identifier that does not fit the guest's type is negative there. -/
theorem toNat_guestId {id : Nat} (small : id < UInt64.size) (h : 0 ≤ (guestId id).toInt) :
    (guestId id).toInt.toNat = id := by
  have wrapped : (guestId id).toInt = (id : Int).bmod UInt64.size := Int64.toInt_ofNat'
  rw [wrapped] at h ⊢
  rw [Int.bmod_def] at h ⊢
  unfold UInt64.size at small h ⊢
  split at h <;> omega

/-! ## Contexts by identifier -/

theorem get?_register (r : Registry) (c : CallContext) (id : Nat) :
    (r.register c).1.get? id = (r.get? id).or (if r.nextId = id then some c else none) := by
  unfold get? register
  rw [List.find?_append, Option.map_or]
  by_cases h : r.nextId = id <;> simp [h]

theorem get?_modify (r : Registry) (id other : Nat) (f : CallContext → CallContext) :
    (r.modify id f).get? other = if other = id then (r.get? other).map f else r.get? other := by
  unfold get? modify
  dsimp only
  induction r.entries with
  | nil => simp
  | cons e entries ih =>
      have same : (if e.1 = id then (e.1, f e.2) else e).1 = e.1 := by split <;> rfl
      rw [List.map_cons, List.find?_cons, List.find?_cons, same]
      cases found : e.1 == other with
      | false => exact ih
      | true =>
          rw [beq_iff_eq] at found
          subst found
          by_cases h : e.1 = id <;> simp [h]

/-! ## What guests can see -/

/-- What a guest can see under an identifier that it gives. -/
def view? (r : Registry) (ctx : Int64) : Option (Document × List (String × String)) :=
  (r.resolve? ctx).map CallContext.view

theorem resolve?_documentId (r : Registry) (ctx : Int64) :
    ((r.resolve? ctx).map fun c => c.document.id) = (r.view? ctx).map fun v => v.1.id := by
  unfold view?
  cases r.resolve? ctx <;> rfl

theorem resolve?_text (r : Registry) (ctx : Int64) (name : String) :
    ((r.resolve? ctx).bind fun c => c.text? name) =
      (r.view? ctx).bind fun v => (v.2.find? fun t => t.1 == name).map Prod.snd := by
  unfold view?
  cases r.resolve? ctx <;> rfl

/-- Nothing that a guest could see has changed, nor has the next identifier. -/
structure Keeps (r q : Registry) : Prop where
  nextId : q.nextId = r.nextId
  views : ∀ id, (q.get? id).map CallContext.view = (r.get? id).map CallContext.view

theorem Keeps.refl (r : Registry) : r.Keeps r := ⟨rfl, fun _ => rfl⟩

theorem Keeps.trans {r q p : Registry} (h : r.Keeps q) (k : q.Keeps p) : r.Keeps p :=
  ⟨k.nextId.trans h.nextId, fun id => (k.views id).trans (h.views id)⟩

theorem Keeps.get?_eq_none {r q : Registry} (h : r.Keeps q) {id : Nat}
    (missing : r.get? id = none) : q.get? id = none := by
  have same := h.views id
  rw [missing] at same
  exact Option.map_eq_none_iff.mp same

theorem Keeps.view? {r q : Registry} (h : r.Keeps q) (ctx : Int64) :
    q.view? ctx = r.view? ctx := by
  unfold Registry.view? resolve?
  split
  · rfl
  · exact h.views _

theorem keeps_countRead (r : Registry) (ctx : Int64) : r.Keeps (r.countRead ctx) := by
  unfold countRead
  split
  · exact .refl r
  · refine ⟨rfl, fun id => ?_⟩
    rw [get?_modify]
    split
    · rw [Option.map_map]
      rfl
    · rfl

/-- A registration shows the new context under its own identifier and nothing else anywhere. -/
theorem view?_register {r : Registry} (fresh : r.get? r.nextId = none) (c : CallContext)
    (ctx : Int64) :
    (r.register c).1.view? ctx =
      if 0 ≤ ctx.toInt ∧ ctx.toInt.toNat = r.nextId then some c.view else r.view? ctx := by
  unfold view? resolve?
  by_cases negative : ctx.toInt < 0
  · simp [negative]
  · rw [if_neg negative, if_neg negative, get?_register]
    by_cases own : ctx.toInt.toNat = r.nextId
    · rw [own, fresh, if_pos rfl, if_pos ⟨by omega, rfl⟩]
      rfl
    · rw [if_neg fun e => own e.symm, if_neg fun h => own h.2, Option.or_none]

theorem view?_register_other {r : Registry} (c : CallContext) {ctx : Int64}
    (other : ctx ≠ guestId r.nextId) : (r.register c).1.view? ctx = r.view? ctx := by
  unfold view? resolve?
  by_cases negative : ctx.toInt < 0
  · simp [negative]
  · rw [if_neg negative, if_neg negative, get?_register]
    have own : r.nextId ≠ ctx.toInt.toNat := fun e => other (by
      rw [e, guestId_toNat (by omega)])
    rw [if_neg own, Option.or_none]

end Registry

end TieredUdf.Host
