import TieredUdf.Proofs.Guest.Confinement

/-! # Field lookups and what they are counted for

A host call changes the registry of contexts in one way only: a field lookup with a readable name
is counted for the context that it names, if that context is there.  Who makes the call plays no
part.  The contexts themselves, with all that can be seen under them, stay as they are.
-/

namespace TieredUdf.Host

/-- The identifier under which a call looks a field up, if the name of the field can be read. -/
def Call.lookup? (memory : Option Guest.Memory) : Call → Option Int64
  | .getFieldF64 ctx name | .getFieldI64 ctx name | .getFieldBool ctx name | .hasField ctx name
  | .getFieldString ctx name _ => if (readName? memory name).isSome then some ctx else none
  | _ => none

namespace Registry

/-! ## The registered contexts -/

/-- Every registered identifier with what a guest can see under it. -/
def listing (r : Registry) : List (Nat × (Document × List (String × String))) :=
  r.entries.map fun e => (e.1, e.2.view)

def names (ctx : Int64) (id : Nat) : Bool := decide (0 ≤ ctx.toInt) && ctx.toInt.toNat == id

/-- Every identifier in use has been given out. -/
def Numbered (r : Registry) : Prop := ∀ e ∈ r.entries, e.1 < r.nextId

/-- The same contexts are registered, and no identifier was taken back. -/
structure Undisturbed (r q : Registry) : Prop where
  nextId : r.nextId ≤ q.nextId
  listing : q.listing = r.listing

theorem numbered_empty : empty.Numbered := nofun

theorem mem_listing {r : Registry} {e : Nat × CallContext} (h : e ∈ r.entries) :
    (e.1, e.2.view) ∈ r.listing := List.mem_map_of_mem h

theorem Undisturbed.refl (r : Registry) : r.Undisturbed r := ⟨Nat.le_refl _, rfl⟩

theorem Undisturbed.trans {r q p : Registry} (h : r.Undisturbed q) (k : q.Undisturbed p) :
    r.Undisturbed p :=
  ⟨Nat.le_trans h.nextId k.nextId, k.listing.trans h.listing⟩

theorem Numbered.undisturbed {r q : Registry} (h : r.Numbered) (same : r.Undisturbed q) :
    q.Numbered := by
  intro e he
  have seen := mem_listing he
  rw [same.listing] at seen
  obtain ⟨old, hold, eq⟩ := List.mem_map.mp seen
  have number : old.1 = e.1 := (Prod.mk.inj eq).1
  have := h old hold
  have := same.nextId
  omega

theorem Numbered.fresh {r : Registry} (h : r.Numbered) {id : Nat} (late : r.nextId ≤ id) :
    r.get? id = none := by
  have missing : r.entries.find? (fun e => e.1 == id) = none := by
    rw [List.find?_eq_none]
    intro e he found
    have := h e he
    have : e.1 = id := by simpa using found
    omega
  rw [get?, missing]
  rfl

theorem get?_remove (r : Registry) (id : Nat) : (r.remove id).get? id = none := by
  have missing : (r.remove id).entries.find? (fun e => e.1 == id) = none := by
    rw [List.find?_eq_none]
    intro e he
    simpa using (List.mem_filter.mp he).2
  rw [get?, missing]
  rfl

/-! ## Counting -/

theorem modify_missing {r : Registry} {id : Nat} (h : r.get? id = none)
    (f : CallContext → CallContext) : r.modify id f = r := by
  have absent : ∀ e ∈ r.entries, e.1 ≠ id := by
    rw [get?, Option.map_eq_none_iff, List.find?_eq_none] at h
    intro e he
    simpa using h e he
  have same : r.entries.map (fun e => if e.1 = id then (e.1, f e.2) else e) = r.entries :=
    (List.map_congr_left fun e he => if_neg (absent e he)).trans (List.map_id' r.entries)
  rw [modify, same]

theorem undisturbed_countRead (r : Registry) (ctx : Int64) : r.Undisturbed (r.countRead ctx) := by
  unfold countRead
  split
  · exact .refl r
  · refine ⟨Nat.le_refl _, ?_⟩
    unfold listing modify
    rw [List.map_map]
    refine List.map_congr_left fun e _ => ?_
    dsimp only [Function.comp]
    split <;> rfl

theorem get?_countRead (r : Registry) (ctx : Int64) (id : Nat) :
    (r.countRead ctx).get? id =
      if names ctx id then (r.get? id).map CallContext.countRead else r.get? id := by
  unfold countRead names
  by_cases negative : ctx.toInt < 0
  · rw [if_pos negative, decide_eq_false (by omega), Bool.false_and, if_neg (by simp)]
  · rw [if_neg negative, decide_eq_true (by omega), Bool.true_and, get?_modify]
    by_cases own : ctx.toInt.toNat = id
    · simp [own]
    · rw [if_neg fun e => own e.symm, if_neg (by simpa using own)]

/-! ## Beginning and end of a registration -/

theorem undisturbed_remove_register {r q : Registry} (h : r.Numbered) (c : CallContext)
    (same : (r.register c).1.Undisturbed q) :
    r.Undisturbed (q.remove r.nextId) := by
  refine ⟨Nat.le_of_succ_le same.nextId, ?_⟩
  have kept : (q.remove r.nextId).listing = q.listing.filter fun v => v.1 != r.nextId := by
    rw [listing, listing, List.filter_map]
    rfl
  have begun : (r.register c).1.listing = r.listing ++ [(r.nextId, c.view)] := by
    simp [listing, register]
  have others : r.listing.filter (fun v => v.1 != r.nextId) = r.listing := by
    rw [List.filter_eq_self]
    intro v hv
    obtain ⟨e, he, rfl⟩ := List.mem_map.mp hv
    have := h e he
    simp only [bne_iff_ne, ne_eq]
    omega
  rw [kept, same.listing, begun, List.filter_append, others]
  simp

end Registry

namespace State

/-! ## What a call counts -/

theorem lookup_contexts (s : State) (ctx : Int64) (path : String) :
    (s.lookup ctx path).1.contexts = s.contexts.countRead ctx := by
  unfold lookup
  split
  · rename_i missing
    unfold Registry.countRead
    split
    · rfl
    · rename_i sign
      rw [Registry.resolve?, if_neg sign] at missing
      exact (Registry.modify_missing missing _).symm
  · rfl

theorem lookupAt_contexts (s : State) (memory : Option Guest.Memory) (ctx : Int64)
    (name : Range) :
    (s.lookupAt memory ctx name).1.contexts =
      ((if (readName? memory name).isSome then some ctx else none).map
        s.contexts.countRead).getD s.contexts := by
  unfold lookupAt
  cases readName? memory name with
  | none => rfl
  | some path => exact s.lookup_contexts ctx path

/-- The registry after a call: a lookup is counted for the context that it names. -/
theorem perform_contexts (s : State) (memory : Option Guest.Memory) (call : Call) :
    (s.perform memory call).state.contexts =
      ((call.lookup? memory).map s.contexts.countRead).getD s.contexts := by
  cases call with
  | getScore ctx => rfl
  | getFieldF64 ctx name | getFieldI64 ctx name | getFieldBool ctx name | hasField ctx name =>
      exact s.lookupAt_contexts memory ctx name
  | getFieldString ctx name out =>
      unfold perform Call.lookup?
      dsimp only
      cases readName? memory name with
      | none => rfl
      | some path =>
          dsimp only
          rw [answerText_state]
          exact s.lookup_contexts ctx path
  | getDocumentId ctx out =>
      rw [perform, answerText_state]
      rfl
  | getParamString ctx name out =>
      unfold perform Call.lookup?
      dsimp only
      cases readName? memory name with
      | none => rfl
      | some path =>
          dsimp only
          rw [answerText_state]
          rfl
  | log level text =>
      rw [perform, log_contexts]
      rfl

theorem undisturbed_perform (s : State) (memory : Option Guest.Memory) (call : Call) :
    s.contexts.Undisturbed (s.perform memory call).state.contexts := by
  rw [perform_contexts]
  cases call.lookup? memory with
  | none => exact .refl _
  | some ctx => exact s.contexts.undisturbed_countRead ctx

end State

end TieredUdf.Host

namespace TieredUdf.Guest.Dialogue

open Host (State Registry)

variable {α : Type}

/-- Whether a call looks a field up under the identifier of a context. -/
def Exchange.looksUp (id : Nat) (x : Exchange) : Bool :=
  (x.call.lookup? x.memory).any fun ctx => Registry.names ctx id

/-- How often a guest looks a field up under the identifier of a context. -/
def lookups (id : Nat) (host : State) (d : Dialogue α) : Nat :=
  (d.transcript host).countP (Exchange.looksUp id)

/-- The context of an identifier after so many more lookups. -/
def advance (n : Nat) (c : Host.CallContext) : Host.CallContext :=
  { c with fieldReads := c.fieldReads + n }

theorem map_advance_zero (c : Option Host.CallContext) : c.map (advance 0) = c := by
  cases c <;> rfl

theorem undisturbed_run (d : Dialogue α) (s : State) :
    s.contexts.Undisturbed (d.run s).1.contexts := by
  induction d generalizing s with
  | done result => exact .refl _
  | ask call memory resume ih => exact (s.undisturbed_perform memory call).trans (ih _ _ _)

theorem get?_perform (s : State) (memory : Option Memory) (call : Host.Call)
    (answer : Option Memory × List Scalar) (id : Nat) :
    (s.perform memory call).state.contexts.get? id =
      (s.contexts.get? id).map
        (advance (if Exchange.looksUp id ⟨call, memory, answer⟩ then 1 else 0)) := by
  rw [State.perform_contexts, Exchange.looksUp]
  cases call.lookup? memory with
  | none => exact (map_advance_zero _).symm
  | some ctx =>
      dsimp only [Option.map_some, Option.getD_some, Option.any_some]
      rw [Registry.get?_countRead]
      split
      · rfl
      · exact (map_advance_zero _).symm

/-- A context has counted exactly the lookups that the guest made under its identifier. -/
theorem get?_run (d : Dialogue α) (s : State) (id : Nat) :
    (d.run s).1.contexts.get? id = (s.contexts.get? id).map (advance (d.lookups id s)) := by
  induction d generalizing s with
  | done result => exact (map_advance_zero _).symm
  | ask call memory resume ih =>
      have first := get?_perform s memory call (s.answer memory call) id
      have rest := ih (s.answer memory call).1 (s.answer memory call).2
        (s.perform memory call).state
      refine rest.trans ?_
      rw [first, Option.map_map]
      have total : lookups id s (ask call memory resume) =
          (if Exchange.looksUp id ⟨call, memory, s.answer memory call⟩ then 1 else 0) +
            lookups id (s.perform memory call).state
              (resume (s.answer memory call).1 (s.answer memory call).2) := by
        rw [lookups, transcript, List.countP_cons, Nat.add_comm]
        rfl
      rw [total]
      congr 1
      funext c
      simp [advance, Nat.add_assoc]

end TieredUdf.Guest.Dialogue
