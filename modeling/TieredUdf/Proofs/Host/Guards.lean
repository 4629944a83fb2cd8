import Mathlib.Algebra.Group.Nat.Defs
import Mathlib.Data.List.Nodup
import TieredUdf.Proofs.Host.Registry

/-! # Registrations and their guards

Every registration hands out a guard, and its context is registered until the guard is dropped,
which can be done once and in any order.  The main statement is that the identifiers of guests
find the contexts of the guards that are held, and nothing else.
-/

namespace TieredUdf.Host

/-- What a registration hands out. -/
structure Guard where
  id : Nat
  /-- The context that was registered. -/
  context : CallContext
  /-- Whether the guard has not been dropped. -/
  held : Bool
  deriving Inhabited

/-- A registry with the guards of all registrations there have been, in their order. -/
structure Roll where
  registry : Registry
  guards : List Guard

def Guard.guestId (g : Guard) : Int64 := Registry.guestId g.id

def Guard.dropped (g : Guard) : Guard := { g with held := false }

/-- What a registry holds on behalf of a guard. -/
def Guard.entry (g : Guard) : Nat × CallContext := (g.id, g.context)

namespace Roll

inductive Action where
  | register (c : CallContext)
  /-- Drop the guard of a registration; the first one has the number zero. -/
  | drop (number : Nat)

def empty : Roll := ⟨.empty, []⟩

/-- One action.  A guard that is gone cannot be dropped again. -/
def step (r : Roll) : Action → Roll
  | .register c =>
      let (registry, id) := r.registry.register c
      ⟨registry, r.guards ++ [⟨id, c, true⟩]⟩
  | .drop number =>
      match r.guards[number]? with
      | some g =>
          if g.held then ⟨r.registry.remove g.id, r.guards.set number g.dropped⟩ else r
      | none => r

def run (r : Roll) (actions : List Action) : Roll := actions.foldl step r

def Action.context? : Action → Option CallContext
  | .register c => some c
  | .drop _ => none

def registered (actions : List Action) : List CallContext := actions.filterMap Action.context?

theorem step_drop_cases (r : Roll) (number : Nat) :
    (∃ g, r.guards[number]? = some g ∧ g.held = true ∧
      r.step (.drop number) = ⟨r.registry.remove g.id, r.guards.set number g.dropped⟩) ∨
    r.step (.drop number) = r := by
  cases found : r.guards[number]? with
  | none => exact Or.inr (by simp [step, found])
  | some g =>
      cases hheld : g.held with
      | false => exact Or.inr (by simp [step, found, hheld])
      | true => exact Or.inl ⟨g, rfl, hheld, by simp [step, found, hheld]⟩

/-! ## What every action preserves -/

/-- The registry holds the contexts of the guards that are held, and the identifiers count up
from one. -/
structure Kept (r : Roll) : Prop where
  ids : r.guards.map Guard.id = List.range' 1 r.guards.length
  nextId : r.registry.nextId = r.guards.length + 1
  entries : r.registry.entries = (r.guards.filter Guard.held).map Guard.entry

theorem kept_empty : empty.Kept := ⟨rfl, rfl, rfl⟩

theorem Kept.distinct {r : Roll} (h : r.Kept) : (r.guards.map Guard.id).Nodup := by
  rw [h.ids]
  exact List.nodup_range'

/-- Dropping one of several guards with different identifiers leaves the entries of the others. -/
theorem entries_set {guards : List Guard} (distinct : (guards.map Guard.id).Nodup)
    {number : Nat} {g : Guard} (found : guards[number]? = some g) :
    ((guards.set number g.dropped).filter Guard.held).map Guard.entry =
      ((guards.filter Guard.held).map Guard.entry).filter fun e => e.1 != g.id := by
  induction guards generalizing number with
  | nil => simp at found
  | cons first rest ih =>
      have hdistinct : first.id ∉ rest.map Guard.id ∧ (rest.map Guard.id).Nodup := by
        simpa using distinct
      cases number with
      | zero =>
          have hg : first = g := by simpa using found
          subst hg
          have hothers : ((rest.filter Guard.held).map Guard.entry).filter
              (fun e => e.1 != first.id) = (rest.filter Guard.held).map Guard.entry := by
            rw [List.filter_eq_self]
            intro e he
            obtain ⟨h, hh, rfl⟩ := List.mem_map.mp he
            have hrest : h ∈ rest := (List.mem_filter.mp hh).1
            have hne : h.id ≠ first.id := fun same =>
              hdistinct.1 (same ▸ List.mem_map_of_mem hrest)
            simpa [Guard.entry] using hne
          have hfirst : first.dropped.held = false := rfl
          rw [List.set_cons_zero, List.filter_cons_of_neg (by simp [hfirst])]
          cases hheld : first.held with
          | false => rw [List.filter_cons_of_neg (by simp [hheld]), hothers]
          | true =>
              rw [List.filter_cons_of_pos hheld, List.map_cons,
                List.filter_cons_of_neg (by simp [Guard.entry]), hothers]
      | succ number =>
          have hrest : rest[number]? = some g := by simpa using found
          have hmem : g.id ∈ rest.map Guard.id :=
            List.mem_map_of_mem (List.mem_of_getElem? hrest)
          have hne : first.id ≠ g.id := fun same => hdistinct.1 (same ▸ hmem)
          have hih := ih hdistinct.2 hrest
          rw [List.set_cons_succ]
          cases hheld : first.held with
          | false => rw [List.filter_cons_of_neg (by simp [hheld]),
              List.filter_cons_of_neg (by simp [hheld]), hih]
          | true =>
              rw [List.filter_cons_of_pos hheld, List.filter_cons_of_pos hheld, List.map_cons,
                List.map_cons, List.filter_cons_of_pos (by simpa [Guard.entry] using hne), hih]

/-- What does not read whether a guard is held is the same for a guard that is dropped. -/
theorem map_set_dropped {α : Type} {f : Guard → α} (same : ∀ g : Guard, f g.dropped = f g)
    {guards : List Guard} {number : Nat} {g : Guard} (found : guards[number]? = some g) :
    (guards.set number g.dropped).map f = guards.map f := by
  apply List.ext_getElem?
  intro i
  rw [List.getElem?_map, List.getElem?_map, List.getElem?_set]
  by_cases own : number = i
  · subst own
    obtain ⟨hlt, hg⟩ := List.getElem?_eq_some_iff.mp found
    simp [hlt, hg, same]
  · simp [own]

theorem Kept.step {r : Roll} (h : r.Kept) (a : Action) : (r.step a).Kept := by
  cases a with
  | register c =>
      have hid : r.registry.nextId = 1 + r.guards.length := by rw [h.nextId]; omega
      constructor
      · simp [Roll.step, Registry.register, h.ids, hid, List.range'_1_concat]
      · simp [Roll.step, Registry.register, h.nextId]
      · simp [Roll.step, Registry.register, h.entries, Guard.entry]
  | drop number =>
      rcases r.step_drop_cases number with ⟨g, found, _, hstep⟩ | hstep
      · rw [hstep]
        constructor
        · rw [map_set_dropped (fun _ => rfl) found, List.length_set]
          exact h.ids
        · rw [List.length_set]
          exact h.nextId
        · rw [entries_set h.distinct found, ← h.entries]
          rfl
      · rw [hstep]
        exact h

theorem Kept.run {r : Roll} (h : r.Kept) (actions : List Action) : (r.run actions).Kept := by
  induction actions generalizing r with
  | nil => exact h
  | cons a actions ih => exact ih (h.step a)

/-- There is a guard for every registration, with the context that was registered. -/
theorem contexts_run (r : Roll) (actions : List Action) :
    (r.run actions).guards.map Guard.context =
      r.guards.map Guard.context ++ registered actions := by
  induction actions generalizing r with
  | nil => simp [Roll.run, registered]
  | cons a actions ih =>
      have hrun : r.run (a :: actions) = (r.step a).run actions := rfl
      rw [hrun, ih]
      cases a with
      | register c => simp [Roll.step, Registry.register, registered, Action.context?]
      | drop number =>
          have hnone : registered (.drop number :: actions) = registered actions := rfl
          rw [hnone]
          rcases r.step_drop_cases number with ⟨g, found, _, hstep⟩ | hstep
          · rw [hstep, map_set_dropped (fun _ => rfl) found]
          · rw [hstep]

/-! ## What identifiers find -/

theorem Kept.id_bounds {r : Roll} (h : r.Kept) {g : Guard} (hg : g ∈ r.guards) :
    1 ≤ g.id ∧ g.id ≤ r.guards.length := by
  have hid : g.id ∈ List.range' 1 r.guards.length := by
    rw [← h.ids]
    exact List.mem_map_of_mem hg
  rw [List.mem_range'_1] at hid
  omega

/-- An identifier of a guard is the same number for guests. -/
theorem Kept.toInt_guestId {r : Roll} (h : r.Kept) (few : r.guards.length < 2 ^ 63) {g : Guard}
    (hg : g ∈ r.guards) : g.guestId.toInt = g.id := by
  have hid := (h.id_bounds hg).2
  have hwrap : g.guestId.toInt = (g.id : Int).bmod UInt64.size := Int64.toInt_ofNat'
  rw [hwrap, Int.bmod_def, UInt64.size]
  split <;> omega

theorem Kept.get?_eq_some {r : Roll} (h : r.Kept) (id : Nat) (c : CallContext) :
    r.registry.get? id = some c ↔
      ∃ g ∈ r.guards, g.held = true ∧ g.id = id ∧ g.context = c := by
  have hmem : ∀ e, e ∈ r.registry.entries ↔
      ∃ g ∈ r.guards, g.held = true ∧ g.entry = e := by
    intro e
    rw [h.entries, List.mem_map]
    constructor
    · rintro ⟨g, hg, rfl⟩
      obtain ⟨hg, hheld⟩ := List.mem_filter.mp hg
      exact ⟨g, hg, hheld, rfl⟩
    · rintro ⟨g, hg, hheld, rfl⟩
      exact ⟨g, List.mem_filter.mpr ⟨hg, hheld⟩, rfl⟩
  rw [Registry.get?]
  constructor
  · intro found
    obtain ⟨e, hfind, rfl⟩ := Option.map_eq_some_iff.mp found
    obtain ⟨g, hg, hheld, rfl⟩ := (hmem e).mp (List.mem_of_find?_eq_some hfind)
    have hid : g.id = id := by simpa [Guard.entry] using List.find?_some hfind
    exact ⟨g, hg, hheld, hid, rfl⟩
  · rintro ⟨g, hg, hheld, rfl, rfl⟩
    cases hfind : r.registry.entries.find? fun e => e.1 == g.id with
    | none =>
        have habsent := List.find?_eq_none.mp hfind g.entry ((hmem _).mpr ⟨g, hg, hheld, rfl⟩)
        simp [Guard.entry] at habsent
    | some e =>
        obtain ⟨other, hother, _, rfl⟩ := (hmem e).mp (List.mem_of_find?_eq_some hfind)
        have hid : other.id = g.id := by simpa [Guard.entry] using List.find?_some hfind
        have hsame : other = g := List.inj_on_of_nodup_map h.distinct hother hg hid
        rw [hsame]
        rfl

/-- A guest's identifier finds the context of the guard that has it, as long as that is held. -/
theorem Kept.resolve?_eq_some {r : Roll} (h : r.Kept) (few : r.guards.length < 2 ^ 63)
    (j : Int64) (c : CallContext) :
    r.registry.resolve? j = some c ↔
      ∃ g ∈ r.guards, g.held = true ∧ g.guestId = j ∧ g.context = c := by
  rw [Registry.resolve?]
  constructor
  · intro found
    by_cases negative : j.toInt < 0
    · simp [negative] at found
    · rw [if_neg negative] at found
      obtain ⟨g, hg, hheld, hid, hc⟩ := (h.get?_eq_some _ c).mp found
      refine ⟨g, hg, hheld, ?_, hc⟩
      rw [Guard.guestId, hid, Registry.guestId_toNat (by omega)]
  · rintro ⟨g, hg, hheld, rfl, hc⟩
    have hint := h.toInt_guestId few hg
    rw [if_neg (by omega), hint, Int.toNat_natCast]
    exact (h.get?_eq_some _ c).mpr ⟨g, hg, hheld, rfl, hc⟩

theorem Kept.guestId_lt {r : Roll} (h : r.Kept) (few : r.guards.length < 2 ^ 63) :
    (r.guards.map Guard.guestId).Pairwise (· < ·) := by
  have hids : (r.guards.map Guard.id).Pairwise (· < ·) := by
    rw [h.ids]
    exact List.pairwise_lt_range'
  rw [List.pairwise_map] at hids ⊢
  refine hids.imp_of_mem fun {g k} hg hk hlt => ?_
  rw [Int64.lt_iff_toInt_lt, h.toInt_guestId few hg, h.toInt_guestId few hk]
  omega

/-- Dropping a guard takes its own context away and no other one. -/
theorem Kept.resolve?_drop {r : Roll} (h : r.Kept) (few : r.guards.length < 2 ^ 63)
    {number : Nat} {g : Guard} (found : r.guards[number]? = some g) (held : g.held = true)
    (j : Int64) :
    (r.step (.drop number)).registry.resolve? j =
      if j = g.guestId then none else r.registry.resolve? j := by
  have hg : g ∈ r.guards := List.mem_of_getElem? found
  have hint := h.toInt_guestId few hg
  have hstep : (r.step (.drop number)).registry = r.registry.remove g.id := by
    simp [Roll.step, found, held]
  have hget : ∀ id, (r.registry.remove g.id).get? id =
      if id = g.id then none else r.registry.get? id := by
    intro id
    unfold Registry.get? Registry.remove
    dsimp only
    rw [List.find?_filter]
    by_cases own : id = g.id
    · rw [if_pos own, own]
      simp
    · rw [if_neg own]
      congr 2
      funext e
      by_cases hid : e.1 = id <;> simp [hid, own]
  rw [hstep, Registry.resolve?, Registry.resolve?, hget]
  by_cases own : j = g.guestId
  · rw [if_pos own, own, hint]
    simp
  · rw [if_neg own]
    by_cases negative : j.toInt < 0
    · rw [if_pos negative, if_pos negative]
    · have hother : j.toInt.toNat ≠ g.id := fun same => own (by
        rw [Guard.guestId, ← same, Registry.guestId_toNat (by omega)])
      rw [if_neg negative, if_neg negative, if_neg hother]

theorem Kept.size_eq {r : Roll} (h : r.Kept) :
    r.registry.size = r.guards.countP Guard.held := by
  rw [Registry.size, h.entries, List.length_map, List.countP_eq_length_filter]

/-- Contexts are registered and guards dropped in any order, with fewer registrations than guests
have positive identifiers.  The identifiers that are handed out go up from one registration to the
next.  What an identifier finds, a negative one included, is the context that was registered under
it as long as the guard of that registration is held, and nothing otherwise; dropping a guard
changes that for its own identifier only; and as many contexts are registered as guards are
held. -/
theorem run_resolves (actions : List Action) (few : (registered actions).length < 2 ^ 63 - 1) :
    let roll := empty.run actions
    roll.guards.map Guard.context = registered actions ∧
    (roll.guards.map Guard.guestId).Pairwise (· < ·) ∧
    (∀ j c, roll.registry.resolve? j = some c ↔
      ∃ g ∈ roll.guards, g.held = true ∧ g.guestId = j ∧ g.context = c) ∧
    (∀ number g, roll.guards[number]? = some g → g.held = true → ∀ j,
      (roll.step (.drop number)).registry.resolve? j =
        if j = g.guestId then none else roll.registry.resolve? j) ∧
    roll.registry.size = roll.guards.countP Guard.held := by
  intro roll
  have kept : roll.Kept := kept_empty.run actions
  have hcontexts : roll.guards.map Guard.context = registered actions :=
    (contexts_run empty actions).trans (List.nil_append _)
  have hlength : roll.guards.length = (registered actions).length := by
    rw [← hcontexts, List.length_map]
  have hfew : roll.guards.length < 2 ^ 63 := by omega
  refine ⟨hcontexts, kept.guestId_lt hfew, kept.resolve?_eq_some hfew, ?_, kept.size_eq⟩
  intro number g found held j
  exact kept.resolve?_drop hfew found held j

section OutOfOrder

def anyContext (name : String) : CallContext := .ofDocument (.bare name .zero) []

/-- Three calls, the first of which is over before the third one begins; its guard is dropped
twice, and a fourth one that was never handed out. -/
def outOfOrder : List Action :=
  [.register (anyContext "a"), .register (anyContext "b"), .drop 0, .register (anyContext "c"),
    .drop 0, .drop 3]

theorem run_resolves_outOfOrder :
    let roll := empty.run outOfOrder
    (registered outOfOrder).length < 2 ^ 63 - 1 ∧
    (roll.guards.map Guard.guestId).Pairwise (· < ·) ∧ roll.registry.size = 2 ∧
    (∀ c, roll.registry.resolve? 1 ≠ some c) ∧
    roll.registry.resolve? 3 = some (anyContext "c") ∧
    (roll.guards[1]? = some ⟨2, anyContext "b", true⟩ ∧
      (roll.step (.drop 1)).registry.resolve? 3 = some (anyContext "c")) := by
  intro roll
  have few : (registered outOfOrder).length < 2 ^ 63 - 1 := by decide
  obtain ⟨_, increasing, finds, dropping, size⟩ := run_resolves outOfOrder few
  have second : roll.guards[1]? = some ⟨2, anyContext "b", true⟩ := rfl
  have third : roll.guards[2]? = some ⟨3, anyContext "c", true⟩ := rfl
  have found : roll.registry.resolve? 3 = some (anyContext "c") :=
    (finds 3 _).mpr ⟨_, List.mem_of_getElem? third, rfl, rfl, rfl⟩
  refine ⟨few, increasing, size, fun c found => ?_, found, second, ?_⟩
  · obtain ⟨g, hg, held, id, _⟩ := (finds 1 c).mp found
    have gone : ∀ g ∈ (empty.run outOfOrder).guards, g.guestId = 1 → g.held = false := by decide
    rw [gone g hg id] at held
    cases held
  · rw [dropping 1 _ second rfl 3, if_neg (by decide)]
    exact found

end OutOfOrder

end Roll

end TieredUdf.Host
