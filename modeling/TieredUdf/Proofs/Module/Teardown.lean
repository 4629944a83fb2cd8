import TieredUdf.Proofs.Cache.Damage
import TieredUdf.Proofs.Module.Standing

/-! # The end of a loaded module

A module that drains is torn down by whoever finds it empty: the drain itself, or the last call
that leaves.  Native code may still come afterwards, and calls may still knock.  In whatever order
all this happens, the teardown runs once, with no admitted call left, and from then on every pool
is closed and the reference that was taken for the module has been given back once.
-/

namespace TieredUdf

variable {β ω ι : Type}

namespace LoadedModule

/-! ## Admission -/

/-- A call arrives.  A draining module records it and lets it go again; the answers are whether it
is admitted, and whether it tore the module down on its way out. -/
def enter (m : LoadedModule ω ι) (c : Cache) (now : Nat) :
    Bool × Bool × LoadedModule ω ι × Cache :=
  let m := m.arrive
  if m.draining then (false, (m.recordRejection (.draining m.key) now).exit c)
  else (true, false, m, c)

end LoadedModule

/-- A call begins by being admitted, and goes on to its parameters. -/
theorem Site.beginCall_eq_enter (s : Site β ι) (document : Document) (args : Arguments)
    (now : Nat) :
    s.beginCall document args now =
      match s.module.enter s.cache now with
      | (false, _, m, c) => decided (.refused (.draining s.module.key),
          { s with module := m, cache := c })
      | (true, _, m, c) =>
          let t : Site β ι := { s with module := m, cache := c }
          match m.descriptor.bind args with
          | .error e => decided (t.refuse e now)
          | .ok bound => t.obtain bound document now := by
  unfold beginCall LoadedModule.enter
  dsimp only
  split <;> rfl

/-! ## Lifetimes -/

/-- How a reference to the artifact of a module is taken, if one is. -/
inductive Taking where
  | acquire
  | store (bytes : List UInt8) (origin backend : String) (now : Nat)

/-- The cache afterwards, and whether there is a reference now. -/
def Taking.take (h : ContentHash) (c : Cache) : Taking → Cache × Bool
  | .acquire => c.acquire h
  | .store bytes origin backend now =>
      let stored := c.storeAndAcquire h bytes origin backend now
      (stored.1, stored.2.isSome)

/-- A reference is counted when there is one, and nothing else changes. -/
theorem Taking.take_counts {c : Cache} (distinct : c.Distinct) (h : ContentHash)
    (taking : Taking) :
    (taking.take h c).1.Distinct ∧ ∀ k, (taking.take h c).1.refcount k =
      c.refcount k + if k = h ∧ (taking.take h c).2 then 1 else 0 := by
  cases taking with
  | acquire => exact distinct.acquire h
  | store bytes origin backend now => exact distinct.insert h bytes origin backend 1 now

/-- What became of the reference for a module. -/
inductive Reference where
  | untaken
  /-- It was taken, and the module does not know of it yet. -/
  | taken
  /-- It was handed to the module. -/
  | given
  deriving DecidableEq

/-- Whether the reference is still to be given back. -/
def Reference.owed (finalized : Bool) : Reference → Bool
  | .untaken => false
  | .taken => true
  | .given => !finalized

theorem Reference.owed_ite (taken : Bool) :
    Reference.owed false (if taken then .given else .untaken) = taken := by
  cases taken <;> rfl

/-- A module with its cache, and what is known of both from outside. -/
structure Lifetime (ω ι : Type) where
  module : LoadedModule ω ι
  cache : Cache
  /-- The number of calls that were admitted and have not left. -/
  inside : Nat
  reference : Reference

inductive Beginning (ω ι : Type) where
  | interpreted (d : Descriptor) (pool : Pool ω ι) (compile : CompileDiagnostics)
      (settled : Bool) (now : Nat)
  | native (d : Descriptor) (pool : Pool ω ι) (compile : CompileDiagnostics)
      (taking : Option Taking) (now : Nat)

/-- What is done with a module as a whole. -/
inductive Operation (ω ι : Type) where
  | enter (now : Nat)
  /-- An admitted call leaves. -/
  | exit
  | drain
  /-- Take the reference for the module, unless that was done. -/
  | take (taking : Taking)
  /-- Install native code, with the reference if there is one. -/
  | install (p : Pool ω ι)

namespace Beginning

def hash : Beginning ω ι → ContentHash
  | .interpreted d .. => d.hash
  | .native d .. => d.hash

def installs : Beginning ω ι → Nat
  | .interpreted .. => 1
  | .native .. => 0

/-- The new module.  One that starts with native code gets its reference at once. -/
def start (c : Cache) : Beginning ω ι → Lifetime ω ι
  | .interpreted d pool compile settled now =>
      ⟨.interpreted d pool compile settled now, c, 0, .untaken⟩
  | .native d pool compile none now => ⟨.ofNative d pool compile false now, c, 0, .untaken⟩
  | .native d pool compile (some taking) now =>
      let (c, taken) := taking.take d.hash c
      ⟨.ofNative d pool compile taken now, c, 0, if taken then .given else .untaken⟩

end Beginning

namespace Lifetime

/-- A pair of a module and its cache takes the place of the present one. -/
def withPair (l : Lifetime ω ι) (pair : LoadedModule ω ι × Cache) : Lifetime ω ι :=
  { l with module := pair.1, cache := pair.2 }

/-- An operation, and whether the teardown of the module ran in it. -/
def act (l : Lifetime ω ι) : Operation ω ι → Bool × Lifetime ω ι
  | .enter now =>
      let (admitted, ran, pair) := l.module.enter l.cache now
      (ran, { l.withPair pair with inside := if admitted then l.inside + 1 else l.inside })
  | .exit =>
      if l.inside = 0 then (false, l)
      else
        let (ran, pair) := l.module.exit l.cache
        (ran, { l.withPair pair with inside := l.inside - 1 })
  | .drain =>
      let (ran, pair) := l.module.beginDrain l.cache
      (ran, l.withPair pair)
  | .take taking =>
      if l.reference = .untaken then
        let (c, taken) := taking.take l.module.hash l.cache
        (false, { l with cache := c, reference := if taken then .taken else .untaken })
      else (false, l)
  | .install p =>
      let referenced := l.reference == .taken
      (false, { l.withPair (l.module.installNative p referenced l.cache).2 with
        reference := if referenced then .given else l.reference })

def step (l : Lifetime ω ι) (op : Operation ω ι) : Lifetime ω ι := (l.act op).2

def run (l : Lifetime ω ι) (ops : List (Operation ω ι)) : Lifetime ω ι := ops.foldl step l

theorem run_append (l : Lifetime ω ι) (first more : List (Operation ω ι)) :
    l.run (first ++ more) = (l.run first).run more := List.foldl_append

/-- The teardowns that ran in an operation, each with the number of calls that were still inside. -/
def teardown (l : Lifetime ω ι) (op : Operation ω ι) : List Nat :=
  if (l.act op).1 then [(l.step op).inside] else []

def teardowns : Lifetime ω ι → List (Operation ω ι) → List Nat
  | _, [] => []
  | l, op :: ops => l.teardown op ++ (l.step op).teardowns ops

end Lifetime

def Operation.isInstall : Operation ω ι → Bool
  | .install _ => true
  | _ => false

namespace LoadedModule

/-! ## Modules that are down -/

/-- Nothing of a module is left to call, and nobody waits for it any more. -/
structure Down (m : LoadedModule ω ι) : Prop where
  closed : m.Each fun p => p.closed = true
  settled : m.settled = true
  returned : m.holdsReference = false

variable {m : LoadedModule ω ι}

/-- How the mark of a module goes from `before` to `after` when its teardown runs, or does not: the
teardown sets it, and where it is set already the teardown does not run. -/
structure TornBy (before ran after : Bool) : Prop where
  after_eq : after = (before || ran)
  unmarked : ran = true → before = false

theorem TornBy.none (mark : Bool) : TornBy mark false mark := ⟨(Bool.or_false _).symm, nofun⟩

theorem tornBy_finalize (m : LoadedModule ω ι) (c : Cache) :
    TornBy m.finalized (m.finalize c).1 (m.finalize c).2.1.finalized := by
  cases torn : m.finalized with
  | true =>
      rw [finalize_of_finalized torn, ← torn]
      exact .none _
  | false =>
      refine ⟨?_, fun _ => rfl⟩
      rw [finalize_finalized, finalize, torn]
      rfl

theorem tornBy_exit (m : LoadedModule ω ι) (c : Cache) :
    TornBy m.finalized (m.exit c).1 (m.exit c).2.1.finalized := by
  unfold exit
  dsimp only
  split
  · exact tornBy_finalize m.leave.1 c
  · exact .none _

theorem tornBy_beginDrain (m : LoadedModule ω ι) (c : Cache) :
    TornBy m.finalized (m.beginDrain c).1 (m.beginDrain c).2.1.finalized := by
  unfold beginDrain
  dsimp only
  split
  · exact tornBy_finalize m.startDraining c
  · exact .none _

theorem tornBy_enter (m : LoadedModule ω ι) (c : Cache) (now : Nat) :
    TornBy m.finalized (m.enter c now).2.1 (m.enter c now).2.2.1.finalized := by
  unfold enter
  dsimp only
  split
  · exact tornBy_exit (m.arrive.recordRejection (.draining m.arrive.key) now) c
  · exact .none _

/-- Native code sets no mark. -/
theorem installNative_finalized (m : LoadedModule ω ι) (p : Pool ω ι) (reference : Bool)
    (c : Cache) : (m.installNative p reference c).2.1.finalized = m.finalized := by
  obtain ⟨_, _, _, native, _, _, _, finalized, holds, _⟩ := m
  cases reference <;> cases native <;> cases finalized <;> cases holds <;> rfl

theorem finalize_down (h : m.finalized = false) (c : Cache) : (m.finalize c).2.1.Down := by
  rw [finalize_module, h]
  refine ⟨?_, rfl, rfl⟩
  intro tier p hp
  cases tier with
  | interpreter => exact Pool.closed_of_map_close hp
  | native => exact Pool.closed_of_map_close hp

/-- Native code that comes too late is closed, too. -/
theorem Down.installNative (h : m.Down) (finalized : m.finalized = true)
    (interpreted : m.native = none) (p : Pool ω ι) (reference : Bool) (c : Cache) :
    (m.installNative p reference c).2.1.Down := by
  have returned := congrArg Standing.holdsReference
    (installNative_standing interpreted p reference c).1
  rw [finalized] at returned
  have installed : (m.installNative p reference c).2.1 =
      ({ m with
        holdsReference := reference || m.holdsReference
        native := some p
        mode := .native }.closeInterpreter.closeNative.releaseReference c).1 := by
    cases reference <;>
      simp [LoadedModule.installNative, setNative, interpreted, publishNative,
        Mode.publishNative, closeInterpreter, closeIfFinalized, finalized]
  refine ⟨?_, ?_, returned⟩
  · intro tier q hq
    rw [installed, pool?_releaseReference] at hq
    cases tier with
    | interpreter => exact Pool.closed_of_map_close hq
    | native =>
        cases hq
        rfl
  · rw [installed]
    unfold releaseReference
    split <;> exact h.settled

/-- What is no part of a teardown. -/
theorem Down.recount (h : m.Down) (inFlight : Nat) (draining : Bool) (stats : ModuleStats) :
    Down { m with inFlight := inFlight, draining := draining, stats := stats } where
  closed := by
    intro tier p hp
    exact h.closed tier p (by cases tier <;> exact hp)
  settled := h.settled
  returned := h.returned

/-! ## Calls that knock -/

theorem closes_enter (m : LoadedModule ω ι) (c : Cache) (now : Nat) :
    m.Closes (m.enter c now).2.2.1 := by
  unfold enter
  dsimp only
  split
  · exact (m.closes_arrive.trans (closes_withStats _ _)).trans (closes_exit _ c)
  · exact m.closes_arrive

theorem enter_of_admitting (h : m.draining = false) (c : Cache) (now : Nat) :
    m.enter c now = (true, false, m.arrive, c) := by
  have arrived : m.arrive.draining = false := h
  simp [enter, arrived]

/-- A call that is refused leaves nothing behind but its record. -/
theorem enter_of_draining (h : m.draining = true) (torn : m.inFlight = 0 → m.finalized = true)
    (c : Cache) (now : Nat) :
    m.enter c now = (false, false, m.recordRejection (.draining m.key) now, c) := by
  have arrived : m.arrive.draining = true := h
  have back : (m.arrive.recordRejection (.draining m.arrive.key) now).leave =
    (m.recordRejection (.draining m.key) now, m.inFlight + 1 == 1) := rfl
  unfold enter
  dsimp only
  rw [if_pos arrived, exit, back]
  dsimp only
  split
  · rename_i last
    have empty : m.inFlight = 0 := by simpa using (Bool.and_eq_true_iff.mp last).1
    rw [finalize_of_finalized]
    exact torn empty
  · rfl

end LoadedModule

namespace Lifetime

open LoadedModule (Standing)

/-! ## What is known at any time -/

/-- The books of a module: who is inside, what it holds, and what the cache counts. -/
structure Books (before : Cache) (hash : ContentHash) (l : Lifetime ω ι) : Prop where
  hash_eq : l.module.hash = hash
  inFlight : l.module.inFlight = l.inside
  holds : l.module.holdsReference = (l.reference == .given && !l.module.finalized)
  down : l.module.finalized = true → l.module.Down
  distinct : l.cache.Distinct
  refcount : ∀ k, l.cache.refcount k = before.refcount k +
    if k = hash ∧ l.reference.owed l.module.finalized then 1 else 0

/-- Between two operations, a module is torn down exactly when it drains and nobody is inside. -/
structure Kept (before : Cache) (hash : ContentHash) (l : Lifetime ω ι) : Prop
    extends l.Books before hash where
  finalized_iff : l.module.finalized = true ↔ l.module.draining = true ∧ l.inside = 0

variable {before : Cache} {hash : ContentHash} {l : Lifetime ω ι}

theorem Books.recount (h : l.Books before hash) {inFlight inside : Nat} (same : inFlight = inside)
    (draining : Bool) (stats : ModuleStats) :
    Books before hash { l with
      module := { l.module with inFlight := inFlight, draining := draining, stats := stats }
      inside := inside } where
  hash_eq := h.hash_eq
  inFlight := same
  holds := h.holds
  down := fun finalized => (h.down finalized).recount inFlight draining stats
  distinct := h.distinct
  refcount := h.refcount

/-- A teardown gives back what the module holds. -/
theorem Books.finalize (h : l.Books before hash) (standing : l.module.finalized = false) :
    Books before hash (l.withPair (l.module.finalize l.cache).2) := by
  obtain ⟨after, released⟩ := LoadedModule.finalize_standing standing l.cache
  obtain ⟨released_distinct, released_count⟩ := h.distinct.release l.module.hash
  have finalized : (l.module.finalize l.cache).2.1.finalized = true :=
    congrArg Standing.finalized after
  have holds := h.holds
  rw [standing, Bool.not_false, Bool.and_true] at holds
  constructor
  case hash_eq => exact (congrArg Standing.hash after).trans h.hash_eq
  case inFlight => exact (congrArg Standing.inFlight after).trans h.inFlight
  case holds =>
    rw [withPair, finalized, Bool.not_true, Bool.and_false]
    exact congrArg Standing.holdsReference after
  case down => exact fun _ => LoadedModule.finalize_down standing l.cache
  case distinct =>
    rw [withPair, released]
    split
    · exact released_distinct
    · exact h.distinct
  case refcount =>
    intro k
    have count := h.refcount k
    rw [withPair, released]
    cases stage : l.reference with
    | given =>
        rw [stage] at holds
        rw [holds, beq_self_eq_true, if_pos rfl, released_count, count, h.hash_eq]
        simp [Reference.owed, stage, standing]
    | untaken | taken =>
        rw [stage] at holds
        simp [holds, count, Reference.owed, stage]

/-- Whoever finds a draining module empty leaves it torn down. -/
theorem Books.tearDown (h : l.Books before hash) (draining : l.module.draining = true)
    (empty : l.inside = 0) :
    Kept before hash (l.withPair (l.module.finalize l.cache).2) := by
  have torn : (l.module.finalize l.cache).2.1.finalized = true :=
    l.module.finalize_finalized l.cache
  have drains : (l.module.finalize l.cache).2.1.draining = true :=
    (l.module.finalize_draining l.cache).trans draining
  refine ⟨?_, iff_of_true torn ⟨drains, empty⟩⟩
  cases standing : l.module.finalized with
  | true =>
      rw [LoadedModule.finalize_of_finalized standing]
      exact h
  | false => exact h.finalize standing

/-! ## Operations -/

theorem Kept.enter (h : l.Kept before hash) (now : Nat) :
    (l.step (.enter now)).Kept before hash := by
  cases draining : l.module.draining with
  | false =>
      have stepped : l.step (.enter now) =
          { l with module := l.module.arrive, inside := l.inside + 1 } := by
        simp [step, act, withPair, LoadedModule.enter_of_admitting draining]
      rw [stepped]
      constructor
      case toBooks => exact h.recount (congrArg (· + 1) h.inFlight) _ l.module.stats
      case finalized_iff =>
        have unfinished := h.finalized_iff
        simp only [draining, Bool.false_eq_true, false_and] at unfinished
        simpa [LoadedModule.arrive] using unfinished
  | true =>
      have torn : l.module.inFlight = 0 → l.module.finalized = true := by
        intro empty
        exact h.finalized_iff.mpr ⟨draining, h.inFlight.symm.trans empty⟩
      have stepped : l.step (.enter now) =
          { l with module := l.module.recordRejection (.draining l.module.key) now } := by
        simp [step, act, withPair, LoadedModule.enter_of_draining draining torn]
      rw [stepped]
      exact ⟨h.recount h.inFlight l.module.draining _, h.finalized_iff⟩

theorem Kept.exit (h : l.Kept before hash) : (l.step .exit).Kept before hash := by
  by_cases empty : l.inside = 0
  · rw [step, act, if_pos empty]
    exact h
  · have unfinished : ¬ l.module.finalized = true := fun finalized =>
      empty (h.finalized_iff.mp finalized).2
    let left : Lifetime ω ι := { l with module := l.module.leave.1, inside := l.inside - 1 }
    have books : left.Books before hash :=
      h.recount (congrArg (· - 1) h.inFlight) l.module.draining l.module.stats
    cases last : l.module.leave.2 && l.module.leave.1.draining with
    | true =>
        obtain ⟨alone, draining⟩ := Bool.and_eq_true_iff.mp last
        have alone : l.module.inFlight = 1 := by simpa [LoadedModule.leave] using alone
        have stepped : l.step .exit = left.withPair (left.module.finalize left.cache).2 := by
          rw [step, act, if_neg empty, LoadedModule.exit]
          dsimp only
          rw [if_pos last]
          rfl
        rw [stepped]
        apply books.tearDown draining
        show l.inside - 1 = 0
        have inFlight := h.inFlight
        omega
    | false =>
        have stepped : l.step .exit = left := by
          rw [step, act, if_neg empty, LoadedModule.exit]
          dsimp only
          rw [if_neg (Bool.eq_false_iff.mp last)]
          rfl
        rw [stepped]
        refine ⟨books, iff_of_false unfinished ?_⟩
        rintro ⟨draining, gone⟩
        have others : ¬ l.module.inFlight = 1 := by
          intro alone
          simp [LoadedModule.leave, alone, show l.module.draining = true from draining] at last
        have inFlight := h.inFlight
        have gone : l.inside - 1 = 0 := gone
        omega

theorem Kept.drain (h : l.Kept before hash) : (l.step .drain).Kept before hash := by
  let draining : Lifetime ω ι := { l with module := l.module.startDraining }
  have books : draining.Books before hash := h.recount h.inFlight true l.module.stats
  have inFlight : l.module.startDraining.inFlight = l.inside := h.inFlight
  by_cases empty : l.inside = 0
  · have stepped : l.step .drain =
        draining.withPair (draining.module.finalize draining.cache).2 := by
      rw [step, act, LoadedModule.beginDrain, inFlight, if_pos empty]
      rfl
    rw [stepped]
    exact books.tearDown rfl empty
  · have stepped : l.step .drain = draining := by
      rw [step, act, LoadedModule.beginDrain, inFlight, if_neg empty]
      rfl
    have unfinished : ¬ l.module.finalized = true := fun finalized =>
      empty (h.finalized_iff.mp finalized).2
    rw [stepped]
    exact ⟨books, iff_of_false unfinished fun gone => empty gone.2⟩

theorem Kept.take (h : l.Kept before hash) (taking : Taking) :
    (l.step (.take taking)).Kept before hash := by
  by_cases untaken : l.reference = .untaken
  · obtain ⟨distinct, counts⟩ := taking.take_counts h.distinct l.module.hash
    have holds := h.holds
    have stepped : l.step (.take taking) = { l with
        cache := (taking.take l.module.hash l.cache).1
        reference := if (taking.take l.module.hash l.cache).2 then .taken else .untaken } := by
      rw [step, act, if_pos untaken]
    rw [stepped]
    refine ⟨⟨h.hash_eq, h.inFlight, ?_, h.down, distinct, ?_⟩, h.finalized_iff⟩
    · rw [holds, untaken]
      cases (taking.take l.module.hash l.cache).2 <;> rfl
    · intro k
      rw [counts, h.refcount, h.hash_eq]
      cases (taking.take hash l.cache).2 <;> simp [Reference.owed, untaken]
  · rw [step, act, if_neg untaken]
    exact h

/-- Native code is installed once, and the reference that was taken goes to the module, or back. -/
theorem Kept.install (h : l.Kept before hash) (interpreted : l.module.native = none)
    (pending : l.reference ≠ .given) (p : Pool ω ι) :
    (l.step (.install p)).Kept before hash := by
  let installed := l.module.installNative p (l.reference == .taken) l.cache
  obtain ⟨after, released⟩ := LoadedModule.installNative_standing interpreted p
    (l.reference == .taken) l.cache
  obtain ⟨released_distinct, released_count⟩ := h.distinct.release hash
  have none_held : l.module.holdsReference = false := by
    rw [h.holds, beq_eq_false_iff_ne.mpr pending, Bool.false_and]
  rw [none_held, Bool.or_false] at after released
  rw [h.hash_eq] at released
  have finalized : installed.2.1.finalized = l.module.finalized :=
    congrArg Standing.finalized after
  have draining : installed.2.1.draining = l.module.draining := congrArg Standing.draining after
  have holds : installed.2.1.holdsReference = (!l.module.finalized && l.reference == .taken) :=
    congrArg Standing.holdsReference after
  have stepped : l.step (.install p) =
      ⟨installed.2.1, installed.2.2, l.inside,
        if l.reference == .taken then .given else l.reference⟩ := rfl
  rw [stepped]
  constructor
  case finalized_iff =>
    dsimp only
    rw [finalized, draining]
    exact h.finalized_iff
  case toBooks =>
    constructor
    case hash_eq => exact (congrArg Standing.hash after).trans h.hash_eq
    case inFlight => exact (congrArg Standing.inFlight after).trans h.inFlight
    case holds =>
      dsimp only
      rw [holds, finalized, Bool.and_comm]
      cases stage : l.reference with
      | untaken | taken => rfl
      | given => exact absurd stage pending
    case down =>
      intro torn
      have torn : l.module.finalized = true := finalized.symm.trans torn
      exact (h.down torn).installNative torn interpreted p _ l.cache
    case distinct =>
      dsimp only [installed]
      rw [released]
      split
      · exact released_distinct
      · exact h.distinct
    case refcount =>
      intro k
      have count := h.refcount k
      dsimp only
      rw [finalized, released]
      cases stage : l.reference with
      | given => exact absurd stage pending
      | untaken => simpa [Reference.owed, stage] using count
      | taken =>
          have count : l.cache.refcount k = before.refcount k + if k = hash then 1 else 0 := by
            simpa [Reference.owed, stage] using count
          cases l.module.finalized <;> simp [released_count, count, Reference.owed]

/-- Native code may still be installed. -/
def Unspent (l : Lifetime ω ι) : Prop := l.module.native = none ∧ l.reference ≠ .given

theorem Kept.step (h : l.Kept before hash) (op : Operation ω ι)
    (fits : op.isInstall = true → l.Unspent) : (l.step op).Kept before hash := by
  cases op with
  | enter now => exact h.enter now
  | exit => exact h.exit
  | drain => exact h.drain
  | take taking => exact h.take taking
  | install p =>
      obtain ⟨interpreted, pending⟩ := fits rfl
      exact h.install interpreted pending p

theorem native_of_closes {m n : LoadedModule ω ι} (closes : m.Closes n) (h : m.native = none) :
    n.native = none := by
  rcases closes.pools .native with same | closed
  · exact same.trans h
  · exact closed.trans (congrArg (Option.map _) h)

theorem Unspent.step (h : l.Unspent) (op : Operation ω ι) (other : op.isInstall = false) :
    (l.step op).Unspent := by
  obtain ⟨interpreted, pending⟩ := h
  cases op with
  | enter now => exact ⟨native_of_closes (l.module.closes_enter l.cache now) interpreted, pending⟩
  | exit =>
      unfold Lifetime.step act
      dsimp only
      split
      · exact ⟨interpreted, pending⟩
      · exact ⟨native_of_closes (l.module.closes_exit l.cache) interpreted, pending⟩
  | drain => exact ⟨native_of_closes (l.module.closes_beginDrain l.cache) interpreted, pending⟩
  | take taking =>
      unfold Lifetime.step act
      dsimp only
      split
      · refine ⟨interpreted, ?_⟩
        dsimp only
        split <;> decide
      · exact ⟨interpreted, pending⟩
  | install p => cases other

theorem tornBy_act (l : Lifetime ω ι) (op : Operation ω ι) :
    LoadedModule.TornBy l.module.finalized (l.act op).1 (l.step op).module.finalized := by
  cases op with
  | enter now => exact l.module.tornBy_enter l.cache now
  | exit =>
      unfold step act
      dsimp only
      split
      · exact .none _
      · exact l.module.tornBy_exit l.cache
  | drain => exact l.module.tornBy_beginDrain l.cache
  | take taking =>
      unfold step act
      dsimp only
      split <;> exact .none _
  | install p =>
      have kept := l.module.installNative_finalized p (l.reference == .taken) l.cache
      exact ⟨kept.trans (Bool.or_false _).symm, nofun⟩

/-! ## Runs -/

def behind (l : Lifetime ω ι) : List Nat := if l.module.finalized then [0] else []

theorem Kept.behind_step (h : l.Kept before hash) (op : Operation ω ι)
    (fits : op.isInstall = true → l.Unspent) :
    l.behind ++ l.teardown op = (l.step op).behind := by
  obtain ⟨marked, unmarked⟩ := l.tornBy_act op
  unfold behind teardown
  cases ran : (l.act op).1 with
  | true =>
      have standing := unmarked ran
      have torn : (l.step op).module.finalized = true := by simpa [standing, ran] using marked
      have empty := ((h.step op fits).finalized_iff.mp torn).2
      simp [standing, torn, empty]
  | false => simp [marked, ran]

/-- Native code is installed at most once, and only where there is none yet. -/
def Fits (l : Lifetime ω ι) (ops : List (Operation ω ι)) : Prop :=
  ops.countP Operation.isInstall = 0 ∨ (l.Unspent ∧ ops.countP Operation.isInstall ≤ 1)

theorem Fits.cons {op : Operation ω ι} {ops : List (Operation ω ι)} (fits : l.Fits (op :: ops)) :
    (op.isInstall = true → l.Unspent) ∧ (l.step op).Fits ops := by
  unfold Fits at fits
  rw [List.countP_cons] at fits
  cases installs : op.isInstall with
  | true =>
      rw [if_pos installs] at fits
      exact ⟨fun _ => (fits.resolve_left (by omega)).1, Or.inl (by omega)⟩
  | false =>
      rw [installs] at fits
      exact ⟨nofun, fits.imp id fun both => ⟨both.1.step op installs, both.2⟩⟩

theorem Fits.run {first more : List (Operation ω ι)} (fits : l.Fits (first ++ more)) :
    (l.run first).Fits more := by
  induction first generalizing l with
  | nil => exact fits
  | cons op first ih => exact ih fits.cons.2

theorem Kept.run (h : l.Kept before hash) (ops : List (Operation ω ι)) (fits : l.Fits ops) :
    (l.run ops).Kept before hash ∧
      l.behind ++ l.teardowns ops = (l.run ops).behind := by
  induction ops generalizing l with
  | nil => exact ⟨h, List.append_nil _⟩
  | cons op ops ih =>
      obtain ⟨first, rest⟩ := fits.cons
      obtain ⟨kept, behind⟩ := ih (h.step op first) rest
      refine ⟨kept, ?_⟩
      rw [teardowns, ← List.append_assoc, h.behind_step op first]
      exact behind

/-- What is torn down stays so over a run, since a teardown is never taken back. -/
theorem Kept.finalized_run (h : l.Kept before hash) (torn : l.module.finalized = true)
    (ops : List (Operation ω ι)) (fits : l.Fits ops) : (l.run ops).module.finalized = true := by
  have behind := (h.run ops fits).2
  by_contra standing
  simp [Lifetime.behind, torn, standing] at behind

end Lifetime

namespace Beginning

variable {before : Cache}

theorem kept_start (b : Beginning ω ι) (distinct : before.Distinct) :
    (b.start before).Kept before b.hash := by
  cases b with
  | interpreted d pool compile settled now =>
      refine ⟨⟨rfl, rfl, rfl, nofun, distinct, fun k => ?_⟩, ?_⟩
      · simp [start, Reference.owed]
      · simp [start, LoadedModule.interpreted]
  | native d pool compile taking now =>
      cases taking with
      | none =>
          refine ⟨⟨rfl, rfl, rfl, nofun, distinct, fun k => ?_⟩, ?_⟩
          · simp [start, Reference.owed]
          · simp [start, LoadedModule.ofNative]
      | some taking =>
          obtain ⟨after, counts⟩ := taking.take_counts distinct d.hash
          let l : Lifetime ω ι := (native d pool compile (some taking) now).start before
          have owed : l.reference.owed l.module.finalized = (taking.take d.hash before).2 :=
            Reference.owed_ite _
          refine ⟨⟨rfl, rfl, ?_, nofun, after, fun k => ?_⟩, ?_⟩
          · simp only [start, LoadedModule.ofNative]
            cases (taking.take d.hash before).2 <;> rfl
          · show l.cache.refcount k = before.refcount k +
              if k = d.hash ∧ l.reference.owed l.module.finalized then 1 else 0
            rw [owed]
            exact counts k
          · simp [start, LoadedModule.ofNative]

theorem behind_start (b : Beginning ω ι) : (b.start before).behind = [] := by
  cases b with
  | interpreted d pool compile settled now => rfl
  | native d pool compile taking now => cases taking <;> rfl

theorem fits_start (b : Beginning ω ι) (before : Cache) {ops : List (Operation ω ι)}
    (fits : ops.countP Operation.isInstall ≤ b.installs) : (b.start before).Fits ops := by
  cases b with
  | interpreted d pool compile settled now => exact Or.inr ⟨⟨rfl, nofun⟩, fits⟩
  | native d pool compile taking now => exact Or.inl (Nat.le_zero.mp fits)

end Beginning

namespace Lifetime

/-- A module is torn down once, in any order of calls, drains and an installation.  The teardown
runs at most once, and only when every admitted call has left; it has run as soon as the module
drains and no call is in flight.  From then on every pool is closed, the module is settled, and the
reference that was handed to it is given back, once: the cache counts again what it counted
before. -/
theorem run_torn_down_once (b : Beginning ω ι) {before : Cache} (distinct : before.Distinct)
    (ops : List (Operation ω ι)) (fits : ops.countP Operation.isInstall ≤ b.installs) :
    let start := b.start before
    let l := start.run ops
    start.teardowns ops = (if l.module.finalized then [0] else []) ∧
    (l.module.inFlight = l.inside ∧
      (l.module.finalized = true ↔ l.module.draining = true ∧ l.inside = 0)) ∧
    (∀ first, first <+: ops → (start.run first).module.finalized = true → l.module.Down) ∧
    ∀ k, l.cache.refcount k = before.refcount k +
      if k = b.hash ∧ l.reference.owed l.module.finalized then 1 else 0 := by
  intro start l
  have started := b.kept_start distinct
  obtain ⟨kept, behind⟩ := started.run ops (b.fits_start before fits)
  refine ⟨?_, ⟨kept.inFlight, kept.finalized_iff⟩, ?_, kept.refcount⟩
  · rw [b.behind_start, List.nil_append] at behind
    exact behind
  · rintro first ⟨more, rfl⟩ torn
    apply kept.down
    have later := b.fits_start before fits
    rw [List.countP_append] at fits
    have earlier := b.fits_start before (Nat.le_of_add_right_le fits)
    rw [run_append]
    exact (started.run first earlier).1.finalized_run torn more later.run

section TooLate

def lonePool (tier : Tier) : Pool Unit Unit :=
  .create ⟨"m", "1"⟩ tier (fun w => (.ok (), w)) 1 1 (.ofMilliseconds 1)

def onInterpreter : Beginning Unit Unit :=
  .interpreted (.ofBytecode ⟨"m", "1"⟩ "run" [] [] [] default default) (lonePool .interpreter)
    (.initial .pending none) false 0

/-- The module drains under a call, a second call is refused, and the first one tears the module
down when it leaves.  Native code comes only then. -/
def tooLate : List (Operation Unit Unit) :=
  [.enter 1, .take (.store [0] "m@1" "test" 2), .drain, .enter 3, .exit, .enter 4,
    .install (lonePool .native)]

theorem run_torn_down_once_tooLate :
    (Cache.inMemory 8).Distinct ∧
    tooLate.countP Operation.isInstall ≤ onInterpreter.installs ∧
    (onInterpreter.start (.inMemory 8)).teardowns tooLate = [0] ∧
    ((onInterpreter.start (.inMemory 8)).run tooLate).module.Down ∧
    ((onInterpreter.start (.inMemory 8)).run (tooLate.take 2)).cache.refcount
      onInterpreter.hash = 1 ∧
    ((onInterpreter.start (.inMemory 8)).run tooLate).cache.refcount onInterpreter.hash = 0 := by
  have distinct : (Cache.inMemory 8).Distinct := List.nodup_nil
  have fits : tooLate.countP Operation.isInstall ≤ onInterpreter.installs := by decide
  have torn : ((onInterpreter.start (.inMemory 8)).run tooLate).module.finalized = true := by
    decide +kernel
  have given : ((onInterpreter.start (.inMemory 8)).run tooLate).reference = .given := by
    decide +kernel
  have counted : ((onInterpreter.start (.inMemory 8)).run (tooLate.take 2)).cache.refcount
      onInterpreter.hash = 1 := by
    decide +kernel
  obtain ⟨once, _, down, counts⟩ := run_torn_down_once onInterpreter distinct tooLate fits
  have after := counts onInterpreter.hash
  rw [if_pos torn] at once
  rw [given, torn, (Cache.balanced_inMemory 8).refcount_eq] at after
  refine ⟨distinct, fits, once, down tooLate (List.prefix_refl _) torn, counted, ?_⟩
  simpa [Reference.owed] using after

end TooLate

end Lifetime

end TieredUdf
