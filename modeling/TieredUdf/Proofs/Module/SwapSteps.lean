import TieredUdf.Proofs.Module.Dispatch

/-! # A hot swap, step by step

A call reads the mode of its module, looks at the interpreter's pool and at the native one, asks a
pool for an instance and perhaps a second one, all at different moments, while native code is set,
published, and takes the place of the interpreter.  Wherever the steps of the one fall between
those of the other, the call finds a pool that serves it.
-/

namespace TieredUdf

variable {β ω ι : Type}

/-! ## Pools whose factory does not fail -/

namespace Pool

/-- Every attempt to make an instance succeeds. -/
def Reliable (p : Pool ω ι) : Prop := ∀ w, ∃ body after, p.factory w = (.ok body, after)

/-- What the calls of a module leave alone of a pool. -/
structure Lends (p q : Pool ω ι) : Prop where
  closed : q.closed = p.closed
  factory : q.factory = p.factory

theorem Lends.of_used {p q : Pool ω ι} (used : p.Used q) (follows : p.Follows q) : p.Lends q :=
  ⟨used.closed, follows.factory⟩

theorem Lends.trans {p q r : Pool ω ι} (h : p.Lends q) (k : q.Lends r) : p.Lends r :=
  ⟨k.closed.trans h.closed, k.factory.trans h.factory⟩

theorem Lends.reliable {p q : Pool ω ι} (h : p.Lends q) (reliable : p.Reliable) : q.Reliable := by
  intro w
  rw [h.factory]
  exact reliable w

theorem lends_asked (p : Pool ω ι) : p.Lends p.asked := ⟨rfl, rfl⟩

theorem Answers.lends {p q : Pool ω ι} {w after : ω} {result : Except ExecError (Member ι)}
    (h : Answers p w result q after) : p.Lends q := .of_used h.used h.follows

/-- A pool whose factory does not fail lends an instance, unless it has nothing to lend. -/
theorem Answers.reliable {p q : Pool ω ι} {w after : ω} {result : Except ExecError (Member ι)}
    (h : Answers p w result q after) (reliable : p.Reliable) :
    (∃ m, result = .ok m) ∨ (result = .error (.poolExhausted p.key p.timeout) ∧
      p.idle = [] ∧ (p.closed = true ∨ p.maxLive ≤ p.live)) := by
  cases h with
  | lent idle => exact Or.inl ⟨_, rfl⟩
  | made idle isOpen room attempt => exact Or.inl ⟨_, rfl⟩
  | failed idle isOpen room attempt =>
      obtain ⟨body, after, made⟩ := reliable w
      cases made.symm.trans attempt
  | exhausted idle full => exact Or.inr ⟨rfl, idle, full⟩

theorem beginCheckout_reliable {p : Pool ω ι} (reliable : p.Reliable) (w : ω) :
    (∃ m q after, p.beginCheckout w = .decided (.ok m) q after ∧ p.Lends q) ∨
      p.beginCheckout w = .waiting p.asked := by
  rw [beginCheckout_eq]
  cases idle : p.idle with
  | cons m rest => exact Or.inl ⟨m, _, w, rfl, rfl, rfl⟩
  | nil =>
      cases kept : p.asked.reserve? p.capacity with
      | none => exact Or.inr rfl
      | some q =>
          rcases instantiate_reserved kept w with ⟨body, after, _, made⟩ | ⟨e, after, failed, _⟩
          · dsimp only
            rw [made]
            exact Or.inl ⟨_, _, _, rfl, rfl, rfl⟩
          · obtain ⟨body, after, made⟩ := reliable w
            cases made.symm.trans failed

end Pool

/-! ## The steps -/

namespace Swap

/-- How far a call has come on its way to an instance. -/
inductive Stage (ι : Type) where
  | readingMode
  /-- The mode is not native: look whether the interpreter's pool is closed. -/
  | readingFlag
  /-- Native code is preferred: look whether it is there. -/
  | readingNative
  /-- Ask the pool of a tier, for the first time or again. -/
  | asking (tier : Tier) (again : Bool)
  | waiting (tier : Tier) (again : Bool)
  /-- The pool had nothing to lend: look whether it was closed meanwhile. -/
  | checking (tier : Tier) (e : ExecError)
  /-- It was closed: look for native code. -/
  | fallingBack (e : ExecError)
  | obtained (tier : Tier) (m : Member ι)
  | failed (e : ExecError)

/-- How far an installation has come; each name tells what is next. -/
inductive Installer where
  | setting
  | publishing
  | closing
  | done
  deriving DecidableEq

end Swap

/-- A module with one call and one installation on their way. -/
structure Swap (β ι : Type) where
  site : Site β ι
  stage : Swap.Stage ι
  installer : Swap.Installer

namespace Swap

def isExhausted : ExecError → Bool
  | .poolExhausted .. => true
  | _ => false

/-- What a pool's answer leads to. -/
def answered (tier : Tier) (again : Bool) : Except ExecError (Member ι) → Stage ι
  | .ok m => .obtained tier m
  | .error e => if isExhausted e && !again then .checking tier e else .failed e

def withPool (s : Swap β ι) (tier : Tier) (p : Pool (World β) ι) (world : World β) : Swap β ι :=
  { s with site := { s.site with module := s.site.module.setPool tier p, world := world } }

def callStep (s : Swap β ι) : Swap β ι :=
  match s.stage with
  | .readingMode =>
      { s with stage :=
          if s.site.module.mode = .native || s.site.module.interpreter.isNone then .readingNative
          else .readingFlag }
  | .readingFlag =>
      { s with stage :=
          if s.site.module.interpreter.any fun p => p.closed then .readingNative
          else .asking .interpreter false }
  | .readingNative =>
      { s with stage :=
          if s.site.module.native.isSome then .asking .native false
          else if s.site.module.interpreter.isSome then .asking .interpreter false
          else .failed (Site.noLiveTier s.site.module) }
  | .asking tier again =>
      match s.site.module.pool? tier with
      | none => { s with stage := .failed (Site.noLiveTier s.site.module) }
      | some p =>
          match p.beginCheckout s.site.world with
          | .waiting p =>
              { s.withPool tier p s.site.world with stage := .waiting tier again }
          | .decided result p world =>
              { s.withPool tier p world with stage := answered tier again result }
  | .waiting tier again =>
      match s.site.module.pool? tier with
      | none => { s with stage := .failed (Site.noLiveTier s.site.module) }
      | some p =>
          let (result, p, world) := p.endCheckout s.site.world
          { s.withPool tier p world with stage := answered tier again result }
  | .checking tier e =>
      { s with stage :=
          if (s.site.module.pool? tier).any fun p => p.closed then .fallingBack e else .failed e }
  | .fallingBack e =>
      { s with stage :=
          if s.site.module.native.isSome then .asking .native true else .failed e }
  | .obtained .. | .failed _ => s

def withModule (s : Swap β ι) (m : LoadedModule (World β) ι) : Swap β ι :=
  { s with site := { s.site with module := m } }

def installStep (p : Pool (World β) ι) (s : Swap β ι) : Swap β ι :=
  match s.installer with
  | .setting =>
      { s.withModule (s.site.module.setNative p).1 with installer := .publishing }
  | .publishing => { s.withModule s.site.module.publishNative.1 with installer := .closing }
  | .closing => { s.withModule s.site.module.closeInterpreter with installer := .done }
  | .done => s

/-- What another call does to a pool. -/
inductive Use (ι : Type) where
  | ask
  | endWait
  | giveBack (m : Member ι) (poisoned : Bool)

def Use.apply (p : Pool ω ι) (w : ω) : Use ι → Pool ω ι × ω
  | .ask =>
      match p.beginCheckout w with
      | .waiting p => (p, w)
      | .decided _ p w => (p, w)
  | .endWait => (p.endCheckout w).2
  | .giveBack m poisoned => ((p.release m poisoned).1, w)

def otherStep (s : Swap β ι) (tier : Tier) (use : Use ι) : Swap β ι :=
  match s.site.module.pool? tier with
  | none => s
  | some p => s.withPool tier (use.apply p s.site.world).1 (use.apply p s.site.world).2

inductive Event (ι : Type) where
  | call
  | install
  /-- Another call uses the pool of a tier. -/
  | other (tier : Tier) (use : Use ι)

def step (p : Pool (World β) ι) (s : Swap β ι) : Event ι → Swap β ι
  | .call => s.callStep
  | .install => s.installStep p
  | .other tier use => s.otherStep tier use

def run (p : Pool (World β) ι) (s : Swap β ι) (events : List (Event ι)) : Swap β ι :=
  events.foldl (step p) s

/-- A call that ends its wait finds something to lend, or a place for one instance more, unless
the pool was closed. -/
def hasRoom (s : Swap β ι) : Bool :=
  match s.stage with
  | .waiting tier _ =>
      (s.site.module.pool? tier).all fun q =>
        q.closed || !q.idle.isEmpty || decide (q.live < q.maxLive)
  | _ => true

def Event.isCall : Event ι → Bool
  | .call => true
  | _ => false

/-- There is room at every step of the call. -/
def roomy (p : Pool (World β) ι) : Swap β ι → List (Event ι) → Bool
  | _, [] => true
  | s, e :: events => (!e.isCall || s.hasRoom) && roomy p (s.step p e) events

def start (site : Site β ι) : Swap β ι := ⟨site, .readingMode, .setting⟩

/-! ## Steps in one go -/

/-- What becomes of a call that takes its next steps with nobody in between. -/
inductive Ends (bound : BoundCall) (document : Document) (now : Nat) :
    Swap β ι → Admission ι × Site β ι → Prop where
  | obtained (site : Site β ι) (installer : Installer) (tier : Tier) (m : Member ι) :
      Ends bound document now ⟨site, .obtained tier m, installer⟩
        (site.start tier m bound document)
  | failed (site : Site β ι) (installer : Installer) (e : ExecError) :
      Ends bound document now ⟨site, .failed e, installer⟩ (site.refuse e now)
  | step {s : Swap β ι} {r : Admission ι × Site β ι} (rest : Ends bound document now s.callStep r) :
      Ends bound document now s r

section Alone

variable {bound : BoundCall} {document : Document} {now : Nat} (site : Site β ι)
  (installer : Installer)

/-- To ask a pool and perhaps to wait is one checkout. -/
theorem ends_asking (tier : Tier) (again : Bool) {r : Admission ι × Site β ι}
    (h : Ends bound document now
      ⟨(site.checkoutFrom tier).2, answered tier again (site.checkoutFrom tier).1, installer⟩ r) :
    Ends bound document now ⟨site, .asking tier again, installer⟩ r := by
  apply Ends.step
  cases there : site.module.pool? tier with
  | none =>
      rw [Site.checkoutFrom, there] at h
      simp only [callStep, there]
      exact h
  | some p =>
      rw [Site.checkoutFrom_of_pool there, Pool.checkout] at h
      simp only [callStep, there]
      cases begun : p.beginCheckout site.world with
      | decided result q world =>
          rw [begun] at h
          exact h
      | waiting q =>
          apply Ends.step
          rw [begun] at h
          simp only [callStep, withPool, LoadedModule.pool?_setPool_self,
            LoadedModule.setPool_setPool]
          exact h

theorem ends_again :
    Ends bound document now ⟨site, .asking .native true, installer⟩
      (match site.checkoutFrom .native with
        | (.ok m, s) => s.start .native m bound document
        | (.error e, s) => s.refuse e now) := by
  apply ends_asking
  rcases site.checkoutFrom .native with ⟨e | m, s⟩
  · simp only [answered, Bool.not_true, Bool.and_false, Bool.false_eq_true, if_false]
    exact .failed s installer e
  · exact .obtained s installer .native m

theorem wasRetired_eq (tier : Tier) (e : ExecError) :
    site.wasRetired tier e =
      (isExhausted e && (site.module.pool? tier).any fun p => p.closed) := by
  cases e <;> rfl

/-- What a checkout leads to is what the module makes of it. -/
theorem ends_answered (tier : Tier) (result : Except ExecError (Member ι)) :
    Ends bound document now ⟨site, answered tier false result, installer⟩
      (site.afterCheckout tier result bound document now) := by
  cases result with
  | ok m => exact .obtained site installer tier m
  | error e =>
      simp only [answered, Site.afterCheckout, wasRetired_eq, Bool.not_false, Bool.and_true]
      cases exhausted : isExhausted e with
      | false => exact .failed site installer e
      | true =>
          apply Ends.step
          simp only [callStep, if_true, Bool.true_and]
          cases closed : (site.module.pool? tier).any fun p => p.closed with
          | false => exact .failed site installer e
          | true =>
              apply Ends.step
              simp only [callStep, if_true, Bool.true_and]
              cases native : site.module.native.isSome with
              | false => exact .failed site installer e
              | true => exact ends_again site installer

theorem ends_readingNative
    (prefers : site.module.liveTier? =
      (LoadedModule.tierIf .native site.module.native).or
        (LoadedModule.tierIf .interpreter site.module.interpreter)) :
    Ends bound document now ⟨site, .readingNative, installer⟩
      (site.lendLive bound document now) := by
  apply Ends.step
  unfold Site.lendLive
  rw [prefers]
  simp only [callStep]
  cases native : site.module.native with
  | some q => exact ends_asking site installer .native false (ends_answered _ installer .native _)
  | none =>
      cases interpreter : site.module.interpreter with
      | some q =>
          exact ends_asking site installer .interpreter false
            (ends_answered _ installer .interpreter _)
      | none => exact .failed site installer _

/-- A call that is not disturbed gets its instance, or fails, as a module lends it. -/
theorem ends_start :
    Ends bound document now ⟨site, .readingMode, installer⟩
      (site.lendLive bound document now) := by
  apply Ends.step
  simp only [callStep]
  cases interpreter : site.module.interpreter with
  | none =>
      simp only [Option.isNone_none, Bool.or_true, if_true]
      apply ends_readingNative
      cases mode : site.module.mode <;>
        simp [LoadedModule.liveTier?, LoadedModule.tierIf, mode, interpreter]
  | some r =>
      cases mode : site.module.mode with
      | native =>
          simp only [decide_true, Bool.true_or, if_true]
          apply ends_readingNative
          simp [LoadedModule.liveTier?, mode]
      | interpreted | compiling =>
          simp only [reduceCtorEq, decide_false, Option.isNone_some, Bool.or_self,
            Bool.false_eq_true, if_false]
          apply Ends.step
          cases closed : r.closed with
          | true =>
              simp only [callStep, interpreter, Option.any_some, closed, if_true]
              apply ends_readingNative
              simp [LoadedModule.liveTier?, mode, interpreter, closed]
          | false =>
              have live : site.module.liveTier? = some .interpreter := by
                simp [LoadedModule.liveTier?, LoadedModule.tierIf, mode, interpreter, closed]
              simp only [callStep, interpreter, Option.any_some, closed]
              unfold Site.lendLive
              rw [live]
              exact ends_asking site installer .interpreter false
                (ends_answered _ installer .interpreter _)

end Alone

/-! ## What is known at any time -/

variable {s : Swap β ι} {p : Pool (World β) ι}

/-- The three steps of an installation, with nobody in between. -/
theorem run_install (setting : s.installer = .setting) (unset : s.site.module.native = none)
    (switches : s.site.module.mode ≠ .native) (standing : s.site.module.finalized = false)
    (reference : Bool) (c : Cache) :
    s.site.module.installNative p reference c =
      (true, { (s.run p [.install, .install, .install]).site.module with
        holdsReference := reference || s.site.module.holdsReference }, c) := by
  have published : s.site.module.mode.publishNative = (.native, true) := by
    cases mode : s.site.module.mode with
    | native => exact absurd mode switches
    | interpreted | compiling => rfl
  rw [LoadedModule.installNative_of_standing standing, unset]
  simp [run, step, installStep, setting, withModule, LoadedModule.setNative, unset,
    LoadedModule.publishNative, published, LoadedModule.closeInterpreter]

/-- Steps with nobody in between are what a module does in one go: a call that has not begun is
lent an instance or refused, and native code is installed. -/
structure Whole (p : Pool (World β) ι) (s : Swap β ι) : Prop where
  call : s.stage = .readingMode → ∀ (bound : BoundCall) (document : Document) (now : Nat),
    Ends bound document now s (s.site.lendLive bound document now)
  install : s.installer = .setting → ∀ (reference : Bool) (c : Cache),
    s.site.module.installNative p reference c =
      (true, { (s.run p [.install, .install, .install]).site.module with
        holdsReference := reference || s.site.module.holdsReference }, c)

/-- How the pools of a module and its mode follow from how far the installation has come. -/
structure Fits (installer : Installer) (m : LoadedModule ω ι) : Prop where
  standing : m.finalized = false
  interpreter : ∃ r, m.interpreter = some r ∧ r.Reliable ∧ (r.closed = true ↔ installer = .done)
  unset : installer = .setting → m.native = none
  native : installer ≠ .setting → ∃ q, m.native = some q ∧ q.Reliable ∧ q.closed = false
  mode : m.mode = .native → installer ≠ .setting

/-- What a call knows of the installation. -/
def Stage.Fits (installer : Installer) : Stage ι → Prop
  | .readingNative | .fallingBack _ => installer ≠ .setting
  | .asking tier again | .waiting tier again =>
      (tier = .native → installer ≠ .setting) ∧ (again = true → tier = .native)
  | .checking tier _ => tier = .interpreter ∧ installer = .done
  | .failed _ => False
  | .readingMode | .readingFlag | .obtained .. => True

structure Sound (s : Swap β ι) : Prop where
  module : Swap.Fits s.installer s.site.module
  stage : s.stage.Fits s.installer

/-! ### Modules -/

section Modules

variable {installer : Installer} {m : LoadedModule ω ι}

/-- The pool of a tier that a call may ask.  Only the interpreter's is ever closed. -/
theorem Fits.pool (h : Swap.Fits installer m) {tier : Tier}
    (there : tier = .native → installer ≠ .setting) :
    ∃ q, m.pool? tier = some q ∧ q.Reliable ∧
      (q.closed = true → tier = .interpreter ∧ installer = .done) := by
  cases tier with
  | interpreter =>
      obtain ⟨r, present, reliable, closed⟩ := h.interpreter
      exact ⟨r, present, reliable, fun isClosed => ⟨rfl, closed.mp isClosed⟩⟩
  | native =>
      obtain ⟨q, present, reliable, isOpen⟩ := h.native (there rfl)
      exact ⟨q, present, reliable, fun isClosed => nomatch isOpen.symm.trans isClosed⟩

theorem Fits.setPool (h : Swap.Fits installer m) {tier : Tier} {q r : Pool ω ι}
    (present : m.pool? tier = some q) (lends : q.Lends r) :
    Swap.Fits installer (m.setPool tier r) := by
  cases tier with
  | interpreter =>
      refine ⟨h.standing, ⟨r, rfl, ?_⟩, h.unset, h.native, h.mode⟩
      obtain ⟨own, same, reliable, closed⟩ := h.interpreter
      cases present.symm.trans same
      exact ⟨lends.reliable reliable, by rw [lends.closed, closed]⟩
  | native =>
      refine ⟨h.standing, h.interpreter, ?_, fun isSet => ⟨r, rfl, ?_⟩, h.mode⟩
      · intro setting
        cases present.symm.trans (h.unset setting)
      · obtain ⟨own, same, reliable, isOpen⟩ := h.native isSet
        cases present.symm.trans same
        exact ⟨lends.reliable reliable, lends.closed.trans isOpen⟩

end Modules

/-! ### The installation -/

theorem Stage.Fits.installed {first next : Installer} {stage : Stage ι}
    (h : stage.Fits first) (isSet : first ≠ .setting → next ≠ .setting)
    (isDone : first = .done → next = .done) : stage.Fits next := by
  cases stage with
  | readingNative | fallingBack => exact isSet h
  | asking tier again | waiting tier again => exact ⟨isSet ∘ h.1, h.2⟩
  | checking tier e => exact ⟨h.1, isDone h.2⟩
  | failed e => exact h
  | readingMode | readingFlag | obtained => trivial

theorem Sound.install (h : s.Sound) (reliable : p.Reliable) (isOpen : p.closed = false) :
    (s.installStep p).Sound := by
  obtain ⟨r, present, works, closed⟩ := h.module.interpreter
  cases stage : s.installer with
  | setting =>
      have unset := h.module.unset stage
      have stillOpen : r.closed = true ↔ Installer.publishing = .done := by
        simpa [stage] using closed
      simp only [installStep, stage, withModule, LoadedModule.setNative, unset]
      constructor
      · exact {
          standing := h.module.standing
          interpreter := ⟨r, present, works, stillOpen⟩
          unset := by simp
          native := fun _ => ⟨p, rfl, reliable, isOpen⟩
          mode := by simp }
      · apply h.stage.installed <;> simp [stage]
  | publishing =>
      have isSet := h.module.native (by simp [stage])
      have stillOpen : r.closed = true ↔ Installer.closing = .done := by
        simpa [stage] using closed
      simp only [installStep, stage]
      constructor
      · exact {
          standing := h.module.standing
          interpreter := ⟨r, present, works, stillOpen⟩
          unset := by simp
          native := fun _ => isSet
          mode := by simp }
      · apply h.stage.installed <;> simp [stage]
  | closing =>
      have isSet := h.module.native (by simp [stage])
      have retired : (s.site.module.closeInterpreter).interpreter = some r.close.1 := by
        simp [LoadedModule.closeInterpreter, present]
      simp only [installStep, stage]
      constructor
      · exact {
          standing := h.module.standing
          interpreter := ⟨r.close.1, retired, works, iff_of_true rfl rfl⟩
          unset := by simp
          native := fun _ => isSet
          mode := by simp }
      · apply h.stage.installed <;> simp
  | done =>
      simp only [installStep, stage]
      exact h

/-! ### Other calls -/

theorem Use.lends (use : Use ι) (q : Pool ω ι) (w : ω) : q.Lends (use.apply q w).1 := by
  cases use with
  | ask =>
      unfold Use.apply
      rcases q.beginCheckout_cases w with ⟨result, r, after, begun, answers⟩ | ⟨begun, _, _⟩
      · rw [begun]
        exact q.lends_asked.trans answers.lends
      · rw [begun]
        exact q.lends_asked
  | endWait => exact (q.endCheckout_answers w).lends
  | giveBack m poisoned => exact .of_used (q.release_used m poisoned) (q.release_follows m poisoned)

theorem Sound.other (h : s.Sound) (tier : Tier) (use : Use ι) : (s.otherStep tier use).Sound := by
  unfold otherStep
  cases present : s.site.module.pool? tier with
  | none => exact h
  | some q => exact ⟨h.module.setPool present (use.lends q s.site.world), h.stage⟩

/-! ### The call -/

theorem Sound.call (h : s.Sound) (room : s.hasRoom = true) : s.callStep.Sound := by
  have known := h.stage
  obtain ⟨r, present, works, closed⟩ := h.module.interpreter
  cases stage : s.stage with
  | readingMode =>
      simp only [callStep, stage]
      refine ⟨h.module, ?_⟩
      dsimp only
      split
      · rename_i native
        have native : s.site.module.mode = .native := by simpa [present] using native
        exact h.module.mode native
      · trivial
  | readingFlag =>
      simp only [callStep, stage]
      refine ⟨h.module, ?_⟩
      simp only [present, Option.any_some]
      split
      · rename_i isClosed
        have done := closed.mp isClosed
        show s.installer ≠ .setting
        rw [done]
        decide
      · exact ⟨nofun, nofun⟩
  | readingNative =>
      rw [stage] at known
      obtain ⟨q, isSet, _⟩ := h.module.native known
      simp only [callStep, stage, isSet, Option.isSome_some, if_true]
      exact ⟨h.module, fun _ => known, nofun⟩
  | asking tier again =>
      rw [stage] at known
      obtain ⟨q, there, reliable, _⟩ := h.module.pool known.1
      simp only [callStep, stage, there]
      rcases q.beginCheckout_reliable reliable s.site.world with
        ⟨m, next, after, begun, lends⟩ | begun
      · rw [begun]
        exact ⟨h.module.setPool there lends, trivial⟩
      · rw [begun]
        exact ⟨h.module.setPool there q.lends_asked, known⟩
  | waiting tier again =>
      rw [stage] at known
      obtain ⟨q, there, reliable, isClosed⟩ := h.module.pool known.1
      have answers := q.endCheckout_answers s.site.world
      simp only [callStep, stage, there]
      refine ⟨h.module.setPool there answers.lends, ?_⟩
      rcases answers.reliable reliable with ⟨m, lent⟩ | ⟨exhausted, idle, full⟩
      · rw [lent]
        trivial
      · rw [exhausted]
        have closes : q.closed = true := by
          rw [hasRoom, stage] at room
          have room : q.closed = true ∨ q.live < q.maxLive := by simpa [there, idle] using room
          rcases full with isClosed | full
          · exact isClosed
          · exact room.resolve_right (Nat.not_lt.mpr full)
        obtain ⟨rfl, done⟩ := isClosed closes
        have first : again = false := Bool.eq_false_iff.mpr fun isSecond => nomatch known.2 isSecond
        rw [first]
        exact ⟨rfl, done⟩
  | checking tier e =>
      rw [stage] at known
      obtain ⟨rfl, done⟩ := known
      have isClosed := closed.mpr done
      have same : s.site.module.pool? .interpreter = some r := present
      simp only [callStep, stage, same, Option.any_some, isClosed, if_true]
      refine ⟨h.module, ?_⟩
      show s.installer ≠ .setting
      rw [done]
      decide
  | fallingBack e =>
      rw [stage] at known
      obtain ⟨q, isSet, _⟩ := h.module.native known
      simp only [callStep, stage, isSet, Option.isSome_some, if_true]
      exact ⟨h.module, fun _ => known, fun _ => rfl⟩
  | obtained tier m =>
      simp only [callStep, stage]
      exact h
  | failed e =>
      rw [stage] at known
      exact known.elim

/-! ## Runs -/

/-- A call takes no more than so many steps. -/
@[simp] def Stage.left : Stage ι → Nat
  | .readingMode => 9
  | .readingFlag => 8
  | .readingNative => 7
  | .asking _ false => 6
  | .waiting _ false => 5
  | .checking .. => 4
  | .fallingBack _ => 3
  | .asking _ true => 2
  | .waiting _ true => 1
  | .obtained .. | .failed _ => 0

theorem left_answered (tier : Tier) (again : Bool) (result : Except ExecError (Member ι)) :
    (answered tier again result).left < (Stage.waiting (ι := ι) tier again).left := by
  unfold answered
  cases again with
  | true => cases result <;> simp
  | false =>
      cases result with
      | ok m => simp
      | error e =>
          dsimp only
          split <;> simp

theorem left_waiting (tier : Tier) (again : Bool) :
    (Stage.waiting (ι := ι) tier again).left < (Stage.asking (ι := ι) tier again).left := by
  cases again <;> simp

theorem left_callStep (s : Swap β ι) : s.callStep.stage.left ≤ s.stage.left - 1 := by
  cases stage : s.stage with
  | readingMode =>
      simp only [callStep, stage]
      split <;> simp
  | readingFlag =>
      simp only [callStep, stage]
      split <;> simp
  | readingNative =>
      simp only [callStep, stage]
      split
      · simp
      · split <;> simp
  | asking tier again =>
      have waits := left_waiting (ι := ι) tier again
      simp only [callStep, stage]
      split
      · exact Nat.zero_le _
      · split
        · exact Nat.le_sub_one_of_lt waits
        · rename_i result _ _ _
          have answers := left_answered tier again result
          exact Nat.le_sub_one_of_lt (Nat.lt_trans answers waits)
  | waiting tier again =>
      simp only [callStep, stage]
      split
      · exact Nat.zero_le _
      · exact Nat.le_sub_one_of_lt (left_answered tier again _)
  | checking tier e =>
      simp only [callStep, stage]
      split <;> simp
  | fallingBack e =>
      simp only [callStep, stage]
      split <;> simp
  | obtained tier m => simp [callStep, stage]
  | failed e => simp [callStep, stage]

theorem Sound.step (h : s.Sound) (reliable : p.Reliable) (isOpen : p.closed = false)
    (e : Event ι) (room : (!e.isCall || s.hasRoom) = true) : (s.step p e).Sound := by
  cases e with
  | call => exact h.call room
  | install => exact h.install reliable isOpen
  | other tier use => exact h.other tier use

theorem left_step (p : Pool (World β) ι) (s : Swap β ι) (e : Event ι) :
    (s.step p e).stage.left ≤ s.stage.left - if e.isCall then 1 else 0 := by
  cases e with
  | call => exact s.left_callStep
  | install =>
      show (s.installStep p).stage.left ≤ s.stage.left
      unfold installStep
      split <;> exact Nat.le_refl _
  | other tier use =>
      show (s.otherStep tier use).stage.left ≤ s.stage.left
      unfold otherStep
      split <;> exact Nat.le_refl _

theorem Sound.run (h : s.Sound) (reliable : p.Reliable) (isOpen : p.closed = false)
    (events : List (Event ι)) (room : roomy p s events = true) :
    (s.run p events).Sound ∧
      (s.run p events).stage.left ≤ s.stage.left - events.countP Event.isCall := by
  induction events generalizing s with
  | nil => exact ⟨h, Nat.le_refl _⟩
  | cons e events ih =>
      obtain ⟨now, later⟩ := Bool.and_eq_true_iff.mp room
      obtain ⟨sound, left⟩ := ih (h.step reliable isOpen e now) later
      have first := s.left_step p e
      refine ⟨sound, ?_⟩
      rw [List.countP_cons]
      exact Nat.le_trans left (by omega)

theorem sound_start {site : Site β ι} {mode : Mode} (serves : site.module.Serves mode)
    (interpreted : mode.tier = .interpreter)
    (works : ∀ r, site.module.interpreter = some r → r.Reliable) : (start site).Sound := by
  obtain ⟨_, r, present, isOpen, _⟩ := serves.liveTier
  rw [interpreted] at present
  have unset : site.module.native = none := by
    cases native : site.module.native with
    | none => rfl
    | some q =>
        have tier := serves.native_iff.mp (by rw [native]; rfl)
        cases interpreted.symm.trans tier
  refine ⟨⟨serves.standing, ⟨r, present, works r present, ?_⟩, fun _ => unset, nofun, ?_⟩, trivial⟩
  · exact iff_of_false (Bool.eq_false_iff.mp isOpen) nofun
  · intro native
    rw [← serves.mode_eq, show site.module.mode = .native from native] at interpreted
    cases interpreted

theorem Sound.whole (h : s.Sound) (p : Pool (World β) ι) : s.Whole p where
  call beginning bound document now := by
    obtain ⟨site, stage, installer⟩ := s
    cases beginning
    exact ends_start site installer
  install setting reference c :=
    have switches : s.site.module.mode ≠ .native := fun native => h.module.mode native setting
    run_install setting (h.module.unset setting) switches h.module.standing reference c

/-- The hot swap never shows as an error.  Let a module be served by the interpreter, and let
native code be installed while a call is on its way, in any order of their steps, with other calls
in between.  If no factory fails and no pool that is open is exhausted when the call asks it for
the last time, the call does not fail, and after nine steps of its own it has an instance.  The
steps are those of the module: taken with nobody in between they are a call and an installation. -/
theorem run_obtains {site : Site β ι} {mode : Mode} (serves : site.module.Serves mode)
    (interpreted : mode.tier = .interpreter)
    (works : ∀ r, site.module.interpreter = some r → r.Reliable)
    (p : OpenPool (World β) ι .native) (reliable : p.pool.Reliable) (events : List (Event ι))
    (room : roomy p.pool (start site) events = true) :
    let t := (start site).run p.pool events
    (∀ e, t.stage ≠ .failed e) ∧
      (9 ≤ events.countP Event.isCall → ∃ tier m, t.stage = .obtained tier m) ∧
      t.Whole p.pool := by
  intro t
  obtain ⟨sound, left⟩ := (sound_start serves interpreted works).run reliable p.isOpen events room
  have never : ∀ e, t.stage ≠ .failed e := by
    intro e failed
    have known := sound.stage
    rw [show ((start site).run p.pool events).stage = .failed e from failed] at known
    exact known
  refine ⟨never, fun steps => ?_, sound.whole p.pool⟩
  have left : t.stage.left ≤ (start site).stage.left - events.countP Event.isCall := left
  have ended : t.stage.left = 0 := by
    have first : (start site).stage.left = 9 := rfl
    omega
  cases stage : t.stage with
  | obtained tier m => exact ⟨tier, m, rfl⟩
  | failed e => exact absurd stage (never e)
  | asking tier again | waiting tier again => cases again <;> simp [stage] at ended
  | readingMode | readingFlag | readingNative | checking | fallingBack => simp [stage] at ended

section Meanwhile

open Dispatch (anyLaunch anyPool beforeSwap)

/-- Another call has the only instance of the interpreter, and the call waits for it while native
code takes over. -/
def meanwhile : List (Event Unit) :=
  [.other .interpreter .ask, .call, .call, .call, .install, .install, .install, .call, .call,
    .call, .call, .call, .call]

theorem run_obtains_meanwhile :
    (∀ r, beforeSwap.site.module.interpreter = some r → r.Reliable) ∧
    (anyPool .native).pool.Reliable ∧
    roomy (anyPool .native).pool (start beforeSwap.site) meanwhile = true ∧
    ∃ tier m, ((start beforeSwap.site).run (anyPool .native).pool meanwhile).stage =
      .obtained tier m := by
  have works : ∀ r, beforeSwap.site.module.interpreter = some r → r.Reliable := by
    intro r present w
    cases present
    exact ⟨(), w, rfl⟩
  have reliable : (anyPool .native).pool.Reliable := fun w => ⟨(), w, rfl⟩
  have room : roomy (anyPool .native).pool (start beforeSwap.site) meanwhile = true := by
    decide +kernel
  have obtains := run_obtains anyLaunch.serves rfl works (anyPool .native) reliable meanwhile room
  exact ⟨works, reliable, room, obtains.2.1 (by decide)⟩

end Meanwhile

end Swap

end TieredUdf
