import TieredUdf.Proofs.Module.Routing

/-! # Dispatch from launch to drain

A module is launched on the interpreter or with native code, and until it drains its compile is
claimed, native code is installed and calls come and go, in any order and overlapping.  Its mode
follows from these events alone, it never moves down, and it decides which tier serves a call.
-/

namespace TieredUdf

open Text (Duration)

variable {β ι : Type}

/-- How far up a mode is. -/
def Mode.rank : Mode → Nat
  | .interpreted => 0
  | .compiling => 1
  | .native => 2

theorem Mode.rank_le_beginCompile (mode : Mode) : mode.rank ≤ mode.beginCompile.1.rank := by
  cases mode <;> decide

theorem Mode.rank_le_publishNative (mode : Mode) : mode.rank ≤ mode.publishNative.1.rank := by
  cases mode <;> decide

/-! ## Runs -/

/-- How a module begins: with an open pool of the interpreter, or with one of native code. -/
inductive Launch (β ι : Type) where
  | interpreted (d : Descriptor) (pool : OpenPool (World β) ι .interpreter)
      (compile : CompileDiagnostics) (settled : Bool) (now : Nat)
  | native (d : Descriptor) (pool : OpenPool (World β) ι .native)
      (compile : CompileDiagnostics) (holdsReference : Bool) (now : Nat)

namespace Launch

def module : Launch β ι → LoadedModule (World β) ι
  | .interpreted d p compile settled now => .interpreted d p.pool compile settled now
  | .native d p compile holdsReference now => .ofNative d p.pool compile holdsReference now

def isNative : Launch β ι → Bool
  | .interpreted .. => false
  | .native .. => true

def traffic (l : Launch β ι) (cache : Cache) (world : World β) : Traffic β ι :=
  .ofSite ⟨l.module, cache, world⟩

end Launch

namespace Dispatch

inductive Event (β ι : Type) where
  | beginCompile
  | install (p : OpenPool (World β) ι .native) (reference : Bool)
  /-- A whole call. -/
  | invoke (document : Document) (args : Arguments) (elapsed : Duration) (now : Nat)
  /-- A call arrives; others may overlap it. -/
  | begin (document : Document) (args : Arguments) (now : Nat)
  | resume (number now : Nat)
  | finish (number : Nat) (elapsed : Duration) (now : Nat)
  | elsewhere (cache : Cache) (world : World β)

inductive Answer where
  | begun (isFirst : Bool)
  | installed (isFirst : Bool)
  /-- A call has got an instance of a tier. -/
  | reached (tier : Tier)
  | other
  deriving DecidableEq, Repr

def Answer.ofTier : Option Tier → Answer
  | some tier => .reached tier
  | none => .other

def step (caller : Caller ι) (t : Traffic β ι) : Event β ι → Answer × Traffic β ι
  | .beginCompile =>
      let begun := t.site.module.beginCompile
      (.begun begun.2, { t with site := { t.site with module := begun.1 } })
  | .install p reference =>
      (.installed (t.site.module.installNative p.pool reference t.site.cache).1,
        t.step caller (.install p.pool reference))
  | .invoke document args elapsed now =>
      let entered := (t.site.enter document args now).1
      let ended := t.site.invoke caller document args elapsed now
      (.ofTier (Site.reachedTier (.decided entered)),
        { t with site := ended.2, results := ended.1 :: t.results })
  | .begin document args now =>
      (.ofTier (Site.reachedTier (t.site.beginCall document args now).1),
        t.step caller (.begin document args now))
  | .resume number now =>
      let resumed := t.waiting[number]?.map fun w =>
        (t.site.resumeCall w.tier w.bound w.document now).1
      (.ofTier (resumed.bind fun admission => Site.reachedTier (.decided admission)),
        t.step caller (.resume number now))
  | .finish number elapsed now => (.other, t.step caller (.finish number elapsed now))
  | .elsewhere cache world => (.other, t.step caller (.elsewhere cache world))

def run (caller : Caller ι) (t : Traffic β ι) (events : List (Event β ι)) : Traffic β ι :=
  events.foldl (fun t event => (step caller t event).2) t

def answers (caller : Caller ι) : Traffic β ι → List (Event β ι) → List Answer
  | _, [] => []
  | t, event :: events =>
      (step caller t event).1 :: answers caller (step caller t event).2 events

/-! ### What every event does to the mode -/

def Event.isInstall : Event β ι → Bool
  | .install .. => true
  | _ => false

def Event.nextMode (mode : Mode) : Event β ι → Mode
  | .beginCompile => mode.beginCompile.1
  | .install .. => mode.publishNative.1
  | _ => mode

/-- What an event may answer in a mode. -/
def Answer.Fits (mode : Mode) : Event β ι → Answer → Prop
  | .beginCompile, a => a = .begun mode.beginCompile.2
  | .install .., a => a = .installed mode.publishNative.2
  | _, a => a = .other ∨ a = .reached mode.tier

theorem fits_ofTier {mode : Mode} {found : Option Tier}
    (h : ∀ tier, found = some tier → tier = mode.tier) :
    Answer.ofTier found = .other ∨ Answer.ofTier found = .reached mode.tier := by
  cases found with
  | none => exact Or.inl rfl
  | some tier => exact Or.inr (congrArg Answer.reached (h tier rfl))

variable {mode : Mode} {t : Traffic β ι}

theorem Answer.Fits.tier_eq {event : Event β ι} {tier : Tier}
    (h : Answer.Fits mode event (.reached tier)) : tier = mode.tier := by
  cases event with
  | beginCompile => exact nomatch h
  | install p reference => exact nomatch h
  | invoke | begin | resume | finish | elsewhere =>
      have either : Answer.reached tier = .other ∨ Answer.reached tier = .reached mode.tier := h
      simpa using either

theorem serves_admitted {r : Admission ι × Site β ι} (h : r.2.module.Serves mode) :
    (t.admitted r).site.module.Serves mode := by
  obtain ⟨e | call, s⟩ := r <;> exact h

/-- One event in a mode: what it answers, and that the module serves calls in the next mode. -/
theorem step_serves (caller : Caller ι) (h : t.site.module.Serves mode) (event : Event β ι) :
    Answer.Fits mode event (step caller t event).1 ∧
      (step caller t event).2.site.module.Serves (event.nextMode mode) := by
  cases event with
  | beginCompile =>
      obtain ⟨serves, begun⟩ := h.beginCompile
      exact ⟨congrArg Answer.begun begun, serves⟩
  | install p reference =>
      obtain ⟨serves, installed⟩ := h.installNative p reference t.site.cache
      exact ⟨congrArg Answer.installed installed, serves⟩
  | invoke document args elapsed now =>
      have entered := Site.routed_enter h document args now
      exact ⟨fits_ofTier fun tier => Site.reachedTier_decided entered,
        (Site.routed_invoke h caller document args elapsed now).2⟩
  | begin document args now =>
      obtain ⟨reached, serves⟩ := Site.routed_beginCall h document args now
      refine ⟨fits_ofTier reached, ?_⟩
      dsimp only [step, Traffic.step]
      revert serves
      rcases t.site.beginCall document args now with ⟨admission | ⟨tier, bound⟩, s⟩ <;>
        intro serves
      · exact serves_admitted (r := (admission, s)) serves
      · exact serves
  | resume number now =>
      dsimp only [step, Traffic.step]
      cases t.waiting[number]? with
      | none => exact ⟨Or.inl rfl, h⟩
      | some w =>
          have resumed := Site.routed_resumeCall h w.tier w.bound w.document now
          exact ⟨fits_ofTier fun tier => Site.reachedTier_decided resumed,
            serves_admitted resumed.2⟩
  | finish number elapsed now =>
      dsimp only [step, Traffic.step]
      cases t.running[number]? with
      | none => exact ⟨Or.inl rfl, h⟩
      | some call => exact ⟨Or.inl rfl, Site.serves_finish h caller call elapsed now⟩
  | elsewhere cache world => exact ⟨Or.inl rfl, h⟩

/-! ### Modes along a run -/

def modeAfter (mode : Mode) (events : List (Event β ι)) : Mode :=
  events.foldl Event.nextMode mode

theorem rank_le_nextMode (mode : Mode) (event : Event β ι) :
    mode.rank ≤ (event.nextMode mode).rank := by
  cases event with
  | beginCompile => exact mode.rank_le_beginCompile
  | install p reference => exact mode.rank_le_publishNative
  | invoke | begin | resume | finish | elsewhere => exact Nat.le_refl _

theorem rank_le_modeAfter (mode : Mode) (events : List (Event β ι)) :
    mode.rank ≤ (modeAfter mode events).rank := by
  induction events generalizing mode with
  | nil => exact Nat.le_refl _
  | cons event events ih => exact Nat.le_trans (rank_le_nextMode mode event) (ih _)

/-- The mode is native from the start or from the first installation on. -/
theorem modeAfter_native_iff (mode : Mode) (events : List (Event β ι)) :
    modeAfter mode events = .native ↔
      mode = .native ∨ ∃ event ∈ events, event.isInstall = true := by
  induction events generalizing mode with
  | nil => simp [modeAfter]
  | cons event events ih =>
      have hcons : modeAfter mode (event :: events) = modeAfter (event.nextMode mode) events := rfl
      have hnext : event.nextMode mode = .native ↔ mode = .native ∨ event.isInstall = true := by
        cases event <;> cases mode <;>
          simp [Event.nextMode, Event.isInstall, Mode.beginCompile, Mode.publishNative]
      rw [hcons, ih, hnext]
      simp [or_assoc]

theorem run_serves (caller : Caller ι) (h : t.site.module.Serves mode)
    (events : List (Event β ι)) :
    (run caller t events).site.module.Serves (modeAfter mode events) := by
  induction events generalizing t mode with
  | nil => exact h
  | cons event events ih => exact ih (step_serves caller h event).2

/-- The compile is free to be claimed. -/
def claims : Mode → Nat
  | .interpreted => 1
  | _ => 0

/-- An installation will change the mode. -/
def installations : Mode → Nat
  | .native => 0
  | _ => 1

/-- What an event uses up of the mode, when only claims and installations are counted. -/
theorem uses_step (kind : Answer) (left : Mode → Nat) (telling : ∀ tier, kind ≠ .reached tier)
    (given : kind ≠ .other)
    (begun : ∀ mode : Mode, (if Answer.begun mode.beginCompile.2 = kind then 1 else 0) +
      left mode.beginCompile.1 ≤ left mode)
    (installed : ∀ mode : Mode, (if Answer.installed mode.publishNative.2 = kind then 1 else 0) +
      left mode.publishNative.1 ≤ left mode)
    (event : Event β ι) {a : Answer} (fits : a.Fits mode event) :
    (if a = kind then 1 else 0) + left (event.nextMode mode) ≤ left mode := by
  cases event with
  | beginCompile =>
      have ha : a = .begun mode.beginCompile.2 := fits
      rw [ha]
      exact begun mode
  | install p reference =>
      have ha : a = .installed mode.publishNative.2 := fits
      rw [ha]
      exact installed mode
  | invoke | begin | resume | finish | elsewhere =>
      have ha : a = .other ∨ a = .reached mode.tier := fits
      have uncounted : a ≠ kind := by
        rintro rfl
        exact ha.elim given (telling mode.tier)
      simp [uncounted, Event.nextMode]

theorem claims_step (event : Event β ι) {a : Answer} (fits : a.Fits mode event) :
    (if a = .begun true then 1 else 0) + claims (event.nextMode mode) ≤ claims mode := by
  refine uses_step (.begun true) claims nofun nofun (fun mode => ?_) (fun mode => ?_) event fits <;>
    cases mode <;> decide

theorem installations_step (event : Event β ι) {a : Answer} (fits : a.Fits mode event) :
    (if a = .installed true then 1 else 0) + installations (event.nextMode mode) ≤
      installations mode := by
  refine uses_step (.installed true) installations nofun nofun (fun mode => ?_) (fun mode => ?_)
    event fits <;> cases mode <;> decide

/-- What every answer of one kind uses up of the mode bounds how many there are. -/
theorem count_answers_le (caller : Caller ι) {kind : Answer} {left : Mode → Nat}
    (uses : ∀ (mode : Mode) (event : Event β ι) (a : Answer), a.Fits mode event →
      (if a = kind then 1 else 0) + left (event.nextMode mode) ≤ left mode)
    (h : t.site.module.Serves mode) (events : List (Event β ι)) :
    (answers caller t events).count kind ≤ left mode := by
  induction events generalizing t mode with
  | nil => exact Nat.zero_le _
  | cons event events ih =>
      obtain ⟨fits, serves⟩ := step_serves caller h event
      have first := uses mode event _ fits
      have rest := ih serves
      rw [answers, List.count_cons]
      simp only [beq_iff_eq]
      omega

end Dispatch

namespace Launch

def mode : Launch β ι → Mode
  | .interpreted .. => .interpreted
  | .native .. => .native

theorem serves (l : Launch β ι) : l.module.Serves l.mode := by
  cases l with
  | interpreted d p compile settled now =>
      refine ⟨rfl, rfl, rfl, ?_, rfl, nofun, nofun⟩
      intro tier q hq
      cases tier with
      | native => cases hq
      | interpreter =>
          cases hq
          exact ⟨p.tier_eq, fun _ => p.isOpen, fun other => absurd rfl other⟩
  | native d p compile holdsReference now =>
      refine ⟨rfl, rfl, rfl, ?_, rfl, fun _ => rfl, fun _ => rfl⟩
      intro tier q hq
      cases tier with
      | interpreter => cases hq
      | native =>
          cases hq
          exact ⟨p.tier_eq, fun _ => p.isOpen, fun other => absurd rfl other⟩

/-- Whether a native pool has been installed, at the launch or by one of some events. -/
def Installed (l : Launch β ι) (events : List (Dispatch.Event β ι)) : Prop :=
  l.isNative = true ∨ ∃ event ∈ events, event.isInstall = true

theorem installed_iff (l : Launch β ι) (events : List (Dispatch.Event β ι)) :
    l.Installed events ↔ (Dispatch.modeAfter l.mode events).tier = .native := by
  have hmode : ∀ m : Mode, m.tier = .native ↔ m = .native := by
    intro m
    cases m <;> decide
  have hlaunch : l.mode = .native ↔ l.isNative = true := by
    cases l <;> simp [mode, isNative]
  rw [hmode, Dispatch.modeAfter_native_iff, hlaunch, Installed]

end Launch

namespace Dispatch

/-- Between its launch and its drain, whatever happens in whatever order, the mode of a module
never moves down; its compile is claimed at most once, and not when the mode is native; at most one
installation changes the mode.  A call that gets an instance gets it from native code exactly when
a native pool has been installed; the interpreter's pool is closed and empty then; and at any time
there is an open pool for the next call, that of its tier. -/
theorem run_dispatches (caller : Caller ι) (launch : Launch β ι) (cache : Cache)
    (world : World β) (events : List (Event β ι)) :
    let start := launch.traffic cache world
    let t := run caller start events
    (∀ more, t.site.module.mode.rank ≤ (run caller t more).site.module.mode.rank) ∧
    ((answers caller start events).count (.begun true) ≤ 1 ∧
      (t.site.module.mode = .native → t.site.module.beginCompile.2 = false)) ∧
    (answers caller start events).count (.installed true) ≤ 1 ∧
    (∀ event tier, (step caller t event).1 = .reached tier →
      (tier = .native ↔ launch.Installed events)) ∧
    (∀ document args elapsed now i,
      (t.site.invoke caller document args elapsed now).1 = .ok i →
      (i.tier = .native ↔ launch.Installed events)) ∧
    (launch.Installed events →
      ∀ p, t.site.module.interpreter = some p → p.closed = true ∧ p.idle = []) ∧
    ∃ tier p, t.site.module.liveTier? = some tier ∧ t.site.module.pool? tier = some p ∧
      p.closed = false ∧ p.tier = tier := by
  intro start t
  have launched : start.site.module.Serves launch.mode := launch.serves
  have serves : t.site.module.Serves (modeAfter launch.mode events) :=
    run_serves caller launched events
  have tier_iff := launch.installed_iff events
  have claimed := count_answers_le caller (fun _ event _ => claims_step event) launched events
  have installed :=
    count_answers_le caller (fun _ event _ => installations_step event) launched events
  refine ⟨?_, ⟨?_, ?_⟩, ?_, ?_, ?_, ?_, ?_⟩
  · intro more
    have later := run_serves caller serves more
    rw [serves.mode_eq, later.mode_eq]
    exact rank_le_modeAfter _ more
  · exact Nat.le_trans claimed (by cases launch.mode <;> decide)
  · intro native
    simp [LoadedModule.beginCompile, Mode.beginCompile, native]
  · exact Nat.le_trans installed (by cases launch.mode <;> decide)
  · intro event tier reached
    have fits := (step_serves caller serves event).1
    rw [reached] at fits
    rw [tier_iff, fits.tier_eq]
  · intro document args elapsed now i ended
    have htier := (Site.routed_invoke serves caller document args elapsed now).1 i ended
    rw [htier, tier_iff]
  · intro isInstalled p hp
    have hnative := tier_iff.mp isInstalled
    exact (serves.routed .interpreter p hp).retired (by rw [hnative]; decide)
  · obtain ⟨live, p, hp, isOpen, htier⟩ := serves.liveTier
    exact ⟨_, p, live, hp, isOpen, htier⟩

section SwapUnderLoad

def anyPool (tier : Tier) : OpenPool (World Unit) Unit tier :=
  ⟨.create ⟨"m", "1"⟩ tier (fun w => (.ok (), w)) 1 1 (.ofMilliseconds 1), rfl, rfl⟩

def anyLaunch : Launch Unit Unit :=
  .interpreted (.ofBytecode ⟨"m", "1"⟩ "run" [] [] [] default default) (anyPool .interpreter)
    (.initial .pending none) false 0

def silent : Caller Unit := fun _ _ => .done (.ok [], ())

/-- One call holds the only instance of the interpreter and another one waits for it when native
code is installed.  The one that waits goes on there, and the first one ends as it began. -/
def swapUnderLoad : List (Event Unit Unit) :=
  [.beginCompile, .begin (.bare "a" .zero) [] 1, .begin (.bare "b" .zero) [] 2, .beginCompile,
    .install (anyPool .native) false, .resume 0 3, .finish 0 (.ofMilliseconds 1) 4,
    .install (anyPool .native) false, .finish 0 (.ofMilliseconds 1) 5]

def beforeSwap : Traffic Unit Unit := anyLaunch.traffic (.inMemory 0) ⟨.empty, ()⟩

def anyCall : Event Unit Unit := .invoke (.bare "c" .zero) [] (.ofMilliseconds 1) 6

theorem run_dispatches_swapUnderLoad :
    answers silent beforeSwap swapUnderLoad =
      [.begun true, .reached .interpreter, .other, .begun false, .installed true,
        .reached .native, .other, .installed false, .other] ∧
    (step silent (run silent beforeSwap swapUnderLoad) anyCall).1 = .reached .native ∧
    anyLaunch.Installed swapUnderLoad ∧
    ∃ p, (run silent beforeSwap swapUnderLoad).site.module.interpreter = some p ∧
      p.closed = true ∧ p.idle = [] := by
  have told : answers silent beforeSwap swapUnderLoad =
      [.begun true, .reached .interpreter, .other, .begun false, .installed true,
        .reached .native, .other, .installed false, .other] := by decide +kernel
  have reached : (step silent (run silent beforeSwap swapUnderLoad) anyCall).1 =
      .reached .native := by decide +kernel
  have present : (run silent beforeSwap swapUnderLoad).site.module.interpreter.isSome := by
    decide +kernel
  obtain ⟨p, hp⟩ := Option.isSome_iff_exists.mp present
  have dispatches := run_dispatches silent anyLaunch (.inMemory 0) ⟨.empty, ()⟩ swapUnderLoad
  have installed : anyLaunch.Installed swapUnderLoad :=
    (dispatches.2.2.2.1 anyCall .native reached).mp rfl
  exact ⟨told, reached, installed, p, hp, dispatches.2.2.2.2.2.1 installed p hp⟩

end SwapUnderLoad

end Dispatch

end TieredUdf
