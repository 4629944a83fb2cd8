import TieredUdf.Proofs.Engine.Intake

/-! # What a compiler is asked

Only the step of a job that is about to compile asks the compiler anything.  Everything else that
happens to an engine, registrations included, goes the same way with any other compiler.
-/

namespace TieredUdf

variable {β ι : Type}

namespace Engine

/-- The same engine with another compiler in its backend. -/
def withCompile (e : Engine β ι)
    (compile : List UInt8 → World β → Except CompileError (List UInt8) × World β) : Engine β ι :=
  { e with backend := e.backend.map fun b => { b with compile := compile } }

variable (compile : List UInt8 → World β → Except CompileError (List UInt8) × World β)

theorem withCompile_modules (e : Engine β ι) : (e.withCompile compile).modules = e.modules := rfl

theorem withCompile_jobs (e : Engine β ι) : (e.withCompile compile).jobs = e.jobs := rfl

theorem withCompile_backend (e : Engine β ι) :
    (e.withCompile compile).backend = e.backend.map fun b => { b with compile := compile } := rfl

theorem number?_withCompile (e : Engine β ι) (key : ModuleKey) :
    (e.withCompile compile).number? key = e.number? key := rfl

theorem withCompile_ite (c : Prop) [Decidable c] (e f : Engine β ι) :
    (if c then e else f).withCompile compile =
      if c then e.withCompile compile else f.withCompile compile :=
  apply_ite (fun e : Engine β ι => e.withCompile compile) c e f

theorem compiler?_withCompile (e : Engine β ι) :
    (e.withCompile compile).compiler?.isSome = e.compiler?.isSome := by
  unfold compiler? withCompile
  dsimp only
  split
  · exact Option.isSome_map
  · rfl

theorem backendName_withCompile (e : Engine β ι) :
    (e.withCompile compile).backendName = e.backendName := by
  unfold backendName withCompile
  cases e.backend <;> rfl

theorem loadCached_withCompile (e : Engine β ι) (d : Descriptor) (now : Nat) :
    (e.withCompile compile).loadCached d now =
      ((e.loadCached d now).1, (e.loadCached d now).2.withCompile compile) := by
  obtain ⟨config, interpreter, backend, modules, registered, jobs, counters, cache, world⟩ := e
  cases backend with
  | none => rfl
  | some b =>
      unfold loadCached nativePool
      dsimp only [withCompile, Option.map_some, instanceSpec, newPool, poolSize]
      rcases cache.lookup d.hash with ⟨cache, _ | artifact⟩
      · rfl
      · dsimp only
        rcases b.load artifact.bytes _ world with ⟨_ | factory, world⟩
        · rfl
        · dsimp only
          rcases Pool.prefill _ _ world with ⟨_ | _, pool, world⟩ <;> rfl

theorem loadInterpreted_withCompile (e : Engine β ι) (d : Descriptor) (now : Nat) :
    (e.withCompile compile).loadInterpreted d now =
      ((e.loadInterpreted d now).1, (e.loadInterpreted d now).2.withCompile compile) := by
  have compiles := e.compiler?_withCompile compile
  have name := e.backendName_withCompile compile
  unfold loadInterpreted
  rw [compiles, name]
  unfold newPool poolSize instanceSpec
  dsimp only [withCompile]
  rcases e.interpreter d.bytecode _ with _ | factory
  · rfl
  · dsimp only
    rcases Pool.prefill _ _ e.world with ⟨_ | _, pool, world⟩ <;> rfl

theorem load_withCompile (e : Engine β ι) (d : Descriptor) (now : Nat) :
    (e.withCompile compile).load d now =
      ((e.load d now).1, (e.load d now).2.withCompile compile) := by
  unfold load
  rw [loadCached_withCompile]
  rcases e.loadCached d now with ⟨_ | m, f⟩
  · exact f.loadInterpreted_withCompile compile d now
  · rfl

theorem schedule_withCompile (e : Engine β ι) (n : Nat) (m : LoadedModule (World β) ι) :
    (e.withCompile compile).schedule n m = (e.schedule n m).withCompile compile := by
  unfold schedule
  rw [withCompile_ite]
  rfl

theorem enroll_withCompile (e : Engine β ι) (m : LoadedModule (World β) ι) :
    (e.withCompile compile).enroll m = ((e.enroll m).1, (e.enroll m).2.withCompile compile) := by
  unfold enroll
  rw [compiler?_withCompile]
  rcases (if e.compiler?.isSome then m.beginCompile else (m, false)) with ⟨m, _ | _⟩
  · rfl
  · simp only [reduceIte]
    rw [← schedule_withCompile]
    rfl

theorem register_withCompile (e : Engine β ι) (d : Descriptor) (now : Nat) :
    (e.withCompile compile).register d now =
      ((e.register d now).1, (e.register d now).2.withCompile compile) := by
  have checks : (e.withCompile compile).check d = e.check d := rfl
  unfold register
  rw [checks, load_withCompile]
  rcases e.check d with error | _
  · rfl
  · rcases e.load d now with ⟨_ | m, f⟩
    · rfl
    · dsimp only
      rw [enroll_withCompile]

theorem retire_withCompile (e : Engine β ι) (key : ModuleKey) (n : Nat) :
    (e.withCompile compile).retire key n = (e.retire key n).withCompile compile := by
  unfold retire removeKey
  dsimp only [withCompile]
  cases e.modules[n]? <;> rfl

theorem unregister_withCompile (e : Engine β ι) (key : ModuleKey) :
    (e.withCompile compile).unregister key =
      ((e.unregister key).1, (e.unregister key).2.withCompile compile) := by
  unfold unregister
  rw [number?_withCompile]
  cases e.number? key with
  | none => rfl
  | some n => exact congrArg (Prod.mk (Except.ok ())) (e.retire_withCompile compile key n)

theorem tryUnregister_withCompile (e : Engine β ι) (key : ModuleKey) :
    (e.withCompile compile).tryUnregister key =
      ((e.tryUnregister key).1, (e.tryUnregister key).2.withCompile compile) := by
  unfold tryUnregister
  rw [number?_withCompile]
  cases e.number? key with
  | none => rfl
  | some n =>
      dsimp only
      rw [retire_withCompile]
      change (if 0 < ((e.modules[n]?).map LoadedModule.inFlight).getD 0 then _ else _) = _
      split <;> rfl

theorem invoke_withCompile (e : Engine β ι) (caller : Caller ι) (key : ModuleKey)
    (document : Document) (args : Arguments) (elapsed : Text.Duration) (now : Nat) :
    (e.withCompile compile).invoke caller key document args elapsed now =
      ((e.invoke caller key document args elapsed now).1,
        (e.invoke caller key document args elapsed now).2.withCompile compile) := by
  unfold invoke
  rw [number?_withCompile]
  cases e.number? key with
  | none => rfl
  | some n =>
      have site : (e.withCompile compile).site? n = e.site? n := rfl
      dsimp only
      rw [site]
      cases e.site? n <;> rfl

theorem passOn_withCompile (e : Engine β ι) (n : Nat) :
    (e.withCompile compile).passOn n = (e.passOn n).withCompile compile := by
  unfold passOn
  rw [compiler?_withCompile, withCompile_modules]
  cases e.modules[n]? with
  | none => rfl
  | some m =>
      dsimp only
      rw [withCompile_ite, withCompile_ite, ← schedule_withCompile]
      rfl

/-! ### Steps of jobs -/

theorem failWaiters_withCompile (e : Engine β ι) (i : Nat) (j : CompileJob)
    (error : CompileError) :
    (e.withCompile compile).failWaiters i j error =
      (e.failWaiters i j error).withCompile compile := by
  have alive : (e.withCompile compile).isAlive = e.isAlive := rfl
  unfold failWaiters
  rw [alive]
  generalize j.waiters.filter e.isAlive = numbers
  clear alive
  induction numbers generalizing e with
  | nil => rfl
  | cons n numbers ih =>
      rw [List.foldl_cons, List.foldl_cons, withCompile_modules]
      cases e.modules[n]? with
      | none => exact ih e
      | some m => exact ih (e.setModule n (m.failCompile error 0))

theorem install_withCompile (e : Engine β ι) (b : Backend (World β) ι) (j : CompileJob)
    (artifact : List UInt8) (fromCache : Bool) (n now : Nat) :
    (e.withCompile compile).install { b with compile := compile } j artifact fromCache n now =
      (e.install b j artifact fromCache n now).withCompile compile := by
  unfold install
  rw [withCompile_modules]
  cases e.modules[n]? with
  | none => rfl
  | some m =>
      dsimp only
      rw [withCompile_ite]
      refine if_congr Iff.rfl rfl ?_
      unfold nativePool newPool poolSize instanceSpec
      dsimp only [withCompile]
      rcases b.load artifact _ e.world with ⟨_ | factory, world⟩
      · rfl
      · dsimp only
        rcases Pool.prefill _ _ world with ⟨_ | _, pool, world⟩ <;> rfl

/-- A step of a job goes as with another compiler that answers alike where it is asked. -/
theorem stepJob_withCompile {e : Engine β ι} {i : Nat}
    (alike : ∀ b c, e.backend = some b → e.compiling? i = some c →
      compile c.2 e.world = b.compile c.2 e.world) (now : Nat) :
    (e.withCompile compile).stepJob i now = (e.stepJob i now).withCompile compile := by
  unfold stepJob
  rw [withCompile_jobs, withCompile_backend]
  cases at_i : e.jobs[i]? with
  | none => rfl
  | some j =>
      cases found : e.backend with
      | none => rfl
      | some b =>
          dsimp only [Option.map_some]
          cases stage : j.stage with
          | queued =>
              unfold lookupArtifact
              dsimp only [withCompile]
              rcases e.cache.lookup j.hash with ⟨cache, _ | artifact⟩ <;> rfl
          | compiling =>
              have asked : e.compiling? i = some j.subject := by
                rw [compiling?, at_i, found]
                simp [isCompiling, stage]
              have same : compile j.bytecode e.world = b.compile j.bytecode e.world :=
                alike b _ found asked
              dsimp only
              unfold compileArtifact
              dsimp only [withCompile]
              rw [same]
              rcases b.compile j.bytecode e.world with ⟨_ | artifact, world⟩ <;> rfl
          | compiled artifact => rfl
          | ready artifact fromCache => rfl
          | failed error => exact e.failWaiters_withCompile compile i j error
          | installing artifact fromCache numbers =>
              cases numbers with
              | nil => rfl
              | cons n rest =>
                  exact install_withCompile compile
                    (e.setStage i j (.installing artifact fromCache rest)) b j artifact fromCache
                    n now

end Engine

namespace Intake

def withCompile (s : Intake β ι)
    (compile : List UInt8 → World β → Except CompileError (List UInt8) × World β) :
    Intake β ι :=
  { s with engine := s.engine.withCompile compile }

/-- Nothing but what is noted is asked of a compiler: an action has the same effect with any other
one that answers alike where it is asked. -/
theorem step_withCompile {s : Intake β ι} {a : Action ι}
    {compile : List UInt8 → World β → Except CompileError (List UInt8) × World β}
    (alike : ∀ b c, s.engine.backend = some b → s.compiling? a = some c →
      compile c.2 s.engine.world = b.compile c.2 s.engine.world) :
    (s.withCompile compile).step a = (s.step a).withCompile compile := by
  have noted : (s.withCompile compile).compiling? a = s.compiling? a := by
    cases a with
    | act a =>
        cases a with
        | stepJob i now =>
            unfold compiling? withCompile Engine.compiling?
            dsimp only
            rw [Engine.withCompile_jobs, Engine.withCompile_backend]
            cases s.engine.jobs[i]? with
            | none => rfl
            | some j => cases s.engine.backend <;> rfl
        | _ => rfl
    | _ => rfl
  have moved : (s.withCompile compile).move a = (s.move a).withCompile compile := by
    cases a with
    | act a =>
        unfold move withCompile
        dsimp only
        congr 1
        cases a with
        | register d now => exact congrArg Prod.snd (s.engine.register_withCompile compile d now)
        | unregister key => exact congrArg Prod.snd (s.engine.unregister_withCompile compile key)
        | tryUnregister key =>
            exact congrArg Prod.snd (s.engine.tryUnregister_withCompile compile key)
        | invoke caller key document args elapsed now =>
            exact congrArg Prod.snd
              (s.engine.invoke_withCompile compile caller key document args elapsed now)
        | evictCache target => rfl
        | stepJob i now => exact Engine.stepJob_withCompile compile alike now
    | load d now =>
        have checks : (s.engine.withCompile compile).check d = s.engine.check d := rfl
        unfold move load withCompile
        dsimp only
        rw [checks, Engine.load_withCompile]
        rcases s.engine.check d with _ | _
        · rfl
        · rcases s.engine.load d now with ⟨_ | m, e⟩ <;> rfl
    | enter i =>
        unfold move enter withCompile Engine.takeIn
        dsimp only
        cases s.loaded[i]? with
        | none => rfl
        | some m =>
            dsimp only
            rw [Engine.withCompile_ite]
            rfl
    | pass n =>
        unfold move withCompile
        dsimp only
        rw [Engine.passOn_withCompile]
  unfold step
  rw [noted, moved]
  rfl

end Intake

end TieredUdf
