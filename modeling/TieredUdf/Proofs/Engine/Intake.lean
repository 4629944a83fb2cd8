import TieredUdf.Proofs.Engine.Operations

/-! # Registrations under way

A registration is not one step.  It checks and loads its module, enters it under the key unless
another registration was faster, and passes it on to be compiled; other registrations, removals and
the steps of compile jobs come between any two of these parts.  An intake is an engine with the
modules that are loaded but not entered yet, and it notes which compiles are made.
-/

namespace TieredUdf

variable {β ω ι : Type}

def LoadedModule.subject (m : LoadedModule ω ι) : ContentHash × List UInt8 :=
  (m.hash, m.descriptor.bytecode)

def CompileJob.subject (j : CompileJob) : ContentHash × List UInt8 := (j.hash, j.bytecode)

namespace Engine

/-- Enter a loaded module.  It is given up when its key has been taken meanwhile. -/
def takeIn (e : Engine β ι) (m : LoadedModule (World β) ι) : Engine β ι :=
  if e.isRegistered m.key then { e with cache := (m.beginDrain e.cache).2.2 }
  else
    { e.addModule m with
      counters := { e.counters with registrations := e.counters.registrations + 1 } }

/-- Have a module compiled, unless that was done already or the module is native. -/
def passOn (e : Engine β ι) (n : Nat) : Engine β ι :=
  match e.modules[n]? with
  | none => e
  | some m =>
      if e.compiler?.isSome then
        let (m, begun) := m.beginCompile
        if begun then (e.setModule n m).schedule n m else e.setModule n m
      else e

/-- What the next step of a job compiles. -/
def compiling? (e : Engine β ι) (i : Nat) : Option (ContentHash × List UInt8) :=
  match e.jobs[i]?, e.backend with
  | some j, some _ => if isCompiling j then some j.subject else none
  | _, _ => none

def storing? (e : Engine β ι) (i now : Nat) : Option (Option Bool) :=
  match e.jobs[i]?, e.backend with
  | some j, some b =>
      match j.stage with
      | .compiled artifact => some (e.cache.store j.hash artifact j.origin b.name now).2
      | _ => none
  | _, _ => none

end Engine

/-- An engine, the modules of the registrations under way, and the compiles that were made. -/
structure Intake (β ι : Type) where
  engine : Engine β ι
  /-- The modules that are loaded but not entered. -/
  loaded : List (LoadedModule (World β) ι)
  /-- What was given to the compiler, the first one first. -/
  compiled : List (ContentHash × List UInt8)

namespace Intake

def ofEngine (e : Engine β ι) : Intake β ι := ⟨e, [], []⟩

inductive Action (ι : Type) where
  /-- Something is done as a whole, or a job takes its next step. -/
  | act (a : Engine.Action ι)
  /-- A registration makes its checks and loads its module. -/
  | load (d : Descriptor) (now : Nat)
  /-- One of the loaded modules is entered. -/
  | enter (i : Nat)
  /-- A module is passed on to be compiled. -/
  | pass (n : Nat)

def load (s : Intake β ι) (d : Descriptor) (now : Nat) : Intake β ι :=
  match s.engine.check d with
  | .error _ => s
  | .ok () =>
      match s.engine.load d now with
      | (.error _, e) => { s with engine := e }
      | (.ok m, e) => { s with engine := e, loaded := s.loaded ++ [m] }

def enter (s : Intake β ι) (i : Nat) : Intake β ι :=
  match s.loaded[i]? with
  | none => s
  | some m => { s with engine := s.engine.takeIn m, loaded := s.loaded.eraseIdx i }

/-- What an action does, apart from the notes. -/
def move (s : Intake β ι) : Action ι → Intake β ι
  | .act a => { s with engine := s.engine.act a }
  | .load d now => s.load d now
  | .enter i => s.enter i
  | .pass n => { s with engine := s.engine.passOn n }

def compiling? (s : Intake β ι) : Action ι → Option (ContentHash × List UInt8)
  | .act (.stepJob i _) => s.engine.compiling? i
  | _ => none

/-- What the cache answers when an action stores an artifact. -/
def storing? (s : Intake β ι) : Action ι → Option (Option Bool)
  | .act (.stepJob i now) => s.engine.storing? i now
  | _ => none

def step (s : Intake β ι) (a : Action ι) : Intake β ι :=
  { s.move a with compiled := s.compiled ++ (s.compiling? a).toList }

def run (s : Intake β ι) (actions : List (Action ι)) : Intake β ι := actions.foldl step s

def compiles (s : Intake β ι) : List (ContentHash × List UInt8) :=
  s.compiled ++ (s.engine.jobs.filter Engine.isCompiling).map CompileJob.subject

end Intake

/-! ## The parts of a registration -/

namespace Engine

/-- Nothing was registered, and a module that was loaded is the one that was submitted. -/
def Brings (e : Engine β ι) (d : Descriptor) :
    Option (LoadedModule (World β) ι) × Engine β ι → Prop
  | (none, f) => f.modules = e.modules ∧ f.registered = e.registered
  | (some m, f) => f.modules = e.modules ∧ f.registered = e.registered ∧ m.descriptor = d

theorem brings_loadCached (e : Engine β ι) (d : Descriptor) (now : Nat) :
    e.Brings d (e.loadCached d now) := by
  unfold loadCached
  split
  · exact ⟨rfl, rfl⟩
  · split
    · exact ⟨rfl, rfl⟩
    · dsimp only
      split
      · exact ⟨rfl, rfl⟩
      · exact ⟨rfl, rfl, rfl⟩

theorem brings_load (e : Engine β ι) (d : Descriptor) (now : Nat) :
    e.Brings d ((e.load d now).1.toOption, (e.load d now).2) := by
  have cached := e.brings_loadCached d now
  unfold load
  revert cached
  rcases e.loadCached d now with ⟨_ | m, f⟩ <;> intro cached
  · obtain ⟨modules, registered⟩ := cached
    dsimp only [loadInterpreted]
    split
    · exact ⟨modules, registered⟩
    · split
      · exact ⟨modules, registered⟩
      · exact ⟨modules, registered, rfl⟩
  · exact cached

theorem passOn_missing {e : Engine β ι} {n : Nat} (missing : e.modules[n]? = none) :
    e.passOn n = e := by
  rw [passOn, missing]

/-- A module whose key is free is entered and then passed on. -/
theorem passOn_takeIn {e : Engine β ι} {m : LoadedModule (World β) ι}
    (free : e.isRegistered m.key = false) :
    (e.takeIn m).passOn e.modules.length = (e.enroll m).2 := by
  have taken : e.takeIn m = { e.addModule m with
      counters := { e.counters with registrations := e.counters.registrations + 1 } } := by
    rw [takeIn, free]
    rfl
  have entered : (e.takeIn m).modules[e.modules.length]? = some m := by
    rw [taken]
    exact List.getElem?_concat_length
  have compiler : (e.takeIn m).compiler? = e.compiler? := by rw [taken]; rfl
  have claimed : (e.takeIn m).setModule e.modules.length m.beginCompile.1 =
      { e.addModule m.beginCompile.1 with
        counters := { e.counters with registrations := e.counters.registrations + 1 } } := by
    have last : (e.modules ++ [m]).set e.modules.length m.beginCompile.1 =
        e.modules ++ [m.beginCompile.1] := by simp
    rw [taken]
    unfold setModule addModule
    dsimp only
    rw [last]
    rfl
  unfold passOn enroll
  rw [entered, compiler]
  dsimp only
  by_cases compiles : e.compiler?.isSome
  · simp only [if_pos compiles]
    rw [claimed]
    rfl
  · simp only [if_neg compiles, Bool.false_eq_true, if_false]
    exact taken

end Engine

namespace Intake

/-- Without anything between its parts, a registration is what it is as a whole. -/
theorem run_register (e : Engine β ι) (d : Descriptor) (now : Nat) :
    ((ofEngine e).run [.load d now, .enter 0, .pass e.modules.length]).engine =
      (e.register d now).2 := by
  have beyond : e.modules[e.modules.length]? = none := List.getElem?_eq_none (Nat.le_refl _)
  have brings := e.brings_load d now
  have loads : (ofEngine e).step (.load d now) = match e.check d with
      | .error _ => ofEngine e
      | .ok () => match e.load d now with
        | (.error _, f) => ofEngine f
        | (.ok m, f) => ⟨f, [m], []⟩ := by
    unfold step move load ofEngine
    dsimp only
    rcases e.check d with _ | _
    · rfl
    · rcases e.load d now with ⟨_ | m, f⟩ <;> rfl
  rw [run, List.foldl_cons, loads]
  unfold Engine.register
  rcases checked : e.check d with _ | _
  · exact Engine.passOn_missing beyond
  · revert brings
    rcases e.load d now with ⟨_ | m, f⟩ <;> intro brings
    · exact Engine.passOn_missing (brings.1 ▸ beyond)
    · obtain ⟨modules, registered, rfl⟩ := brings
      have free : f.isRegistered m.key = false := by
        have same : f.isRegistered m.key = e.isRegistered m.key := by
          unfold Engine.isRegistered Engine.number?
          rw [registered]
        rw [same]
        exact Engine.isRegistered_of_check checked
      rw [← modules]
      exact Engine.passOn_takeIn free

end Intake

/-! ## Actions in which no job takes a step -/

namespace CompileJob

theorem accept_subject (hash : ContentHash) (n : Nat) (j : CompileJob) :
    (j.accept hash n).subject = j.subject ∧ (j.accept hash n).stage = j.stage := by
  unfold accept
  split <;> exact ⟨rfl, rfl⟩

end CompileJob

namespace Engine

variable {e f : Engine β ι}

/-- There is a module of which something is the content hash and the bytecode. -/
def Has (e : Engine β ι) (c : ContentHash × List UInt8) : Prop := ∃ m ∈ e.modules, c = m.subject

theorem Has.mono {c : ContentHash × List UInt8} (h : e.Has c) (later : e.Succeeds f) :
    f.Has c := by
  obtain ⟨m, mem, rfl⟩ := h
  obtain ⟨n, at_n⟩ := List.mem_iff_getElem?.mp mem
  obtain ⟨k, at_n', follows⟩ := later.modules n m at_n
  refine ⟨k, List.mem_of_getElem? at_n', ?_⟩
  rw [LoadedModule.subject, LoadedModule.subject, LoadedModule.hash, LoadedModule.hash,
    follows.descriptor]

/-- A workshop can follow the engine from here on. -/
def Followed (e : Engine β ι) : Prop := ∃ w : Workshop β ι, w.engine = e ∧ w.Kept

/-- No job has taken a step: every job is as far as it was, or has been begun. -/
structure Rests (e f : Engine β ι) : Prop where
  followed : e.Followed → f.Followed
  succeeds : e.Succeeds f
  jobs : ∀ k ∈ f.jobs, (∃ j ∈ e.jobs, k.subject = j.subject ∧ k.stage = j.stage) ∨
    (k.stage = .queued ∧ f.Has k.subject)
  still : ∀ j ∈ e.jobs, ∃ k ∈ f.jobs, k.subject = j.subject ∧ k.stage = j.stage

theorem rests_elsewhere (h : e.Elsewhere f) : e.Rests f where
  followed := fun ⟨w, same, kept⟩ => ⟨{ w with engine := f }, rfl, kept.elsewhere (same ▸ h)⟩
  succeeds := h.succeeds
  jobs := fun k hk => Or.inl ⟨k, h.jobs ▸ hk, rfl, rfl⟩
  still := fun j hj => ⟨j, h.jobs.symm ▸ hj, rfl, rfl⟩

theorem Rests.trans {g : Engine β ι} (h : e.Rests f) (k : f.Rests g) : e.Rests g where
  followed := k.followed ∘ h.followed
  succeeds := h.succeeds.trans k.succeeds
  jobs := fun x hx => by
    rcases k.jobs x hx with ⟨y, hy, subject, stage⟩ | begun
    · rcases h.jobs y hy with ⟨j, hj, subject', stage'⟩ | ⟨queued, has⟩
      · exact Or.inl ⟨j, hj, subject.trans subject', stage.trans stage'⟩
      · exact Or.inr ⟨stage.trans queued, subject ▸ has.mono k.succeeds⟩
    · exact Or.inr begun
  still := fun j hj => by
    obtain ⟨x, hx, subject, stage⟩ := h.still j hj
    obtain ⟨y, hy, subject', stage'⟩ := k.still x hx
    exact ⟨y, hy, subject'.trans subject, stage'.trans stage⟩

theorem rests_schedule {n : Nat} {m : LoadedModule (World β) ι} (at_n : e.modules[n]? = some m) :
    e.Rests (e.schedule n m) := by
  obtain ⟨succeeds, effect⟩ := e.schedule_cases n m
  have followed : e.Followed → (e.schedule n m).Followed := by
    rintro ⟨w, rfl, kept⟩
    exact ⟨w.schedule n m, (w.schedule_effect n m).1, kept.schedule at_n⟩
  rcases effect with ⟨_, _, _, _, jobs⟩ | ⟨_, jobs⟩
  · refine ⟨followed, succeeds, fun k hk => ?_, fun j hj => ?_⟩
    · rw [jobs] at hk
      obtain ⟨j, hj, rfl⟩ := List.mem_map.mp hk
      exact Or.inl ⟨j, hj, CompileJob.accept_subject m.hash n j⟩
    · exact ⟨_, jobs ▸ List.mem_map_of_mem hj, CompileJob.accept_subject m.hash n j⟩
  · refine ⟨followed, succeeds, fun k hk => ?_, fun j hj => ?_⟩
    · rw [jobs] at hk
      rcases List.mem_append.mp hk with old | new
      · exact Or.inl ⟨k, old, rfl, rfl⟩
      · obtain rfl := List.mem_singleton.mp new
        exact Or.inr ⟨rfl, Has.mono ⟨m, List.mem_of_getElem? at_n, rfl⟩ succeeds⟩
    · exact ⟨j, jobs ▸ List.mem_append_left _ hj, rfl, rfl⟩

theorem rests_takeIn (e : Engine β ι) (m : LoadedModule (World β) ι) : e.Rests (e.takeIn m) := by
  unfold takeIn
  split
  · exact rests_elsewhere (elsewhere_of_eq rfl rfl rfl)
  · exact rests_elsewhere ((e.elsewhere_addModule m).trans (elsewhere_of_eq rfl rfl rfl))

theorem rests_passOn (e : Engine β ι) (n : Nat) : e.Rests (e.passOn n) := by
  unfold passOn
  split
  · exact rests_elsewhere (elsewhere_of_eq rfl rfl rfl)
  · rename_i m at_n
    split
    · have claims : m.Continues m.beginCompile.1 := ⟨rfl, rfl, id, id⟩
      have claimed : e.Rests (e.setModule n m.beginCompile.1) :=
        rests_elsewhere (elsewhere_of_set at_n claims (Or.inr rfl) rfl (List.Subset.refl _) rfl)
      dsimp only
      split
      · have there : (e.setModule n m.beginCompile.1).modules[n]? = some m.beginCompile.1 :=
          List.getElem?_set_self (List.getElem?_eq_some_iff.mp at_n).1
        exact claimed.trans (rests_schedule there)
      · exact claimed
    · exact rests_elsewhere (elsewhere_of_eq rfl rfl rfl)

end Engine

namespace Intake

theorem rests_load (s : Intake β ι) (d : Descriptor) (now : Nat) :
    s.engine.Rests (s.load d now).engine := by
  have loads := Engine.rests_elsewhere (s.engine.elsewhere_load d now)
  unfold load
  split
  · exact Engine.rests_elsewhere (Engine.elsewhere_of_eq rfl rfl rfl)
  · revert loads
    rcases s.engine.load d now with ⟨_ | m, f⟩ <;> exact id

theorem rests_enter (s : Intake β ι) (i : Nat) : s.engine.Rests (s.enter i).engine := by
  unfold enter
  split
  · exact Engine.rests_elsewhere (Engine.elsewhere_of_eq rfl rfl rfl)
  · exact s.engine.rests_takeIn _

theorem rests_register (e : Engine β ι) (d : Descriptor) (now : Nat) :
    e.Rests (e.register d now).2 := by
  rw [← run_register e d now]
  let first := (ofEngine e).step (.load d now)
  let second := first.step (.enter 0)
  have loads : e.Rests first.engine := (ofEngine e).rests_load d now
  have enters : first.engine.Rests second.engine := first.rests_enter 0
  exact (loads.trans enters).trans (second.engine.rests_passOn e.modules.length)

/-- No job takes a step in the action. -/
def Action.NoJob : Action ι → Prop
  | .act (.stepJob ..) => False
  | _ => True

theorem Action.noJob_or (a : Action ι) : a.NoJob ∨ ∃ i now, a = .act (.stepJob i now) := by
  cases a with
  | act a =>
      cases a with
      | stepJob i now => exact Or.inr ⟨i, now, rfl⟩
      | _ => exact Or.inl trivial
  | _ => exact Or.inl trivial

theorem Action.NoJob.compiling? {a : Action ι} (h : a.NoJob) (s : Intake β ι) :
    s.compiling? a = none := by
  cases a with
  | act a =>
      cases a with
      | stepJob i now => exact h.elim
      | _ => rfl
  | _ => rfl

theorem rests_move (s : Intake β ι) {a : Action ι} (h : a.NoJob) :
    s.engine.Rests (s.move a).engine := by
  cases a with
  | act a =>
      cases a with
      | register d now => exact rests_register s.engine d now
      | unregister key => exact Engine.rests_elsewhere (s.engine.elsewhere_unregister key)
      | tryUnregister key => exact Engine.rests_elsewhere (s.engine.elsewhere_tryUnregister key)
      | invoke caller key document args elapsed now =>
          exact Engine.rests_elsewhere
            (s.engine.elsewhere_invoke caller key document args elapsed now)
      | evictCache target => exact Engine.rests_elsewhere (Engine.elsewhere_of_eq rfl rfl rfl)
      | stepJob i now => exact h.elim
  | load d now => exact s.rests_load d now
  | enter i => exact s.rests_enter i
  | pass n => exact s.engine.rests_passOn n

end Intake

end TieredUdf
