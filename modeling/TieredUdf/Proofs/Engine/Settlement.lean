import TieredUdf.Proofs.Engine.Jobs

/-! # What a step of a job settles

A step of a compile job moves the job on or ends it.  A module that waited for the job and does so
no longer is decided: it has native code or a reason why it has none, unless it is gone or torn
down.
-/

namespace TieredUdf

variable {β ω ι : Type}

namespace LoadedModule

/-- It is known how the compile of the module ended. -/
def HasOutcome (m : LoadedModule ω ι) : Prop :=
  m.stats.compile.status = .succeeded ∨ m.stats.compile.status = .failed

/-- No compile will change the mode of the module any more, and how it ended is known unless the
module is torn down. -/
def IsDecided (m : LoadedModule ω ι) : Prop :=
  m.settled = true ∧ (m.finalized = true ∨ m.HasOutcome)

/-- One module is a later state of another, as far as compiles go. -/
structure Follows (m n : LoadedModule ω ι) : Prop where
  descriptor : n.descriptor = m.descriptor
  settled : m.settled = true → n.settled = true
  finalized : m.finalized = true → n.finalized = true
  outcome : m.HasOutcome → n.HasOutcome

variable {m n : LoadedModule ω ι}

theorem Follows.refl (m : LoadedModule ω ι) : m.Follows m := ⟨rfl, id, id, id⟩

theorem Follows.trans {o : LoadedModule ω ι} (h : m.Follows n) (k : n.Follows o) : m.Follows o :=
  ⟨k.descriptor.trans h.descriptor, k.settled ∘ h.settled, k.finalized ∘ h.finalized,
    k.outcome ∘ h.outcome⟩

theorem Follows.decided (h : m.Follows n) (decided : m.IsDecided) : n.IsDecided :=
  ⟨h.settled decided.1, decided.2.imp h.finalized h.outcome⟩

theorem failCompile_isDecided (m : LoadedModule ω ι) (error : CompileError) (milliseconds : Nat) :
    (m.failCompile error milliseconds).IsDecided := ⟨rfl, Or.inr (Or.inr rfl)⟩

theorem failCompile_follows (m : LoadedModule ω ι) (error : CompileError) (milliseconds : Nat) :
    m.Follows (m.failCompile error milliseconds) := ⟨rfl, fun _ => rfl, id, fun _ => Or.inr rfl⟩

/-- Installing native code leaves alone what it is not about. -/
theorem installNative_rest (m : LoadedModule ω ι) (p : Pool ω ι) (reference : Bool) (c : Cache) :
    (m.installNative p reference c).2.1.descriptor = m.descriptor ∧
      (m.installNative p reference c).2.1.inFlight = m.inFlight ∧
      (m.installNative p reference c).2.1.draining = m.draining ∧
      (m.installNative p reference c).2.1.finalized = m.finalized := by
  obtain ⟨descriptor, mode, interpreter, native, stats, inFlight, draining, finalized, holds,
    settled⟩ := m
  cases reference <;> cases native <;> cases finalized <;> cases holds <;>
    exact ⟨rfl, rfl, rfl, rfl⟩

end LoadedModule

namespace Engine

variable {e f : Engine β ι}

/-! ## Modules from step to step -/

/-- A module that is not gone has been decided. -/
def Decided (e : Engine β ι) (n : Nat) : Prop :=
  ∃ m, e.modules[n]? = some m ∧ (e.isAlive n → m.IsDecided)

/-- The modules of one engine are later states of those of another, and none that was gone has
come back. -/
structure Succeeds (e f : Engine β ι) : Prop where
  modules : ∀ (n : Nat) m, e.modules[n]? = some m → ∃ k, f.modules[n]? = some k ∧ m.Follows k
  alive : ∀ (n : Nat) m, e.modules[n]? = some m → f.isAlive n → e.isAlive n

theorem Succeeds.refl (e : Engine β ι) : e.Succeeds e :=
  ⟨fun _ m at_n => ⟨m, at_n, .refl m⟩, fun _ _ _ => id⟩

theorem Succeeds.trans {g : Engine β ι} (h : e.Succeeds f) (k : f.Succeeds g) : e.Succeeds g where
  modules := fun n m at_n => by
    obtain ⟨m', at_n', first⟩ := h.modules n m at_n
    obtain ⟨m'', at_n'', second⟩ := k.modules n m' at_n'
    exact ⟨m'', at_n'', first.trans second⟩
  alive := fun n m at_n alive => by
    obtain ⟨m', at_n', _⟩ := h.modules n m at_n
    exact h.alive n m at_n (k.alive n m' at_n' alive)

theorem Decided.mono {n : Nat} (h : e.Decided n) (later : e.Succeeds f) : f.Decided n := by
  obtain ⟨m, at_n, decided⟩ := h
  obtain ⟨k, at_n', follows⟩ := later.modules n m at_n
  exact ⟨k, at_n', fun alive => follows.decided (decided (later.alive n m at_n alive))⟩

theorem decided_of_gone {n : Nat} {m : LoadedModule (World β) ι} (at_n : e.modules[n]? = some m)
    (gone : e.isAlive n = false) : e.Decided n :=
  ⟨m, at_n, fun alive => absurd (gone.symm.trans alive) Bool.false_ne_true⟩

theorem isAlive_iff {n : Nat} : e.isAlive n = true ↔
    (∃ r ∈ e.registered, r.2 = n) ∨ ∃ m, e.modules[n]? = some m ∧ 0 < m.inFlight := by
  simp [isAlive, Option.any_eq_true]

theorem succeeds_of_eq (modules : f.modules = e.modules)
    (registered : f.registered = e.registered) : e.Succeeds f where
  modules := fun _ m at_n => ⟨m, modules ▸ at_n, .refl m⟩
  alive := fun k _ _ alive => by
    rw [isAlive_iff, modules, registered] at alive
    exact isAlive_iff.mpr alive

/-! ### One module changes -/

section Set

variable {n : Nat} {m k : LoadedModule (World β) ι}

theorem modules_of_set (at_n : e.modules[n]? = some m) (modules : f.modules = e.modules.set n k)
    (l : Nat) : f.modules[l]? = if l = n then some k else e.modules[l]? := by
  obtain ⟨small, _⟩ := List.getElem?_eq_some_iff.mp at_n
  rw [modules]
  by_cases own : l = n
  · rw [own, List.getElem?_set_self small, if_pos rfl]
  · rw [List.getElem?_set_ne (Ne.symm own), if_neg own]

/-- The modules are related to what they were when the one that changes is. -/
theorem related_of_set {R : LoadedModule (World β) ι → LoadedModule (World β) ι → Prop}
    (refl : ∀ o, R o o) (at_n : e.modules[n]? = some m) (related : R m k)
    (modules : f.modules = e.modules.set n k) {l : Nat} {o : LoadedModule (World β) ι}
    (at_l : e.modules[l]? = some o) : ∃ p, f.modules[l]? = some p ∧ R o p := by
  rw [modules_of_set at_n modules]
  by_cases own : l = n
  · subst own
    rw [at_n, Option.some.injEq] at at_l
    subst at_l
    exact ⟨k, if_pos rfl, related⟩
  · exact ⟨o, (if_neg own).trans at_l, refl o⟩

/-- No module that is gone comes back because a module changes that is not gone, or that keeps its
number of calls. -/
theorem isAlive_of_set (at_n : e.modules[n]? = some m) (modules : f.modules = e.modules.set n k)
    (registered : f.registered ⊆ e.registered)
    (there : e.isAlive n ∨ k.inFlight = m.inFlight) (l : Nat) (alive : f.isAlive l) :
    e.isAlive l := by
  rcases isAlive_iff.mp alive with ⟨r, listed, own⟩ | ⟨o, at_l, calls⟩
  · exact isAlive_iff.mpr (Or.inl ⟨r, registered listed, own⟩)
  · rw [modules_of_set at_n modules] at at_l
    by_cases own : l = n
    · subst own
      rw [if_pos rfl, Option.some.injEq] at at_l
      subst at_l
      refine there.elim id fun same => ?_
      exact isAlive_iff.mpr (Or.inr ⟨m, at_n, same ▸ calls⟩)
    · rw [if_neg own] at at_l
      exact isAlive_iff.mpr (Or.inr ⟨o, at_l, calls⟩)

theorem succeeds_of_set (at_n : e.modules[n]? = some m) (follows : m.Follows k)
    (inFlight : k.inFlight = m.inFlight) (modules : f.modules = e.modules.set n k)
    (registered : f.registered = e.registered) : e.Succeeds f where
  modules := fun _ _ at_l => related_of_set .refl at_n follows modules at_l
  alive := fun l _ _ =>
    isAlive_of_set at_n modules (registered ▸ List.Subset.refl _) (Or.inr inFlight) l

theorem decided_of_set (at_n : e.modules[n]? = some m) (decided : k.IsDecided)
    (modules : f.modules = e.modules.set n k) : f.Decided n :=
  ⟨k, (modules_of_set at_n modules n).trans (if_pos rfl), fun _ => decided⟩

end Set

/-! ## Failing and installing -/

/-- Each of some modules learns that the compile failed. -/
theorem failEach (error : CompileError) (numbers : List Nat)
    (loaded : ∀ n ∈ numbers, ∃ m, e.modules[n]? = some m) :
    let after := numbers.foldl (fun e n =>
      match e.modules[n]? with
      | some m => e.setModule n (m.failCompile error 0)
      | none => e) e
    e.Succeeds after ∧ after.jobs = e.jobs ∧ ∀ n ∈ numbers, after.Decided n := by
  induction numbers generalizing e with
  | nil => exact ⟨succeeds_of_eq rfl rfl, rfl, nofun⟩
  | cons n numbers ih =>
      obtain ⟨m, at_n⟩ := loaded n List.mem_cons_self
      rw [List.foldl_cons, at_n]
      dsimp only
      have first : e.Succeeds (e.setModule n (m.failCompile error 0)) :=
        succeeds_of_set at_n (m.failCompile_follows error 0) rfl rfl rfl
      have here : (e.setModule n (m.failCompile error 0)).Decided n :=
        decided_of_set at_n (m.failCompile_isDecided error 0) rfl
      obtain ⟨rest, jobs, decided⟩ := ih (e := e.setModule n (m.failCompile error 0))
        fun k hk => by
          obtain ⟨o, at_k⟩ := loaded k (List.mem_cons_of_mem _ hk)
          obtain ⟨o', at_k', _⟩ := first.modules k o at_k
          exact ⟨o', at_k'⟩
      refine ⟨first.trans rest, jobs, fun k hk => ?_⟩
      rcases List.mem_cons.mp hk with rfl | later
      · exact here.mono rest
      · exact decided k later

/-- Installing decides the module, whether its native code can be loaded or not. -/
theorem install_eq (b : Backend (World β) ι) (j : CompileJob) (artifact : List UInt8)
    (fromCache : Bool) {n : Nat} {m : LoadedModule (World β) ι} (at_n : e.modules[n]? = some m)
    (now : Nat) :
    ∃ k cache world counters, m.Follows k ∧ k.inFlight = m.inFlight ∧
      k.IsDecided ∧ e.install b j artifact fromCache n now =
        { e with
          modules := e.modules.set n k
          cache := cache
          world := world
          counters := counters } := by
  unfold Engine.install
  rw [at_n]
  dsimp only
  split
  · rename_i finalized
    exact ⟨m.settle, _, _, _, ⟨rfl, fun _ => rfl, id, id⟩, rfl, ⟨rfl, Or.inl finalized⟩, rfl⟩
  · split
    · rename_i pool world _
      let stored := e.cache.storeAndAcquire j.hash artifact j.origin b.name now
      let installed := (m.installNative pool stored.2.isSome stored.1).2.1
      obtain ⟨descriptor, inFlight, _, finalized⟩ :=
        m.installNative_rest pool stored.2.isSome stored.1
      let k := { installed with
        stats := installed.stats.updateCompile fun d => d.succeed fromCache 0 }
      have follows : m.Follows k.settle :=
        ⟨descriptor, fun _ => rfl, finalized.trans, fun _ => Or.inl rfl⟩
      exact ⟨k.settle, _, _, _, follows, inFlight, ⟨rfl, Or.inr (Or.inl rfl)⟩, rfl⟩
    · rename_i error world _
      exact ⟨m.failCompile error 0, _, _, _, m.failCompile_follows error 0, rfl,
        m.failCompile_isDecided error 0, rfl⟩

theorem install_settles (b : Backend (World β) ι) (j : CompileJob) (artifact : List UInt8)
    (fromCache : Bool) {n : Nat} (loaded : ∃ m, e.modules[n]? = some m) (now : Nat) :
    let after := e.install b j artifact fromCache n now
    e.Succeeds after ∧ after.jobs = e.jobs ∧ after.Decided n := by
  obtain ⟨m, at_n⟩ := loaded
  obtain ⟨k, cache, world, counters, follows, inFlight, decided, installed⟩ :=
    install_eq b j artifact fromCache at_n now
  rw [installed]
  exact ⟨succeeds_of_set at_n follows inFlight rfl rfl, rfl, decided_of_set at_n decided rfl⟩

/-! ## Steps -/

/-- What one step does to a job: it goes on as another one, or it ends.  A module that does not
wait for it any more is decided. -/
structure Advances (e f : Engine β ι) (i : Nat) (j : CompileJob) (next : Option CompileJob) :
    Prop where
  at_i : e.jobs[i]? = some j
  jobs : f.jobs = match next with
    | some k => e.jobs.set i k
    | none => e.jobs.eraseIdx i
  moves : ∀ k ∈ next, j.MovesOn k ∧ (k.isOpen → k.waiters = j.waiters)
  modules : e.Succeeds f
  decided : ∀ n ∈ j.pending, (∀ k ∈ next, n ∉ k.pending) → f.Decided n

variable {i : Nat} {j : CompileJob}

theorem Advances.split {next : Option CompileJob} (h : e.Advances f i j next) :
    ∃ before after, e.jobs = before ++ j :: after ∧ f.jobs = before ++ (next.toList ++ after) := by
  obtain ⟨before, after, jobs, rfl⟩ := jobs_split h.at_i
  refine ⟨before, after, jobs, ?_⟩
  rw [h.jobs, jobs]
  cases next with
  | some k => simp
  | none => simp [List.eraseIdx_append_of_length_le]

/-- An open job goes to another stage in which it is open. -/
theorem advances_open (at_i : e.jobs[i]? = some j) (open_j : j.isOpen) {stage : JobStage}
    (still : CompileJob.isOpen { j with stage := stage }) (modules : f.modules = e.modules)
    (registered : f.registered = e.registered) (jobs : f.jobs = e.jobs) :
    e.Advances (f.setStage i j stage) i j (some { j with stage := stage }) := by
  have moves := CompileJob.movesOn_open open_j stage still
  refine ⟨at_i, congrArg (List.set · i _) jobs, ?_, succeeds_of_eq modules registered, ?_⟩
  · intro k hk
    cases hk
    exact ⟨moves, fun _ => rfl⟩
  · intro n waits gone
    refine absurd ?_ (gone _ rfl)
    rwa [CompileJob.pending_of_open still, ← CompileJob.pending_of_open open_j]

theorem lookupArtifact_advances (at_i : e.jobs[i]? = some j) (open_j : j.isOpen) :
    ∃ next, e.Advances (e.lookupArtifact i j) i j next := by
  unfold Engine.lookupArtifact
  split
  · exact ⟨_, advances_open at_i open_j rfl rfl rfl rfl⟩
  · exact ⟨_, advances_open at_i open_j rfl rfl rfl rfl⟩

theorem compileArtifact_advances (at_i : e.jobs[i]? = some j) (open_j : j.isOpen)
    (b : Backend (World β) ι) : ∃ next, e.Advances (e.compileArtifact b i j) i j next := by
  unfold Engine.compileArtifact
  split
  · exact ⟨_, advances_open at_i open_j rfl rfl rfl rfl⟩
  · exact ⟨_, advances_open at_i open_j rfl rfl rfl rfl⟩

/-- The modules that are gone when a job takes over those that wait are left out. -/
theorem takeWaiters_advances (at_i : e.jobs[i]? = some j) (open_j : j.isOpen)
    (loaded : ∀ n ∈ j.pending, ∃ m, e.modules[n]? = some m) (artifact : List UInt8)
    (fromCache : Bool) : ∃ next, e.Advances (e.takeWaiters i j artifact fromCache) i j next := by
  let k := { j with stage := .installing artifact fromCache (j.waiters.filter e.isAlive) }
  have pending : k.pending = j.pending.filter e.isAlive := by
    rw [CompileJob.pending_of_open open_j]
    rfl
  refine ⟨some k, at_i, rfl, ?_, succeeds_of_eq rfl rfl, fun n waits gone => ?_⟩
  · intro k' hk
    cases hk
    exact ⟨⟨rfl, nofun, pending ▸ List.filter_sublist⟩, nofun⟩
  · obtain ⟨m, at_n⟩ := loaded n waits
    refine decided_of_gone at_n ?_
    have out := gone k rfl
    rw [pending] at out
    change e.isAlive n = false
    by_contra alive
    exact out (List.mem_filter.mpr ⟨waits, by simpa using alive⟩)

theorem failWaiters_advances (at_i : e.jobs[i]? = some j) (open_j : j.isOpen)
    (loaded : ∀ n ∈ j.pending, ∃ m, e.modules[n]? = some m) (error : CompileError) :
    ∃ next, e.Advances (e.failWaiters i j error) i j next := by
  rw [CompileJob.pending_of_open open_j] at loaded
  obtain ⟨succeeds, jobs, decided⟩ := failEach error (j.waiters.filter e.isAlive)
    fun n hn => loaded n (List.mem_filter.mp hn).1
  refine ⟨none, at_i, congrArg (List.eraseIdx · i) jobs, nofun,
    ⟨succeeds.modules, succeeds.alive⟩, fun n waits _ => ?_⟩
  rw [CompileJob.pending_of_open open_j] at waits
  by_cases alive : e.isAlive n
  · exact decided n (List.mem_filter.mpr ⟨waits, alive⟩)
  · obtain ⟨m, at_n⟩ := loaded n waits
    have before : e.Decided n := decided_of_gone at_n (by simpa using alive)
    exact before.mono ⟨succeeds.modules, succeeds.alive⟩

theorem stepJob_advances (i now : Nat)
    (loaded : ∀ j ∈ e.jobs, ∀ n ∈ j.pending, ∃ m, e.modules[n]? = some m) :
    e.stepJob i now = e ∨ ∃ j next, e.Advances (e.stepJob i now) i j next := by
  unfold Engine.stepJob
  split
  · rename_i j b at_i _
    have loaded := loaded j (List.mem_of_getElem? at_i)
    refine Or.inr ⟨j, ?_⟩
    split
    · rename_i stage
      exact lookupArtifact_advances at_i (by simp [CompileJob.isOpen, stage])
    · rename_i stage
      exact compileArtifact_advances at_i (by simp [CompileJob.isOpen, stage]) b
    · rename_i stage
      exact ⟨_, advances_open at_i (by simp [CompileJob.isOpen, stage]) rfl rfl rfl rfl⟩
    · rename_i stage
      exact takeWaiters_advances at_i (by simp [CompileJob.isOpen, stage]) loaded _ _
    · rename_i stage
      exact failWaiters_advances at_i (by simp [CompileJob.isOpen, stage]) loaded _
    · rename_i artifact fromCache n rest stage
      let k : CompileJob := { j with stage := .installing artifact fromCache rest }
      have pending : j.pending = n :: k.pending := by simp [k, CompileJob.pending, stage]
      obtain ⟨succeeds, jobs, decided⟩ :=
        install_settles (e := e.setStage i j (.installing artifact fromCache rest)) b j artifact
          fromCache (loaded n (pending ▸ List.mem_cons_self)) now
      refine ⟨some k, at_i, jobs, ?_, ⟨succeeds.modules, succeeds.alive⟩, fun x waits gone => ?_⟩
      · intro k' hk
        cases hk
        exact ⟨⟨rfl, nofun, pending ▸ List.sublist_cons_self _ _⟩, nofun⟩
      · rw [pending] at waits
        rcases List.mem_cons.mp waits with rfl | later
        · exact decided
        · exact absurd later (gone k rfl)
    · rename_i stage
      refine ⟨none, at_i, rfl, nofun, succeeds_of_eq rfl rfl, fun n waits _ => ?_⟩
      simp [CompileJob.pending, stage] at waits
  · exact Or.inl rfl

end Engine

end TieredUdf
