import TieredUdf.Proofs.Engine.CompilerCalls

/-! # One compile for each bytecode

What has been compiled is in the cache, or a job is about to store it, and such a job can still be
joined.  So no job begins a compile of its bytecode again, whenever the registrations behind it
looked into the cache, as long as the cache keeps what it is given.
-/

namespace TieredUdf

variable {β ι : Type}

/-! ## Caches that keep what they are given -/

namespace Cache

/-- An eviction that counts nothing changes nothing. -/
theorem evictEach_of_evictions {target : Nat} {hashes : List ContentHash} {c : Cache}
    (same : (evictEach target hashes c).1.evictions = c.evictions) :
    (evictEach target hashes c).1 = c := by
  cases hashes with
  | nil => rfl
  | cons h rest =>
      unfold evictEach at same ⊢
      split
      · rfl
      · rename_i more
        rw [if_neg more] at same
        have grown : c.evictions < (evictEach target rest
            { (c.remove h).1 with evictions := (c.remove h).1.evictions + 1 }).1.evictions := by
          refine evictEach_preserves (P := fun d => c.evictions < d.evictions) target
            (fun d k _ before => ?_) ?_
          · dsimp only
            rw [(counters_remove _ _).2.2.2]
            exact Nat.lt_succ_of_lt before
          · dsimp only
            rw [(counters_remove _ _).2.2.2]
            exact Nat.lt_succ_self _
        exact absurd same (Nat.ne_of_gt grown)

theorem contains_trim_add {c : Cache} {about : ArtifactMeta} {bytes : Option (List UInt8)}
    {references : Nat}
    (same : (c.add about bytes references).trim.evictions = c.evictions) :
    (c.add about bytes references).trim.contains about.hash := by
  have kept : (c.add about bytes references).trim = c.add about bytes references :=
    evictEach_of_evictions same
  rw [kept, contains, find?_add, if_pos rfl]
  rfl

/-- What was stored without an eviction is in the cache. -/
theorem contains_insert {c d : Cache} {h : ContentHash} {bytes : List UInt8}
    {origin backend : String} {references now : Nat} {stored : Bool}
    (done : c.insert h bytes origin backend references now = (d, some stored))
    (same : d.evictions = c.evictions) : d.contains h := by
  unfold insert at done
  split at done
  · rename_i e found
    cases done
    rw [contains, find?_put]
    exact congrArg Option.isSome (if_pos (find?_eq_some found).2.symm)
  · dsimp only at done
    split at done
    · cases done
      exact contains_trim_add same
    · split at done
      · cases done
        exact contains_trim_add same
      · cases done

/-- What is looked up without success is not in the cache afterwards. -/
theorem contains_lookup {c d : Cache} {h : ContentHash} (missed : c.lookup h = (d, none)) :
    d.contains h = false := by
  unfold lookup at missed
  split at missed
  · rename_i none_found
    cases missed
    exact congrArg Option.isSome none_found
  · split at missed
    · cases missed
    · cases missed
      exact congrArg Option.isSome ((find?_remove c h h).trans (if_pos rfl))

end Cache

/-! ## Jobs and what they are for -/

theorem Engine.isCompiling_iff {j : CompileJob} :
    Engine.isCompiling j = true ↔ j.stage = .compiling := by
  unfold Engine.isCompiling
  cases j.stage <;> simp

namespace CompileJob

/-- Whether the job has an artifact that the cache has not been given. -/
def HasCompiled (j : CompileJob) : Prop := ∃ artifact, j.stage = .compiled artifact

def hasFailed (j : CompileJob) : Bool :=
  match j.stage with
  | .failed _ => true
  | _ => false

theorem HasCompiled.isOpen {j : CompileJob} (h : j.HasCompiled) : j.isOpen := by
  obtain ⟨artifact, stage⟩ := h
  simp [CompileJob.isOpen, stage]

theorem isOpen_of_compiling {j : CompileJob} (h : j.stage = .compiling) : j.isOpen := by
  simp [CompileJob.isOpen, h]

end CompileJob

namespace Engine

variable {e f : Engine β ι}

theorem compiling?_of_eq {i : Nat} {j : CompileJob} {b : Backend (World β) ι}
    (at_i : e.jobs[i]? = some j) (found : e.backend = some b) (stage : j.stage = .compiling) :
    e.compiling? i = some j.subject := by
  rw [compiling?, at_i, found]
  exact if_pos (isCompiling_iff.mpr stage)

theorem compiling?_of_ne {i : Nat} {j : CompileJob} (at_i : e.jobs[i]? = some j)
    (stage : j.stage ≠ .compiling) : e.compiling? i = none := by
  rw [compiling?, at_i]
  cases e.backend with
  | none => rfl
  | some b => exact if_neg (mt isCompiling_iff.mp stage)

/-- What a step does to its job: the job ends or goes on to another stage. -/
structure Turns (e f : Engine β ι) (i now : Nat) (j : CompileJob) (next : Option JobStage) :
    Prop where
  at_i : e.jobs[i]? = some j
  jobs : f.jobs = match next with
    | some stage => e.jobs.set i { j with stage := stage }
    | none => e.jobs.eraseIdx i
  /-- A compile is begun because the cache has no artifact. -/
  begins : next = some .compiling → j.stage = .queued ∧ e.cache.lookup j.hash = (f.cache, none)
  /-- A compile ends with an artifact or with an error. -/
  compiles : j.stage = .compiling → e.compiling? i = some j.subject ∧
    ((∃ artifact, next = some (.compiled artifact)) ∨ ∃ error, next = some (.failed error))
  quiet : j.stage ≠ .compiling → e.compiling? i = none
  /-- An artifact is stored. -/
  stores : j.HasCompiled → ∃ artifact origin backend answer,
    e.cache.insert j.hash artifact origin backend 0 now = (f.cache, answer) ∧
      e.storing? i now = some answer

theorem install_jobs (e : Engine β ι) (b : Backend (World β) ι) (j : CompileJob)
    (artifact : List UInt8) (fromCache : Bool) (n now : Nat) :
    (e.install b j artifact fromCache n now).jobs = e.jobs := by
  unfold install
  split
  · rfl
  · split
    · rfl
    · dsimp only
      split <;> rfl

theorem failWaiters_jobs (e : Engine β ι) (i : Nat) (j : CompileJob) (error : CompileError) :
    (e.failWaiters i j error).jobs = e.jobs.eraseIdx i := by
  refine congrArg (List.eraseIdx · i) ?_
  generalize j.waiters.filter e.isAlive = numbers
  induction numbers generalizing e with
  | nil => rfl
  | cons n numbers ih =>
      rw [List.foldl_cons]
      refine (ih _).trans ?_
      split <;> rfl

/-- A job that does not compile in its next step. -/
theorem turns_quiet {i now : Nat} {j : CompileJob} {next : Option JobStage}
    (at_i : e.jobs[i]? = some j)
    (jobs : f.jobs = match next with
      | some stage => e.jobs.set i { j with stage := stage }
      | none => e.jobs.eraseIdx i)
    (quiet : j.stage ≠ .compiling ∧ ¬ j.HasCompiled)
    (after : next ≠ some .compiling) :
    e.Turns f i now j next where
  at_i := at_i
  jobs := jobs
  begins := fun compiling => absurd compiling after
  compiles := fun compiling => absurd compiling quiet.1
  quiet := fun other => compiling?_of_ne at_i other
  stores := fun compiled => absurd compiled quiet.2

theorem stepJob_turns (e : Engine β ι) (i now : Nat) :
    (e.stepJob i now = e ∧ e.compiling? i = none) ∨
      ∃ j next, e.Turns (e.stepJob i now) i now j next := by
  unfold stepJob
  split
  · rename_i j b at_i found
    refine Or.inr ⟨j, ?_⟩
    split
    · rename_i stage
      unfold lookupArtifact
      split
      · exact ⟨some _, turns_quiet at_i rfl (by simp [CompileJob.HasCompiled, stage]) (by simp)⟩
      · rename_i cache missed
        refine ⟨some .compiling, at_i, rfl, fun _ => ⟨stage, missed⟩, ?_, ?_, ?_⟩
        · simp [stage]
        · exact compiling?_of_ne at_i
        · simp [CompileJob.HasCompiled, stage]
    · rename_i stage
      have noted := compiling?_of_eq at_i found stage
      have no_store : ¬ j.HasCompiled := by simp [CompileJob.HasCompiled, stage]
      unfold compileArtifact
      split
      · rename_i artifact world _
        exact ⟨some (.compiled artifact), at_i, rfl, by simp,
          fun _ => ⟨noted, Or.inl ⟨artifact, rfl⟩⟩, fun other => absurd stage other,
          fun compiled => absurd compiled no_store⟩
      · rename_i error world _
        exact ⟨some (.failed error), at_i, rfl, by simp, fun _ => ⟨noted, Or.inr ⟨error, rfl⟩⟩,
          fun other => absurd stage other, fun compiled => absurd compiled no_store⟩
    · rename_i artifact stage
      refine ⟨some (.ready artifact false), at_i, rfl, by simp, by simp [stage], ?_, fun _ => ?_⟩
      · exact compiling?_of_ne at_i
      · refine ⟨artifact, j.origin, b.name, _, rfl, ?_⟩
        rw [storing?, at_i, found]
        dsimp only
        rw [stage]
        rfl
    · rename_i artifact fromCache stage
      exact ⟨some _, turns_quiet at_i rfl (by simp [CompileJob.HasCompiled, stage]) (by simp)⟩
    · rename_i error stage
      exact ⟨none, turns_quiet at_i (e.failWaiters_jobs i j error)
        (by simp [CompileJob.HasCompiled, stage]) (by simp)⟩
    · rename_i artifact fromCache n rest stage
      exact ⟨some (.installing artifact fromCache rest), turns_quiet at_i (install_jobs ..)
        (by simp [CompileJob.HasCompiled, stage]) (by simp)⟩
    · rename_i stage
      exact ⟨none, turns_quiet at_i rfl (by simp [CompileJob.HasCompiled, stage]) (by simp)⟩
  · rename_i nothing
    refine Or.inl ⟨rfl, ?_⟩
    unfold compiling?
    split
    · rename_i j b at_i found
      exact absurd found (nothing j b at_i)
    · rfl

end Engine

/-! ## What has been compiled -/

namespace Engine

variable {e f : Engine β ι} {done : List (ContentHash × List UInt8)}

/-- What holds of an engine and of the compiles that were made with it. -/
structure Single (e : Engine β ι) (done : List (ContentHash × List UInt8)) : Prop where
  followed : e.Followed
  distinct : (done.map Prod.fst).Nodup
  /-- No compile that a job has begun was made before. -/
  fresh : ∀ j ∈ e.jobs, j.stage = .compiling → j.hash ∉ done.map Prod.fst
  /-- What was compiled is stored, or a job is about to store it. -/
  kept : ∀ h ∈ done.map Prod.fst,
    e.cache.contains h = true ∨ ∃ j ∈ e.jobs, j.hash = h ∧ j.HasCompiled
  made : ∀ c ∈ done, e.Has c
  begun : ∀ j ∈ e.jobs, e.Has j.subject

theorem single_idle (idle : e.jobs = []) : e.Single [] where
  followed := ⟨.ofEngine e, rfl, Workshop.kept_ofEngine idle⟩
  distinct := List.nodup_nil
  fresh := fun j hj => by
    rw [idle] at hj
    cases hj
  kept := nofun
  made := nofun
  begun := fun j hj => by
    rw [idle] at hj
    cases hj

theorem Single.rests (h : e.Single done) (rests : e.Rests f)
    (keeps : ∀ k ∈ done.map Prod.fst, e.cache.contains k = true → f.cache.contains k = true) :
    f.Single done where
  followed := rests.followed h.followed
  distinct := h.distinct
  fresh := fun k hk compiling => by
    rcases rests.jobs k hk with ⟨j, hj, subject, stage⟩ | ⟨queued, _⟩
    · rw [show k.hash = j.hash from congrArg Prod.fst subject]
      exact h.fresh j hj (stage.symm.trans compiling)
    · cases queued.symm.trans compiling
  kept := fun x hx => by
    rcases h.kept x hx with stored | ⟨j, hj, same, artifact, compiled⟩
    · exact Or.inl (keeps x hx stored)
    · obtain ⟨k, hk, subject, stage⟩ := rests.still j hj
      exact Or.inr ⟨k, hk, (congrArg Prod.fst subject).trans same, artifact, stage.trans compiled⟩
  made := fun c hc => (h.made c hc).mono rests.succeeds
  begun := fun k hk => by
    rcases rests.jobs k hk with ⟨j, hj, subject, _⟩ | ⟨_, has⟩
    · rw [subject]
      exact (h.begun j hj).mono rests.succeeds
    · exact has

/-! ### Steps of jobs -/

/-- The jobs before and after a step of one of them; no other open job is for its bytecode. -/
theorem Turns.others {i now : Nat} {j : CompileJob} {next : Option JobStage}
    (h : e.Turns f i now j next) (followed : e.Followed) : ∃ others : List CompileJob,
      (∀ k, k ∈ e.jobs ↔ k = j ∨ k ∈ others) ∧
      (∀ k, k ∈ f.jobs ↔ (∃ stage, next = some stage ∧ k = { j with stage := stage }) ∨
        k ∈ others) ∧
      (j.isOpen → ∀ k ∈ others, k.isOpen → k.hash ≠ j.hash) := by
  obtain ⟨front, back, jobs, rfl⟩ := jobs_split h.at_i
  have after := h.jobs
  refine ⟨front ++ back, fun k => ?_, fun k => ?_, fun open_j k other open_k => ?_⟩
  · rw [jobs, List.mem_append, List.mem_cons, List.mem_append]
    exact or_left_comm
  · rw [after, jobs]
    cases next with
    | some stage => simp [or_left_comm]
    | none => simp [List.eraseIdx_append_of_length_le]
  · obtain ⟨w, rfl, kept⟩ := followed
    have apart := kept.coalesced
    rw [Workshop.Coalesced, jobs] at apart
    obtain ⟨_, rest, across⟩ := List.pairwise_append.mp apart
    rcases List.mem_append.mp other with before | after
    · exact across k before j List.mem_cons_self open_k open_j
    · exact fun same => (List.pairwise_cons.mp rest).1 k after open_j open_k same.symm

theorem followed_stepJob (h : e.Followed) (i now : Nat) :
    (e.stepJob i now).Followed ∧ e.Succeeds (e.stepJob i now) := by
  obtain ⟨w, rfl, kept⟩ := h
  exact ⟨⟨w.stepJob i now, rfl, kept.stepJob i now⟩,
    Workshop.Step.succeeds kept (.stepJob i now)⟩

variable {i now : Nat} {j : CompileJob}

/-- A step gives no job other bytecode. -/
theorem Single.of_turn (h : e.Single done) {next : Option JobStage}
    (turns : e.Turns f i now j next) {k : CompileJob} (hk : k ∈ f.jobs) : e.Has k.subject := by
  obtain ⟨others, before, after, _⟩ := turns.others h.followed
  rcases (after k).mp hk with ⟨stage, _, rfl⟩ | other
  · have mine : e.Has j.subject := h.begun j ((before j).mpr (Or.inl rfl))
    exact mine
  · exact h.begun k ((before k).mpr (Or.inr other))

/-- A step of a job in which nothing is compiled. -/
theorem Single.turn (h : e.Single done) {next : Option JobStage} (turns : e.Turns f i now j next)
    (followed : f.Followed) (succeeds : e.Succeeds f) (idle : j.stage ≠ .compiling)
    (evictions : f.cache.evictions = e.cache.evictions)
    (keeps : ∀ k ∈ done.map Prod.fst, e.cache.contains k = true → f.cache.contains k = true)
    (stores : e.storing? i now ≠ some none) : f.Single done := by
  obtain ⟨others, before, after, apart⟩ := turns.others h.followed
  refine ⟨followed, h.distinct, fun k hk compiling => ?_, fun x hx => ?_,
    fun c hc => (h.made c hc).mono succeeds, fun k hk => (h.of_turn turns hk).mono succeeds⟩
  · rcases (after k).mp hk with ⟨stage, rfl, rfl⟩ | other
    · -- the cache would have had the artifact, or another job for it could be joined
      obtain ⟨queued, missed⟩ := turns.begins (congrArg some compiling)
      intro made
      rcases h.kept j.hash made with stored | ⟨k, hk, same, compiled⟩
      · exact Bool.false_ne_true ((Cache.contains_lookup missed).symm.trans (keeps _ made stored))
      · rcases (before k).mp hk with rfl | other
        · obtain ⟨artifact, compiled⟩ := compiled
          cases queued.symm.trans compiled
        · have open_j : j.isOpen := by simp [CompileJob.isOpen, queued]
          exact apart open_j k other compiled.isOpen same
    · exact h.fresh k ((before k).mpr (Or.inr other)) compiling
  · rcases h.kept x hx with stored | ⟨k, hk, same, compiled⟩
    · exact Or.inl (keeps x hx stored)
    · rcases (before k).mp hk with rfl | other
      · obtain ⟨artifact, origin, backend, answer, inserted, asked⟩ := turns.stores compiled
        cases answer with
        | none => exact absurd asked stores
        | some stored => exact Or.inl (same ▸ Cache.contains_insert inserted evictions)
      · exact Or.inr ⟨k, (after k).mpr (Or.inr other), same, compiled⟩

/-- A compile that is made. -/
theorem Single.compiled (h : e.Single done) {artifact : List UInt8}
    (turns : e.Turns f i now j (some (.compiled artifact))) (followed : f.Followed)
    (succeeds : e.Succeeds f) (compiling : j.stage = .compiling)
    (keeps : ∀ k ∈ done.map Prod.fst, e.cache.contains k = true → f.cache.contains k = true) :
    f.Single (done ++ [j.subject]) := by
  obtain ⟨others, before, after, apart⟩ := turns.others h.followed
  have here : j ∈ e.jobs := (before j).mpr (Or.inl rfl)
  have new := h.fresh j here compiling
  refine ⟨followed, ?_, fun k hk again => ?_, fun x hx => ?_, fun c hc => ?_,
    fun k hk => (h.of_turn turns hk).mono succeeds⟩
  · rw [List.map_append]
    refine List.nodup_append.mpr ⟨h.distinct, List.nodup_singleton _, fun a ha b hb same => new ?_⟩
    have own : b = j.hash := List.mem_singleton.mp hb
    rw [← own, ← same]
    exact ha
  · rcases (after k).mp hk with ⟨stage, taken, rfl⟩ | other
    · cases taken
      cases again
    · have open_j := CompileJob.isOpen_of_compiling compiling
      have different := apart open_j k other (CompileJob.isOpen_of_compiling again)
      have old := h.fresh k ((before k).mpr (Or.inr other)) again
      rw [List.map_append, List.mem_append]
      rintro (made | own)
      · exact old made
      · exact different (List.mem_singleton.mp own)
  · have stored : ∀ y, y = j.hash → ∃ k ∈ f.jobs, k.hash = y ∧ k.HasCompiled := fun y own =>
      ⟨_, (after _).mpr (Or.inl ⟨_, rfl, rfl⟩), own.symm, artifact, rfl⟩
    rw [List.map_append, List.mem_append] at hx
    rcases hx with made | own
    · rcases h.kept x made with contained | ⟨k, hk, same, compiled⟩
      · exact Or.inl (keeps x made contained)
      · rcases (before k).mp hk with rfl | other
        · exact Or.inr (stored x same.symm)
        · exact Or.inr ⟨k, (after k).mpr (Or.inr other), same, compiled⟩
    · exact Or.inr (stored x (List.mem_singleton.mp own))
  · refine Has.mono ?_ succeeds
    rcases List.mem_append.mp hc with old | own
    · exact h.made c old
    · rw [List.mem_singleton.mp own]
      exact h.begun j here

theorem Single.stepJob (h : e.Single done) (i now : Nat)
    (compiles : ∀ k ∈ (e.stepJob i now).jobs, k.hasFailed = false)
    (evictions : (e.stepJob i now).cache.evictions = e.cache.evictions)
    (keeps : ∀ k ∈ done.map Prod.fst, e.cache.contains k = true →
      (e.stepJob i now).cache.contains k = true)
    (stores : e.storing? i now ≠ some none) :
    (e.stepJob i now).Single (done ++ (e.compiling? i).toList) := by
  obtain ⟨followed, succeeds⟩ := followed_stepJob h.followed i now
  rcases e.stepJob_turns i now with ⟨same, nothing⟩ | ⟨j, next, turns⟩
  · rw [same, nothing]
    simpa using h
  · by_cases compiling : j.stage = .compiling
    · obtain ⟨noted, ⟨artifact, rfl⟩ | ⟨error, rfl⟩⟩ := turns.compiles compiling
      · rw [noted]
        exact h.compiled turns followed succeeds compiling keeps
      · obtain ⟨_, _, after, _⟩ := turns.others h.followed
        cases compiles _ ((after _).mpr (Or.inl ⟨_, rfl, rfl⟩))
    · rw [turns.quiet compiling]
      simpa using h.turn turns followed succeeds compiling evictions keeps stores

/-- The compiles that were made and those that jobs have begun are for different bytecode. -/
theorem Single.distinct_compiles (h : e.Single done) :
    ((done ++ (e.jobs.filter isCompiling).map CompileJob.subject).map Prod.fst).Nodup := by
  rw [List.map_append, List.map_map]
  refine List.nodup_append.mpr ⟨h.distinct, ?_, fun a made b begun same => ?_⟩
  · obtain ⟨w, rfl, kept⟩ := h.followed
    refine List.pairwise_map.mpr ((kept.coalesced.filter _).imp_of_mem fun {j k} hj hk apart => ?_)
    have open_j := CompileJob.isOpen_of_compiling (isCompiling_iff.mp (List.mem_filter.mp hj).2)
    have open_k := CompileJob.isOpen_of_compiling (isCompiling_iff.mp (List.mem_filter.mp hk).2)
    exact apart open_j open_k
  · obtain ⟨j, hj, rfl⟩ := List.mem_map.mp begun
    obtain ⟨mem, compiling⟩ := List.mem_filter.mp hj
    subst same
    exact h.fresh j mem (isCompiling_iff.mp compiling) made

end Engine

/-! ## Runs -/

namespace Intake

/-- An action in which the compiler and the cache do their work. -/
structure Calm (s : Intake β ι) (a : Action ι) : Prop where
  /-- No compile fails. -/
  compiles : ∀ j ∈ (s.step a).engine.jobs, j.hasFailed = false
  /-- The cache evicts nothing. -/
  evictions : (s.step a).engine.cache.evictions = s.engine.cache.evictions
  /-- The cache drops no artifact of what was compiled. -/
  keeps : ∀ c ∈ s.compiled, s.engine.cache.contains c.1 = true →
    (s.step a).engine.cache.contains c.1 = true
  /-- The cache does not fail to store an artifact. -/
  stores : s.storing? a ≠ some none

instance (s : Intake β ι) (a : Action ι) : Decidable (s.Calm a) :=
  decidable_of_iff ((∀ j ∈ (s.step a).engine.jobs, j.hasFailed = false) ∧
      (s.step a).engine.cache.evictions = s.engine.cache.evictions ∧
      (∀ c ∈ s.compiled, s.engine.cache.contains c.1 = true →
        (s.step a).engine.cache.contains c.1 = true) ∧
      s.storing? a ≠ some none)
    ⟨fun ⟨compiles, evictions, keeps, stores⟩ => ⟨compiles, evictions, keeps, stores⟩,
      fun ⟨compiles, evictions, keeps, stores⟩ => ⟨compiles, evictions, keeps, stores⟩⟩

/-- The same for some actions, one after the other. -/
def CalmAll (s : Intake β ι) : List (Action ι) → Prop
  | [] => True
  | a :: rest => s.Calm a ∧ (s.step a).CalmAll rest

instance decidableCalmAll (s : Intake β ι) (actions : List (Action ι)) :
    Decidable (s.CalmAll actions) :=
  match actions with
  | [] => inferInstanceAs (Decidable True)
  | a :: rest =>
      have := decidableCalmAll (s.step a) rest
      inferInstanceAs (Decidable (s.Calm a ∧ (s.step a).CalmAll rest))

theorem Calm.contains {s : Intake β ι} {a : Action ι} (h : s.Calm a) :
    ∀ k ∈ s.compiled.map Prod.fst, s.engine.cache.contains k = true →
      (s.step a).engine.cache.contains k = true := by
  intro k made
  obtain ⟨c, hc, rfl⟩ := List.mem_map.mp made
  exact h.keeps c hc

theorem single_step {s : Intake β ι} (h : s.engine.Single s.compiled) {a : Action ι}
    (calm : s.Calm a) : (s.step a).engine.Single (s.step a).compiled := by
  rcases a.noJob_or with rests | ⟨i, now, rfl⟩
  · have nothing := rests.compiling? s
    change (s.move a).engine.Single (s.compiled ++ (s.compiling? a).toList)
    rw [nothing, Option.toList_none, List.append_nil]
    exact h.rests (s.rests_move rests) calm.contains
  · exact h.stepJob i now calm.compiles calm.evictions calm.contains calm.stores

theorem single_run {s : Intake β ι} (h : s.engine.Single s.compiled) {actions : List (Action ι)}
    (calm : s.CalmAll actions) : (s.run actions).engine.Single (s.run actions).compiled := by
  induction actions generalizing s with
  | nil => exact h
  | cons a actions ih => exact ih (single_step h calm.1) calm.2

/-- Registrations, removals, calls and the steps of jobs come between one another in any order,
and a registration may look into the cache long before its module is passed on.  As long as no
compile fails and the cache keeps what it is given, all compiles that were made or begun are for
different content hashes, and each is of the bytecode of a module with that hash.  There are no
other compiles: what an action does depends on nothing else that the compiler would answer. -/
theorem run_compiles_once {e : Engine β ι} (idle : e.jobs = []) {actions : List (Action ι)}
    (calm : (ofEngine e).CalmAll actions) :
    (((ofEngine e).run actions).compiles.map Prod.fst).Nodup ∧
    (∀ c ∈ ((ofEngine e).run actions).compiles,
      ∃ m ∈ ((ofEngine e).run actions).engine.modules, c = (m.hash, m.descriptor.bytecode)) ∧
    ∀ (s : Intake β ι) (a : Action ι)
      (compile : List UInt8 → World β → Except CompileError (List UInt8) × World β),
      (∀ b c, s.engine.backend = some b → s.compiling? a = some c →
        compile c.2 s.engine.world = b.compile c.2 s.engine.world) →
      (s.withCompile compile).step a = (s.step a).withCompile compile := by
  have single : ((ofEngine e).run actions).engine.Single ((ofEngine e).run actions).compiled :=
    single_run (Engine.single_idle idle) calm
  refine ⟨single.distinct_compiles, fun c hc => ?_, fun s a compile alike =>
    step_withCompile alike⟩
  rcases List.mem_append.mp hc with made | begun
  · exact single.made c made
  · obtain ⟨j, hj, rfl⟩ := List.mem_map.mp begun
    exact single.begun j (List.mem_filter.mp hj).1

/-! ### Two versions with the same bytecode -/

def roomy : Engine Unit Unit := { Engine.unloaded with cache := .inMemory 100000 }

def second : Descriptor := { Descriptor.boost with key := ⟨"boost", "2"⟩ }

/-- Both versions look into the cache before the first one is compiled, and the second one is
passed on when the first job has ended and its module is gone. -/
def overtaken : List (Action Unit) :=
  [.load Descriptor.boost 0, .load second 1, .enter 0, .pass 0] ++
    List.replicate 6 (.act (.stepJob 0 2)) ++
    [.act (.unregister ⟨"boost", "1"⟩), .enter 0, .pass 1] ++
    List.replicate 4 (.act (.stepJob 0 3))

theorem run_compiles_once_overtaken :
    roomy.jobs = [] ∧ (ofEngine roomy).CalmAll overtaken ∧
    ((ofEngine roomy).run overtaken).compiles.length = 1 ∧
    (((ofEngine roomy).run overtaken).compiles.map Prod.fst).Nodup := by
  have calm : (ofEngine roomy).CalmAll overtaken := by decide +kernel
  exact ⟨rfl, calm, by decide +kernel, (run_compiles_once rfl calm).1⟩

end Intake

end TieredUdf
