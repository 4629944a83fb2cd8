import TieredUdf.Proofs.Engine.References
import TieredUdf.Proofs.Engine.Workshop

/-! # What is done with an engine

Whatever is done with an engine between the steps of its jobs leaves the jobs and the outcomes of
compiles alone, apart from passing one module on.  So a workshop can follow its engine wherever it
goes, also while calls are in progress.
-/

namespace TieredUdf

open Text (Duration)

variable {β ω ι : Type}

/-! ## Modules -/

namespace LoadedModule

variable {m n : LoadedModule ω ι}

theorem Continues.refl (m : LoadedModule ω ι) : m.Continues m := ⟨rfl, rfl, id, id⟩

theorem Continues.trans {o : LoadedModule ω ι} (h : m.Continues n) (k : n.Continues o) :
    m.Continues o :=
  ⟨k.descriptor.trans h.descriptor, k.compile.trans h.compile, k.settled ∘ h.settled,
    k.finalized ∘ h.finalized⟩

theorem Continues.withStats (h : m.Continues n) {stats : ModuleStats}
    (compile : stats.compile = m.stats.compile) : m.Continues { n with stats := stats } :=
  ⟨h.descriptor, compile, h.settled, h.finalized⟩

theorem Swaps.continues (h : m.Swaps n) : m.Continues n := by
  rw [h.rest]
  exact ⟨rfl, rfl, id, id⟩

theorem finalize_continues (m : LoadedModule ω ι) (c : Cache) :
    m.Continues (m.finalize c).2.1 := by
  rw [finalize_module]
  split
  · exact .refl m
  · exact ⟨rfl, rfl, fun _ => rfl, fun _ => rfl⟩

theorem exit_continues (m : LoadedModule ω ι) (c : Cache) : m.Continues (m.exit c).2.1 := by
  have left : m.Continues m.leave.1 := ⟨rfl, rfl, id, id⟩
  unfold exit
  dsimp only
  split
  · exact left.trans (m.leave.1.finalize_continues c)
  · exact left

theorem beginDrain_continues (m : LoadedModule ω ι) (c : Cache) :
    m.Continues (m.beginDrain c).2.1 ∧ (m.beginDrain c).2.1.inFlight = m.inFlight := by
  have started : m.Continues m.startDraining := ⟨rfl, rfl, id, id⟩
  unfold beginDrain
  dsimp only
  split
  · exact ⟨started.trans (m.startDraining.finalize_continues c), finalize_inFlight _ c⟩
  · exact ⟨started, rfl⟩

end LoadedModule

/-! ## Calls -/

theorem ModuleStats.recordExecution_compile (s : ModuleStats) (tier : Tier) (elapsed : Duration)
    (reads : Nat) (error : Option String) (now : Nat) :
    (s.recordExecution tier elapsed reads error now).compile = s.compile := by
  cases tier <;> cases error <;> rfl

namespace Site

open LoadedModule (Continues)

variable {m : LoadedModule (World β) ι}

theorem Steady.continues {c : Cache} {now : Nat} {r : Admission ι × Site β ι}
    (h : Steady m c now r) : m.Continues r.2.module := by
  obtain ⟨e | call, t⟩ := r
  · obtain ⟨n, swaps, left⟩ := h
    have rejected : n.Continues (n.recordRejection e now) := ⟨rfl, rfl, id, id⟩
    have exits : t.module = ((n.recordRejection e now).exit c).2.1 := congrArg Prod.fst left
    rw [exits]
    exact swaps.continues.trans (rejected.trans (LoadedModule.exit_continues _ c))
  · exact h.1.continues

theorem refuse_continues (s : Site β ι) (e : ExecError) (now : Nat) :
    s.module.Continues (s.refuse e now).2.module :=
  (s.steady_refuse e now).continues

theorem afterCheckout_continues (s : Site β ι) (tier : Tier) (result : Except ExecError (Member ι))
    (bound : BoundCall) (document : Document) (now : Nat) :
    s.module.Continues (s.afterCheckout tier result bound document now).2.module :=
  (s.steady_afterCheckout tier result bound document now).continues

theorem beginCall_continues (s : Site β ι) (document : Document) (args : Arguments) (now : Nat) :
    s.module.Continues (s.beginCall document args now).2.module := by
  let arrived : Site β ι := { s with module := s.module.arrive }
  have arrives : s.module.Continues arrived.module := ⟨rfl, rfl, id, id⟩
  refine arrives.trans ?_
  unfold beginCall
  dsimp only
  split
  · exact arrived.refuse_continues _ now
  · split
    · exact arrived.refuse_continues _ now
    · rename_i bound _
      change arrived.module.Continues (arrived.obtain bound document now).2.module
      unfold obtain
      split
      · exact arrived.refuse_continues _ now
      · split
        · exact arrived.refuse_continues _ now
        · rename_i tier _ _ has_pool
          split
          · exact (LoadedModule.swaps_setPool has_pool _).continues
          · exact (LoadedModule.swaps_setPool has_pool _).continues.trans
              (afterCheckout_continues ⟨_, _, _⟩ _ _ bound document now)

theorem resumeCall_continues (s : Site β ι) (tier : Tier) (bound : BoundCall) (document : Document)
    (now : Nat) : s.module.Continues (s.resumeCall tier bound document now).2.module := by
  unfold resumeCall
  split
  · exact s.refuse_continues _ now
  · rename_i p has_pool
    dsimp only
    exact (LoadedModule.swaps_setPool has_pool _).continues.trans
      (afterCheckout_continues ⟨_, _, _⟩ tier _ bound document now)

theorem endCall_continues (s : Site β ι) (call : RunningCall ι)
    (raw : Except ExecError (List Scalar)) (body : ι) (elapsed : Duration) (now : Nat) :
    s.module.Continues (s.endCall call raw body elapsed now).2.module := by
  obtain ⟨n, swaps, left⟩ := s.endCall_exit call raw body elapsed now
  have exits := congrArg Prod.fst left
  dsimp only at exits
  rw [exits]
  have recorded := s.module.stats.recordExecution_compile call.tier elapsed (s.readsOf call)
    (errorText (raw.bind (Descriptor.convertResults s.module.descriptor.returns))) now
  exact (swaps.continues.withStats recorded).trans (LoadedModule.exit_continues _ s.cache)

theorem finish_continues (caller : Caller ι) (s : Site β ι) (call : RunningCall ι)
    (elapsed : Duration) (now : Nat) :
    s.module.Continues (s.finish caller call elapsed now).2.module := by
  let ran := (caller call.lease.member.body call.arguments).run s.world.host
  exact endCall_continues { s with world := { s.world with host := ran.1 } } call ran.2.1 ran.2.2
    elapsed now

theorem invoke_continues (caller : Caller ι) (s : Site β ι) (document : Document)
    (args : Arguments) (elapsed : Duration) (now : Nat) :
    s.module.Continues (s.invoke caller document args elapsed now).2.module := by
  have arrives : s.module.Continues s.module.arrive := ⟨rfl, rfl, id, id⟩
  have entered := arrives.trans (s.steady_enter document args now).continues
  rw [invoke_eq]
  revert entered
  rcases s.enter document args now with ⟨e | call, t⟩ <;> intro entered
  · exact entered
  · exact entered.trans (t.finish_continues caller call elapsed now)

end Site

/-! ## Engines -/

namespace Engine

variable {e f : Engine β ι}

theorem Elsewhere.trans {g : Engine β ι} (h : e.Elsewhere f) (k : f.Elsewhere g) :
    e.Elsewhere g where
  jobs := k.jobs.trans h.jobs
  modules := fun n m at_n => by
    obtain ⟨m', at_n', first⟩ := h.modules n m at_n
    obtain ⟨m'', at_n'', second⟩ := k.modules n m' at_n'
    exact ⟨m'', at_n'', first.trans second⟩
  alive := (h.succeeds.trans k.succeeds).alive

theorem elsewhere_of_eq (modules : f.modules = e.modules) (registered : f.registered = e.registered)
    (jobs : f.jobs = e.jobs) : e.Elsewhere f where
  jobs := jobs
  modules := fun _ m at_n => ⟨m, modules ▸ at_n, .refl m⟩
  alive := (succeeds_of_eq modules registered).alive

theorem elsewhere_of_set {n : Nat} {m k : LoadedModule (World β) ι} (at_n : e.modules[n]? = some m)
    (continues : m.Continues k) (there : e.isAlive n ∨ k.inFlight = m.inFlight)
    (modules : f.modules = e.modules.set n k) (registered : f.registered ⊆ e.registered)
    (jobs : f.jobs = e.jobs) : e.Elsewhere f where
  jobs := jobs
  modules := fun _ _ at_l => related_of_set .refl at_n continues modules at_l
  alive := fun l _ _ => isAlive_of_set at_n modules registered there l

theorem isAlive_of_number? {key : ModuleKey} {n : Nat} (found : e.number? key = some n) :
    e.isAlive n = true :=
  isAlive_iff.mpr (Or.inl ⟨_, mem_registered found, rfl⟩)

/-! ### Calls -/

/-- Something happens to a module that is not gone, as it is called. -/
theorem elsewhere_putSite {n : Nat} {s t : Site β ι} (at_n : e.site? n = some s)
    (alive : e.isAlive n) (continues : s.module.Continues t.module) :
    e.Elsewhere (e.putSite n t) := by
  obtain ⟨m, at_m, rfl⟩ := Option.map_eq_some_iff.mp at_n
  exact elsewhere_of_set at_m continues (Or.inl alive) rfl (List.Subset.refl _) rfl

theorem elsewhere_beginCall {n : Nat} (alive : e.isAlive n) (document : Document)
    (args : Arguments) (now : Nat) : e.Elsewhere (e.beginCall n document args now).2 := by
  unfold Engine.beginCall
  split
  · exact elsewhere_of_eq rfl rfl rfl
  · rename_i s at_n
    exact elsewhere_putSite at_n alive (s.beginCall_continues document args now)

theorem elsewhere_resumeCall {n : Nat} (alive : e.isAlive n) (tier : Tier) (bound : BoundCall)
    (document : Document) (now : Nat) :
    e.Elsewhere (e.resumeCall n tier bound document now).2 := by
  unfold Engine.resumeCall
  split
  · exact elsewhere_of_eq rfl rfl rfl
  · rename_i s at_n
    exact elsewhere_putSite at_n alive (s.resumeCall_continues tier bound document now)

theorem elsewhere_endCall {n : Nat} (alive : e.isAlive n) (call : RunningCall ι)
    (raw : Except ExecError (List Scalar)) (body : ι) (elapsed : Duration) (now : Nat) :
    e.Elsewhere (e.endCall n call raw body elapsed now).2 := by
  unfold Engine.endCall
  split
  · exact elsewhere_of_eq rfl rfl rfl
  · rename_i s at_n
    exact elsewhere_putSite at_n alive (s.endCall_continues call raw body elapsed now)

theorem elsewhere_invoke (caller : Caller ι) (e : Engine β ι) (key : ModuleKey)
    (document : Document) (args : Arguments) (elapsed : Duration) (now : Nat) :
    e.Elsewhere (e.invoke caller key document args elapsed now).2 := by
  unfold Engine.invoke
  split
  · exact elsewhere_of_eq rfl rfl rfl
  · rename_i n found
    split
    · exact elsewhere_of_eq rfl rfl rfl
    · rename_i s at_n
      exact elsewhere_putSite at_n (isAlive_of_number? found)
        (s.invoke_continues caller document args elapsed now)

/-! ### Registering and removing -/

theorem elsewhere_retire (e : Engine β ι) (key : ModuleKey) (n : Nat) :
    e.Elsewhere (e.retire key n) := by
  have fewer : (e.removeKey key).registered ⊆ e.registered := List.filter_subset_self _
  unfold retire
  dsimp only
  split
  · rename_i m at_n
    obtain ⟨continues, inFlight⟩ := m.beginDrain_continues e.cache
    exact elsewhere_of_set at_n continues (Or.inr inFlight) rfl fewer rfl
  · refine ⟨rfl, fun _ m at_l => ⟨m, at_l, .refl m⟩, fun l _ _ alive => ?_⟩
    rcases isAlive_iff.mp alive with ⟨r, listed, own⟩ | calls
    · exact isAlive_iff.mpr (Or.inl ⟨r, fewer listed, own⟩)
    · exact isAlive_iff.mpr (Or.inr calls)

theorem elsewhere_unregister (e : Engine β ι) (key : ModuleKey) :
    e.Elsewhere (e.unregister key).2 := by
  unfold Engine.unregister
  split
  · exact elsewhere_of_eq rfl rfl rfl
  · exact e.elsewhere_retire key _

theorem elsewhere_tryUnregister (e : Engine β ι) (key : ModuleKey) :
    e.Elsewhere (e.tryUnregister key).2 := by
  unfold Engine.tryUnregister
  split
  · exact elsewhere_of_eq rfl rfl rfl
  · dsimp only
    split
    · exact elsewhere_of_eq rfl rfl rfl
    · exact e.elsewhere_retire key _

theorem elsewhere_loadCached (e : Engine β ι) (d : Descriptor) (now : Nat) :
    e.Elsewhere (e.loadCached d now).2 := by
  unfold Engine.loadCached
  split
  · exact elsewhere_of_eq rfl rfl rfl
  · split
    · exact elsewhere_of_eq rfl rfl rfl
    · dsimp only
      split <;> exact elsewhere_of_eq rfl rfl rfl

theorem elsewhere_loadInterpreted (e : Engine β ι) (d : Descriptor) (now : Nat) :
    e.Elsewhere (e.loadInterpreted d now).2 := by
  unfold Engine.loadInterpreted
  split
  · exact elsewhere_of_eq rfl rfl rfl
  · split <;> exact elsewhere_of_eq rfl rfl rfl

theorem elsewhere_load (e : Engine β ι) (d : Descriptor) (now : Nat) :
    e.Elsewhere (e.load d now).2 := by
  have cached := e.elsewhere_loadCached d now
  unfold Engine.load
  revert cached
  rcases e.loadCached d now with ⟨_ | m, f⟩ <;> intro cached
  · exact cached.trans (f.elsewhere_loadInterpreted d now)
  · exact cached

theorem elsewhere_addModule (e : Engine β ι) (m : LoadedModule (World β) ι) :
    e.Elsewhere (e.addModule m) where
  jobs := rfl
  modules := fun n o at_n => by
    obtain ⟨small, _⟩ := List.getElem?_eq_some_iff.mp at_n
    exact ⟨o, (List.getElem?_append_left small).trans at_n, .refl o⟩
  alive := fun n o at_n alive => by
    obtain ⟨small, _⟩ := List.getElem?_eq_some_iff.mp at_n
    rcases isAlive_iff.mp alive with ⟨r, listed, own⟩ | ⟨p, at_n', calls⟩
    · -- the new module has another number
      rcases List.mem_cons.mp ((insertKey_perm m.key _ e.registered).subset listed) with rfl | old
      · exact absurd own (Nat.ne_of_gt small)
      · exact isAlive_iff.mpr (Or.inl ⟨r, old, own⟩)
    · exact isAlive_iff.mpr (Or.inr ⟨p, (List.getElem?_append_left small).symm.trans at_n', calls⟩)

end Engine

/-! ## Actions -/

/-- What can happen to an engine next.  A call can be made in parts, by the number of its module,
and anything may happen between them. -/
inductive Engine.Moves (e : Engine β ι) : Engine β ι → Prop where
  | act (a : Action ι) : Moves e (e.act a)
  | beginCall {n : Nat} (alive : e.isAlive n) (document : Document) (args : Arguments)
      (now : Nat) : Moves e (e.beginCall n document args now).2
  | resumeCall {n : Nat} (alive : e.isAlive n) (tier : Tier) (bound : BoundCall)
      (document : Document) (now : Nat) : Moves e (e.resumeCall n tier bound document now).2
  | runGuest (caller : Caller ι) (call : RunningCall ι) : Moves e (e.runGuest caller call).2
  | endCall {n : Nat} (alive : e.isAlive n) (call : RunningCall ι)
      (raw : Except ExecError (List Scalar)) (body : ι) (elapsed : Duration) (now : Nat) :
      Moves e (e.endCall n call raw body elapsed now).2

namespace Workshop

open Engine (Action)

/-- A module is added, and passed on when its compile begins. -/
theorem runs_enroll (w : Workshop β ι) (m : LoadedModule (World β) ι) :
    ∃ v, Runs w v ∧ v.engine = (w.engine.enroll m).2 := by
  have joined : ∀ (o : LoadedModule (World β) ι) (counters : EngineCounters),
      let f : Engine β ι := { w.engine.addModule o with counters := counters }
      w.engine.Elsewhere f ∧ f.modules[w.engine.modules.length]? = some o :=
    fun o counters =>
      ⟨⟨rfl, (w.engine.elsewhere_addModule o).modules, (w.engine.elsewhere_addModule o).alive⟩,
        List.getElem?_concat_length⟩
  unfold Engine.enroll
  dsimp only
  split
  · obtain ⟨elsewhere, loaded⟩ := joined m.beginCompile.1
      { w.engine.counters with registrations := w.engine.counters.registrations + 1 }
    have added : Runs w _ := .single (.elsewhere elsewhere)
    split
    · exact ⟨_, added.tail (.schedule loaded), (schedule_effect _ _ _).1⟩
    · exact ⟨_, added, rfl⟩
  · obtain ⟨elsewhere, _⟩ := joined m
      { w.engine.counters with registrations := w.engine.counters.registrations + 1 }
    exact ⟨_, .single (.elsewhere elsewhere), rfl⟩

theorem runs_register (w : Workshop β ι) (d : Descriptor) (now : Nat) :
    ∃ v, Runs w v ∧ v.engine = (w.engine.register d now).2 := by
  have loads := w.engine.elsewhere_load d now
  unfold Engine.register
  split
  · exact ⟨w, .refl, rfl⟩
  · revert loads
    rcases w.engine.load d now with ⟨error | m, f⟩ <;> intro loads
    · exact ⟨_, .single (.elsewhere loads), rfl⟩
    · obtain ⟨v, runs, same⟩ := runs_enroll { w with engine := f } m
      exact ⟨v, runs.head (.elsewhere loads), same⟩

/-- A workshop follows its engine through every action. -/
theorem runs_act (w : Workshop β ι) (a : Action ι) :
    ∃ v, Runs w v ∧ v.engine = w.engine.act a := by
  have elsewhere : ∀ {f : Engine β ι}, w.engine.Elsewhere f → ∃ v, Runs w v ∧ v.engine = f :=
    fun elsewhere => ⟨_, .single (.elsewhere elsewhere), rfl⟩
  cases a with
  | register d now => exact w.runs_register d now
  | unregister key => exact elsewhere (w.engine.elsewhere_unregister key)
  | tryUnregister key => exact elsewhere (w.engine.elsewhere_tryUnregister key)
  | invoke caller key document args elapsed now =>
      exact elsewhere (w.engine.elsewhere_invoke caller key document args elapsed now)
  | evictCache target => exact elsewhere (Engine.elsewhere_of_eq rfl rfl rfl)
  | stepJob i now => exact ⟨_, .single (.stepJob i now), rfl⟩

theorem runs_move (w : Workshop β ι) {f : Engine β ι} (moves : w.engine.Moves f) :
    ∃ v, Runs w v ∧ v.engine = f := by
  have elsewhere : ∀ {f : Engine β ι}, w.engine.Elsewhere f → ∃ v, Runs w v ∧ v.engine = f :=
    fun elsewhere => ⟨_, .single (.elsewhere elsewhere), rfl⟩
  cases moves with
  | act a => exact w.runs_act a
  | beginCall alive document args now =>
      exact elsewhere (Engine.elsewhere_beginCall alive document args now)
  | resumeCall alive tier bound document now =>
      exact elsewhere (Engine.elsewhere_resumeCall alive tier bound document now)
  | runGuest caller call => exact elsewhere (Engine.elsewhere_of_eq rfl rfl rfl)
  | endCall alive call raw body elapsed now =>
      exact elsewhere (Engine.elsewhere_endCall alive call raw body elapsed now)

theorem runs_moves (w : Workshop β ι) {f : Engine β ι}
    (moves : Relation.ReflTransGen Engine.Moves w.engine f) : ∃ v, Runs w v ∧ v.engine = f := by
  induction moves with
  | refl => exact ⟨w, .refl, rfl⟩
  | tail _ next ih =>
      obtain ⟨u, first, rfl⟩ := ih
      obtain ⟨v, last, same⟩ := u.runs_move next
      exact ⟨v, first.trans last, same⟩

end Workshop

end TieredUdf
