import TieredUdf.Proofs.Engine.Operations

/-! # No module is lost by its compile

Modules with the same bytecode share a job until it takes over the modules that wait for it; from
then on the job is not open any more, it only installs and is not counted as pending, and a module
that comes later begins another one.  The main statement follows one module from the moment when it
is passed on: it waits for one job, and when it does so no longer it has native code or a reason why
it has none.
-/

namespace TieredUdf.Workshop

variable {β ι : Type} {w v : Workshop β ι}

/-! ## One job and one of its modules -/

theorem Kept.at_inj (h : w.Kept) {s : Nat} {j k : CompileJob} (at_j : w.At s j) (at_k : w.At s k) :
    j = k := by
  obtain ⟨i, serial, job⟩ := at_j
  obtain ⟨i', serial', job'⟩ := at_k
  have small := (List.getElem?_eq_some_iff.mp serial).1
  have same := (List.getElem?_inj small h.distinct).mp (serial.trans serial'.symm)
  subst same
  rw [job] at job'
  exact Option.some.inj job'

/-- Two open jobs for the same bytecode are one. -/
theorem Kept.serial_unique (h : w.Kept) {s t : Nat} {j k : CompileJob} (at_s : w.At s j)
    (at_t : w.At t k) (open_j : j.isOpen) (open_k : k.isOpen) (same : j.hash = k.hash) : s = t := by
  obtain ⟨i, serial, job⟩ := at_s
  obtain ⟨i', serial', job'⟩ := at_t
  obtain ⟨small, rfl⟩ := List.getElem?_eq_some_iff.mp job
  obtain ⟨small', rfl⟩ := List.getElem?_eq_some_iff.mp job'
  have apart := List.pairwise_iff_getElem.mp h.coalesced
  rcases Nat.lt_trichotomy i i' with before | rfl | after
  · exact absurd same (apart i i' small small' before open_j open_k)
  · rw [serial] at serial'
    exact Option.some.inj serial'
  · exact absurd same.symm (apart i' i small' small after open_k open_j)

/-- Every unfinished job has a number. -/
theorem Kept.exists_serial (h : w.Kept) {j : CompileJob} (hj : j ∈ w.engine.jobs) :
    ∃ s, w.At s j := by
  obtain ⟨i, job⟩ := List.mem_iff_getElem?.mp hj
  have small : i < w.serials.length := by
    rw [h.parallel]
    exact (List.getElem?_eq_some_iff.mp job).1
  exact ⟨w.serials[i], i, List.getElem?_eq_getElem small, job⟩

/-- Where the jobs come from after a module has been passed on. -/
theorem schedule_at (h : w.Kept) {n : Nat} {m : LoadedModule (World β) ι} {t : Nat}
    {k : CompileJob} (at_t : (w.schedule n m).At t k) :
    (∃ j, w.At t j ∧ k = j.accept m.hash n) ∨ (t = w.begun ∧ k = .begunFor n m) := by
  obtain ⟨i, serial, job⟩ := at_t
  obtain ⟨_, _, ⟨_, _, _, _, jobs, serials, _⟩ | ⟨new, jobs, serials, _⟩⟩ := w.schedule_effect n m
  · rw [jobs, List.getElem?_map, Option.map_eq_some_iff] at job
    obtain ⟨j, job, rfl⟩ := job
    exact Or.inl ⟨j, ⟨i, serials ▸ serial, job⟩, rfl⟩
  · rw [serials] at serial
    rw [jobs] at job
    have parallel := h.parallel
    by_cases old : i < w.serials.length
    · rw [List.getElem?_append_left old] at serial
      rw [List.getElem?_append_left (parallel ▸ old)] at job
      have mem := List.mem_of_getElem? job
      have refuses : ¬ (k.isOpen ∧ k.hash = m.hash) := fun admits => new k mem admits.1 admits.2
      exact Or.inl ⟨k, ⟨i, serial, job⟩, (CompileJob.accept_of_not refuses n).symm⟩
    · obtain ⟨last, _⟩ := List.getElem?_eq_some_iff.mp serial
      rw [List.length_append, List.length_singleton] at last
      have last : i = w.serials.length := by omega
      rw [last, List.getElem?_concat_length, Option.some.injEq] at serial
      rw [last, parallel, List.getElem?_concat_length, Option.some.injEq] at job
      subst job
      exact Or.inr ⟨serial.symm, rfl⟩

/-- Where the jobs come from after one of them has taken a step. -/
theorem stepJob_at (h : w.Kept) {i now t : Nat} {k : CompileJob}
    (at_t : (w.stepJob i now).At t k) :
    ∃ j, w.At t j ∧ j.MovesOn k ∧ (k.isOpen → k.waiters = j.waiters) := by
  rcases stepJob_effect i now h.awaits with idle | ⟨j, next, advances, serials⟩
  · rw [idle] at at_t
    exact ⟨k, at_t, .refl k, fun _ => rfl⟩
  · obtain ⟨l, serial, job⟩ := at_t
    rw [serials] at serial
    rw [advances.jobs] at job
    cases next with
    | some k' =>
        obtain ⟨small, _⟩ := List.getElem?_eq_some_iff.mp advances.at_i
        by_cases own : l = i
        · subst own
          rw [List.getElem?_set_self small, Option.some.injEq] at job
          subst job
          obtain ⟨moves, waiters⟩ := advances.moves k' rfl
          exact ⟨j, ⟨l, serial, advances.at_i⟩, moves, waiters⟩
        · rw [List.getElem?_set_ne (Ne.symm own)] at job
          exact ⟨k, ⟨l, serial, job⟩, .refl k, fun _ => rfl⟩
    | none =>
        rw [List.getElem?_eraseIdx] at serial job
        by_cases before : l < i
        · rw [if_pos before] at serial job
          exact ⟨k, ⟨l, serial, job⟩, .refl k, fun _ => rfl⟩
        · rw [if_neg before] at serial job
          exact ⟨k, ⟨l + 1, serial, job⟩, .refl k, fun _ => rfl⟩

/-- A module that was passed on waits for the job of some number, and for no other one unless it
is passed on again. -/
structure Awaited (w : Workshop β ι) (s n : Nat) (hash : ContentHash) : Prop where
  begun : s < w.begun
  passed : n ∈ w.passed
  waits : ∀ j, w.At s j → j.isOpen → j.hash = hash ∧ n ∈ j.waiters
  alone : w.passed.count n = 1 → ∀ t j, w.At t j → t ≠ s → n ∉ j.pending

variable {s n : Nat} {hash : ContentHash}

theorem Awaited.elsewhere (h : w.Awaited s n hash) {f : Engine β ι}
    (elsewhere : w.engine.Elsewhere f) : Awaited { w with engine := f } s n hash := by
  have same : ∀ t j, At { w with engine := f } t j → w.At t j :=
    fun t j ⟨i, serial, job⟩ => ⟨i, serial, elsewhere.jobs ▸ job⟩
  exact ⟨h.begun, h.passed, fun j at_s => h.waits j (same s j at_s),
    fun once t j at_t => h.alone once t j (same t j at_t)⟩

theorem Awaited.schedule (h : w.Awaited s n hash) (kept : w.Kept) (x : Nat)
    (m : LoadedModule (World β) ι) : (w.schedule x m).Awaited s n hash := by
  obtain ⟨_, passed, effect⟩ := w.schedule_effect x m
  refine ⟨?_, passed ▸ List.mem_cons_of_mem _ h.passed, fun k at_s open_k => ?_,
    fun once t k at_t other waits => ?_⟩
  · have begun := h.begun
    rcases effect with ⟨_, _, _, _, _, _, same⟩ | ⟨_, _, _, more⟩
    · omega
    · omega
  · rcases schedule_at kept at_s with ⟨j, before, rfl⟩ | ⟨new, _⟩
    · rw [CompileJob.accept_isOpen] at open_k
      obtain ⟨hash_eq, waits⟩ := h.waits j before open_k
      refine ⟨(CompileJob.accept_hash m.hash x j).trans hash_eq, ?_⟩
      have still := (CompileJob.mem_pending_accept m.hash x j n).mpr
        (Or.inl (CompileJob.pending_of_open open_k ▸ waits))
      rwa [CompileJob.pending_of_open (by rwa [CompileJob.accept_isOpen])] at still
    · exact absurd (new ▸ h.begun) (Nat.lt_irrefl _)
  · -- the module passed on is another one, since this one is passed on only once
    rw [passed, List.count_cons] at once
    have first := List.count_pos_iff.mpr h.passed
    have different : n ≠ x := by
      intro same
      rw [if_pos (beq_iff_eq.mpr same.symm)] at once
      omega
    rw [if_neg fun same => different (beq_iff_eq.mp same).symm] at once
    rcases schedule_at kept at_t with ⟨j, before, rfl⟩ | ⟨_, rfl⟩
    · rcases (CompileJob.mem_pending_accept m.hash x j n).mp waits with old | ⟨same, _⟩
      · exact h.alone once t j before other old
      · exact different same
    · exact different (List.mem_singleton.mp waits)

theorem Awaited.stepJob (h : w.Awaited s n hash) (kept : w.Kept) (i now : Nat) :
    (w.stepJob i now).Awaited s n hash := by
  refine ⟨h.begun, h.passed, fun k at_s open_k => ?_, fun once t k at_t other waits => ?_⟩
  · obtain ⟨j, before, moves, waiters⟩ := stepJob_at kept at_s
    obtain ⟨hash_eq, waits⟩ := h.waits j before (moves.isOpen open_k)
    exact ⟨moves.hash.trans hash_eq, waiters open_k ▸ waits⟩
  · obtain ⟨j, before, moves, _⟩ := stepJob_at kept at_t
    exact h.alone once t j before other (moves.pending.subset waits)

theorem Awaited.runs (h : w.Awaited s n hash) (kept : w.Kept) (runs : Runs w v) :
    v.Awaited s n hash := by
  induction runs with
  | refl => exact h
  | tail before step ih =>
      have kept := kept.runs before
      cases step with
      | elsewhere elsewhere => exact ih.elsewhere elsewhere
      | schedule loaded => exact ih.schedule kept _ _
      | stepJob i now => exact ih.stepJob kept i now

/-- Only the open job of its bytecode, or the one that is begun for it, takes in a module that is
passed on for the first time. -/
theorem schedule_waits (kept : w.Kept) {m : LoadedModule (World β) ι} (new : n ∉ w.passed)
    {t : Nat} {k : CompileJob} (at_t : (w.schedule n m).At t k) (waits : n ∈ k.pending) :
    (∃ j, w.At t j ∧ j.isOpen ∧ j.hash = m.hash) ∨ t = w.begun := by
  rcases schedule_at kept at_t with ⟨j, before, rfl⟩ | ⟨begun, _⟩
  · rcases (CompileJob.mem_pending_accept m.hash n j n).mp waits with old | ⟨_, open_j, same⟩
    · obtain ⟨_, _, job⟩ := before
      have earlier := List.count_pos_iff.mpr (mem_waiting.mpr ⟨j, List.mem_of_getElem? job, old⟩)
      have counted := kept.counted n
      rw [List.count_eq_zero.mpr new] at counted
      omega
    · exact Or.inl ⟨j, before, open_j, same⟩
  · exact Or.inr begun

/-- A module that is passed on for the first time waits for an open job. -/
theorem exists_awaited (kept : w.Kept) {m : LoadedModule (World β) ι} (new : n ∉ w.passed)
    (loaded : w.engine.modules[n]? = some m) :
    ∃ s j, (w.schedule n m).At s j ∧ j.isOpen ∧ (w.schedule n m).Awaited s n m.hash := by
  obtain ⟨_, passed, effect⟩ := w.schedule_effect n m
  have mine : n ∈ (w.schedule n m).passed := passed ▸ List.mem_cons_self
  have kept' := kept.schedule loaded
  rcases effect with ⟨j, hj, open_j, same, jobs, serials, begun⟩ | ⟨none_open, jobs, serials, begun⟩
  · obtain ⟨s, at_s⟩ := kept.exists_serial hj
    obtain ⟨i, serial, job⟩ := at_s
    have at_s' : (w.schedule n m).At s (j.accept m.hash n) :=
      ⟨i, serials ▸ serial, by rw [jobs, List.getElem?_map, job]; rfl⟩
    have old : ∀ {t k}, (w.schedule n m).At t k → t < w.begun :=
      fun ⟨_, serial, _⟩ => kept.begun _ (serials ▸ List.mem_of_getElem? serial)
    refine ⟨s, _, at_s', (CompileJob.accept_isOpen m.hash n j).trans open_j,
      begun ▸ old at_s', mine, fun k at_k open_k => ?_, fun _ t k at_t other waits => ?_⟩
    · obtain rfl := kept'.at_inj at_k at_s'
      refine ⟨(CompileJob.accept_hash m.hash n j).trans same, ?_⟩
      rw [← CompileJob.pending_of_open open_k]
      exact (CompileJob.mem_pending_accept m.hash n j n).mpr (Or.inr ⟨rfl, open_j, same⟩)
    · rcases schedule_waits kept new at_t waits with ⟨x, at_x, open_x, also⟩ | fresh
      · exact other (kept.serial_unique at_x ⟨i, serial, job⟩ open_x open_j (also.trans same.symm))
      · exact Nat.ne_of_lt (old at_t) fresh
  · have at_new : (w.schedule n m).At w.begun (.begunFor n m) := by
      refine ⟨w.serials.length, by rw [serials, List.getElem?_concat_length], ?_⟩
      rw [jobs, kept.parallel, List.getElem?_concat_length]
    refine ⟨w.begun, _, at_new, rfl, begun ▸ Nat.lt_succ_self _, mine, fun k at_k _ => ?_,
      fun _ t k at_t other waits => ?_⟩
    · obtain rfl := kept'.at_inj at_k at_new
      exact ⟨rfl, List.mem_singleton.mpr rfl⟩
    · rcases schedule_waits kept new at_t waits with ⟨x, ⟨_, _, job⟩, open_x, also⟩ | fresh
      · exact none_open x (List.mem_of_getElem? job) open_x also
      · exact other fresh

/-! ## No module is lost -/

/-- What holds of a module that was passed on once, of the job that it joined and of the hash of
its bytecode. -/
structure Settles (w : Workshop β ι) (s n : Nat) (hash : ContentHash) : Prop where
  /-- Until the job takes over the modules that wait, this one waits for it. -/
  waits : ∀ j, w.At s j → j.isOpen → j.hash = hash ∧ j.waiters.count n = 1
  alone : ∀ t j, w.At t j → t ≠ s → n ∉ j.pending
  /-- Once the job has decided the module, and at the latest when it has ended. -/
  decided : (∀ j, w.At s j → n ∉ j.pending) → w.engine.Decided n

theorem Awaited.settles (h : w.Awaited s n hash) (kept : w.Kept) (once : w.passed.count n = 1) :
    w.Settles s n hash where
  waits := fun j at_s open_j => by
    obtain ⟨hash_eq, waits⟩ := h.waits j at_s open_j
    obtain ⟨_, _, job⟩ := at_s
    have part : j.waiters.Sublist (waiting w.engine.jobs) := by
      rw [← CompileJob.pending_of_open open_j, waiting, List.flatMap_def]
      exact List.sublist_flatten_of_mem (List.mem_map_of_mem (List.mem_of_getElem? job))
    have most := part.count_le n
    have counted := kept.counted n
    have least := List.count_pos_iff.mpr waits
    exact ⟨hash_eq, by omega⟩
  alone := h.alone once
  decided := fun gone => by
    refine kept.decided n h.passed fun waits => ?_
    obtain ⟨j, hj, pending⟩ := mem_waiting.mp waits
    obtain ⟨t, at_t⟩ := kept.exists_serial hj
    by_cases own : t = s
    · exact gone j (own ▸ at_t) pending
    · exact h.alone once t j at_t own pending

/-- A workshop can follow an engine that begins without jobs wherever it goes.  At any time, two
jobs that modules can still join are not for the same bytecode; when all jobs have ended, none is
pending and every module that was passed on is decided; no outcome of a compile is taken back later;
and a module that is now passed on for the first time joins a job, waits for it and for no other one
as long as it is passed on only this once, and is decided when the job has ended. -/
theorem runs_settle {e : Engine β ι} (idle : e.jobs = []) (runs : Runs (ofEngine e) w) :
    (∀ f, Relation.ReflTransGen Engine.Moves w.engine f → ∃ v, Runs w v ∧ v.engine = f) ∧
    (∀ s t j k, w.At s j → w.At t k → j.isOpen → k.isOpen → j.hash = k.hash → s = t) ∧
    (w.engine.jobs = [] →
      w.engine.pendingCompilations = 0 ∧ ∀ n ∈ w.passed, w.engine.Decided n) ∧
    (∀ v, Runs w v → w.engine.Succeeds v.engine) ∧
    ∀ (n : Nat) m, w.engine.modules[n]? = some m → n ∉ w.passed →
      ∃ s j, (w.schedule n m).At s j ∧ j.isOpen ∧
        ∀ v, Runs (w.schedule n m) v → v.passed.count n = 1 → v.Settles s n m.hash := by
  have kept : w.Kept := (kept_ofEngine idle).runs runs
  refine ⟨fun f moves => w.runs_moves moves, fun s t j k at_s at_t => kept.serial_unique at_s at_t,
    fun ended => ⟨?_, ?_⟩, fun v more => kept.succeeds more, fun n m loaded new => ?_⟩
  · rw [Engine.pendingCompilations, ended]
    rfl
  · refine fun n passed => kept.decided n passed fun waits => ?_
    rw [ended] at waits
    cases waits
  · obtain ⟨s, j, at_s, open_j, awaited⟩ := exists_awaited kept new loaded
    have kept := kept.schedule loaded
    exact ⟨s, j, at_s, open_j, fun v more once =>
      (awaited.runs kept more).settles (kept.runs more) once⟩

/-! ## Three modules with the same bytecode -/

def stepAll (w : Workshop β ι) (places : List Nat) : Workshop β ι :=
  places.foldl (fun w i => w.stepJob i 0) w

theorem runs_stepAll (w : Workshop β ι) (places : List Nat) : Runs w (w.stepAll places) := by
  induction places generalizing w with
  | nil => exact .refl
  | cons i places ih => exact (ih (w.stepJob i 0)).head (.stepJob i 0)

/-- A version of a module whose compile has begun. -/
def version (v : String) : LoadedModule (World Unit) Unit :=
  let d := { Descriptor.boost with key := ⟨"boost", v⟩ }
  let pool := Engine.unloaded.newPool d .interpreter fun w => (.ok (), w)
  (LoadedModule.interpreted d pool (.initial .pending (some "test")) false 0).beginCompile.1

def add (w : Workshop β ι) (m : LoadedModule (World β) ι) : Workshop β ι :=
  { w with engine := w.engine.addModule m }

theorem step_add (w : Workshop β ι) (m : LoadedModule (World β) ι) : Step w (w.add m) :=
  .elsewhere (w.engine.elsewhere_addModule m)

theorem add_modules {w : Workshop β ι} {n : Nat} (next : w.engine.modules.length = n)
    (m : LoadedModule (World β) ι) : (w.add m).engine.modules[n]? = some m :=
  next ▸ List.getElem?_concat_length

/-- One version is about to be compiled. -/
def opening : Workshop Unit Unit :=
  (((ofEngine Engine.unloaded).add (version "1")).schedule 0 (version "1")).stepAll [0]

/-- Another one joins it, and their job is about to install. -/
def installing : Workshop Unit Unit :=
  ((opening.add (version "2")).schedule 1 (version "2")).stepAll [0, 0, 0]

/-- The third one comes too late to join, and both jobs end. -/
def closing : Workshop Unit Unit :=
  ((installing.add (version "3")).schedule 2 (version "3")).stepAll [0, 1, 0, 1, 0, 0, 0]

theorem runs_settle_versions :
    Engine.unloaded.jobs = [] ∧ Runs (ofEngine Engine.unloaded) (opening.add (version "2")) ∧
    (opening.add (version "2")).engine.modules[1]? = some (version "2") ∧ 1 ∉ opening.passed ∧
    Runs ((opening.add (version "2")).schedule 1 (version "2")) closing ∧
    closing.passed = [2, 1, 0] ∧ closing.begun = 2 ∧ closing.engine.jobs = [] ∧
    closing.engine.pendingCompilations = 0 ∧ (∀ n ∈ closing.passed, closing.engine.Decided n) ∧
    (∃ s, closing.Settles s 1 (version "2").hash) ∧
    ∃ w, Runs closing w ∧ w.engine = closing.engine.act (.unregister ⟨"boost", "1"⟩) := by
  have facts : opening.engine.modules.length = 1 ∧ opening.passed = [0] ∧
      installing.engine.modules.length = 2 ∧ closing.passed = [2, 1, 0] ∧ closing.begun = 2 ∧
      closing.engine.jobs.isEmpty := by decide +kernel
  obtain ⟨one, first_passed, two, passed, begun, empty⟩ := facts
  have ended : closing.engine.jobs = [] := List.isEmpty_iff.mp empty
  have new : 1 ∉ opening.passed := by simp [first_passed]
  have once : closing.passed.count 1 = 1 := by rw [passed]; rfl
  have foremost : ((ofEngine Engine.unloaded).add (version "1")).engine.modules[0]? =
    some (version "1") := add_modules rfl _
  have second : (opening.add (version "2")).engine.modules[1]? = some (version "2") :=
    add_modules one _
  have third : (installing.add (version "3")).engine.modules[2]? = some (version "3") :=
    add_modules two _
  have early : Runs (ofEngine Engine.unloaded) (opening.add (version "2")) :=
    (((runs_stepAll _ [0]).head (.schedule foremost)).head (step_add _ _)).tail (step_add _ _)
  have late : Runs ((opening.add (version "2")).schedule 1 (version "2")) closing :=
    (runs_stepAll _ [0, 0, 0]).trans
      (((runs_stepAll _ [0, 1, 0, 1, 0, 0, 0]).head (.schedule third)).head (step_add installing _))
  obtain ⟨follows, _, finished, _⟩ := runs_settle rfl (early.trans (late.head (.schedule second)))
  obtain ⟨none_pending, decided⟩ := finished ended
  obtain ⟨_, _, _, _, passing⟩ := runs_settle rfl early
  obtain ⟨s, _, _, _, settles⟩ := passing 1 (version "2") second new
  exact ⟨rfl, early, second, new, late, passed, begun, ended, none_pending, decided,
    ⟨s, settles closing late once⟩, follows _ (.single (.act _))⟩

end TieredUdf.Workshop
