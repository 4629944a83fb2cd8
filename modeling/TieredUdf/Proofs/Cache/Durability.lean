import TieredUdf.Proofs.Cache.Mirror

/-! # Stopping a cache and opening its directory again

A directory is opened, used, stopped between two file operations or within one, and opened again,
any number of times.  What a lookup then finds is always what was stored in one go; and whatever
was stored with success, and was not dropped since, is found.
-/

namespace TieredUdf

namespace Directory

variable {d : Directory} {begun kept : List Deposit}

def recordedBytes (d : Directory) : Nat :=
  ((d.names.filterMap d.described?).map ArtifactMeta.size).sum

theorem found_le_recordedBytes (d : Directory) :
    (d.found.map ArtifactMeta.size).sum ≤ d.recordedBytes := by
  have kept := scan_sublist { d with present := true } d.names
  have sorted := d.found_perm.map ArtifactMeta.size
  calc (d.found.map ArtifactMeta.size).sum
      = ((({ d with present := true }.scan d.names).2).map ArtifactMeta.size).sum := sorted.sum_nat
    _ ≤ d.recordedBytes := (kept.map ArtifactMeta.size).sum_le_sum fun _ _ => Nat.zero_le _

/-! ## Opening -/

theorem Keeps.idle (h : d.Keeps begun kept) {ops : List FileOp} (idle : ∀ op ∈ ops, d.Idle op) :
    (ops.foldl attempt d).Keeps begun kept := by
  have same := (Same.refl d).idle idle
  exact h.of_same same.described (fun _ m _ => same.artifacts m.hash)
    (nodup_names_foldl_attempt h.distinct ops)

/-- Nothing but what describes nothing is removed before the eviction. -/
theorem Keeps.scanning (h : d.Keeps begun kept) :
    ∀ op ∈ { d with present := true }.scanning d.names, Idle { d with present := true } op := by
  have fits : Fits { d with present := true } := h.fits
  exact (Same.refl _).scanning fits d.names

theorem Keeps.made (h : d.Keeps begun kept) : Keeps begun kept { d with present := true } :=
  ⟨h.traces, h.kept, h.distinct⟩

theorem Keeps.opening_safe (h : d.Keeps begun kept) (budget : Nat) :
    (Cache.opening d budget).Safe { d with present := true } begun kept [] := by
  have idle := h.scanning
  refine ⟨fun t => ?_, ?_⟩
  · have removals : ∀ op ∈ (Cache.opening d budget).first, ∃ name, op = .remove name := by
      intro op hop
      obtain ⟨name, rfl, _⟩ := idle op hop
      exact ⟨name, rfl⟩
    rw [Stop.operations_of_removals removals]
    exact h.made.idle fun op hop => idle op (List.mem_of_mem_take hop)
  · rw [List.append_nil]
    exact h.made.idle idle

theorem Keeps.cleaned (h : d.Keeps begun kept) : d.cleaned.Keeps begun kept := by
  rw [Directory.cleaned, scan_eq_scanning]
  exact h.made.idle h.scanning

/-- The index of a directory agrees with it. -/
theorem Keeps.mirrors (h : d.Keeps begun kept) (budget : Nat) :
    (d.indexed budget).Mirrors d.cleaned := by
  have opened := Cache.openedFrom_indexed d budget
  have same : Same { d with present := true } d.cleaned := by
    rw [Directory.cleaned, scan_eq_scanning]
    exact (Same.refl _).idle h.scanning
  refine ⟨(Cache.place_adopted d.found _).1, opened.counted.distinct, fun x hx => ?_,
    fun name m said => ?_, h.cleaned.named⟩
  · obtain ⟨m, hm, rfl⟩ := Cache.entries_indexed d budget x hx
    obtain ⟨_, name, _, said⟩ := (scan_sound _ _).2 m (Cache.mem_found.mp hm)
    have named : name = m.hash.metaFile := h.named name m said
    rw [named] at said
    exact ⟨rfl, (same.described _).trans said⟩
  · have said_before : d.described? name = some m := (same.described name).symm.trans said
    obtain ⟨_, data, file, _⟩ := file?_of_described said_before
    have fits : Fits { d with present := true } := h.fits
    have found : m ∈ d.found :=
      Cache.mem_found.mpr (scan_complete fits (mem_names_of_file? file) said_before)
    refine (Cache.contains_adopted d.found _ m.hash).trans ?_
    simpa using Or.inr ⟨m, found, rfl⟩

/-- An opened cache agrees with its directory, where nothing is lost but what is evicted. -/
theorem Keeps.opened (h : d.Keeps begun kept) (budget : Nat) :
    ∃ files, (Cache.ofDirectory d budget).Mirrors files ∧
      files.Keeps begun (kept.filter fun s => decide (s.hash ∉ (Cache.opening d budget).victims)) := by
  have place := Cache.directory_ofDirectory d budget
  have safe := (h.opening_safe budget).upTo none
  rw [ite_self, List.append_nil] at safe
  obtain ⟨files, mirrors⟩ := (h.mirrors budget).evictEach (d.indexed budget).budget
    (d.indexed budget).evictable
  have same : ((Cache.opening d budget).upTo none).foldl attempt { d with present := true } = files :=
    Option.some.inj (place.symm.trans mirrors.place)
  exact ⟨files, mirrors, same ▸ safe⟩

end Directory

/-! ## A cache that is stopped and started -/

inductive Stage where
  | closed (files : Directory)
  | running (l : Ledger)

/-- A directory and its cache over the time. -/
structure Archive where
  stage : Stage
  /-- Every store that was begun. -/
  begun : List Deposit
  /-- The stores that were answered with success, but for those whose removal was begun. -/
  kept : List Deposit

namespace Archive

/-- An opening or an action, all of it or up to a stop. -/
inductive Event where
  | start (budget : Nat) (stop : Option Stop)
  | use (action : Ledger.Action) (stop : Option Stop)

/-- What is stored can be described. -/
def Event.Storable : Event → Prop
  | .start _ _ => True
  | .use action _ => ∀ s ∈ action.deposit?, s.Storable

def fresh (files : Directory) : Archive := ⟨.closed files, [], []⟩

def files (a : Archive) : Directory :=
  match a.stage with
  | .closed files => files
  | .running l => l.cache.directory.getD .missing

def start (a : Archive) (budget : Nat) (stop : Option Stop) : Archive :=
  let work := Cache.opening a.files budget
  { stage := match stop with
      | none => .running (.opened a.files budget)
      | some _ => .closed ((work.upTo stop).foldl Directory.attempt { a.files with present := true })
    begun := a.begun
    kept := a.kept.filter fun s => decide (s.hash ∉ work.dropped stop) }

def use (a : Archive) (action : Ledger.Action) (stop : Option Stop) : Archive :=
  match a.stage with
  | .closed _ => a
  | .running l =>
      let work := l.cache.work action
      { stage := match stop with
          | none => .running (l.step action)
          | some _ => .closed ((work.upTo stop).foldl Directory.attempt a.files)
        begun := a.begun ++ action.deposit?.toList
        kept := (a.kept ++ if stop.isNone then l.cache.stored a.begun action else []).filter fun s =>
          decide (s.hash ∉ work.dropped stop) }

def step (a : Archive) : Event → Archive
  | .start budget stop => a.start budget stop
  | .use action stop => a.use action stop

def run (a : Archive) (events : List Event) : Archive := events.foldl step a

/-! ## What every event preserves -/

/-- Nothing that was stored is lost, and while the cache runs its index agrees with the files. -/
structure Sound (a : Archive) : Prop where
  keeps : a.files.Keeps a.begun a.kept
  mirrors : ∀ l, a.stage = .running l → l.cache.Mirrors a.files

variable {a : Archive}

theorem sound_running {l : Ledger} {files : Directory} {begun kept : List Deposit}
    (mirrors : l.cache.Mirrors files) (keeps : files.Keeps begun kept) :
    Sound ⟨.running l, begun, kept⟩ := by
  have same : Archive.files ⟨.running l, begun, kept⟩ = files := by
    simp [Archive.files, mirrors.place]
  refine ⟨same ▸ keeps, fun m running => ?_⟩
  cases running
  exact same ▸ mirrors

theorem Sound.start (h : a.Sound) (budget : Nat) (stop : Option Stop) :
    (a.start budget stop).Sound := by
  cases stop with
  | none =>
      obtain ⟨files, mirrors, keeps⟩ := h.keeps.opened budget
      exact sound_running (l := .opened a.files budget) mirrors keeps
  | some t =>
      have safe := (h.keeps.opening_safe budget).upTo (some t)
      rw [ite_self, List.append_nil] at safe
      exact ⟨safe, nofun⟩

theorem Sound.use (h : a.Sound) (action : Ledger.Action) (stop : Option Stop)
    (storable : ∀ s ∈ action.deposit?, s.Storable) : (a.use action stop).Sound := by
  unfold Archive.use
  cases stage : a.stage with
  | closed files => exact h
  | running l =>
      have before := h.mirrors l stage
      have safe := (before.work_safe h.keeps action storable).upTo stop
      cases stop with
      | some t => exact ⟨safe, nofun⟩
      | none =>
          obtain ⟨files, mirrors⟩ := before.step h.keeps action storable
          have place := Cache.directory_step before.place action
          have same : ((l.cache.work action).upTo none).foldl Directory.attempt a.files = files :=
            Option.some.inj (place.symm.trans mirrors.place)
          rw [same] at safe
          exact sound_running mirrors safe

theorem Sound.run (h : a.Sound) {events : List Event} (storable : ∀ e ∈ events, e.Storable) :
    (a.run events).Sound := by
  induction events generalizing a with
  | nil => exact h
  | cons e events ih =>
      obtain ⟨first, others⟩ := List.forall_mem_cons.mp storable
      refine ih ?_ others
      cases e with
      | start budget stop => exact h.start budget stop
      | use action stop => exact h.use action stop first

theorem sound_fresh {files : Directory} (distinct : files.names.Nodup)
    (blank : ∀ name, files.described? name = none) : (fresh files).Sound := by
  refine ⟨⟨fun name m said => ?_, nofun, distinct⟩, nofun⟩
  have nothing : files.described? name = none := blank name
  rw [show (fresh files).files = files from rfl, nothing] at said
  cases said

/-! ## What is found -/

/-- A lookup right after the directory is opened finds one of the deposits, as it was stored. -/
theorem Sound.found (h : a.Sound) (budget : Nat) (k : ContentHash) :
    ((Cache.ofDirectory a.files budget).lookup k).2 = none ∨
      ∃ s ∈ a.begun, s.hash = k ∧
        ((Cache.ofDirectory a.files budget).lookup k).2 = some s.artifact := by
  obtain ⟨files, mirrors, keeps⟩ := h.keeps.opened budget
  rcases mirrors.lookup keeps k with ⟨_, nothing⟩ | ⟨s, hs, hash, _, _, found⟩
  · exact Or.inl nothing
  · exact Or.inr ⟨s, hs, hash, found⟩

/-- What is kept is found when nothing has to be evicted. -/
theorem Sound.kept_found (h : a.Sound) {budget : Nat} (large : a.files.recordedBytes ≤ budget)
    {s : Deposit} (hs : s ∈ a.kept) :
    ((Cache.ofDirectory a.files budget).lookup s.hash).2 = some s.artifact := by
  rw [Cache.ofDirectory_of_large (a.files.found_le_recordedBytes.trans large)]
  have mirrors := h.keeps.mirrors budget
  obtain ⟨said, file⟩ := h.keeps.cleaned.kept s hs
  have present : (a.files.indexed budget).contains s.hash = true := mirrors.indexed _ _ said
  rcases mirrors.lookup h.keeps.cleaned s.hash with ⟨missing, _⟩ | ⟨t, _, hash, also, bytes, found⟩
  · rw [Cache.contains, missing] at present
    cases present
  · have about : t.about = s.about := Option.some.inj (also.symm.trans said)
    have data : t.bytes = s.bytes := Option.some.inj (bytes.symm.trans file)
    rw [found]
    exact congrArg some (Deposit.artifact_congr about data)

/-- Wherever a cache is stopped, in a use or while its directory is opened, and however often, a
lookup after the directory is opened again finds nothing or what was stored in one go.  What was
stored with success, and was not dropped since, is found with its own bytes when the budget takes
all that is described. -/
theorem run_reopened {files : Directory} (distinct : files.names.Nodup)
    (blank : ∀ name, files.described? name = none) {events : List Event}
    (storable : ∀ e ∈ events, e.Storable) (budget : Nat) :
    (∀ k, ((Cache.ofDirectory ((fresh files).run events).files budget).lookup k).2 = none ∨
      ∃ s ∈ ((fresh files).run events).begun, s.hash = k ∧
        ((Cache.ofDirectory ((fresh files).run events).files budget).lookup k).2 =
          some s.artifact) ∧
    (((fresh files).run events).files.recordedBytes ≤ budget →
      ∀ s ∈ ((fresh files).run events).kept,
        ((Cache.ofDirectory ((fresh files).run events).files budget).lookup s.hash).2 =
          some s.artifact) := by
  have sound : ((fresh files).run events).Sound := (sound_fresh distinct blank).run storable
  exact ⟨sound.found budget, fun large s hs => sound.kept_found large hs⟩

section Torn

def whole : Deposit := ⟨⟨List.replicate 32 0⟩, [1, 2, 3], "m@1", "test", 7⟩

/-- An artifact whose description is written in part. -/
def torn : Deposit := ⟨⟨List.replicate 32 1⟩, [4, 5], "m@2", "test", 8⟩

def cutShort : List Event :=
  [.start 100 none,
    .use (.store whole.hash whole.bytes whole.origin whole.backend whole.now) none,
    .use (.store torn.hash torn.bytes torn.origin torn.backend torn.now) (some ⟨2, some 1⟩)]

theorem storable_cutShort : ∀ e ∈ cutShort, e.Storable := by
  have first : whole.Storable := ⟨rfl, by decide, by decide⟩
  have second : torn.Storable := ⟨rfl, by decide, by decide⟩
  rintro e (_ | ⟨_, _ | ⟨_, _ | ⟨_, _ | _⟩⟩⟩)
  · trivial
  · exact fun s same => Option.some.inj same ▸ first
  · exact fun s same => Option.some.inj same ▸ second

theorem run_reopened_cutShort :
    ((fresh .empty).run cutShort).kept = [whole] ∧
      ((Cache.ofDirectory ((fresh .empty).run cutShort).files
        ((fresh .empty).run cutShort).files.recordedBytes).lookup whole.hash).2 =
          some whole.artifact := by
  have distinct : Directory.empty.names.Nodup := List.nodup_nil
  have blank : ∀ name, Directory.empty.described? name = none := fun name => by
    simp [Directory.described?, Directory.file?, Directory.item?, Directory.empty]
  have kept : ((fresh .empty).run cutShort).kept = [whole] := by decide +kernel
  have mem : whole ∈ ((fresh .empty).run cutShort).kept := by simp [kept]
  exact ⟨kept, (run_reopened distinct blank storable_cutShort _).2 (Nat.le_refl _) whole mem⟩

end Torn

end Archive

end TieredUdf
