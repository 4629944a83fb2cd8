import TieredUdf.Proofs.Cache.Stops

/-! # An index and its files

While a cache is used, it has an entry for every description in its directory and a description
for every entry.  So an artifact is stored only when nothing is left of an older one, and nothing
is lost wherever an action is stopped.
-/

namespace TieredUdf

namespace Directory

variable {d e : Directory} {begun kept : List Deposit}

/-- Descriptions are named by the hash that they are about. -/
def Named (d : Directory) : Prop := ∀ name m, d.described? name = some m → name = m.hash.metaFile

theorem Keeps.named (h : d.Keeps begun kept) : d.Named := fun name m said => (h.traces name m said).1

theorem described?_removeArtifact (d : Directory) (h : ContentHash) :
    (d.removeArtifact h).described? h.metaFile = none := by
  have untouched : ¬ (FileOp.remove h.artifactFile).Touches h.metaFile :=
    ContentHash.artifactFile_ne_metaFile h h
  have gone : (d.removeArtifact h).file? h.metaFile = none :=
    (file?_attempt untouched).trans (file?_attempt_remove_self d h.metaFile)
  simp [described?, gone]

theorem described?_removeArtifact_of_ne (d : Directory) {h k : ContentHash} (other : k ≠ h) :
    (d.removeArtifact h).described? k.metaFile = d.described? k.metaFile :=
  described?_congr (file?_foldl_attempt fun op hop => (untouched_removing other op hop).2)

theorem shrinks_removeArtifact (d : Directory) (h : ContentHash) : d.Shrinks (d.removeArtifact h) :=
  shrinks_foldl_attempt (removals_removing h) d

end Directory

namespace Cache

variable {c : Cache} {d e : Directory} {begun kept : List Deposit}

/-- The entries of a cache are what its directory describes. -/
structure Mirrors (c : Cache) (d : Directory) : Prop where
  place : c.directory = some d
  distinct : c.Distinct
  written : ∀ x ∈ c.entries, x.bytes = none ∧ d.described? x.hash.metaFile = some x.about
  indexed : ∀ name m, d.described? name = some m → c.contains m.hash = true
  named : d.Named

/-- A change of references and recency, with other files of the same descriptions. -/
theorem Mirrors.congr (h : c.Mirrors d) {after : Cache} (place : after.directory = some e)
    (described : ∀ name, e.described? name = d.described? name) (distinct : after.Distinct)
    (entries : ∀ x ∈ after.entries, ∃ y ∈ c.entries, x.about = y.about ∧ x.bytes = y.bytes)
    (contains : ∀ k, c.contains k = true → after.contains k = true) : after.Mirrors e := by
  refine ⟨place, distinct, fun x hx => ?_, fun name m said => ?_, fun name m said => ?_⟩
  · obtain ⟨y, hy, about, bytes⟩ := entries x hx
    have hash : x.hash = y.hash := congrArg ArtifactMeta.hash about
    rw [described, bytes, about, hash]
    exact h.written y hy
  · rw [described] at said
    exact contains _ (h.indexed name m said)
  · rw [described] at said
    exact h.named name m said

/-- Counters are not mirrored. -/
theorem Mirrors.of_eq (h : c.Mirrors d) {after : Cache} (place : after.directory = c.directory)
    (entries : after.entries = c.entries) : after.Mirrors d := by
  have found (k : ContentHash) : after.find? k = c.find? k := by rw [find?, entries, find?]
  refine h.congr (place.trans h.place) (fun _ => rfl) ?_ (fun x hx => ⟨x, entries ▸ hx, rfl, rfl⟩)
    fun k present => ?_
  · have distinct := h.distinct
    rwa [Distinct, ← entries] at distinct
  · rw [contains, found]
    exact present

theorem Mirrors.remove (h : c.Mirrors d) (k : ContentHash) :
    ∃ files, (c.remove k).1.Mirrors files := by
  have place := directory_remove h.place k
  have distinct := h.distinct.remove k
  cases found : c.find? k with
  | none =>
      refine ⟨d, h.congr (by simpa [contains, found] using place) (fun _ => rfl) distinct ?_ ?_⟩ <;>
        rw [remove_of_missing found]
      · exact fun x hx => ⟨x, hx, rfl, rfl⟩
      · exact fun _ present => present
  | some x =>
      have shrinks := Directory.shrinks_removeArtifact d k
      refine ⟨d.removeArtifact k, by simpa [contains, found] using place, distinct, fun y hy => ?_,
        fun name m said => ?_, fun name m said => h.named name m (shrinks.described? said)⟩
      · rw [remove_of_found found] at hy
        obtain ⟨mem, other⟩ := mem_without.mp hy
        rw [Directory.described?_removeArtifact_of_ne d other]
        exact h.written y mem
      · have before := shrinks.described? said
        have other : m.hash ≠ k := by
          rintro rfl
          rw [h.named name m before, Directory.described?_removeArtifact] at said
          cases said
        have present := h.indexed name m before
        have after := find?_remove c k m.hash
        rw [if_neg other] at after
        rw [contains] at present ⊢
        exact (congrArg Option.isSome after).trans present

/-- An entry that takes the place of one with the same artifact. -/
theorem Mirrors.touch (h : c.Mirrors d) {x y : CacheEntry} (hx : x ∈ c.entries)
    (about : y.about = x.about) (bytes : y.bytes = x.bytes) : (c.put y).Mirrors d := by
  refine h.congr h.place (fun _ => rfl) (h.distinct.put y) (fun z hz => ?_) fun k present => ?_
  · rcases List.mem_append.mp hz with old | new
    · exact ⟨z, (mem_without.mp old).1, rfl, rfl⟩
    · rw [List.mem_singleton.mp new]
      exact ⟨x, hx, about, bytes⟩
  · rw [contains, find?_put]
    split
    · rfl
    · exact present

theorem Mirrors.evictEach (h : c.Mirrors d) (target : Nat) (hashes : List ContentHash) :
    ∃ files, (evictEach target hashes c).1.Mirrors files := by
  refine evictEach_preserves (P := fun c => ∃ files, c.Mirrors files) target
    (fun c k _ ⟨files, mirrors⟩ => ?_) ⟨d, h⟩
  obtain ⟨left, removed⟩ := mirrors.remove k
  exact ⟨left, removed.of_eq rfl rfl⟩

/-- References change, and nothing else. -/
theorem Mirrors.recount (h : c.Mirrors d) (k : ContentHash) (f : Nat → Nat) :
    (c.modify k (Cache.recount f)).Mirrors d := by
  refine h.congr h.place (fun _ => rfl) (h.distinct.recount k f) (fun x hx => ?_) fun l present => ?_
  · obtain ⟨y, hy, rfl⟩ := List.mem_map.mp hx
    refine ⟨y, hy, ?_⟩
    split <;> exact ⟨rfl, rfl⟩
  · have found := find?_modify c k l (f := Cache.recount f) fun _ => rfl
    rw [contains, found]
    rw [contains] at present
    split
    · rw [Option.isSome_map]
      exact present
    · exact present

/-! ## Reading -/

/-- An entry can be read, and it gives what was stored in one go. -/
theorem Mirrors.read? (h : c.Mirrors d) (keeps : d.Keeps begun kept) {x : CacheEntry}
    (hx : x ∈ c.entries) : ∃ s ∈ begun, s.about = x.about ∧
      d.file? x.hash.artifactFile = some s.bytes ∧ c.read? x = some s.bytes := by
  obtain ⟨unread, said⟩ := h.written x hx
  obtain ⟨_, s, hs, about, file⟩ := keeps.traces _ _ said
  refine ⟨s, hs, about, file, ?_⟩
  have read : d.readArtifact? x.about = some s.bytes := by
    rw [Directory.readArtifact?, file, Option.filter_some, ← about, if_pos s.describes]
  rw [Cache.read?, unread, h.place]
  exact read

/-- A lookup finds the artifact of the entry, if there is one. -/
theorem Mirrors.lookup (h : c.Mirrors d) (keeps : d.Keeps begun kept) (k : ContentHash) :
    (c.find? k = none ∧ (c.lookup k).2 = none) ∨
    ∃ s ∈ begun, s.hash = k ∧ d.described? k.metaFile = some s.about ∧
      d.file? k.artifactFile = some s.bytes ∧ (c.lookup k).2 = some s.artifact := by
  rw [lookup_artifact]
  cases found : c.find? k with
  | none => exact Or.inl ⟨rfl, rfl⟩
  | some x =>
      obtain ⟨hx, rfl⟩ := find?_eq_some found
      obtain ⟨s, hs, about, file, read⟩ := h.read? keeps hx
      refine Or.inr ⟨s, hs, congrArg ArtifactMeta.hash about, ?_, file, ?_⟩
      · rw [about]
        exact (h.written x hx).2
      · rw [Option.bind_some, read, ← about]
        rfl

/-- The entry of a deposit is there, and its artifact can be read. -/
def holds (c : Cache) (s : Deposit) : Bool :=
  (c.find? s.hash).any fun x => decide (x.about = s.about ∧ c.read? x = some s.bytes)

/-- What a cache holds is kept. -/
theorem Mirrors.keeps_held (h : c.Mirrors d) (keeps : d.Keeps begun kept) {held : List Deposit}
    (holds : ∀ s ∈ held, c.holds s = true) : d.Keeps begun (kept ++ held) := by
  refine ⟨keeps.traces, fun s hs => ?_, keeps.distinct⟩
  rcases List.mem_append.mp hs with old | new
  · exact keeps.kept s old
  · have held := holds s new
    unfold Cache.holds at held
    cases found : c.find? s.hash with
    | none => simp [found] at held
    | some x =>
        obtain ⟨hx, hash⟩ := find?_eq_some found
        obtain ⟨unread, said⟩ := h.written x hx
        have same : x.about = s.about ∧ c.read? x = some s.bytes := by simpa [found] using held
        have read : d.readArtifact? s.about = some s.bytes := by
          rw [← same.1, ← same.2, Cache.read?, unread, h.place]
          rfl
        rw [hash, same.1] at said
        exact ⟨said, (Option.filter_eq_some_iff.mp read).1⟩

/-! ## Storing -/

theorem Mirrors.fresh (h : c.Mirrors d) {k : ContentHash} (missing : c.find? k = none) :
    ∀ name m, d.described? name = some m → m.hash ≠ k := by
  intro name m said same
  have present := h.indexed name m said
  rw [same, contains, missing] at present
  cases present

/-- A new entry, whose artifact and description are written. -/
theorem Mirrors.add (h : c.Mirrors d) {s : Deposit} (storable : s.Storable) (n : Nat)
    (done : d.perform (Directory.storing s.about s.bytes) = (e, true)) :
    ({ c with directory := some e }.add s.about none n).Mirrors e := by
  have described : ∀ name, e.described? name =
      if name = s.hash.metaFile then some s.about else d.described? name :=
    Directory.described?_of_stored storable.writable done
  have found (k : ContentHash) := find?_add { c with directory := some e } s.about none n k
  refine ⟨rfl, h.distinct.put ⟨s.about, n, none⟩, fun x hx => ?_, fun name m said => ?_,
    fun name m said => ?_⟩
  · rcases List.mem_append.mp hx with old | new
    · obtain ⟨mem, other⟩ := mem_without.mp old
      have unlike : x.hash.metaFile ≠ s.hash.metaFile :=
        fun names => other (ContentHash.metaFile_inj names)
      rw [described, if_neg unlike]
      exact h.written x mem
    · rw [List.mem_singleton.mp new, described]
      exact ⟨rfl, if_pos rfl⟩
  · rw [described] at said
    rw [contains, found]
    split at said
    · cases said
      rw [if_pos rfl]
      rfl
    · have present := h.indexed name m said
      split
      · rfl
      · exact present
  · rw [described] at said
    split at said
    · rename_i own
      cases said
      exact own
    · exact h.named name m said

/-- The first three operations of a store, as far as they are performed. -/
theorem early_performed {m : ArtifactMeta} {bytes : List UInt8} {n : Nat} (few : n ≤ 3) :
    ∀ op ∈ (d.performed (Directory.storing m bytes)).take n, Directory.Early m.hash op := by
  intro op hop
  obtain ⟨rest, split⟩ := Directory.performed_prefix d (Directory.storing m bytes)
  refine Directory.early_storing m bytes op ?_
  rw [← split]
  refine List.take_subset_take_left _ few ?_
  rw [List.take_append]
  exact List.mem_append_left _ hop

/-- A store that fails does so before it names a description. -/
theorem early_of_failed {m : ArtifactMeta} {bytes : List UInt8}
    (failed : (d.perform (Directory.storing m bytes)).2 = false) :
    ∀ op ∈ d.performed (Directory.storing m bytes), Directory.Early m.hash op := by
  have prefix_ := Directory.performed_prefix d (Directory.storing m bytes)
  have short : (d.performed (Directory.storing m bytes)).length ≤ 3 := by
    have four : (Directory.storing m bytes).length = 4 := rfl
    have le := prefix_.length_le
    by_contra long
    have all : d.performed (Directory.storing m bytes) = Directory.storing m bytes :=
      prefix_.eq_of_length (by omega)
    rw [(Directory.performed_eq_self_iff d _).mp all] at failed
    cases failed
  have early : ∀ op ∈ (d.performed (Directory.storing m bytes)).take 3,
      Directory.Early m.hash op := early_performed (Nat.le_refl 3)
  rwa [List.take_of_length_le short] at early

/-- The operations of a store up to a stop. -/
theorem early_operations {m : ArtifactMeta} {bytes : List UInt8} {t : Stop} (few : t.count ≤ 3) :
    ∀ op ∈ t.operations (d.performed (Directory.storing m bytes)), Directory.Early m.hash op := by
  intro op hop
  unfold Stop.operations at hop
  rcases List.mem_append.mp hop with whole | begun
  · exact early_performed few op whole
  · split at begun
    · rename_i n name data _ here
      rw [List.mem_singleton.mp begun]
      have mem := (Directory.performed_prefix d _).subset (List.mem_of_getElem? here)
      have named : name = m.hash.temporaryFile := by
        rcases List.mem_cons.mp mem with same | mem
        · exact (FileOp.write.inj same).1
        rcases List.mem_cons.mp mem with same | mem
        · cases same
        rcases List.mem_pair.mp mem with same | same
        · exact (FileOp.write.inj same).1
        · cases same
      rw [named]
      exact Or.inl ⟨_, rfl⟩
    · cases begun

/-- A store that fails loses nothing, and one that succeeds is kept. -/
theorem keeps_performed (keeps : d.Keeps begun kept) {s : Deposit} (storable : s.Storable)
    (fresh : ∀ name m, d.described? name = some m → m.hash ≠ s.hash) :
    ((d.performed (Directory.storing s.about s.bytes)).foldl Directory.attempt d).Keeps
      (begun ++ [s]) (kept ++ if (d.perform (Directory.storing s.about s.bytes)).2 then [s] else []) := by
  rw [← Directory.perform_eq]
  rcases outcome : d.perform (Directory.storing s.about s.bytes) with ⟨after, done⟩
  cases done with
  | true => exact keeps.stored storable fresh outcome
  | false =>
      have failed : ∀ op ∈ d.performed (Directory.storing s.about s.bytes),
          Directory.Early s.hash op := early_of_failed (congrArg Prod.snd outcome)
      have files := Directory.perform_eq d (Directory.storing s.about s.bytes)
      rw [outcome] at files
      rw [show after = _ from files, if_neg Bool.false_ne_true, List.append_nil]
      exact (keeps.early fresh failed).mono (List.subset_append_left begun [s]) (List.Subset.refl kept)

/-- Wherever the store of a new artifact is stopped, nothing is lost: either no description is
named yet, or all of the store is performed. -/
theorem storing_safe (keeps : d.Keeps begun kept) {s : Deposit} (storable : s.Storable)
    (fresh : ∀ name m, d.described? name = some m → m.hash ≠ s.hash) {w : Work}
    (first : w.first = d.performed (Directory.storing s.about s.bytes)) :
    w.Safe d (begun ++ [s]) kept
      (if (d.perform (Directory.storing s.about s.bytes)).2 then [s] else []) := by
  have whole := keeps_performed keeps storable fresh
  rw [← first] at whole
  refine ⟨fun t => ?_, whole⟩
  by_cases few : t.count ≤ 3
  · rw [first]
    exact (keeps.early fresh (early_operations few)).mono (List.subset_append_left begun [s])
      (List.Subset.refl kept)
  · have le := (Directory.performed_prefix d (Directory.storing s.about s.bytes)).length_le
    have four : (Directory.storing s.about s.bytes).length = 4 := rfl
    have all : t.operations w.first = w.first := Stop.operations_of_le (by rw [first]; omega)
    rw [all]
    exact whole.mono (List.Subset.refl _) (List.subset_append_left kept _)

/-- Work that does nothing before it drops artifacts. -/
theorem safe_of_first {w : Work} (first : w.first = []) {answered : List Deposit}
    (keeps : d.Keeps begun (kept ++ answered)) (more : List Deposit) :
    w.Safe d (begun ++ more) kept answered := by
  have grown : begun ⊆ begun ++ more := List.subset_append_left begun more
  have none_done (t : Stop) : t.operations [] = [] := Stop.operations_of_le (Nat.zero_le _)
  refine ⟨fun t => ?_, ?_⟩ <;> rw [first]
  · rw [none_done]
    exact keeps.mono grown (List.subset_append_left kept answered)
  · exact keeps.mono grown (List.Subset.refl _)

/-- Storing what is new, or failing to. -/
theorem insert_of_missing {s : Deposit} (missing : c.find? s.hash = none)
    (place : c.directory = some d) {done : Bool}
    (outcome : d.perform (Directory.storing s.about s.bytes) = (e, done)) (n : Nat) :
    c.insert s.hash s.bytes s.origin s.backend n s.now =
      (if done then (({ c with directory := some e }.add s.about none n).trim, some true)
        else ({ c with directory := some e }, none)) ∧
    (c.insertion s.hash s.bytes s.origin s.backend n s.now).first =
      d.performed (Directory.storing s.about s.bytes) := by
  have same : ArtifactMeta.ofBytes s.hash s.bytes s.origin s.backend s.now = s.about := rfl
  unfold insert insertion
  rw [missing, place]
  dsimp only
  rw [same, outcome]
  cases done <;> exact ⟨rfl, rfl⟩

theorem insert_of_found {s : Deposit} {x : CacheEntry} (found : c.find? s.hash = some x) (n : Nat) :
    c.insert s.hash s.bytes s.origin s.backend n s.now =
      (c.put { x with refcount := x.refcount + n }, some false) ∧
    c.insertion s.hash s.bytes s.origin s.backend n s.now = .nothing := by
  unfold insert insertion
  rw [found]
  exact ⟨rfl, rfl⟩

/-- The deposits that the answer to a store is about: the new one, or those of its hash that are
there already. -/
def answered (c : Cache) (begun : List Deposit) (s : Deposit) : Option Bool → List Deposit
  | some true => [s]
  | some false => begun.filter fun t => t.hash = s.hash && c.holds t
  | none => []

/-- Wherever a store is stopped, nothing is lost, and the artifact is there once the store has
succeeded. -/
theorem Mirrors.insertion_safe (h : c.Mirrors d) (keeps : d.Keeps begun kept) {s : Deposit}
    (storable : s.Storable) (n : Nat) :
    (c.insertion s.hash s.bytes s.origin s.backend n s.now).Safe d (begun ++ [s]) kept
      (c.answered begun s (c.insert s.hash s.bytes s.origin s.backend n s.now).2) := by
  cases found : c.find? s.hash with
  | some x =>
      obtain ⟨inserted, work⟩ := insert_of_found found n
      rw [inserted, work]
      refine safe_of_first rfl (h.keeps_held keeps fun t ht => ?_) [s]
      have mem := List.of_mem_filter ht
      simp only [Bool.and_eq_true] at mem
      exact mem.2
  | none =>
      rcases outcome : d.perform (Directory.storing s.about s.bytes) with ⟨after, done⟩
      obtain ⟨inserted, first⟩ := insert_of_missing found h.place outcome n
      have safe := storing_safe keeps storable (h.fresh found) first
      rw [outcome] at safe
      rw [inserted]
      cases done <;> exact safe

/-- The index and the files agree after a store, whether it succeeds or fails. -/
theorem Mirrors.insert (h : c.Mirrors d) {s : Deposit} (storable : s.Storable) (n : Nat) :
    ∃ files, (c.insert s.hash s.bytes s.origin s.backend n s.now).1.Mirrors files := by
  cases found : c.find? s.hash with
  | some x =>
      obtain ⟨hx, hash⟩ := find?_eq_some found
      refine ⟨d, ?_⟩
      rw [(insert_of_found found n).1]
      exact h.touch hx rfl rfl
  | none =>
      rcases outcome : d.perform (Directory.storing s.about s.bytes) with ⟨after, done⟩
      rw [(insert_of_missing found h.place outcome n).1]
      cases done with
      | true => exact (h.add storable n outcome).evictEach _ _
      | false =>
          have failed : ∀ op ∈ d.performed (Directory.storing s.about s.bytes),
              Directory.Early s.hash op := early_of_failed (congrArg Prod.snd outcome)
          have files := Directory.perform_eq d (Directory.storing s.about s.bytes)
          rw [outcome] at files
          refine ⟨after, h.congr rfl (fun name => ?_) h.distinct (fun x hx => ⟨x, hx, rfl, rfl⟩)
            fun _ present => present⟩
          rw [show after = _ from files]
          exact Directory.described?_foldl_attempt (fun op hop => (failed op hop).unnamed) name

/-! ## Every action -/

/-- The deposits that an action stores or finds stored, if it is a store that succeeds. -/
def stored (c : Cache) (begun : List Deposit) : Ledger.Action → List Deposit
  | .store h bytes origin backend now =>
      c.answered begun ⟨h, bytes, origin, backend, now⟩ (c.store h bytes origin backend now).2
  | .storeAndAcquire h bytes origin backend now =>
      c.answered begun ⟨h, bytes, origin, backend, now⟩
        (c.storeAndAcquire h bytes origin backend now).2
  | _ => []

/-- Wherever an action is stopped, nothing is lost but what it drops. -/
theorem Mirrors.work_safe (h : c.Mirrors d) (keeps : d.Keeps begun kept) (a : Ledger.Action)
    (storable : ∀ s ∈ a.deposit?, s.Storable) :
    (c.work a).Safe d (begun ++ a.deposit?.toList) kept (c.stored begun a) := by
  have same : d.Keeps begun (kept ++ []) := (List.append_nil kept).symm ▸ keeps
  cases a with
  | store hash bytes origin backend now =>
      exact h.insertion_safe keeps (s := ⟨hash, bytes, origin, backend, now⟩) (storable _ rfl) 0
  | storeAndAcquire hash bytes origin backend now =>
      exact h.insertion_safe keeps (s := ⟨hash, bytes, origin, backend, now⟩) (storable _ rfl) 1
  | acquire hash => exact safe_of_first rfl same []
  | release hash => exact safe_of_first rfl same []
  | lookup hash =>
      refine safe_of_first ?_ same []
      change (c.looking hash).first = []
      unfold looking
      cases found : c.find? hash with
      | none => rfl
      | some x =>
          obtain ⟨_, _, _, _, read⟩ := h.read? keeps (find?_eq_some found).1
          simp [read, Work.nothing]
  | invalidate hash =>
      refine safe_of_first ?_ same []
      change (c.invalidation hash).first = []
      unfold invalidation
      cases c.find? hash with
      | none => rfl
      | some x =>
          dsimp only
          split <;> rfl
  | evict target => exact safe_of_first rfl same []

/-- The index and the files agree after every action. -/
theorem Mirrors.step {l : Ledger} (h : l.cache.Mirrors d) (keeps : d.Keeps begun kept)
    (a : Ledger.Action) (storable : ∀ s ∈ a.deposit?, s.Storable) :
    ∃ files, (l.step a).cache.Mirrors files := by
  cases a with
  | store hash bytes origin backend now =>
      exact h.insert (s := ⟨hash, bytes, origin, backend, now⟩) (storable _ rfl) 0
  | storeAndAcquire hash bytes origin backend now =>
      exact h.insert (s := ⟨hash, bytes, origin, backend, now⟩) (storable _ rfl) 1
  | acquire hash => exact ⟨d, h.recount hash (· + 1)⟩
  | release hash => exact (h.recount hash fun n => n - 1).evictEach _ _
  | lookup hash =>
      change ∃ files, (l.cache.lookup hash).1.Mirrors files
      unfold Cache.lookup
      cases found : l.cache.find? hash with
      | none => exact ⟨d, h.of_eq rfl rfl⟩
      | some x =>
          have hx := (find?_eq_some found).1
          obtain ⟨s, _, _, _, read⟩ := h.read? keeps hx
          dsimp only
          rw [read]
          exact ⟨d, (h.touch hx rfl rfl).of_eq rfl rfl⟩
  | invalidate hash =>
      change ∃ files, (l.cache.invalidate hash).1.Mirrors files
      unfold Cache.invalidate
      cases l.cache.find? hash with
      | none => exact ⟨d, h⟩
      | some x =>
          dsimp only
          split
          · exact h.remove hash
          · exact ⟨d, h⟩
  | evict target => exact h.evictEach _ _

end Cache

end TieredUdf
