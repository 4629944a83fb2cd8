import TieredUdf.Proofs.Cache.Opening

/-! # The file operations of a cache

Every use of a cache in a directory is a list of file operations: those that write an artifact or
clean the directory up, and then those that remove what is evicted.  The directory of the cache
afterwards is the one before with these operations performed in their order.
-/

namespace TieredUdf

namespace Directory

/-- The operations that are performed, up to the first one that fails. -/
def performed (d : Directory) : List FileOp → List FileOp
  | [] => []
  | op :: rest =>
      match d.perform? op with
      | some e => op :: e.performed rest
      | none => []

theorem perform_eq (d : Directory) (ops : List FileOp) :
    (d.perform ops).1 = (d.performed ops).foldl attempt d := by
  induction ops generalizing d with
  | nil => rfl
  | cons op rest ih =>
      unfold perform performed
      cases done : d.perform? op with
      | none => rfl
      | some e =>
          have here : d.attempt op = e := by rw [attempt, done, Option.getD_some]
          dsimp only
          rw [ih e, List.foldl_cons, here]

theorem performed_prefix (d : Directory) (ops : List FileOp) : d.performed ops <+: ops := by
  induction ops generalizing d with
  | nil => exact List.prefix_refl []
  | cons op rest ih =>
      unfold performed
      cases d.perform? op with
      | none => exact List.nil_prefix
      | some e => exact (List.prefix_cons_inj op).mpr (ih e)

/-- All operations are performed exactly if none fails. -/
theorem performed_eq_self_iff (d : Directory) (ops : List FileOp) :
    d.performed ops = ops ↔ (d.perform ops).2 = true := by
  induction ops generalizing d with
  | nil => simp [performed, perform]
  | cons op rest ih =>
      unfold performed perform
      cases d.perform? op with
      | none => simp
      | some e => simpa using ih e

/-- What is removed while some names are looked at, one after the other. -/
def scanning (d : Directory) : List String → List FileOp
  | [] => []
  | name :: rest => d.cleaning name ++ ((d.cleaning name).foldl attempt d).scanning rest

theorem scan_eq_scanning (d : Directory) (names : List String) :
    (d.scan names).1 = (d.scanning names).foldl attempt d := by
  have any : ∀ found, (names.foldl Cache.scanName (d, found)).1 =
      (d.scanning names).foldl attempt d := by
    induction names generalizing d with
    | nil => exact fun _ => rfl
    | cons name rest ih =>
        intro found
        rw [List.foldl_cons, scanName_eq, ih, scanning, List.foldl_append]
  exact any []

end Directory

/-- What a use of a cache does to its files: some operations first, and then the removal of some
artifacts, one after the other. -/
structure Work where
  first : List FileOp
  victims : List ContentHash

namespace Work

def nothing : Work := ⟨[], []⟩

def ops (w : Work) : List FileOp := w.first ++ w.victims.flatMap Directory.removing

end Work

namespace Cache

/-- The artifacts that an eviction drops, in their order. -/
def victims (target : Nat) : List ContentHash → Cache → List ContentHash
  | [], _ => []
  | h :: rest, c =>
      if c.totalBytes ≤ target then []
      else
        let later := victims target rest
          { (c.remove h).1 with evictions := (c.remove h).1.evictions + 1 }
        if c.contains h then h :: later else later

def insertion (c : Cache) (h : ContentHash) (bytes : List UInt8) (origin backend : String)
    (references now : Nat) : Work :=
  match c.find? h, c.directory with
  | none, some d =>
      let about := ArtifactMeta.ofBytes h bytes origin backend now
      let operations := Directory.storing about bytes
      let (after, done) := d.perform operations
      let stored := { c with directory := some after }.add about none references
      ⟨d.performed operations,
        if done then victims stored.budget stored.evictable stored else []⟩
  | _, _ => .nothing

/-- What looking an artifact up does to the files: one that cannot be read is removed. -/
def looking (c : Cache) (h : ContentHash) : Work :=
  match c.find? h with
  | some e => if (c.read? e).isSome then .nothing else ⟨Directory.removing h, []⟩
  | none => .nothing

def invalidation (c : Cache) (h : ContentHash) : Work :=
  match c.find? h with
  | some e => if e.refcount = 0 then ⟨[], [h]⟩ else .nothing
  | none => .nothing

/-- What an action does to the files. -/
def work (c : Cache) : Ledger.Action → Work
  | .store h bytes origin backend now => c.insertion h bytes origin backend 0 now
  | .storeAndAcquire h bytes origin backend now => c.insertion h bytes origin backend 1 now
  | .acquire _ => .nothing
  | .release h =>
      let released := c.modify h fun e => { e with refcount := e.refcount - 1 }
      ⟨[], victims released.budget released.evictable released⟩
  | .lookup h => c.looking h
  | .invalidate h => c.invalidation h
  | .evict target => ⟨[], victims target c.evictable c⟩

def opening (d : Directory) (budget : Nat) : Work :=
  let index := d.indexed budget
  ⟨{ d with present := true }.scanning d.names, victims index.budget index.evictable index⟩

variable {c : Cache} {d : Directory}

theorem directory_remove (place : c.directory = some d) (h : ContentHash) :
    (c.remove h).1.directory = some (if c.contains h then d.removeArtifact h else d) := by
  cases found : c.find? h with
  | none => simp [remove_of_missing found, place, contains, found]
  | some e => simp [remove_of_found found, place, contains, found]

theorem directory_evictEach (target : Nat) (hashes : List ContentHash)
    (place : c.directory = some d) :
    (evictEach target hashes c).1.directory =
      some (((victims target hashes c).flatMap Directory.removing).foldl Directory.attempt d) := by
  induction hashes generalizing c d with
  | nil => exact place
  | cons h rest ih =>
      unfold evictEach victims
      split
      · exact place
      · let next := { (c.remove h).1 with evictions := (c.remove h).1.evictions + 1 }
        have removed : next.directory = _ := directory_remove place h
        refine (ih (c := next) removed).trans ?_
        by_cases present : c.contains h = true
        · simp [present, next, Directory.removeArtifact]
        · simp [present, next]

theorem directory_insert (place : c.directory = some d) (h : ContentHash) (bytes : List UInt8)
    (origin backend : String) (references now : Nat) :
    (c.insert h bytes origin backend references now).1.directory =
      some ((c.insertion h bytes origin backend references now).ops.foldl Directory.attempt d) := by
  unfold insert insertion
  cases found : c.find? h with
  | some e => exact place
  | none =>
      simp only [place]
      have files := Directory.perform_eq d
        (Directory.storing (.ofBytes h bytes origin backend now) bytes)
      cases outcome : d.perform (Directory.storing (.ofBytes h bytes origin backend now) bytes) with
      | mk after done =>
          rw [outcome] at files
          dsimp only at files
          cases done with
          | false => simp [Work.ops, files]
          | true =>
              simp only [Work.ops, if_true, List.foldl_append, ← files]
              exact directory_evictEach _ _ rfl

theorem directory_lookup (place : c.directory = some d) (h : ContentHash) :
    (c.lookup h).1.directory = some ((c.looking h).ops.foldl Directory.attempt d) := by
  have removed := directory_remove place h
  unfold lookup looking
  cases found : c.find? h with
  | none => exact place
  | some e =>
      cases read : c.read? e with
      | some bytes => simpa [read, Work.ops, Work.nothing, put] using place
      | none => simpa [read, Work.ops, contains, found, Directory.removeArtifact] using removed

theorem directory_invalidate (place : c.directory = some d) (h : ContentHash) :
    (c.invalidate h).1.directory = some ((c.invalidation h).ops.foldl Directory.attempt d) := by
  have removed := directory_remove place h
  unfold invalidate invalidation
  cases found : c.find? h with
  | none => exact place
  | some e =>
      by_cases unreferenced : e.refcount = 0
      · simpa [unreferenced, Work.ops, contains, found, Directory.removeArtifact] using removed
      · simpa [unreferenced, Work.ops, Work.nothing] using place

/-- The directory after an action is the one before with the operations of the action. -/
theorem directory_step {l : Ledger} (place : l.cache.directory = some d) (a : Ledger.Action) :
    (l.step a).cache.directory = some ((l.cache.work a).ops.foldl Directory.attempt d) := by
  cases a with
  | store h bytes origin backend now => exact directory_insert place h bytes origin backend 0 now
  | storeAndAcquire h bytes origin backend now =>
      exact directory_insert place h bytes origin backend 1 now
  | acquire h => exact place
  | release h => exact directory_evictEach _ _ place
  | lookup h => exact directory_lookup place h
  | invalidate h => exact directory_invalidate place h
  | evict target => exact directory_evictEach _ _ place

theorem directory_ofDirectory (d : Directory) (budget : Nat) :
    (ofDirectory d budget).directory =
      some ((opening d budget).ops.foldl Directory.attempt { d with present := true }) := by
  have place : (d.indexed budget).directory = some d.cleaned := (place_adopted d.found _).1
  have cleaned : d.cleaned =
      ({ d with present := true }.scanning d.names).foldl Directory.attempt { d with present := true } :=
    Directory.scan_eq_scanning _ _
  rw [Work.ops, opening, List.foldl_append, ← cleaned]
  exact directory_evictEach _ _ place

end Cache

end TieredUdf
