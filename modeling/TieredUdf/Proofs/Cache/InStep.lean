import TieredUdf.Proofs.Cache.Mirror

/-! # Entries and artifacts in step

While a cache in a directory is used and no file operation fails, an entry and the artifact of its
hash come and go together.  Where one of them is there without the other, no operation has made
it so.
-/

namespace TieredUdf

namespace Directory

theorem file?_removeArtifact_self (d : Directory) (h : ContentHash) :
    (d.removeArtifact h).file? h.artifactFile = none := file?_attempt_remove_self _ _

end Directory

namespace Cache

variable {c after last : Cache}

/-! ## Entries and artifacts -/

def artifact? (c : Cache) (h : ContentHash) : Option (List UInt8) :=
  c.directory.bind fun d => d.file? h.artifactFile

/-- An artifact is there without an entry. -/
def Stray (c : Cache) (h : ContentHash) : Prop :=
  (c.artifact? h).isSome = true ∧ c.contains h = false

/-- An entry is there without its artifact. -/
def Lost (c : Cache) (h : ContentHash) : Prop :=
  (c.artifact? h).isSome = false ∧ c.contains h = true

/-- The hashes of the entries are those of the artifacts. -/
def Agrees (c : Cache) : Prop :=
  ∀ h : ContentHash, h.bytes.length = 32 → (c.artifact? h).isSome = c.contains h

theorem agrees_iff :
    c.Agrees ↔ ∀ h : ContentHash, h.bytes.length = 32 → ¬ c.Stray h ∧ ¬ c.Lost h := by
  unfold Agrees Stray Lost
  refine forall₂_congr fun h _ => ?_
  cases (c.artifact? h).isSome <;> cases c.contains h <;> simp

/-- Some hashes have lost their entry and their artifact, and nothing else has changed. -/
def Sheds (c after : Cache) : Prop :=
  ∀ k, (after.artifact? k = c.artifact? k ∧ after.contains k = c.contains k) ∨
    (c.contains k = true ∧ after.artifact? k = none ∧ after.contains k = false)

/-- For some hashes an artifact is there exactly when an entry is, and for all others nothing has
changed. -/
def Settles (c after : Cache) : Prop :=
  ∀ k, (after.artifact? k = c.artifact? k ∧ after.contains k = c.contains k) ∨
    (after.artifact? k).isSome = after.contains k

theorem Sheds.refl (c : Cache) : c.Sheds c := fun _ => Or.inl ⟨rfl, rfl⟩

theorem Sheds.trans (h : c.Sheds after) (k : after.Sheds last) : c.Sheds last := by
  intro hash
  rcases k hash with ⟨artifact, entry⟩ | ⟨present, gone⟩
  · rw [artifact, entry]
    exact h hash
  · rcases h hash with ⟨_, entry⟩ | ⟨_, _, missing⟩
    · exact Or.inr ⟨entry.symm.trans present, gone⟩
    · exact absurd (missing.symm.trans present) Bool.false_ne_true

theorem Sheds.settles (h : c.Sheds after) : c.Settles after := by
  intro k
  refine (h k).imp_right fun ⟨_, artifact, entry⟩ => ?_
  rw [artifact, entry]
  rfl

theorem Settles.trans (h : c.Settles after) (k : after.Settles last) : c.Settles last := by
  intro hash
  rcases k hash with ⟨artifact, entry⟩ | agree
  · rw [artifact, entry]
    exact h hash
  · exact Or.inr agree

theorem Settles.stray (h : c.Settles after) {k : ContentHash} (stray : after.Stray k) :
    c.Stray k := by
  obtain ⟨artifact, entry⟩ := stray
  rcases h k with ⟨same, also⟩ | agree
  · exact ⟨same ▸ artifact, also ▸ entry⟩
  · rw [artifact, entry] at agree
    cases agree

theorem Settles.lost (h : c.Settles after) {k : ContentHash} (lost : after.Lost k) : c.Lost k := by
  obtain ⟨artifact, entry⟩ := lost
  rcases h k with ⟨same, also⟩ | agree
  · exact ⟨same ▸ artifact, also ▸ entry⟩
  · rw [artifact, entry] at agree
    cases agree

theorem Settles.agrees (h : c.Settles after) (agrees : c.Agrees) : after.Agrees := by
  rw [agrees_iff] at agrees ⊢
  intro k whole
  obtain ⟨stray, lost⟩ := agrees k whole
  exact ⟨fun s => stray (h.stray s), fun l => lost (h.lost l)⟩

/-! ## What every operation does to them -/

theorem sheds_remove (c : Cache) (h : ContentHash) : c.Sheds (c.remove h).1 := by
  intro k
  cases found : c.find? h with
  | none =>
      rw [remove_of_missing found]
      exact Or.inl ⟨rfl, rfl⟩
  | some e =>
      have entry : (c.remove h).1.contains k = ((if k = h then none else c.find? k).isSome) := by
        rw [contains, find?_remove]
      have artifact : (c.remove h).1.artifact? k =
          c.directory.bind fun d => (d.removeArtifact h).file? k.artifactFile := by
        rw [remove_of_found found, artifact?, Option.bind_map]
        rfl
      by_cases own : k = h
      · subst own
        rw [if_pos rfl] at entry
        refine Or.inr ⟨by rw [contains, found]; rfl, ?_, entry⟩
        rw [artifact]
        cases c.directory with
        | none => rfl
        | some d => exact d.file?_removeArtifact_self k
      · rw [if_neg own] at entry
        refine Or.inl ⟨?_, entry⟩
        rw [artifact]
        cases place : c.directory with
        | none => rw [artifact?, place]; rfl
        | some d =>
            rw [artifact?, place]
            exact Directory.file?_removeArtifact own

theorem sheds_evictEach (c : Cache) (target : Nat) (hashes : List ContentHash) :
    c.Sheds (evictEach target hashes c).1 :=
  evictEach_preserves (P := fun d => c.Sheds d) target
    (fun d h _ sheds => sheds.trans (sheds_remove d h)) (.refl c)

/-- A change of references and recency. -/
theorem settles_of_contains (place : after.directory = c.directory)
    (contains : ∀ k, after.contains k = c.contains k) : c.Settles after := by
  intro k
  refine Or.inl ⟨?_, contains k⟩
  rw [artifact?, place, artifact?]

theorem contains_put_of_found {e x : CacheEntry} {h : ContentHash} (found : c.find? h = some e)
    (hash : x.hash = h) (k : ContentHash) : (c.put x).contains k = c.contains k := by
  rw [contains, find?_put, hash]
  split
  · rename_i own
    rw [own, contains, found]
    rfl
  · rfl

theorem contains_recount (c : Cache) (h : ContentHash) (f : Nat → Nat) (k : ContentHash) :
    (c.modify h (recount f)).contains k = c.contains k := by
  rw [contains, find?_modify c h k (f := Cache.recount f) fun _ => rfl]
  split
  · exact Option.isSome_map
  · rfl

/-- A store that does not fail leaves an artifact with its entry. -/
theorem settles_insert {d : Directory} (place : c.directory = some d) (s : Deposit) (n : Nat)
    (answered : (c.insert s.hash s.bytes s.origin s.backend n s.now).2.isSome = true) :
    c.Settles (c.insert s.hash s.bytes s.origin s.backend n s.now).1 := by
  cases found : c.find? s.hash with
  | some x =>
      rw [(insert_of_found found n).1]
      exact settles_of_contains rfl (contains_put_of_found found (find?_eq_some found).2)
  | none =>
      obtain ⟨files, done, outcome⟩ : ∃ files done,
          d.perform (Directory.storing s.about s.bytes) = (files, done) := ⟨_, _, rfl⟩
      have inserted := (insert_of_missing found place outcome n).1
      cases done with
      | false =>
          rw [inserted] at answered
          cases answered
      | true =>
          rw [inserted]
          let added := { c with directory := some files }.add s.about none n
          have entry (k : ContentHash) : added.find? k =
              if k = s.hash then some ⟨s.about, n, none⟩ else c.find? k :=
            find?_add { c with directory := some files } s.about none n k
          have stored : c.Settles added := by
            intro k
            have file : added.artifact? k = files.file? k.artifactFile := rfl
            by_cases own : k = s.hash
            · have whole : files.file? s.hash.artifactFile = some s.bytes :=
                (Directory.file?_of_stored outcome).2
              refine Or.inr ?_
              rw [file, own, whole, contains, entry, if_pos rfl]
              rfl
            · refine Or.inl ⟨?_, ?_⟩
              · rw [file, artifact?, place]
                exact Directory.file?_artifact_of_stored outcome own
              · rw [contains, entry, if_neg own]
                rfl
          exact stored.trans (sheds_evictEach added added.budget added.evictable).settles

theorem settles_lookup (c : Cache) (h : ContentHash) : c.Settles (c.lookup h).1 := by
  rcases lookup_cases c h with ⟨e, artifact, found, looked⟩ | looked
  · rw [looked]
    exact settles_of_contains rfl (contains_put_of_found found (find?_eq_some found).2)
  · rw [looked]
    exact (sheds_remove c h).settles

theorem settles_invalidate (c : Cache) (h : ContentHash) : c.Settles (c.invalidate h).1 := by
  unfold invalidate
  cases c.find? h with
  | none => exact (Sheds.refl c).settles
  | some e =>
      dsimp only
      split
      · exact (sheds_remove c h).settles
      · exact (Sheds.refl c).settles

end Cache

/-! ## Runs in which no file operation fails -/

namespace Ledger

/-- Whether an action is carried out: a store may fail. -/
def completes (l : Ledger) : Action → Bool
  | .store h bytes origin backend now => (l.cache.store h bytes origin backend now).2.isSome
  | .storeAndAcquire h bytes origin backend now =>
      (l.cache.storeAndAcquire h bytes origin backend now).2.isSome
  | _ => true

/-- Every action of a run is carried out. -/
def Completes (l : Ledger) : List Action → Prop
  | [] => True
  | a :: rest => l.completes a = true ∧ (l.step a).Completes rest

theorem settles_step {l : Ledger} {d : Directory} (place : l.cache.directory = some d)
    {a : Action} (done : l.completes a = true) : l.cache.Settles (l.step a).cache := by
  cases a with
  | store h bytes origin backend now =>
      exact Cache.settles_insert place ⟨h, bytes, origin, backend, now⟩ 0 done
  | storeAndAcquire h bytes origin backend now =>
      exact Cache.settles_insert place ⟨h, bytes, origin, backend, now⟩ 1 done
  | acquire h => exact Cache.settles_of_contains rfl (Cache.contains_recount _ h (· + 1))
  | release h =>
      have counted : l.cache.Settles (l.cache.modify h (Cache.recount fun n => n - 1)) :=
        Cache.settles_of_contains rfl (Cache.contains_recount _ h _)
      exact counted.trans (Cache.sheds_evictEach _ _ _).settles
  | lookup h => exact Cache.settles_lookup _ h
  | invalidate h => exact Cache.settles_invalidate _ h
  | evict target => exact (Cache.sheds_evictEach _ _ _).settles

theorem settles_run {l : Ledger} {d : Directory} (place : l.cache.directory = some d)
    {actions : List Action} (done : l.Completes actions) :
    l.cache.Settles (l.run actions).cache := by
  induction actions generalizing l d with
  | nil => exact (Cache.Sheds.refl _).settles
  | cons a rest ih =>
      obtain ⟨first, others⟩ := done
      exact (settles_step place first).trans (ih (Cache.directory_step place a) others)

end Ledger

end TieredUdf
