import Mathlib.Data.List.Basic
import TieredUdf.Files.Directory

/-! # What file operations change

The file of a name after every operation.  An operation that does not touch a name leaves what the
name stands for as it is, whether it succeeds or fails.
-/

namespace TieredUdf

/-- An operation is about a name. -/
def FileOp.Touches (name : String) : FileOp → Prop
  | .write target _ => target = name
  | .rename source target => source = name ∨ target = name
  | .remove target => target = name

namespace Directory

variable {d : Directory}

/-! ## What a name stands for -/

theorem file?_eq_some {name : String} {data : List UInt8} :
    d.file? name = some data ↔ d.item? name = some (.file data) := by
  unfold file?
  cases d.item? name with
  | none => simp
  | some item => cases item <;> simp

/-- Names that stand for the same thing have the same file. -/
theorem file?_congr {e : Directory} {name : String} (h : e.item? name = d.item? name) :
    e.file? name = d.file? name := by
  rw [file?, h, file?]

theorem item?_erase_self (d : Directory) (name : String) : (d.erase name).item? name = none := by
  simp [item?, erase]

theorem item?_erase_of_ne {name other : String} (h : name ≠ other) :
    (d.erase other).item? name = d.item? name := by
  unfold item? erase
  rw [List.find?_filter]
  congr 2
  funext i
  by_cases own : i.1 = name <;> simp [own, h]

theorem item?_put_self (d : Directory) (name : String) (data : List UInt8) :
    (d.put name data).item? name = some (.file data) := by
  unfold put
  split
  · rename_i taken
    obtain ⟨item, found⟩ := Option.isSome_iff_exists.mp taken
    obtain ⟨i, first, rfl⟩ := Option.map_eq_some_iff.mp found
    have own : i.1 = name := by simpa using List.find?_some first
    have same : ((fun i : String × DirectoryItem => i.1 == name) ∘
        fun i => if i.1 = name then (name, .file data) else i) = fun i => i.1 == name := by
      funext i
      by_cases own : i.1 = name <;> simp [own]
    rw [item?, List.find?_map, same, first]
    simp [own]
  · rename_i free
    have missing : (d.items.find? fun i => i.1 == name) = none := by
      rw [List.find?_eq_none]
      intro i hi own
      exact free (Option.isSome_map.trans (List.find?_isSome.mpr ⟨i, hi, own⟩))
    rw [item?, List.find?_append, missing]
    simp

theorem item?_put_of_ne {name other : String} (h : name ≠ other) (data : List UInt8) :
    (d.put other data).item? name = d.item? name := by
  have unlike : ¬ other = name := fun same => h same.symm
  unfold put
  split
  · have same : ((fun i : String × DirectoryItem => i.1 == name) ∘
        fun i => if i.1 = other then (other, .file data) else i) = fun i => i.1 == name := by
      funext i
      by_cases own : i.1 = other <;> simp [own]
    rw [item?, List.find?_map, same]
    cases found : d.items.find? fun i => i.1 == name with
    | none => simp [item?, found]
    | some i =>
        have own : i.1 = name := by simpa using List.find?_some found
        simp [item?, found, own, h]
  · simp [item?, List.find?_append, unlike]

theorem file?_put_self (d : Directory) (name : String) (data : List UInt8) :
    (d.put name data).file? name = some data := file?_eq_some.mpr (item?_put_self d name data)

theorem file?_put_of_ne {name other : String} (h : name ≠ other) (data : List UInt8) :
    (d.put other data).file? name = d.file? name := file?_congr (item?_put_of_ne h data)

theorem file?_erase_of_ne {name other : String} (h : name ≠ other) :
    (d.erase other).file? name = d.file? name := file?_congr (item?_erase_of_ne h)

/-! ## Single operations -/

/-- An operation that succeeds, told by what it does. -/
theorem perform?_eq_some {op : FileOp} {e : Directory} (h : d.perform? op = some e) :
    (∃ name data, op = .write name data ∧ e = d.put name data) ∨
    (∃ source target data, op = .rename source target ∧ d.file? source = some data ∧
      e = (d.erase source).put target data) ∨
    ∃ name, op = .remove name ∧ e = d.erase name := by
  cases op with
  | write name data =>
      simp only [perform?] at h
      split at h
      · exact Or.inl ⟨name, data, rfl, (Option.some.inj h).symm⟩
      · cases h
  | rename source target =>
      simp only [perform?] at h
      split at h
      · rename_i data found
        split at h
        · cases h
        · exact Or.inr (Or.inl ⟨source, target, data, rfl, found, (Option.some.inj h).symm⟩)
      · cases h
  | remove name =>
      simp only [perform?] at h
      split at h
      · exact Or.inr (Or.inr ⟨name, rfl, (Option.some.inj h).symm⟩)
      · cases h

theorem perform?_write {name : String} {data : List UInt8} {e : Directory}
    (h : d.perform? (.write name data) = some e) : e = d.put name data := by
  rcases perform?_eq_some h with ⟨_, _, same, rfl⟩ | ⟨_, _, _, same, _⟩ | ⟨_, same, _⟩ <;> cases same
  rfl

theorem perform?_rename {source target : String} {e : Directory}
    (h : d.perform? (.rename source target) = some e) :
    ∃ data, d.file? source = some data ∧ e = (d.erase source).put target data := by
  rcases perform?_eq_some h with ⟨_, _, same, _⟩ | ⟨_, _, data, same, found, rfl⟩ | ⟨_, same, _⟩ <;>
    cases same
  exact ⟨data, found, rfl⟩

/-- Operations that all succeed, one after the other. -/
theorem perform_cons {op : FileOp} {rest : List FileOp} {e : Directory}
    (h : d.perform (op :: rest) = (e, true)) :
    ∃ next, d.perform? op = some next ∧ next.perform rest = (e, true) := by
  unfold perform at h
  cases done : d.perform? op with
  | none =>
      rw [done] at h
      cases h
  | some next =>
      rw [done] at h
      exact ⟨next, rfl, h⟩

/-- What an operation does not touch stays as it is. -/
theorem item?_attempt {op : FileOp} {name : String} (h : ¬ op.Touches name) :
    (d.attempt op).item? name = d.item? name := by
  unfold attempt
  cases done : d.perform? op with
  | none => rfl
  | some e =>
      rw [Option.getD_some]
      rcases perform?_eq_some done with ⟨target, data, rfl, rfl⟩ | ⟨source, target, data, rfl, _, rfl⟩ |
        ⟨target, rfl, rfl⟩
      · exact item?_put_of_ne (fun same => h same.symm) data
      · have fresh := item?_put_of_ne (d := d.erase source) (fun same => h (Or.inr same.symm)) data
        exact fresh.trans (item?_erase_of_ne fun same => h (Or.inl same.symm))
      · exact item?_erase_of_ne fun same => h same.symm

theorem item?_foldl_attempt {ops : List FileOp} {name : String}
    (h : ∀ op ∈ ops, ¬ op.Touches name) : (ops.foldl attempt d).item? name = d.item? name := by
  induction ops generalizing d with
  | nil => rfl
  | cons op ops ih =>
      obtain ⟨first, others⟩ := List.forall_mem_cons.mp h
      exact (ih others).trans (item?_attempt first)

theorem file?_attempt {op : FileOp} {name : String} (h : ¬ op.Touches name) :
    (d.attempt op).file? name = d.file? name := file?_congr (item?_attempt h)

theorem file?_foldl_attempt {ops : List FileOp} {name : String}
    (h : ∀ op ∈ ops, ¬ op.Touches name) : (ops.foldl attempt d).file? name = d.file? name :=
  file?_congr (item?_foldl_attempt h)

/-- No file is left where one is removed. -/
theorem file?_attempt_remove_self (d : Directory) (name : String) :
    (d.attempt (.remove name)).file? name = none := by
  simp only [attempt, perform?]
  split
  · rw [Option.getD_some, file?, item?_erase_self]
  · rename_i missing
    rw [Option.getD_none]
    simpa using missing

/-! ## Names -/

theorem mem_names {name : String} : name ∈ d.names ↔ (d.item? name).isSome := by
  unfold names item?
  rw [Option.isSome_map, List.find?_isSome, List.mem_map]
  constructor
  · rintro ⟨i, hi, rfl⟩
    exact ⟨i, hi, beq_self_eq_true _⟩
  · rintro ⟨i, hi, same⟩
    exact ⟨i, hi, beq_iff_eq.mp same⟩

theorem mem_names_of_file? {name : String} {data : List UInt8} (h : d.file? name = some data) :
    name ∈ d.names := by
  rw [mem_names, file?_eq_some.mp h]
  rfl

theorem nodup_names_erase (h : d.names.Nodup) (name : String) : (d.erase name).names.Nodup :=
  h.sublist (List.filter_sublist.map _)

theorem nodup_names_put (h : d.names.Nodup) (name : String) (data : List UInt8) :
    (d.put name data).names.Nodup := by
  unfold put
  split
  · have same : (d.items.map fun i => if i.1 = name then (name, .file data) else i).map Prod.fst =
        d.items.map Prod.fst := by
      rw [List.map_map]
      refine List.map_congr_left fun i _ => ?_
      by_cases own : i.1 = name <;> simp [own]
    unfold names at h ⊢
    dsimp only
    rwa [same]
  · rename_i free
    have fresh : name ∉ d.names := fun old => free (mem_names.mp old)
    unfold names at h fresh ⊢
    rw [List.map_append, List.nodup_append]
    refine ⟨h, by simp, ?_⟩
    intro old hold new hnew same
    rw [List.map_singleton, List.mem_singleton] at hnew
    rw [same, hnew] at hold
    exact fresh hold

/-- Operations keep the names of a directory apart. -/
theorem nodup_names_attempt (h : d.names.Nodup) (op : FileOp) : (d.attempt op).names.Nodup := by
  unfold attempt
  cases done : d.perform? op with
  | none => exact h
  | some e =>
      rw [Option.getD_some]
      rcases perform?_eq_some done with ⟨name, data, rfl, rfl⟩ | ⟨source, target, data, rfl, _, rfl⟩ |
        ⟨name, rfl, rfl⟩
      · exact nodup_names_put h name data
      · exact nodup_names_put (nodup_names_erase h source) target data
      · exact nodup_names_erase h name

end Directory

end TieredUdf
