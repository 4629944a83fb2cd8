import TieredUdf.Proofs.Engine.Discovery
import TieredUdf.Proofs.Module.VersionOrder

/-! # The latest version of a module

The latest version is looked for among the registered modules of a name.  If any of them is a
semantic version, the greatest one of these is found, and no two modules of a name are equally
great, so the order in which they were registered and the other versions make no difference.
-/

namespace TieredUdf

/-! ## The greatest item of a list -/

namespace Engine

section Greatest

variable {α : Type} {le : α → α → Bool} {items : List α}

theorem lastGreatest?_eq_none : lastGreatest? le items = none ↔ items = [] := by
  cases items with
  | nil => simp [lastGreatest?]
  | cons a rest =>
      rw [lastGreatest?]
      split
      · split <;> simp
      · simp

theorem lastGreatest?_greatest (total : ∀ a b, le a b = false → le b a = true)
    (trans : ∀ a b c, le a b = true → le b c = true → le a c = true) {a : α}
    (h : lastGreatest? le items = some a) : a ∈ items ∧ ∀ b ∈ items, le b a = true := by
  have refl : ∀ b, le b b = true := fun b => by
    cases same : le b b with
    | true => rfl
    | false => exact same ▸ total b b same
  induction items generalizing a with
  | nil => cases h
  | cons c rest ih =>
      rw [lastGreatest?] at h
      cases later : lastGreatest? le rest with
      | none =>
          rw [later] at h
          cases h
          simp [lastGreatest?_eq_none.mp later, refl]
      | some b =>
          obtain ⟨mem, greatest⟩ := ih later
          rw [later] at h
          dsimp only at h
          split at h
          · rename_i below
            cases h
            exact ⟨List.mem_cons_of_mem c mem, List.forall_mem_cons.mpr ⟨below, greatest⟩⟩
          · rename_i above
            cases h
            have least := total c b (by simpa using above)
            exact ⟨List.mem_cons_self, List.forall_mem_cons.mpr
              ⟨refl c, fun d hd => trans d b c (greatest d hd) least⟩⟩

end Greatest

end Engine

namespace Version

theorem le_total {v w : Version} (h : v.le w = false) : w.le v = true := by
  have swap : w.order v = (v.order w).swap := Std.OrientedCmp.eq_swap
  rw [le, swap]
  unfold le at h
  cases order : v.order w <;> simp [order] at h ⊢

theorem le_trans {u v w : Version} (h : u.le v = true) (k : v.le w = true) : u.le w = true := by
  rw [le_iff] at h k ⊢
  exact Std.TransCmp.isLE_trans h k

theorem le_antisymm {v w : Version} (h : v.le w = true) (k : w.le v = true) : v = w := by
  rw [le_iff] at h k
  exact Std.LawfulEqCmp.eq_of_compare (Std.OrientedCmp.isLE_antisymm h k)

end Version

namespace Engine

variable {β ι : Type} {e f : Engine β ι} {name : String} {key : ModuleKey} {v : Version}
  {i : ModuleInfo}

/-! ## Modules of a name -/

theorem mem_named : i ∈ e.query ⟨some name, none, [], none, none⟩ ↔
    ∃ m ∈ e.registeredModules, m.key.name = name ∧ info m = i := by
  have selected : ∀ d : Descriptor,
      (⟨some name, none, [], none, none⟩ : Query).selects d = true ↔ d.key.name = name := fun d => by
    rw [eq_comm (a := d.key.name)]
    simp [Query.selects, Query.agrees]
  simp only [query, List.mem_map, List.mem_filter, selected, and_assoc]
  rfl

/-- A module of a name is registered, and its version is a semantic one. -/
def Offers (e : Engine β ι) (name : String) (key : ModuleKey) (v : Version) : Prop :=
  key.name = name ∧ Version.parse? key.version = some v ∧ ∃ m ∈ e.registeredModules, m.key = key

theorem Offers.unique {other : ModuleKey} (h : e.Offers name key v) (k : f.Offers name other v) :
    key = other := by
  obtain ⟨left, read, _⟩ := h
  obtain ⟨right, read', _⟩ := k
  cases key
  cases other
  rw [ModuleKey.mk.injEq]
  exact ⟨left.trans right.symm, Version.parse?_injective read read'⟩

def versions (e : Engine β ι) (name : String) : List (Version × ModuleInfo) :=
  (e.query ⟨some name, none, [], none, none⟩).filterMap fun i =>
    (Version.parse? i.descriptor.key.version).map fun v => (v, i)

theorem mem_versions : (v, i) ∈ e.versions name ↔
    i ∈ e.query ⟨some name, none, [], none, none⟩ ∧
      Version.parse? i.descriptor.key.version = some v := by
  simp [versions, and_comm]

theorem exists_mem_versions (h : e.Offers name key v) :
    ∃ i, (v, i) ∈ e.versions name ∧ i.descriptor.key = key := by
  obtain ⟨named, read, m, mem, rfl⟩ := h
  exact ⟨info m, mem_versions.mpr ⟨mem_named.mpr ⟨m, mem, named, rfl⟩, read⟩, rfl⟩

theorem offers_of_mem_versions (h : (v, i) ∈ e.versions name) :
    e.Offers name i.descriptor.key v := by
  obtain ⟨mem, read⟩ := mem_versions.mp h
  obtain ⟨m, registered, named, rfl⟩ := mem_named.mp mem
  exact ⟨named, read, m, registered, rfl⟩

/-! ## The latest one -/

theorem newest_greatest {items : List ModuleInfo}
    (h : lastGreatest? (fun a b => decide (a.registeredAt ≤ b.registeredAt)) items = some i) :
    i ∈ items ∧ ∀ j ∈ items, j.registeredAt ≤ i.registeredAt := by
  obtain ⟨mem, greatest⟩ := lastGreatest?_greatest (by simp; omega) (by simp; omega) h
  exact ⟨mem, fun j hj => of_decide_eq_true (greatest j hj)⟩

theorem latest?_eq (e : Engine β ι) (name : String) : e.latest? name =
    ((lastGreatest? (fun a b => a.1.le b.1) (e.versions name)).map Prod.snd).or
      (lastGreatest? (fun a b => decide (a.registeredAt ≤ b.registeredAt))
        (e.query ⟨some name, none, [], none, none⟩)) := by
  rw [versions, latest?]
  split
  · rename_i found
    rw [found]
    rfl
  · rename_i none
    rw [none]
    rfl

theorem latest?_cases (e : Engine β ι) (name : String) :
    (∃ v i, e.latest? name = some i ∧ (v, i) ∈ e.versions name ∧
      ∀ w ∈ e.versions name, w.1.le v = true) ∨
    (e.versions name = [] ∧ e.latest? name =
      lastGreatest? (fun a b => decide (a.registeredAt ≤ b.registeredAt))
        (e.query ⟨some name, none, [], none, none⟩)) := by
  rw [latest?_eq]
  cases found : lastGreatest? (fun a b => a.1.le b.1) (e.versions name) with
  | none => exact .inr ⟨lastGreatest?_eq_none.mp found, rfl⟩
  | some best =>
      obtain ⟨v, i⟩ := best
      obtain ⟨mem, greatest⟩ := lastGreatest?_greatest
        (fun a b => Version.le_total (v := a.1) (w := b.1))
        (fun a b c => Version.le_trans (u := a.1) (v := b.1) (w := c.1)) found
      exact .inl ⟨v, i, rfl, mem, greatest⟩

/-- What is found is offered, with the greatest version of all that are. -/
theorem latest?_offered (h : e.Offers name key v) :
    ∃ i w, e.latest? name = some i ∧ e.Offers name i.descriptor.key w ∧
      ∀ other u, e.Offers name other u → u.le w = true := by
  obtain ⟨offered, mem, _⟩ := exists_mem_versions h
  rcases latest?_cases e name with ⟨w, i, found, best, greatest⟩ | ⟨empty, _⟩
  · refine ⟨i, w, found, offers_of_mem_versions best, fun other u offers => ?_⟩
    obtain ⟨_, listed, _⟩ := exists_mem_versions offers
    exact greatest _ listed
  · rw [empty] at mem
    cases mem

theorem mem_of_latest? (h : e.latest? name = some i) :
    i ∈ e.query ⟨some name, none, [], none, none⟩ := by
  rcases latest?_cases e name with ⟨v, j, found, mem, _⟩ | ⟨_, newest⟩
  · cases found.symm.trans h
    exact (mem_versions.mp mem).1
  · exact (newest_greatest (newest.symm.trans h)).1

theorem latest?_eq_none : e.latest? name = none ↔ ∀ m ∈ e.registeredModules, m.key.name ≠ name := by
  have unnamed : e.query ⟨some name, none, [], none, none⟩ = [] ↔
      ∀ m ∈ e.registeredModules, m.key.name ≠ name := by
    rw [List.eq_nil_iff_forall_not_mem]
    simp only [mem_named, not_exists, not_and]
    exact ⟨fun none m mem named => none _ m mem named rfl, fun none _ m mem named _ =>
      none m mem named⟩
  rw [← unnamed]
  constructor
  · intro missing
    rcases latest?_cases e name with ⟨_, _, found, _⟩ | ⟨_, newest⟩
    · cases found.symm.trans missing
    · exact lastGreatest?_eq_none.mp (newest.symm.trans missing)
  · intro empty
    have noVersion : e.versions name = [] := by rw [versions, empty, List.filterMap_nil]
    rcases latest?_cases e name with ⟨_, _, _, mem, _⟩ | ⟨_, newest⟩
    · rw [noVersion] at mem
      cases mem
    · rw [newest, empty]
      rfl

/-- There is a latest version exactly if some module of the name is registered, and it is one of
them.  If any of them is a semantic version, so is the latest one, and every other one is below it;
two engines that have the same semantic versions of a name, one at least, have the same latest one.
If none is a semantic version, none was registered after the latest one. -/
theorem latest?_greatest (e : Engine β ι) (name : String) :
    (e.latest? name = none ↔ ∀ m ∈ e.registeredModules, m.key.name ≠ name) ∧
    (∀ i, e.latest? name = some i →
      (∃ m ∈ e.registeredModules, m.key.name = name ∧ info m = i) ∧
      (∀ key v, e.Offers name key v →
        ∃ w, Version.parse? i.descriptor.key.version = some w ∧ v.order w ≠ .gt ∧
          (key ≠ i.descriptor.key → v.order w = .lt)) ∧
      ((∀ key v, ¬ e.Offers name key v) →
        ∀ m ∈ e.registeredModules, m.key.name = name → m.stats.registeredAt ≤ i.registeredAt)) ∧
    ∀ f : Engine β ι, (∀ key v, e.Offers name key v ↔ f.Offers name key v) →
      (∃ key v, e.Offers name key v) →
      (f.latest? name).map (fun i => i.descriptor.key) =
        (e.latest? name).map fun i => i.descriptor.key := by
  refine ⟨latest?_eq_none, fun i found => ⟨mem_named.mp (mem_of_latest? found), ?_, ?_⟩, ?_⟩
  · intro key v offers
    obtain ⟨j, w, found', best, greatest⟩ := latest?_offered offers
    cases found'.symm.trans found
    have below : v.order w ≠ .gt := by simpa [Version.le] using greatest key v offers
    refine ⟨w, best.2.1, below, fun other => ?_⟩
    cases order : v.order w with
    | lt => rfl
    | eq =>
        cases Std.LawfulEqCmp.eq_of_compare order
        exact absurd (offers.unique best) other
    | gt => exact absurd order below
  · intro none m mem named
    rcases latest?_cases e name with ⟨v, j, _, offered, _⟩ | ⟨_, newest⟩
    · exact absurd (offers_of_mem_versions offered) (none _ v)
    · exact (newest_greatest (newest.symm.trans found)).2 (info m)
        (mem_named.mpr ⟨m, mem, named, rfl⟩)
  · rintro f same ⟨key, v, offers⟩
    obtain ⟨i, w, found, best, greatest⟩ := latest?_offered offers
    obtain ⟨j, u, found', best', greatest'⟩ := latest?_offered ((same key v).mp offers)
    have versions : u = w := Version.le_antisymm (greatest _ u ((same _ u).mpr best'))
      (greatest' _ w ((same _ w).mp best))
    rw [found, found', Option.map_some, Option.map_some, best'.unique (versions ▸ best)]

example : ((onWasm.actAll [.register { Descriptor.boost with key := ⟨"boost", "1.2.0"⟩ } 0,
    .register { Descriptor.boost with key := ⟨"boost", "1.10.0"⟩ } 1,
    .register { Descriptor.boost with key := ⟨"boost", "1.10.0-rc.1"⟩ } 2,
    .register { Descriptor.boost with key := ⟨"boost", "nightly"⟩ } 3]).latest? "boost").map
      (fun i => i.descriptor.key) = some ⟨"boost", "1.10.0"⟩ := by decide +kernel

end Engine

end TieredUdf
