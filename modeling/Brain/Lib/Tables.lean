import Brain.Lib.Keyed
import Mathlib.Data.List.FinRange

/-! ### Rows in another form -/

namespace Keyed
variable {α β κ : Type} {key : α → κ} {key' : β → κ} {f : α → β}

/-- The entries of `u` are those of `t` in the form `f`, in the same order. -/
def Images (f : α → β) (t : Keyed key) (u : Keyed key') : Prop := u.items = t.items.map f

theorem Images.empty : Images f (empty : Keyed key) (empty : Keyed key') := rfl

variable {t : Keyed key} {u : Keyed key'}

theorem Images.filter (images : Images f t u) {p : α → Bool} {q : β → Bool} (same : ∀ a, q (f a) = p a) :
    u.items.filter q = (t.items.filter p).map f := by
  rw [show u.items = t.items.map f from images, List.filter_map]
  exact congrArg _ (List.filter_congr fun a _ => same a)

variable [DecidableEq κ]

/-- `INSERT`: refused when the key is stored. -/
def insert (t : Keyed key) (a : α) : Option (Keyed key) :=
  if (t.get (key a)).isSome then none else some (t.upsert a)

theorem insert_fresh {a : α} (fresh : t.get (key a) = none) : t.insert a = some (t.upsert a) := by
  unfold insert
  simp [fresh]

theorem insert_stored {a : α} (stored : t.get (key a) ≠ none) : t.insert a = none := by
  unfold insert
  simp [Option.isSome_iff_ne_none, stored]

variable (keeps : ∀ a, key' (f a) = key a)
include keeps

theorem Images.get (images : Images f t u) (k : κ) : u.get k = (t.get k).map f := by
  unfold Keyed.get
  rw [show u.items = t.items.map f from images, List.find?_map]
  congr 2
  funext a
  simp [keeps]

theorem map_putKeyed_key (a : α) (l : List α) : (putKeyed key a l).map f = putKeyed key' (f a) (l.map f) := by
  induction l with
  | nil => rfl
  | cons b bs ih =>
    simp only [putKeyed, List.map_cons, keeps]
    split
    · rfl
    · rw [List.map_cons, ih]

theorem Images.upsert (images : Images f t u) (a : α) : Images f (t.upsert a) (u.upsert (f a)) := by
  show putKeyed key' (f a) u.items = (putKeyed key a t.items).map f
  rw [show u.items = t.items.map f from images, map_putKeyed_key keeps]

theorem Images.delete (images : Images f t u) (k : κ) : Images f (t.delete k) (u.delete k) := by
  have same : ∀ a, decide (key' (f a) ≠ k) = decide (key a ≠ k) := fun a => by simp only [keeps]
  exact images.filter same

end Keyed

/-! ### Tables with a unique constraint -/

/-- A table with a primary key and with columns in which no two rows agree. -/
structure UniqueTable {α κ υ : Type} (key : α → κ) (unique : α → υ) extends Keyed key where
  uniques : (items.map unique).Nodup

namespace UniqueTable
variable {α κ υ : Type} {key : α → κ} {unique : α → υ}

def empty : UniqueTable key unique := ⟨Keyed.empty, List.nodup_nil⟩

theorem ext_items {t u : UniqueTable key unique} (same : t.items = u.items) : t = u := by
  obtain ⟨⟨items, _⟩, _⟩ := t
  obtain ⟨⟨items', _⟩, _⟩ := u
  cases same
  rfl

theorem unique_injective (t : UniqueTable key unique) {a b : α} (left : a ∈ t.items) (right : b ∈ t.items)
    (same : unique a = unique b) : a = b :=
  List.inj_on_of_nodup_map t.uniques left right same

/-- `DELETE ... WHERE`. -/
def deleteWhere (t : UniqueTable key unique) (p : α → Bool) : UniqueTable key unique :=
  ⟨t.toKeyed.filter fun a => !p a, (List.filter_sublist.map unique).nodup t.uniques⟩

@[simp] theorem items_deleteWhere (t : UniqueTable key unique) (p : α → Bool) :
    (t.deleteWhere p).items = t.items.filter fun a => !p a := rfl

/-- `UPDATE`, of columns that are neither in the key nor unique. -/
def change (t : UniqueTable key unique) (f : α → α) (keeps : ∀ a, key (f a) = key a)
    (keepsUnique : ∀ a, unique (f a) = unique a) : UniqueTable key unique :=
  ⟨⟨t.items.map f, by simpa [Function.comp_def, keeps] using t.nodup⟩,
    by simpa [Function.comp_def, keepsUnique] using t.uniques⟩

@[simp] theorem items_change (t : UniqueTable key unique) (f : α → α) (keeps : ∀ a, key (f a) = key a)
    (keepsUnique : ∀ a, unique (f a) = unique a) : (t.change f keeps keepsUnique).items = t.items.map f := rfl

variable [DecidableEq κ] [DecidableEq υ]

theorem nodup_map_concat {γ : Type} {g : α → γ} {l : List α} {a : α} :
    ((l ++ [a]).map g).Nodup ↔ (l.map g).Nodup ∧ g a ∉ l.map g := by
  rw [List.map_append, List.nodup_append']
  simp [List.disjoint_singleton]

/-- `INSERT`: refused when the key or the unique columns are stored. -/
def insert (t : UniqueTable key unique) (a : α) : Option (UniqueTable key unique) :=
  if fresh : key a ∉ t.items.map key ∧ unique a ∉ t.items.map unique then
    some ⟨⟨t.items ++ [a], nodup_map_concat.mpr ⟨t.nodup, fresh.1⟩⟩, nodup_map_concat.mpr ⟨t.uniques, fresh.2⟩⟩
  else none

/-- A row is inserted where the rows with it are a table. -/
theorem insert_eq_some {t u : UniqueTable key unique} {a : α} :
    t.insert a = some u ↔ u.items = t.items ++ [a] := by
  unfold insert
  constructor
  · intro inserted
    split at inserted
    · cases inserted
      rfl
    · cases inserted
  · intro items
    have keys := u.nodup
    have uniques := u.uniques
    rw [items, nodup_map_concat] at keys uniques
    rw [dif_pos ⟨keys.2, uniques.2⟩]
    exact congrArg some (ext_items items.symm)

def insertAll (as : List α) (t : UniqueTable key unique) : Option (UniqueTable key unique) := as.foldlM insert t

/-- Rows are inserted one by one where the table with all of them is one. -/
theorem insertAll_eq_some {as : List α} {t u : UniqueTable key unique} :
    insertAll as t = some u ↔ u.items = t.items ++ as := by
  unfold insertAll
  induction as generalizing t with
  | nil =>
    rw [List.append_nil]
    exact ⟨fun same => by cases same; rfl, fun same => congrArg some (ext_items same.symm)⟩
  | cons a as ih =>
    rw [List.foldlM_cons]
    constructor
    · intro inserted
      obtain ⟨mid, first, rest⟩ := Option.bind_eq_some_iff.mp inserted
      rw [ih.mp rest, insert_eq_some.mp first, List.append_assoc, List.singleton_append]
    · intro items
      have front : t.items ++ [a] <+: u.items := ⟨as, by rw [items, List.append_assoc, List.singleton_append]⟩
      let mid : UniqueTable key unique :=
        ⟨⟨t.items ++ [a], (front.sublist.map key).nodup u.nodup⟩, (front.sublist.map unique).nodup u.uniques⟩
      have first : t.insert a = some mid := insert_eq_some.mpr rfl
      rw [first]
      exact ih.mpr (by rw [items, List.append_assoc, List.singleton_append])

end UniqueTable

/-! ### Queries -/

/-- What a server decides for one query: the order in which it reads the rows, and
how it compares texts. -/
structure Plan where
  order : (n : Nat) → Equiv.Perm (Fin n)
  collate : String → String → Bool := fun _ _ => true

instance : Inhabited Plan := ⟨{ order := fun _ => Equiv.refl _ }⟩

namespace Plan
variable {α : Type} (plan : Plan)

/-- The rows of a `SELECT` without `ORDER BY`. -/
def scan (rows : List α) : List α := (List.finRange rows.length).map fun i => rows.get (plan.order rows.length i)

theorem scan_perm (rows : List α) : (plan.scan rows).Perm rows := by
  have shuffled := ((plan.order rows.length).map_finRange_perm).map rows.get
  rw [List.map_map, List.map_get_finRange] at shuffled
  exact shuffled

theorem mem_scan {rows : List α} {a : α} : a ∈ plan.scan rows ↔ a ∈ rows := (plan.scan_perm rows).mem_iff

/-- Any row may be read first. -/
theorem scan_first {rows : List α} {a : α} (member : a ∈ rows) :
    ∃ plan : Plan, (plan.scan rows).head? = some a := by
  obtain ⟨i, isA⟩ := List.get_of_mem member
  have positive : 0 < rows.length := List.length_pos_of_mem member
  refine ⟨{ order := fun n => if same : n = rows.length then
      Equiv.swap ⟨0, same ▸ positive⟩ (i.cast same.symm) else Equiv.refl _ }, ?_⟩
  unfold scan
  rw [List.head?_map, List.head?_eq_getElem?]
  simp [positive, ← isA]

end Plan
