import Brain.Lib.Keyed

/-- Lists of entries under keys, in the order the keys first came. -/
abbrev Groups (κ α : Type) := Keyed (Prod.fst : κ × List α → κ)

namespace Groups
variable {κ α : Type} [DecidableEq κ] {key : α → κ}

def under (groups : Groups κ α) (k : κ) : List α := ((groups.get k).map Prod.snd).getD []

def append (groups : Groups κ α) (k : κ) (a : α) : Groups κ α := groups.upsert (k, groups.under k ++ [a])

def all (groups : Groups κ α) : List α := groups.items.flatMap Prod.snd

/-- Each entry is listed under its own key. -/
def Sorted (key : α → κ) (groups : Groups κ α) : Prop := ∀ group ∈ groups.items, ∀ a ∈ group.2, key a = group.1

theorem under_append (groups : Groups κ α) (k k' : κ) (a : α) :
    (groups.append k a).under k' = groups.under k' ++ if k' = k then [a] else [] := by
  unfold under append
  rw [Keyed.get_upsert]
  by_cases same : k' = k
  · rw [if_pos same, if_pos same, same]
    rfl
  · rw [if_neg same, if_neg same, List.append_nil]

theorem under_foldl (key : α → κ) (groups : Groups κ α) (as : List α) (k : κ) :
    (as.foldl (fun groups a => groups.append (key a) a) groups).under k =
      groups.under k ++ as.filter fun a => key a = k := by
  induction as generalizing groups with
  | nil => simp
  | cons a as ih =>
    rw [List.foldl_cons, ih, under_append, List.append_assoc]
    by_cases same : key a = k
    · simp [same]
    · simp [same, Ne.symm same]

theorem under_empty (k : κ) : under (Keyed.empty : Groups κ α) k = [] := rfl

omit [DecidableEq κ] in
theorem sorted_empty : Sorted key (Keyed.empty : Groups κ α) := by
  intro group member
  cases member

variable {groups : Groups κ α}

theorem under_of_mem {group : κ × List α} (member : group ∈ groups.items) : groups.under group.1 = group.2 := by
  have found : groups.get group.1 = some group := Keyed.get_eq_some.mpr ⟨member, rfl⟩
  rw [under, found]
  rfl

theorem sorted_append (sorted : Sorted key groups) (a : α) : Sorted key (groups.append (key a) a) := by
  intro group member b listed
  rcases Keyed.mem_upsert.mp member with rfl | ⟨old, _⟩
  · rcases List.mem_append.mp listed with before | new
    · cases found : groups.get (key a) with
      | none => simp [under, found] at before
      | some group =>
        obtain ⟨stored, same⟩ := Keyed.get_eq_some.mp found
        rw [← same, under_of_mem stored] at before
        rw [sorted group stored b before, same]
    · rw [List.mem_singleton.mp new]
  · exact sorted group old b listed

theorem sorted_foldl (sorted : Sorted key groups) (as : List α) :
    Sorted key (as.foldl (fun groups a => groups.append (key a) a) groups) := by
  induction as generalizing groups with
  | nil => exact sorted
  | cons a as ih => exact ih (sorted_append sorted a)

/-- The entries of one key among all entries are those of its group. -/
theorem filter_all (sorted : Sorted key groups) (k : κ) : groups.all.filter (fun a => key a = k) = groups.under k := by
  obtain ⟨items, nodup⟩ := groups
  unfold all under Keyed.get
  dsimp only
  induction items with
  | nil => rfl
  | cons group items ih =>
    rw [List.map_cons, List.nodup_cons] at nodup
    have rest := ih nodup.2 fun other member => sorted other (List.mem_cons_of_mem _ member)
    have own := sorted group (List.mem_cons_self ..)
    rw [List.flatMap_cons, List.filter_append, rest]
    by_cases same : group.1 = k
    · have whole : group.2.filter (fun a => key a = k) = group.2 :=
        List.filter_eq_self.mpr fun a listed => by simpa using (own a listed).trans same
      have absent : items.find? (fun other => other.1 = k) = none := by
        rw [List.find?_eq_none]
        intro other member equal
        exact nodup.1 (same ▸ (by simpa using equal : other.1 = k) ▸ List.mem_map_of_mem member)
      simp [whole, absent, same]
    · have none : group.2.filter (fun a => key a = k) = [] :=
        List.filter_eq_nil_iff.mpr fun a listed => by simpa using fun equal => same ((own a listed).symm.trans equal)
      simp [none, same]

end Groups

/-! How often each key of a list occurs. -/

namespace Tally
variable {κ α : Type} [DecidableEq κ]

abbrev Table (κ : Type) := Keyed (Prod.fst : κ × Nat → κ)

def count (table : Table κ) (k : κ) : Nat := ((table.get k).map Prod.snd).getD 0

/-- `seen[key] = seen.get(key, 0) + 1`. -/
def add (table : Table κ) (k : κ) : Table κ := table.upsert (k, count table k + 1)

def tally (key : α → κ) (as : List α) : Table κ := as.foldl (fun table a => add table (key a)) Keyed.empty

variable {key : α → κ}

theorem count_add (table : Table κ) (k k' : κ) : count (add table k) k' = count table k' + if k = k' then 1 else 0 := by
  unfold count add
  rw [Keyed.get_upsert]
  by_cases same : k' = k
  · rw [if_pos same, if_pos same.symm, same]
    rfl
  · rw [if_neg same, if_neg (Ne.symm same), Nat.add_zero]

theorem count_tally (as : List α) (k : κ) : count (tally key as) k = as.countP fun a => key a = k := by
  have run : ∀ table : Table κ, count (as.foldl (fun table a => add table (key a)) table) k =
      count table k + as.countP fun a => key a = k := by
    induction as with
    | nil => exact fun table => rfl
    | cons a as ih =>
      intro table
      rw [List.foldl_cons, ih, count_add, List.countP_cons, Nat.add_assoc]
      by_cases same : key a = k <;> simp [same, Nat.add_comm]
  exact (run Keyed.empty).trans (Nat.zero_add _)

/-- Every count is the one under its key. -/
theorem count_of_mem {table : Table κ} {entry : κ × Nat} (member : entry ∈ table.items) : count table entry.1 = entry.2 := by
  have found : table.get entry.1 = some entry := Keyed.get_eq_some.mpr ⟨member, rfl⟩
  rw [count, found]
  rfl

theorem mem_of_count {table : Table κ} {k : κ} (counted : count table k ≠ 0) : (k, count table k) ∈ table.items := by
  cases found : table.get k with
  | none => simp [count, found] at counted
  | some entry =>
    obtain ⟨listed, rfl⟩ := Keyed.get_eq_some.mp found
    rwa [count_of_mem listed]

/-- No key is counted twice exactly when the keys of the list differ. -/
theorem counts_le_one_iff (as : List α) : (∀ entry ∈ (tally key as).items, entry.2 ≤ 1) ↔ (as.map key).Nodup := by
  rw [List.nodup_iff_count_le_one]
  constructor
  · intro counts k
    have counted : (as.map key).count k = count (tally key as) k := by
      rw [count_tally, List.count_eq_countP, List.countP_map]
      exact List.countP_congr fun a _ => by simp
    by_cases none : count (tally key as) k = 0
    · omega
    · rw [counted]
      exact counts _ (mem_of_count none)
  · intro once entry listed
    have counted : (as.map key).count entry.1 = count (tally key as) entry.1 := by
      rw [count_tally, List.count_eq_countP, List.countP_map]
      exact List.countP_congr fun a _ => by simp
    rw [← count_of_mem listed, ← counted]
    exact once entry.1

end Tally
