import Brain.Lib.Keyed
import Mathlib.Data.List.Basic
import Mathlib.Data.List.Induction
import Mathlib.Data.List.Nodup

namespace Override

/-- A value rewritten by every element of a list that has something to say about it. -/
def overrides {α β : Type} (f : α → Option β) (l : List α) (b : β) : β := l.foldl (fun b a => (f a).getD b) b

variable {α β : Type} {f : α → Option β} {l : List α}

@[simp] theorem overrides_nil (b : β) : overrides f [] b = b := rfl

@[simp] theorem overrides_cons (a : α) (b : β) : overrides f (a :: l) b = overrides f l ((f a).getD b) := rfl

/-- Where some element speaks, the value before does not matter. -/
theorem overrides_const {a : α} (member : a ∈ l) (speaks : (f a).isSome = true) (b b' : β) :
    overrides f l b = overrides f l b' := by
  induction l generalizing b b' with
  | nil => cases member
  | cons first l ih =>
    rw [overrides_cons, overrides_cons]
    rcases List.mem_cons.mp member with rfl | later
    · obtain ⟨c, value⟩ := Option.isSome_iff_exists.mp speaks
      rw [value, Option.getD_some, Option.getD_some]
    · exact ih later _ _

/-- An element that was applied before makes no difference when it comes again. -/
theorem overrides_absorb {a : α} (member : a ∈ l) (b : β) : overrides f l ((f a).getD b) = overrides f l b := by
  cases value : f a with
  | none => rfl
  | some c => exact overrides_const member (by rw [value]; rfl) _ _

end Override

/-! A list that takes the first entry of each key, and what a list of entries leaves in it. -/

namespace FirstWriter
variable {κ α : Type} [DecidableEq κ] {key : α → κ}

def first (key : α → κ) (as : List α) (k : κ) : Option α := as.find? fun a => key a = k

/-- An entry is taken unless its key is there. -/
def enter (key : α → κ) (kept : List α) (a : α) : List α := if key a ∈ kept.map key then kept else kept ++ [a]

def firsts (key : α → κ) (as : List α) : List α := as.foldl (enter key) []

variable {kept : List α} {a : α}

theorem enter_taken (taken : key a ∈ kept.map key) : enter key kept a = kept := if_pos taken

theorem enter_free (free : key a ∉ kept.map key) : enter key kept a = kept ++ [a] := if_neg free

variable {as : List α} {k : κ}

theorem first_eq_some (found : first key as k = some a) : a ∈ as ∧ key a = k :=
  ⟨List.mem_of_find?_eq_some found, by simpa using List.find?_some found⟩

theorem first_eq_none : first key as k = none ↔ k ∉ as.map key := by
  simp only [first, List.find?_eq_none, decide_eq_true_eq, List.mem_map, not_exists, not_and]

theorem exists_first (member : k ∈ as.map key) : ∃ a, first key as k = some a := by
  cases found : first key as k with
  | none => exact absurd member (first_eq_none.mp found)
  | some a => exact ⟨a, rfl⟩

/-- Before the first entry of a key stand entries of other keys. -/
theorem first_split (found : first key as k = some a) :
    ∃ early late, as = early ++ a :: late ∧ ∀ b ∈ early, key b ≠ k := by
  obtain ⟨_, early, late, isList, before⟩ := List.find?_eq_some_iff_append.mp found
  exact ⟨early, late, isList, fun b member => by simpa using before b member⟩

theorem first_append (as bs : List α) (k : κ) : first key (as ++ bs) k = (first key as k).or (first key bs k) :=
  List.find?_append ..

theorem first_enter (kept : List α) (a : α) (k : κ) :
    first key (enter key kept a) k = (first key kept k).or (first key [a] k) := by
  by_cases taken : key a ∈ kept.map key
  · rw [enter_taken taken]
    by_cases same : key a = k
    · obtain ⟨b, found⟩ := exists_first (same ▸ taken)
      rw [found]
      rfl
    · have other : first key [a] k = none := first_eq_none.mpr (by simpa using Ne.symm same)
      rw [other, Option.or_none]
  · rw [enter_free taken, first_append]

theorem first_foldl (kept as : List α) (k : κ) :
    first key (as.foldl (enter key) kept) k = (first key kept k).or (first key as k) := by
  induction as generalizing kept with
  | nil => exact (Option.or_none).symm
  | cons a as ih => rw [List.foldl_cons, ih, first_enter, Option.or_assoc, ← first_append, List.singleton_append]

theorem mem_keys_foldl : k ∈ (as.foldl (enter key) kept).map key ↔ k ∈ kept.map key ∨ k ∈ as.map key := by
  rw [← not_iff_not, not_or, ← first_eq_none, ← first_eq_none, ← first_eq_none, first_foldl, Option.or_eq_none_iff]

/-- Entries whose keys are all there leave the list as it is. -/
theorem foldl_of_taken (taken : ∀ a ∈ as, key a ∈ kept.map key) : as.foldl (enter key) kept = kept := by
  induction as with
  | nil => rfl
  | cons a as ih =>
    rw [List.foldl_cons, enter_taken (taken a (List.mem_cons_self ..))]
    exact ih fun b later => taken b (List.mem_cons_of_mem _ later)

/-- A second time the same entries change nothing. -/
theorem foldl_twice (kept as : List α) : as.foldl (enter key) (as.foldl (enter key) kept) = as.foldl (enter key) kept :=
  foldl_of_taken fun _ member => mem_keys_foldl.mpr (Or.inr (List.mem_map_of_mem member))

/-- Entries are taken in one after the other, or first into one another. -/
theorem foldl_assoc (kept as bs : List α) :
    bs.foldl (enter key) (as.foldl (enter key) kept) = (bs.foldl (enter key) as).foldl (enter key) kept := by
  induction bs generalizing as with
  | nil => rfl
  | cons b bs ih =>
    have last : (enter key as b).foldl (enter key) kept = enter key (as.foldl (enter key) kept) b := by
      by_cases taken : key b ∈ as.map key
      · rw [enter_taken taken, enter_taken (mem_keys_foldl.mpr (Or.inr taken))]
      · rw [enter_free taken, List.foldl_append, List.foldl_cons, List.foldl_nil]
    rw [List.foldl_cons, List.foldl_cons, ← last]
    exact ih (enter key as b)

/-- What was there stays in front, and behind it stand entries of the list, in
their order and each under a key of its own that was not there. -/
theorem foldl_added (kept as : List α) : ∃ added, as.foldl (enter key) kept = kept ++ added ∧ added.Sublist as ∧
    (added.map key).Nodup ∧ ∀ a ∈ added, key a ∉ kept.map key := by
  induction as generalizing kept with
  | nil => exact ⟨[], (List.append_nil _).symm, List.Sublist.refl _, List.nodup_nil, by simp⟩
  | cons a as ih =>
    obtain ⟨added, whole, listed, nodup, new⟩ := ih (enter key kept a)
    rw [List.foldl_cons, whole]
    by_cases taken : key a ∈ kept.map key
    · rw [enter_taken taken] at new ⊢
      exact ⟨added, rfl, listed.cons a, nodup, new⟩
    · rw [enter_free taken] at new ⊢
      have others : ∀ b ∈ added, key b ∉ kept.map key ∧ key b ≠ key a := by
        intro b member
        simpa [not_or] using new b member
      refine ⟨a :: added, by simp, listed.cons_cons a, ?_, ?_⟩
      · rw [List.map_cons, List.nodup_cons]
        refine ⟨?_, nodup⟩
        intro again
        obtain ⟨b, member, same⟩ := List.mem_map.mp again
        exact (others b member).2 same
      · intro b member
        rcases List.mem_cons.mp member with rfl | later
        · exact taken
        · exact (others b later).1

/-- A key leads to the same entry as in the whole list. -/
theorem first_firsts (as : List α) (k : κ) : first key (firsts key as) k = first key as k := by
  rw [firsts, first_foldl]
  rfl

theorem nodup_enter (nodup : (kept.map key).Nodup) (a : α) : ((enter key kept a).map key).Nodup := by
  by_cases taken : key a ∈ kept.map key
  · rw [enter_taken taken]
    exact nodup
  · rw [enter_free taken, List.map_append]
    exact List.Nodup.append nodup (List.nodup_singleton _) (by simpa using taken)

theorem nodup_foldl (nodup : (kept.map key).Nodup) (as : List α) : ((as.foldl (enter key) kept).map key).Nodup := by
  induction as generalizing kept with
  | nil => exact nodup
  | cons a as ih => exact ih (nodup_enter nodup a)

theorem nodup_firsts (as : List α) : ((firsts key as).map key).Nodup :=
  @nodup_foldl κ α _ key [] List.nodup_nil as

/-- Where keys differ, an entry is the one its key leads to. -/
theorem first_of_mem (nodup : (as.map key).Nodup) (member : a ∈ as) : first key as (key a) = some a := by
  obtain ⟨b, found⟩ : ∃ b, first key as (key a) = some b := exists_first (List.mem_map_of_mem member)
  obtain ⟨stored, same⟩ := first_eq_some found
  rw [found, List.inj_on_of_nodup_map nodup stored member same]

/-- Where keys differ, a test of one key leaves at most one entry. -/
theorem filter_of_nodup (nodup : (as.map key).Nodup) {p : α → Bool} (only : ∀ a, p a = true → key a = k)
    : as.filter p = ((first key as k).filter p).toList := by
  induction as with
  | nil => rfl
  | cons a as ih =>
    rw [List.map_cons, List.nodup_cons] at nodup
    by_cases same : key a = k
    · have rest : as.filter p = [] := by
        rw [List.filter_eq_nil_iff]
        intro b member passes
        exact nodup.1 (same.trans (only b passes).symm ▸ List.mem_map_of_mem member)
      cases passes : p a <;> simp [first, same, passes, rest, Option.filter]
    · have fails : p a = false := by
        cases passes : p a with
        | false => rfl
        | true => exact absurd (only a passes) same
      rw [List.filter_cons_of_neg (by simp [fails]), ih nodup.2]
      simp [first, same]

/-- What is kept are the entries that their keys lead to. -/
theorem mem_firsts : a ∈ firsts key as ↔ first key as (key a) = some a := by
  rw [← first_firsts]
  exact ⟨first_of_mem (nodup_firsts as), fun found => (first_eq_some found).1⟩

theorem mem_of_mem_firsts (member : a ∈ firsts key as) : a ∈ as :=
  (first_eq_some (mem_firsts.mp member)).1

theorem map_enter {β : Type} {f : α → β} {key' : β → κ} (same : ∀ a, key' (f a) = key a) (kept : List α) (a : α) :
    (enter key kept a).map f = enter key' (kept.map f) (f a) := by
  have keys : (kept.map f).map key' = kept.map key := by
    rw [List.map_map]
    exact List.map_congr_left fun b _ => same b
  by_cases taken : key a ∈ kept.map key
  · rw [enter_taken taken, enter_taken (by rwa [keys, same])]
  · rw [enter_free taken, enter_free (by rwa [keys, same]), List.map_append, List.map_singleton]

/-- A view that keeps the keys takes the views of the same entries. -/
theorem map_foldl {β : Type} {f : α → β} {key' : β → κ} (same : ∀ a, key' (f a) = key a) (kept as : List α) :
    (as.foldl (enter key) kept).map f = (as.map f).foldl (enter key') (kept.map f) := by
  induction as generalizing kept with
  | nil => rfl
  | cons a as ih => rw [List.foldl_cons, ih, map_enter same, List.map_cons, List.foldl_cons]

end FirstWriter

/-! A store that holds one value under each key, and what a list of writes leaves in it. -/

namespace LastWriter
variable {σ κ α : Type} [DecidableEq κ]

/-- Reading after a write, and when a write changes nothing. -/
structure Laws (get : σ → κ → Option α) (put : α → σ → σ) (key : α → κ) : Prop where
  get_put : ∀ s a k, get (put a s) k = if k = key a then some a else get s k
  put_eq_self : ∀ s a, put a s = s ↔ get s (key a) = some a

def last (key : α → κ) (as : List α) (k : κ) : Option α := (as.filter fun a => key a = k).getLast?

variable {get : σ → κ → Option α} {put : α → σ → σ} {key : α → κ}

theorem last_append (as bs : List α) (k : κ) : last key (as ++ bs) k = (last key bs k).or (last key as k) := by
  unfold last
  rw [List.filter_append, List.getLast?_append]

/-- The last value of a view under a key is the view of the last value. -/
theorem last_map {β : Type} (f : β → α) (key : α → κ) (bs : List β) (k : κ) :
    last key (bs.map f) k = (last (key ∘ f) bs k).map f := by
  unfold last
  rw [List.filter_map, List.getLast?_map]
  rfl

theorem last_comp {κ' : Type} [DecidableEq κ'] {f : κ → κ'} (injective : Function.Injective f) (key : α → κ) (as : List α)
    (k : κ) : last (fun a => f (key a)) as (f k) = last key as k := by
  unfold last
  simp only [injective.eq_iff]

theorem last_singleton (a : α) (k : κ) : last key [a] k = if k = key a then some a else none := by
  unfold last
  by_cases same : key a = k
  · simp [same]
  · simp [same, Ne.symm same]

theorem last_eq_some {as : List α} {k : κ} {a : α} (found : last key as k = some a) : a ∈ as ∧ key a = k := by
  have member := List.mem_of_getLast? found
  simpa using List.mem_filter.mp member

theorem exists_last (key : α → κ) {as : List α} {a : α} (member : a ∈ as) : ∃ b, last key as (key a) = some b := by
  have listed : a ∈ as.filter fun b => key b = key a := List.mem_filter.mpr ⟨member, by simp⟩
  exact Option.isSome_iff_exists.mp (List.getLast?_isSome.mpr (List.ne_nil_of_mem listed))

namespace Laws
variable (laws : Laws get put key)
include laws

/-- After writes the last one under a key is read there. -/
theorem get_foldl (as : List α) (s : σ) (k : κ) :
    get (as.foldl (fun t a => put a t) s) k = (last key as k).or (get s k) := by
  induction as using List.reverseRecOn with
  | nil => rfl
  | append_singleton as a ih =>
    rw [List.foldl_append, List.foldl_cons, List.foldl_nil, laws.get_put, last_append, last_singleton, ih]
    split <;> rfl

/-- Writing one of the values again changes nothing exactly when no later one
under its key differs from it. -/
theorem rewrite_iff (early late : List α) (a : α) (s : σ) :
    put a ((early ++ a :: late).foldl (fun t a => put a t) s) = (early ++ a :: late).foldl (fun t a => put a t) s ↔
      ∀ newer, last key late (key a) = some newer → newer = a := by
  have whole : last key (early ++ a :: late) (key a) = (last key late (key a)).or (some a) := by
    have one : last key [a] (key a) = some a := by rw [last_singleton, if_pos rfl]
    rw [← List.singleton_append, last_append, last_append, one]
    cases last key late (key a) <;> rfl
  rw [laws.put_eq_self, laws.get_foldl, whole]
  cases last key late (key a) with
  | none => simp
  | some newer => simp

end Laws
end LastWriter

namespace Keyed
variable {κ α : Type} {key : α → κ}

/-- Tables with the same keys in the same order and the same entries are the same. -/
theorem ext_get [DecidableEq κ] {t u : Keyed key} (keys : t.items.map key = u.items.map key)
    (entries : ∀ k, t.get k = u.get k) : t = u := by
  have listed : ∀ v : Keyed key, v.items = (v.items.map key).filterMap v.get := by
    intro v
    rw [List.filterMap_map]
    have found : ∀ a ∈ v.items, (v.get ∘ key) a = some a := fun a stored => Keyed.get_eq_some.mpr ⟨stored, rfl⟩
    rw [List.filterMap_congr found, List.filterMap_some]
  have same : t.get = u.get := funext entries
  exact ext_items (by rw [listed t, listed u, keys, same])

variable [DecidableEq κ]

theorem laws : LastWriter.Laws (Keyed.get : Keyed key → κ → Option α) (fun a t => t.upsert a) key where
  get_put t a k := get_upsert t a k
  put_eq_self t a := by
    rw [upsert_eq_self, get_eq_some]
    exact (and_iff_left rfl).symm

theorem keys_foldl_upsert {as : List α} {t : Keyed key} (stored : ∀ a ∈ as, key a ∈ t.items.map key) :
    (as.foldl upsert t).items.map key = t.items.map key := by
  induction as generalizing t with
  | nil => rfl
  | cons a as ih =>
    have first : (t.upsert a).items.map key = t.items.map key := map_key_putKeyed_of_mem (stored a (List.mem_cons_self ..))
    rw [List.foldl_cons, ih, first]
    intro b later
    rw [first]
    exact stored b (List.mem_cons_of_mem _ later)

theorem mem_keys_foldl_upsert {as : List α} {t : Keyed key} {k : κ} (member : k ∈ as.map key ∨ k ∈ t.items.map key) :
    k ∈ (as.foldl upsert t).items.map key := by
  have found : ∃ a, (as.foldl upsert t).get k = some a := by
    rw [laws.get_foldl]
    rcases member with written | stored
    · obtain ⟨a, listed, rfl⟩ := List.mem_map.mp written
      obtain ⟨b, last⟩ := LastWriter.exists_last key listed
      exact ⟨b, by rw [last]; rfl⟩
    · obtain ⟨a, listed, rfl⟩ := List.mem_map.mp stored
      rw [get_eq_some.mpr ⟨listed, rfl⟩]
      cases LastWriter.last key as (key a) with
      | none => exact ⟨a, rfl⟩
      | some b => exact ⟨b, rfl⟩
  obtain ⟨a, found⟩ := found
  obtain ⟨listed, same⟩ := get_eq_some.mp found
  exact List.mem_map.mpr ⟨a, listed, same⟩

/-- The same writes a second time change nothing. -/
theorem foldl_upsert_twice (as : List α) (t : Keyed key) :
    as.foldl upsert (as.foldl upsert t) = as.foldl upsert t := by
  refine ext_get (keys_foldl_upsert fun a written => mem_keys_foldl_upsert (Or.inl (List.mem_map_of_mem written))) fun k => ?_
  rw [laws.get_foldl, laws.get_foldl, ← Option.or_assoc, Option.or_self]

end Keyed

/-! ### Association lists -/

section Associations
variable {κ β : Type} [DecidableEq κ]

theorem lookup_putKeyed (entry : κ × β) (l : List (κ × β)) (k : κ) :
    (putKeyed Prod.fst entry l).lookup k = if k = entry.1 then some entry.2 else l.lookup k := by
  induction l with
  | nil =>
    show List.lookup k [(entry.1, entry.2)] = _
    rw [List.lookup_cons, List.lookup_nil]
    by_cases isKey : k = entry.1
    · rw [if_pos isKey, isKey, beq_self_eq_true]
    · rw [if_neg isKey, beq_false_of_ne isKey]
  | cons other l ih =>
    unfold putKeyed
    split
    · rename_i same
      by_cases isKey : k = entry.1
      · rw [if_pos isKey, isKey]
        exact List.lookup_cons_self
      · rw [if_neg isKey, List.lookup_cons, List.lookup_cons, beq_false_of_ne isKey,
          beq_false_of_ne fun equal => isKey (equal.trans same)]
    · rename_i different
      rw [List.lookup_cons, List.lookup_cons, ih]
      by_cases isOther : k = other.1
      · rw [isOther, beq_self_eq_true]
        exact (if_neg different).symm
      · rw [beq_false_of_ne isOther]

/-- After entries were put under their keys, the last one of a key is looked up. -/
theorem lookup_foldl_putKeyed (entries l : List (κ × β)) (k : κ) :
    (entries.foldl (fun l entry => putKeyed Prod.fst entry l) l).lookup k =
      ((LastWriter.last Prod.fst entries k).map Prod.snd).or (l.lookup k) := by
  induction entries using List.reverseRecOn with
  | nil => rfl
  | append_singleton entries entry ih =>
    rw [List.foldl_append, List.foldl_cons, List.foldl_nil, lookup_putKeyed, ih, LastWriter.last_append,
      LastWriter.last_singleton]
    split <;> rfl

end Associations
