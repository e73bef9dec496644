import Brain.Lib.Keyed
import Mathlib.Data.List.Basic

/-! Walks of bounded length, the trails of a multigraph, and a search that goes level by level. -/

namespace Trails
variable {α ι : Type}

/-- One node leads to another in at most so many steps. -/
def Within (step : α → α → Prop) : Nat → α → α → Prop
  | 0, x, m => x = m
  | n + 1, x, m => x = m ∨ ∃ y, step x y ∧ Within step n y m

section Walks
variable {step : α → α → Prop} {x y m : α} {n k : Nat}

theorem within_refl (step : α → α → Prop) (n : Nat) (x : α) : Within step n x x := by
  cases n with
  | zero => rfl
  | succ n => exact Or.inl rfl

theorem Within.mono (walk : Within step n x m) (le : n ≤ k) : Within step k x m := by
  induction k generalizing n x with
  | zero =>
    obtain rfl : n = 0 := by omega
    exact walk
  | succ k ih =>
    cases n with
    | zero => exact Or.inl walk
    | succ n =>
      rcases walk with here | ⟨y, next, rest⟩
      · exact Or.inl here
      · exact Or.inr ⟨y, next, ih rest (by omega)⟩

theorem Within.imp {other : α → α → Prop} (weaker : ∀ a b, step a b → other a b) (walk : Within step n x m) :
    Within other n x m := by
  induction n generalizing x with
  | zero => exact walk
  | succ n ih =>
    rcases walk with here | ⟨y, next, rest⟩
    · exact Or.inl here
    · exact Or.inr ⟨y, weaker x y next, ih rest⟩

/-- A step that another relation can follow makes walks that it can follow. -/
theorem Within.follow {β : Type} {other : β → β → Prop} {R : α → β → Prop} {x' : β}
    (follows : ∀ a b a', R a a' → step a b → ∃ b', R b b' ∧ other a' b') (start : R x x') (walk : Within step n x m) :
    ∃ m', R m m' ∧ Within other n x' m' := by
  induction n generalizing x x' with
  | zero => exact ⟨x', walk ▸ start, rfl⟩
  | succ n ih =>
    rcases walk with rfl | ⟨y, next, rest⟩
    · exact ⟨x', start, Or.inl rfl⟩
    · obtain ⟨y', related, next'⟩ := follows x y x' start next
      obtain ⟨m', ends, walk'⟩ := ih related rest
      exact ⟨m', ends, Or.inr ⟨y', next', walk'⟩⟩

/-- A walk either does not come to `z`, or its part from the last visit to `z` on is shorter. -/
theorem Within.last_visit (z : α) (walk : Within step n x m) :
    Within (fun a b => step a b ∧ b ≠ z) n x m ∨ ∃ k < n, Within (fun a b => step a b ∧ b ≠ z) k z m := by
  induction n generalizing x with
  | zero => exact Or.inl walk
  | succ n ih =>
    rcases walk with here | ⟨y, next, rest⟩
    · exact Or.inl (Or.inl here)
    · rcases ih rest with avoids | ⟨k, less, tail⟩
      · by_cases same : y = z
        · exact Or.inr ⟨n, Nat.lt_succ_self n, same ▸ avoids⟩
        · exact Or.inl (Or.inr ⟨y, ⟨next, same⟩, avoids⟩)
      · exact Or.inr ⟨k, by omega, tail⟩

/-- A walk whose nodes differ from each other and from those to avoid. -/
def Simple (step : α → α → Prop) : List α → Nat → α → α → Prop
  | _, 0, x, m => x = m
  | avoid, n + 1, x, m => x = m ∨ ∃ y, y ∉ x :: avoid ∧ step x y ∧ Simple step (x :: avoid) n y m

theorem Simple.mono {avoid : List α} (walk : Simple step avoid n x m) (le : n ≤ k) : Simple step avoid k x m := by
  induction k generalizing n x avoid with
  | zero =>
    obtain rfl : n = 0 := by omega
    exact walk
  | succ k ih =>
    cases n with
    | zero => exact Or.inl walk
    | succ n =>
      rcases walk with here | ⟨y, new, next, rest⟩
      · exact Or.inl here
      · exact Or.inr ⟨y, new, next, ih rest (by omega)⟩

/-- Walks can be cut short to walks that come to no node twice. -/
theorem Within.simple {avoid : List α} (walk : Within (fun a b => step a b ∧ b ∉ avoid) n x m) : Simple step avoid n x m := by
  induction n using Nat.strongRecOn generalizing x avoid with
  | ind n ih =>
    rcases walk.last_visit x with avoids | ⟨k, less, tail⟩
    · cases n with
      | zero => exact avoids
      | succ n =>
        rcases avoids with here | ⟨y, ⟨⟨next, new⟩, other⟩, rest⟩
        · exact Or.inl here
        · have onward : Within (fun a b => step a b ∧ b ∉ x :: avoid) n y m :=
            rest.imp fun a b next => ⟨next.1.1, by simp [next.2, next.1.2]⟩
          exact Or.inr ⟨y, by simp [other, new], next, ih n (Nat.lt_succ_self n) onward⟩
    · have shorter : Within (fun a b => step a b ∧ b ∉ avoid) k x m := tail.imp fun a b next => next.1
      exact (ih k less shorter).mono (Nat.le_of_lt less)

end Walks

/-! ### Trails -/

section Edges
variable [DecidableEq ι]

/-- The trails of at most so many edges from a node: the edges, none of them
twice, and where they lead. -/
def trails (steps : α → List (ι × α)) : List ι → Nat → α → List (List ι × α)
  | _, 0, _ => []
  | used, n + 1, x =>
    ((steps x).filter fun edge => edge.1 ∉ used).flatMap fun edge =>
      (edge.1 :: used, edge.2) :: trails steps (edge.1 :: used) n edge.2

/-- An edge has two ends. -/
def Joined (steps : α → List (ι × α)) : Prop :=
  ∀ i x y x' y', (i, y) ∈ steps x → (i, y') ∈ steps x' → y = x' ∨ y = y'

variable {steps : α → List (ι × α)} {p : ι → Bool} {x m : α} {n : Nat}

variable {used : List ι} {trail : List ι × α}

theorem mem_trails_succ : trail ∈ trails steps used (n + 1) x ↔ ∃ i y, (i, y) ∈ steps x ∧ i ∉ used ∧
      (trail = (i :: used, y) ∨ trail ∈ trails steps (i :: used) n y) := by
  simp [trails, and_assoc]

theorem used_subset (member : trail ∈ trails steps used n x) : used ⊆ trail.1 := by
  induction n generalizing used x with
  | zero => cases member
  | succ n ih =>
    obtain ⟨i, y, _, _, rfl | later⟩ := mem_trails_succ.mp member
    · exact List.subset_cons_self ..
    · exact List.Subset.trans (List.subset_cons_self ..) (ih later)

theorem within_of_trail (member : trail ∈ trails steps used n x) (passes : ∀ i ∈ trail.1, p i = true)
    : Within (fun x y => ∃ i, (i, y) ∈ steps x ∧ p i = true) n x trail.2 := by
  induction n generalizing used x with
  | zero => cases member
  | succ n ih =>
    obtain ⟨i, y, isStep, _, rfl | later⟩ := mem_trails_succ.mp member
    · exact Or.inr ⟨y, ⟨i, isStep, passes i (List.mem_cons_self ..)⟩, within_refl _ n y⟩
    · exact Or.inr ⟨y, ⟨i, isStep, passes i (used_subset later (List.mem_cons_self ..))⟩, ih later⟩

/-- A walk that comes to no node twice uses no edge twice. -/
theorem trail_of_simple (joined : Joined steps) {avoid : List α}
    (visited : ∀ j ∈ used, ∃ a b, (j, b) ∈ steps a ∧ a ∈ x :: avoid ∧ b ∈ x :: avoid) (passed : ∀ j ∈ used, p j = true)
    (walk : Simple (fun x y => ∃ i, (i, y) ∈ steps x ∧ p i = true) avoid n x m) :
    x = m ∨ ∃ trail ∈ trails steps used n x, (∀ i ∈ trail.1, p i = true) ∧ trail.2 = m := by
  induction n generalizing used avoid x with
  | zero => exact Or.inl walk
  | succ n ih =>
    rcases walk with here | ⟨y, new, ⟨i, isStep, passes⟩, rest⟩
    · exact Or.inl here
    right
    have unused : i ∉ used := by
      intro member
      obtain ⟨a, b, isStep', inA, inB⟩ := visited i member
      rcases joined i x y a b isStep isStep' with rfl | rfl
      · exact new inA
      · exact new inB
    have passed' : ∀ j ∈ i :: used, p j = true := by
      intro j member
      rcases List.mem_cons.mp member with rfl | before
      · exact passes
      · exact passed j before
    have visited' : ∀ j ∈ i :: used, ∃ a b, (j, b) ∈ steps a ∧ a ∈ y :: x :: avoid ∧ b ∈ y :: x :: avoid := by
      intro j member
      rcases List.mem_cons.mp member with rfl | before
      · exact ⟨x, y, isStep, by simp, by simp⟩
      · obtain ⟨a, b, isStep', inA, inB⟩ := visited j before
        exact ⟨a, b, isStep', List.mem_cons_of_mem _ inA, List.mem_cons_of_mem _ inB⟩
    rcases ih visited' passed' rest with rfl | ⟨trail, member, ends⟩
    · exact ⟨(i :: used, y), mem_trails_succ.mpr ⟨i, y, isStep, unused, Or.inl rfl⟩, passed', rfl⟩
    · exact ⟨trail, mem_trails_succ.mpr ⟨i, y, isStep, unused, Or.inr member⟩, ends⟩

/-- Trails lead where walks of the same bound lead. -/
theorem trail_iff (joined : Joined steps) :
    (x = m ∨ ∃ trail ∈ trails steps [] n x, (∀ i ∈ trail.1, p i = true) ∧ trail.2 = m) ↔
      Within (fun x y => ∃ i, (i, y) ∈ steps x ∧ p i = true) n x m := by
  constructor
  · rintro (rfl | ⟨trail, member, passes, rfl⟩)
    · exact within_refl _ n x
    · exact within_of_trail member passes
  · intro walk
    have all : Within (fun a b => (∃ i, (i, b) ∈ steps a ∧ p i = true) ∧ b ∉ ([] : List α)) n x m :=
      walk.imp fun a b next => ⟨next, List.not_mem_nil⟩
    exact trail_of_simple joined (by simp) (by simp) all.simple

end Edges

/-! ### A search level by level -/

section Search
variable [DecidableEq α]

/-- Each round adds the frontier to what is reached, and goes on with its
neighbours that are not reached. -/
def search (next : α → List α) : Nat → List α → List α → List α
  | 0, reached, frontier => reached ++ frontier
  | depth + 1, reached, frontier =>
    if frontier.isEmpty then reached
    else search next depth (reached ++ frontier) ((frontier.flatMap next).filter fun y => y ∉ reached ++ frontier)

variable {next : α → List α} {depth : Nat} {reached frontier : List α} {m : α}

omit [DecidableEq α] in
/-- A walk from a reached node stays among those or leaves over the frontier. -/
theorem leaves_over_frontier (closed : ∀ x ∈ reached, ∀ y ∈ next x, y ∈ reached ∨ y ∈ frontier) {x : α}
    (isReached : x ∈ reached) (walk : Within (fun x y => y ∈ next x) depth x m) :
    m ∈ reached ∨ ∃ y ∈ frontier, Within (fun x y => y ∈ next x) depth y m := by
  induction depth generalizing x with
  | zero => exact Or.inl (walk ▸ isReached)
  | succ depth ih =>
    rcases walk with rfl | ⟨y, isNext, rest⟩
    · exact Or.inl isReached
    · rcases closed x isReached y isNext with within | beyond
      · rcases ih within rest with inside | ⟨z, isFrontier, walk⟩
        · exact Or.inl inside
        · exact Or.inr ⟨z, isFrontier, walk.mono (Nat.le_succ depth)⟩
      · exact Or.inr ⟨y, beyond, rest.mono (Nat.le_succ depth)⟩

theorem mem_search (closed : ∀ x ∈ reached, ∀ y ∈ next x, y ∈ reached ∨ y ∈ frontier) :
    m ∈ search next depth reached frontier ↔
      m ∈ reached ∨ ∃ x ∈ frontier, Within (fun x y => y ∈ next x) depth x m := by
  induction depth generalizing reached frontier with
  | zero => simp [search, Within]
  | succ depth ih =>
    unfold search
    split
    · rename_i empty
      rw [List.isEmpty_iff.mp empty]
      simp
    have closed' : ∀ x ∈ reached ++ frontier, ∀ y ∈ next x, y ∈ reached ++ frontier ∨
        y ∈ (frontier.flatMap next).filter fun y => y ∉ reached ++ frontier := by
      intro x member y isNext
      by_cases seen : y ∈ reached ++ frontier
      · exact Or.inl seen
      rcases List.mem_append.mp member with before | isFrontier
      · exact Or.inl (List.mem_append.mpr (closed x before y isNext))
      · exact Or.inr (List.mem_filter.mpr ⟨List.mem_flatMap.mpr ⟨x, isFrontier, isNext⟩, by simpa using seen⟩)
    rw [ih closed']
    constructor
    · rintro (member | ⟨y, member, walk⟩)
      · rcases List.mem_append.mp member with before | isFrontier
        · exact Or.inl before
        · exact Or.inr ⟨m, isFrontier, within_refl _ _ m⟩
      · obtain ⟨x, isFrontier, isNext⟩ := List.mem_flatMap.mp (List.mem_filter.mp member).1
        exact Or.inr ⟨x, isFrontier, Or.inr ⟨y, isNext, walk⟩⟩
    · rintro (before | ⟨x, isFrontier, rfl | ⟨y, isNext, walk⟩⟩)
      · exact Or.inl (List.mem_append_left _ before)
      · exact Or.inl (List.mem_append_right _ isFrontier)
      · rcases closed' x (List.mem_append_right _ isFrontier) y isNext with seen | new
        · exact leaves_over_frontier closed' seen walk
        · exact Or.inr ⟨y, new, walk⟩

/-- From some nodes the search reaches what they lead to in as many steps. -/
theorem mem_search_nil : m ∈ search next depth [] frontier ↔ ∃ x ∈ frontier, Within (fun x y => y ∈ next x) depth x m := by
  rw [mem_search fun x member => absurd member List.not_mem_nil]
  simp

end Search
end Trails

/-! Property graphs, and what the clauses MATCH, MERGE and SET of Cypher do on them. -/

namespace Cypher

/-- The properties of a node or relationship. One that is null is not there. -/
abbrev Properties (ν : Type) := Keyed (Prod.fst : String × ν → String)

namespace Properties
variable {ν : Type}

def value (properties : Properties ν) (name : String) : Option ν := (properties.get name).map Prod.snd

/-- `SET n.name = value`: null removes the property. -/
def set (properties : Properties ν) (name : String) : Option ν → Properties ν
  | none => properties.delete name
  | some value => properties.upsert (name, value)

/-- `SET n += values`. -/
def setAll (properties : Properties ν) (values : List (String × Option ν)) : Properties ν :=
  values.foldl (fun properties entry => properties.set entry.1 entry.2) properties

/-- What `CREATE` makes of a pattern. -/
def ofPattern (pattern : List (String × ν)) : Properties ν := pattern.foldl Keyed.upsert Keyed.empty

/-- The test of a pattern: null equals nothing. -/
def fits [DecidableEq ν] (properties : Properties ν) (pattern : List (String × ν)) : Bool :=
  pattern.all fun entry => properties.value entry.1 = some entry.2

variable {properties : Properties ν}

theorem value_set (name other : String) (value : Option ν) :
    (properties.set name value).value other = if other = name then value else properties.value other := by
  cases value with
  | none =>
    simp only [Properties.value, set, Keyed.get_delete]
    split <;> rfl
  | some value =>
    simp only [Properties.value, set, Keyed.get_upsert]
    split <;> rfl

/-- A property keeps its value while only that value is set. -/
theorem value_setAll {values : List (String × Option ν)} {name : String} {value : Option ν}
    (only : ∀ v, (name, v) ∈ values → v = value) (before : properties.value name = value) :
    (properties.setAll values).value name = value := by
  induction values generalizing properties with
  | nil => exact before
  | cons entry values ih =>
    apply ih
    · exact fun v member => only v (List.mem_cons_of_mem _ member)
    · rw [value_set]
      split
      · rename_i same
        exact only entry.2 (same ▸ List.mem_cons_self ..)
      · exact before

/-- The last value that is set stays. -/
theorem value_setAll_append {first rest : List (String × Option ν)} {name : String} {value : Option ν}
    (last : ∀ v, (name, v) ∈ rest → v = value) (set : (name, value) ∈ rest) :
    (properties.setAll (first ++ rest)).value name = value := by
  unfold setAll
  rw [List.foldl_append]
  generalize first.foldl _ properties = properties
  induction rest generalizing properties with
  | nil => cases set
  | cons entry rest ih =>
    by_cases later : (name, value) ∈ rest
    · exact ih (fun v member => last v (List.mem_cons_of_mem _ member)) later _
    · obtain rfl : (name, value) = entry := (List.mem_cons.mp set).resolve_right later
      apply value_setAll fun v member => last v (List.mem_cons_of_mem _ member)
      rw [value_set, if_pos rfl]

theorem value_ofPattern {pattern : List (String × ν)} (nodup : (pattern.map Prod.fst).Nodup) {entry : String × ν}
    (member : entry ∈ pattern) : (ofPattern pattern).value entry.1 = some entry.2 := by
  have stored : entry ∈ (ofPattern pattern).items := Keyed.stored_foldl_upsert nodup member
  rw [value, Keyed.get_eq_some.mpr ⟨stored, rfl⟩, Option.map_some]

theorem fits_iff [DecidableEq ν] {pattern : List (String × ν)} :
    properties.fits pattern = true ↔ ∀ entry ∈ pattern, properties.value entry.1 = some entry.2 := by
  simp [fits]

end Properties

structure Node (ν : Type) where
  label : String
  properties : Properties ν

/-- A relationship between two nodes, given by their places in the graph. -/
structure Relationship (ν : Type) where
  source : Nat
  target : Nat
  type : String
  properties : Properties ν

def Node.setAll {ν : Type} (node : Node ν) (values : List (String × Option ν)) : Node ν :=
  { node with properties := node.properties.setAll values }

/-- The test of `(n:label pattern)`. -/
def Node.fits {ν : Type} [DecidableEq ν] (node : Node ν) (label : String) (pattern : List (String × ν)) : Bool :=
  node.label = label && node.properties.fits pattern

def Relationship.setAll {ν : Type} (r : Relationship ν) (values : List (String × Option ν)) : Relationship ν :=
  { r with properties := r.properties.setAll values }

/-- The test of `(a)-[r:type pattern]->(b)` between two nodes. -/
def Relationship.fits {ν : Type} [DecidableEq ν] (r : Relationship ν) (ends : Nat × Nat) (type : String)
    (pattern : List (String × ν)) : Bool :=
  r.source = ends.1 && r.target = ends.2 && r.type = type && r.properties.fits pattern

theorem Node.fits_iff {ν : Type} [DecidableEq ν] {node : Node ν} {label : String} {pattern : List (String × ν)} :
    node.fits label pattern = true ↔ node.label = label ∧ node.properties.fits pattern = true := by
  simp [Node.fits]

theorem Relationship.fits_iff {ν : Type} [DecidableEq ν] {r : Relationship ν} {ends : Nat × Nat} {type : String} {pattern : List (String × ν)} :
    r.fits ends type pattern = true ↔
      r.source = ends.1 ∧ r.target = ends.2 ∧ r.type = type ∧ r.properties.fits pattern = true := by
  simp [Relationship.fits, and_assoc]

structure Graph (ν : Type) where
  nodes : List (Node ν) := []
  relationships : List (Relationship ν) := []

/-! ### MERGE -/

/-- `MERGE … SET`: what fits is updated, and where nothing fits a new entry is. -/
def mergeOn {α : Type} (fits : α → Bool) (update : α → α) (new : α) (entries : List α) : List α :=
  if entries.any fits then entries.map fun a => if fits a then update a else a else entries ++ [update new]

section Merge
variable {α β κ : Type} [DecidableEq κ] {fits : α → Bool} {update : α → α} {new : α} {entries : List α}

theorem mem_mergeOn {a : α} (member : a ∈ mergeOn fits update new entries) :
    (a ∈ entries ∧ fits a = false) ∨ (∃ old ∈ entries, fits old = true ∧ a = update old) ∨ a = update new := by
  unfold mergeOn at member
  split at member
  · obtain ⟨old, isOld, same⟩ := List.mem_map.mp member
    cases own : fits old with
    | true => exact Or.inr (Or.inl ⟨old, isOld, own, by rw [← same, if_pos own]⟩)
    | false =>
      obtain rfl : old = a := by rw [← same, own, if_neg Bool.false_ne_true]
      exact Or.inl ⟨isOld, own⟩
  · rename_i nothing
    rcases List.mem_append.mp member with old | isNew
    · refine Or.inl ⟨old, ?_⟩
      cases own : fits a with
      | true => exact absurd (List.any_eq_true.mpr ⟨a, old, own⟩) nothing
      | false => rfl
    · exact Or.inr (Or.inr (List.mem_singleton.mp isNew))

/-- What is there stays, updated where it fits. -/
theorem kept_mergeOn {a : α} (member : a ∈ entries) :
    (if fits a then update a else a) ∈ mergeOn fits update new entries := by
  unfold mergeOn
  split
  · exact List.mem_map_of_mem (f := fun a => if fits a then update a else a) member
  · rename_i nothing
    rw [if_neg fun own => nothing (List.any_eq_true.mpr ⟨a, member, own⟩)]
    exact List.mem_append_left _ member

/-- After it something that fitted is updated, or the new entry is there. -/
theorem merged_mergeOn (fits : α → Bool) (update : α → α) (new : α) (entries : List α) :
    (∃ old ∈ entries, fits old = true ∧ update old ∈ mergeOn fits update new entries) ∨
      update new ∈ mergeOn fits update new entries := by
  cases any : entries.any fits with
  | true =>
    obtain ⟨old, member, own⟩ := List.any_eq_true.mp any
    have kept := @kept_mergeOn _ fits update new entries old member
    rw [if_pos own] at kept
    exact Or.inl ⟨old, member, own, kept⟩
  | false =>
    right
    rw [mergeOn, any, if_neg Bool.false_ne_true]
    exact List.mem_append_right _ (List.mem_singleton_self _)

/-- Entries that stand for those of a keyed table do so after a MERGE on what
stands for the key. -/
theorem forall₂_mergeOn {key : β → κ} {b : β} {R : α → β → Prop} {table : List β} (nodup : (table.map key).Nodup)
    (stands : List.Forall₂ R entries table) (own : ∀ a c, c ∈ table → R a c → (fits a = true ↔ key c = key b))
    (updated : ∀ a c, c ∈ table → R a c → key c = key b → R (update a) b) (isNew : R (update new) b) :
    List.Forall₂ R (mergeOn fits update new entries) (putKeyed key b table) := by
  have unchanged : ∀ {entries : List α} {table : List β}, List.Forall₂ R entries table →
      (∀ a c, c ∈ table → R a c → (fits a = true ↔ key c = key b)) → key b ∉ table.map key →
      entries.any fits = false ∧ entries.map (fun a => if fits a then update a else a) = entries := by
    intro entries table stands
    induction stands with
    | nil => exact fun _ _ => ⟨rfl, rfl⟩
    | @cons a c entries table here _ ih =>
      intro own absent
      rw [List.map_cons, List.mem_cons, not_or] at absent
      have other : fits a = false := by
        cases fitting : fits a with
        | true => exact absurd ((own a c (List.mem_cons_self ..) here).mp fitting).symm absent.1
        | false => rfl
      obtain ⟨nothing, same⟩ := ih (fun a c member => own a c (List.mem_cons_of_mem _ member)) absent.2
      simp [other, nothing, same]
  induction stands with
  | nil => exact List.Forall₂.cons isNew List.Forall₂.nil
  | @cons a c entries table here rest ih =>
    rw [List.map_cons, List.nodup_cons] at nodup
    have own' := fun a c member => own a c (List.mem_cons_of_mem _ member)
    by_cases same : key c = key b
    · have fitting := (own a c (List.mem_cons_self ..) here).mpr same
      obtain ⟨_, later⟩ := unchanged rest own' (same ▸ nodup.1)
      simp only [mergeOn, putKeyed, List.any_cons, fitting, Bool.true_or, if_true, List.map_cons, later, if_pos same]
      exact List.Forall₂.cons (updated a c (List.mem_cons_self ..) here same) rest
    · have other : fits a = false := by
        cases fitting : fits a with
        | true => exact absurd ((own a c (List.mem_cons_self ..) here).mp fitting) same
        | false => rfl
      have tail := ih nodup.2 own' fun a c member => updated a c (List.mem_cons_of_mem _ member)
      have split : mergeOn fits update new (a :: entries) = a :: mergeOn fits update new entries := by
        simp only [mergeOn, List.any_cons, other, Bool.false_or, List.map_cons, Bool.false_eq_true, if_false]
        split <;> rfl
      rw [split, putKeyed, if_neg same]
      exact List.Forall₂.cons here tail

end Merge

namespace Graph
variable {ν : Type} [DecidableEq ν]

/-- `MERGE (n:label pattern) SET n += values`. -/
def mergeNode (graph : Graph ν) (label : String) (pattern : List (String × ν)) (values : List (String × Option ν)) : Graph ν :=
  { graph with nodes := mergeOn (·.fits label pattern) (·.setAll values) ⟨label, .ofPattern pattern⟩ graph.nodes }

/-- The places of the nodes that `MATCH (n) WHERE …` finds. -/
def matching (graph : Graph ν) (test : Properties ν → Bool) : List Nat :=
  (List.range graph.nodes.length).filter fun i => graph.nodes[i]?.any fun node => test node.properties

/-- `MERGE (a)-[r:type pattern]->(b) SET r += values`. -/
def mergeRelationship (type : String) (pattern : List (String × ν)) (values : List (String × Option ν)) (graph : Graph ν)
    (ends : Nat × Nat) : Graph ν :=
  { graph with
    relationships := mergeOn (·.fits ends type pattern) (·.setAll values) ⟨ends.1, ends.2, type, .ofPattern pattern⟩
      graph.relationships }

/-- `MATCH (a source) MATCH (b target)` before such a `MERGE`, which runs on
each pair that they find. -/
def mergeBetween (graph : Graph ν) (source target : List (String × ν)) (type : String) (pattern : List (String × ν))
    (values : List (String × Option ν)) : Graph ν :=
  ((graph.matching (·.fits source)).flatMap fun a => (graph.matching (·.fits target)).map fun b => (a, b)).foldl
    (mergeRelationship type pattern values) graph

@[simp] theorem nodes_mergeNode (graph : Graph ν) (label : String) (pattern : List (String × ν)) (values : List (String × Option ν)) :
    (graph.mergeNode label pattern values).nodes =
      mergeOn (·.fits label pattern) (·.setAll values) ⟨label, .ofPattern pattern⟩ graph.nodes := rfl

@[simp] theorem relationships_mergeNode (graph : Graph ν) (label : String) (pattern : List (String × ν))
    (values : List (String × Option ν)) : (graph.mergeNode label pattern values).relationships = graph.relationships := rfl

@[simp] theorem nodes_mergeRelationship (graph : Graph ν) (type : String) (pattern : List (String × ν))
    (values : List (String × Option ν)) (ends : Nat × Nat) :
    (graph.mergeRelationship type pattern values ends).nodes = graph.nodes := rfl

@[simp] theorem relationships_mergeRelationship (graph : Graph ν) (type : String) (pattern : List (String × ν))
    (values : List (String × Option ν)) (ends : Nat × Nat) :
    (graph.mergeRelationship type pattern values ends).relationships =
      mergeOn (·.fits ends type pattern) (·.setAll values) ⟨ends.1, ends.2, type, .ofPattern pattern⟩ graph.relationships := rfl

variable {graph : Graph ν}

omit [DecidableEq ν] in
theorem mem_matching {test : Properties ν → Bool} {i : Nat} :
    i ∈ graph.matching test ↔ ∃ node, graph.nodes[i]? = some node ∧ test node.properties = true := by
  simp only [matching, List.mem_filter, List.mem_range, Option.any_eq_true]
  constructor
  · exact fun found => found.2
  · rintro ⟨node, atPlace, passes⟩
    exact ⟨(List.getElem?_eq_some_iff.mp atPlace).1, node, atPlace, passes⟩

omit [DecidableEq ν] in
/-- Where one node alone matches it is the only row. -/
theorem matching_eq_singleton {test : Properties ν → Bool} {i : Nat} {node : Node ν}
    (atPlace : graph.nodes[i]? = some node) (passes : test node.properties = true)
    (only : ∀ j other, graph.nodes[j]? = some other → test other.properties = true → j = i) : graph.matching test = [i] := by
  have member := mem_matching.mpr ⟨node, atPlace, passes⟩
  have nodup : (graph.matching test).Nodup := List.nodup_range.filter _
  have same : ∀ j ∈ graph.matching test, j = i := by
    intro j listed
    obtain ⟨other, atOther, hit⟩ := mem_matching.mp listed
    exact only j other atOther hit
  rw [List.eq_replicate_of_mem same] at member nodup ⊢
  rw [List.mem_replicate] at member
  have one := List.nodup_replicate.mp nodup
  obtain length : (graph.matching test).length = 1 := by omega
  rw [length, List.replicate_one]

theorem mergeBetween_of_matching {source target : List (String × ν)} {a b : Nat}
    (isSource : graph.matching (·.fits source) = [a]) (isTarget : graph.matching (·.fits target) = [b]) (type : String)
    (pattern : List (String × ν)) (values : List (String × Option ν)) :
    graph.mergeBetween source target type pattern values = graph.mergeRelationship type pattern values (a, b) := by
  rw [mergeBetween, isSource, isTarget]
  rfl

end Graph

/-! ### Paths of variable length -/

/-- The three ways to draw a relationship in a pattern: `-[r]->`, `<-[r]-` and `-[r]-`. -/
inductive Orientation
  | outgoing | incoming | either
  deriving DecidableEq

/-- Whether a relationship from `source` to `target` leads from `x` to `y`. -/
def Orientation.Leads {α : Type} (orientation : Orientation) (source target x y : α) : Prop :=
  match orientation with
  | .outgoing => source = x ∧ target = y
  | .incoming => target = x ∧ source = y
  | .either => (source = x ∧ target = y) ∨ (target = x ∧ source = y)

/-- The other end of a relationship that a pattern takes from node `i`. -/
def Relationship.follow {ν : Type} (r : Relationship ν) (orientation : Orientation) (i : Nat) : Option Nat :=
  match orientation with
  | .outgoing => if r.source = i then some r.target else none
  | .incoming => if r.target = i then some r.source else none
  | .either => if r.source = i then some r.target else if r.target = i then some r.source else none

theorem Relationship.follow_eq_some {ν : Type} {r : Relationship ν} {orientation : Orientation} {x y : Nat} :
    r.follow orientation x = some y ↔ orientation.Leads r.source r.target x y := by
  cases orientation with
  | outgoing => simp [follow, Orientation.Leads]
  | incoming => simp [follow, Orientation.Leads]
  | either =>
    simp only [follow, Orientation.Leads]
    grind

namespace Graph
variable {ν : Type}

/-- The relationships that a pattern takes from a node, and where they lead. -/
def steps (graph : Graph ν) (orientation : Orientation) (i : Nat) : List (Nat × Nat) :=
  graph.relationships.zipIdx.filterMap fun entry => (entry.1.follow orientation i).map fun j => (entry.2, j)

/-- The nodes `m` of `MATCH p=(start)-[r*1..depth]-(m) WHERE ALL(r IN relationships(p) WHERE …)`.
A path takes no relationship twice. -/
def varLength (graph : Graph ν) (orientation : Orientation) (depth : Nat) (test : Relationship ν → Bool) (start : Nat) : List Nat :=
  ((Trails.trails (graph.steps orientation) [] depth start).filter fun path =>
    path.1.all fun k => graph.relationships[k]?.any test).map Prod.snd

variable {graph : Graph ν} {orientation : Orientation}

theorem mem_steps {i j k : Nat} :
    (k, j) ∈ graph.steps orientation i ↔ ∃ r, graph.relationships[k]? = some r ∧ orientation.Leads r.source r.target i j := by
  simp only [steps, List.mem_filterMap, Option.map_eq_some_iff, Prod.mk.injEq, Prod.exists, List.mem_zipIdx_iff_getElem?,
    Relationship.follow_eq_some]
  constructor
  · rintro ⟨r, k, atPlace, j, leads, rfl, rfl⟩
    exact ⟨r, atPlace, leads⟩
  · rintro ⟨r, atPlace, leads⟩
    exact ⟨r, k, atPlace, j, leads, rfl, rfl⟩

theorem joined_steps (graph : Graph ν) (orientation : Orientation) : Trails.Joined (graph.steps orientation) := by
  intro k x y x' y' member member'
  obtain ⟨r, atPlace, leads⟩ := mem_steps.mp member
  obtain ⟨r', atPlace', leads'⟩ := mem_steps.mp member'
  obtain rfl : r = r' := Option.some.inj (atPlace.symm.trans atPlace')
  cases orientation with
  | outgoing => exact Or.inr (leads.2.symm.trans leads'.2)
  | incoming => exact Or.inr (leads.2.symm.trans leads'.2)
  | either =>
    rcases leads with ⟨_, right⟩ | ⟨_, right⟩ <;> rcases leads' with ⟨left', right'⟩ | ⟨left', right'⟩
    · exact Or.inr (right.symm.trans right')
    · exact Or.inl (right.symm.trans left')
    · exact Or.inl (right.symm.trans left')
    · exact Or.inr (right.symm.trans right')

/-- A path leads where a walk leads that may take a relationship again. -/
theorem mem_varLength {depth : Nat} {test : Relationship ν → Bool} {start m : Nat} :
    start = m ∨ m ∈ graph.varLength orientation depth test start ↔
      Trails.Within (fun x y => ∃ r ∈ graph.relationships, orientation.Leads r.source r.target x y ∧ test r = true) depth start m := by
  have paths := @Trails.trail_iff _ _ _ (graph.steps orientation) (fun k => graph.relationships[k]?.any test) start m depth
    (joined_steps graph orientation)
  have same : (fun x y => ∃ k, (k, y) ∈ graph.steps orientation x ∧ (graph.relationships[k]?.any test) = true) =
      fun x y => ∃ r ∈ graph.relationships, orientation.Leads r.source r.target x y ∧ test r = true := by
    funext x y
    apply propext
    constructor
    · rintro ⟨k, isStep, passes⟩
      obtain ⟨r, atPlace, leads⟩ := mem_steps.mp isStep
      rw [atPlace, Option.any_some] at passes
      exact ⟨r, List.mem_of_getElem? atPlace, leads, passes⟩
    · rintro ⟨r, member, leads, passes⟩
      obtain ⟨k, atPlace⟩ := List.getElem?_of_mem member
      exact ⟨k, mem_steps.mpr ⟨r, atPlace, leads⟩, by rw [atPlace, Option.any_some, passes]⟩
  rw [same] at paths
  rw [← paths, varLength, List.mem_map]
  simp only [List.mem_filter, List.all_eq_true, and_assoc]

end Graph
end Cypher
