import Mathlib

namespace Brain

/-- Items are offered in turn. The items of a kind have a limit that is looked at
before the size of the next one is known, and all of them together have a cap. -/
structure Allowances (α κ : Type) where
  kind : α → κ
  size : α → Int
  size_pos : ∀ x, 0 < size x
  limit : κ → Int
  cap : Int

namespace Allowances
variable {α κ : Type} [DecidableEq κ] (A : Allowances α κ)

def demand (kind : κ) (items : List α) : Int := ((items.filter (A.kind · = kind)).map A.size).sum

/-- The earlier items leave something of the limit of an item's kind. -/
def Open (earlier : List α) (x : α) : Prop := A.demand (A.kind x) earlier < A.limit (A.kind x)

instance (earlier : List α) (x : α) : Decidable (A.Open earlier x) := inferInstanceAs (Decidable (_ < _))

/-- The items whose limit is open at their turn, after these earlier ones. -/
def keptAfter (earlier : List α) : List α → List α
  | [] => []
  | x :: later => if A.Open earlier x then x :: keptAfter (earlier ++ [x]) later else keptAfter (earlier ++ [x]) later

def kept (items : List α) : List α := A.keptAfter [] items

/-- The size of what is kept. -/
def room (items : List α) : Int := ((A.kept items).map A.size).sum

/-- The item would be kept but exceeds the cap. -/
def Blocks (earlier : List α) (x : α) : Prop := A.Open earlier x ∧ A.cap < A.room earlier + A.size x

instance (earlier : List α) (x : α) : Decidable (A.Blocks earlier x) := inferInstanceAs (Decidable (_ ∧ _))

/-- The items before the first one that blocks. -/
def handledAfter (earlier : List α) : List α → List α
  | [] => []
  | x :: later => if A.Blocks earlier x then [] else x :: handledAfter (earlier ++ [x]) later

def handled (items : List α) : List α := A.handledAfter [] items

/-! ### What is kept -/

theorem demand_append (kind : κ) (items more : List α) : A.demand kind (items ++ more) = A.demand kind items + A.demand kind more := by
  rw [demand, List.filter_append, List.map_append, List.sum_append]
  rfl

theorem demand_singleton (kind : κ) (x : α) : A.demand kind [x] = if A.kind x = kind then A.size x else 0 := by
  unfold demand
  by_cases own : A.kind x = kind <;> simp [own]

omit [DecidableEq κ] in
theorem size_sum_nonneg (items : List α) : 0 ≤ (items.map A.size).sum := by
  apply List.sum_nonneg
  intro size member
  obtain ⟨x, _, rfl⟩ := List.mem_map.mp member
  exact (A.size_pos x).le

theorem demand_nonneg (kind : κ) (items : List α) : 0 ≤ A.demand kind items := A.size_sum_nonneg _

theorem keptAfter_append (earlier items more : List α) :
    A.keptAfter earlier (items ++ more) = A.keptAfter earlier items ++ A.keptAfter (earlier ++ items) more := by
  induction items generalizing earlier with
  | nil => rw [List.append_nil]; rfl
  | cons x items ih =>
    have tail := ih (earlier ++ [x])
    rw [List.append_assoc, List.singleton_append] at tail
    rw [List.cons_append, keptAfter, keptAfter, tail]
    by_cases isOpen : A.Open earlier x
    · rw [if_pos isOpen, if_pos isOpen, List.cons_append]
    · rw [if_neg isOpen, if_neg isOpen]

theorem kept_append (items more : List α) : A.kept (items ++ more) = A.kept items ++ A.keptAfter items more :=
  A.keptAfter_append [] items more

variable {items : List α} {x : α}

theorem kept_concat_of_open (isOpen : A.Open items x) : A.kept (items ++ [x]) = A.kept items ++ [x] := by
  rw [kept_append, keptAfter, if_pos isOpen]
  rfl

theorem kept_concat_of_not_open (closed : ¬ A.Open items x) : A.kept (items ++ [x]) = A.kept items := by
  rw [kept_append, keptAfter, if_neg closed]
  exact List.append_nil _

theorem demand_kept_le (kind : κ) (items more : List α) : A.demand kind (A.kept items) ≤ A.demand kind (A.kept (items ++ more)) := by
  have added := A.demand_nonneg kind (A.keptAfter items more)
  rw [kept_append, demand_append]
  omega

theorem room_le (items more : List α) : A.room items ≤ A.room (items ++ more) := by
  have added := A.size_sum_nonneg (A.keptAfter items more)
  rw [room, room, kept_append, List.map_append, List.sum_append]
  omega

theorem room_concat_of_open (isOpen : A.Open items x) : A.room (items ++ [x]) = A.room items + A.size x := by
  rw [room, kept_concat_of_open A isOpen, List.map_append, List.sum_append]
  simp [room]

/-- Below its limit a kind keeps all that it asks for. What is kept reaches the
limit as soon as what is asked for does. -/
theorem demand_kept (kind : κ) (items : List α) :
    (A.demand kind items < A.limit kind ∧ A.demand kind (A.kept items) = A.demand kind items) ∨
      (A.limit kind ≤ A.demand kind items ∧ A.limit kind ≤ A.demand kind (A.kept items)) := by
  induction items using List.reverseRecOn with
  | nil =>
    have same : A.kept [] = [] := rfl
    rw [same]
    omega
  | append_singleton items x ih =>
    have asked : A.demand kind (items ++ [x]) = A.demand kind items + A.demand kind [x] := A.demand_append kind items [x]
    have positive := A.size_pos x
    have isSize := A.demand_singleton kind x
    by_cases own : A.kind x = kind
    · rw [if_pos own] at isSize
      by_cases isOpen : A.Open items x
      · have below : A.demand kind items < A.limit kind := by rw [← own]; exact isOpen
        rw [kept_concat_of_open A isOpen, A.demand_append kind (A.kept items)]
        omega
      · have above : A.limit kind ≤ A.demand kind items := by rw [← own]; exact Int.not_lt.mp isOpen
        rw [kept_concat_of_not_open A isOpen]
        omega
    · rw [if_neg own] at isSize
      by_cases isOpen : A.Open items x
      · rw [kept_concat_of_open A isOpen, A.demand_append kind (A.kept items)]
        omega
      · rw [kept_concat_of_not_open A isOpen]
        omega

theorem open_iff : A.Open items x ↔ A.demand (A.kind x) (A.kept items) < A.limit (A.kind x) := by
  have balance := A.demand_kept (A.kind x) items
  unfold Open
  omega

theorem demand_kept_of_open (isOpen : A.Open items x) :
    A.demand (A.kind x) (A.kept items) = A.demand (A.kind x) items := by
  have balance := A.demand_kept (A.kind x) items
  unfold Open at isOpen
  omega

theorem mem_kept_iff : x ∈ A.kept items ↔ ∃ earlier later, items = earlier ++ x :: later ∧ A.Open earlier x := by
  constructor
  · intro member
    induction items using List.reverseRecOn with
    | nil => cases member
    | append_singleton items y ih =>
      by_cases isOpen : A.Open items y
      · rw [kept_concat_of_open A isOpen] at member
        rcases List.mem_append.mp member with before | last
        · obtain ⟨earlier, later, split, opened⟩ := ih before
          exact ⟨earlier, later ++ [y], by simp [split], opened⟩
        · obtain rfl := List.mem_singleton.mp last
          exact ⟨items, [], rfl, isOpen⟩
      · rw [kept_concat_of_not_open A isOpen] at member
        obtain ⟨earlier, later, split, opened⟩ := ih member
        exact ⟨earlier, later ++ [y], by simp [split], opened⟩
  · rintro ⟨earlier, later, rfl, isOpen⟩
    rw [kept_append, keptAfter, if_pos isOpen]
    exact List.mem_append_right _ (List.mem_cons_self ..)

/-! ### Where the turns stop -/

variable {earlier : List α}

theorem handledAfter_append (through : A.handledAfter earlier items = items) (more : List α) :
    A.handledAfter earlier (items ++ more) = items ++ A.handledAfter (earlier ++ items) more := by
  induction items generalizing earlier with
  | nil => rw [List.append_nil]; rfl
  | cons x items ih =>
    rw [handledAfter] at through
    by_cases blocks : A.Blocks earlier x
    · rw [if_pos blocks] at through
      cases through
    · rw [if_neg blocks] at through
      rw [List.cons_append, handledAfter, if_neg blocks, ih (List.cons.inj through).2, List.append_assoc]
      rfl

theorem handledAfter_append_of_blocked (stopped : A.handledAfter earlier items ≠ items) (more : List α) :
    A.handledAfter earlier (items ++ more) = A.handledAfter earlier items := by
  induction items generalizing earlier with
  | nil => exact absurd rfl stopped
  | cons x items ih =>
    rw [handledAfter] at stopped
    rw [List.cons_append, handledAfter, handledAfter]
    by_cases blocks : A.Blocks earlier x
    · rw [if_pos blocks, if_pos blocks]
    · rw [if_neg blocks] at stopped
      rw [if_neg blocks, if_neg blocks, ih fun same => stopped (congrArg _ same)]

theorem handledAfter_stops (earlier items : List α) :
    A.handledAfter earlier items = items ∨ ∃ x later, items = A.handledAfter earlier items ++ x :: later ∧
      A.Blocks (earlier ++ A.handledAfter earlier items) x := by
  induction items generalizing earlier with
  | nil => exact .inl rfl
  | cons x items ih =>
    rw [handledAfter]
    by_cases blocks : A.Blocks earlier x
    · right
      rw [if_pos blocks, List.append_nil]
      exact ⟨x, items, rfl, blocks⟩
    · rw [if_neg blocks]
      rcases ih (earlier ++ [x]) with through | ⟨y, later, split, blocked⟩
      · exact .inl (congrArg _ through)
      · right
        rw [List.append_assoc] at blocked
        exact ⟨y, later, congrArg _ split, blocked⟩

theorem handled_stops (items : List α) :
    A.handled items = items ∨ ∃ x later, items = A.handled items ++ x :: later ∧ A.Blocks (A.handled items) x :=
  A.handledAfter_stops [] items

theorem not_blocks_of_handledAfter (through : A.handledAfter earlier items = items) {before later : List α}
    (split : items = before ++ x :: later) : ¬ A.Blocks (earlier ++ before) x := by
  induction before generalizing earlier items with
  | nil =>
    intro blocks
    rw [List.append_nil] at blocks
    rw [split, List.nil_append, handledAfter, if_pos blocks] at through
    cases through
  | cons y before ih =>
    rw [split, List.cons_append, handledAfter] at through
    by_cases blocks : A.Blocks earlier y
    · rw [if_pos blocks] at through
      cases through
    · rw [if_neg blocks] at through
      have tail := ih (List.cons.inj through).2 rfl
      rwa [List.append_assoc] at tail

/-- Turns over items that stay under the cap go through. -/
theorem handled_of_room_le (within : A.room items ≤ A.cap) : A.handled items = items := by
  rcases A.handled_stops items with through | ⟨x, later, split, isOpen, exceeds⟩
  · exact through
  · have grows := A.room_le (A.handled items ++ [x]) later
    rw [List.append_assoc, List.singleton_append, ← split, A.room_concat_of_open isOpen] at grows
    exact absurd exceeds (Int.not_lt.mpr (grows.trans within))

theorem handled_through (through : A.handled items = items) (more : List α) :
    A.handled (items ++ more) = items ++ A.handledAfter items more := A.handledAfter_append through more

/-- An item whose turn is under the cap has its turn. -/
theorem handled_of_fits (fits : A.room earlier + A.size x ≤ A.cap) (later : List α) :
    ∃ more, A.handled (earlier ++ x :: later) = earlier ++ x :: more := by
  have positive := A.size_pos x
  have through := A.handled_of_room_le (by omega : A.room earlier ≤ A.cap)
  have passes : ¬ A.Blocks earlier x := fun blocks => absurd blocks.2 (Int.not_lt.mpr fits)
  rw [A.handled_through through, handledAfter, if_neg passes]
  exact ⟨_, rfl⟩

theorem handled_handled (items : List α) : A.handled (A.handled items) = A.handled items := by
  rcases A.handled_stops items with through | ⟨x, later, split, -⟩
  · exact congrArg _ through
  · by_contra stopped
    have cut := A.handledAfter_append_of_blocked stopped (x :: later)
    rw [← split] at cut
    exact stopped cut.symm

theorem mem_of_mem_handled (member : x ∈ A.handled items) : x ∈ items := by
  rcases A.handled_stops items with through | ⟨y, later, split, -⟩
  · rwa [through] at member
  · rw [split]
    exact List.mem_append_left _ member

theorem mem_kept_handled_iff : x ∈ A.kept (A.handled items) ↔
      ∃ earlier later, items = earlier ++ x :: later ∧ A.Open earlier x ∧ A.room earlier + A.size x ≤ A.cap := by
  rw [mem_kept_iff]
  constructor
  · rintro ⟨earlier, later, split, isOpen⟩
    have passes := A.not_blocks_of_handledAfter (A.handled_handled items) split
    have fits : A.room earlier + A.size x ≤ A.cap := by
      by_contra exceeds
      exact passes ⟨isOpen, Int.not_le.mp exceeds⟩
    rcases A.handled_stops items with through | ⟨y, rest, whole, -⟩
    · exact ⟨earlier, later, through.symm.trans split, isOpen, fits⟩
    · refine ⟨earlier, later ++ y :: rest, ?_, isOpen, fits⟩
      rw [split, List.append_assoc] at whole
      exact whole
  · rintro ⟨earlier, later, rfl, isOpen, fits⟩
    obtain ⟨more, turns⟩ := A.handled_of_fits fits later
    exact ⟨earlier, more, turns, isOpen⟩

/-! ### When the limits hold -/

/-- Every kept item is at most as large as what its limit leaves for it. -/
def Proportioned (items : List α) : Prop :=
  ∀ earlier x later, items = earlier ++ x :: later → A.room earlier + A.size x ≤ A.cap → A.Open earlier x →
    A.demand (A.kind x) earlier + A.size x ≤ A.limit (A.kind x)

theorem Proportioned.of_append {more : List α} (proportioned : A.Proportioned (items ++ more)) : A.Proportioned items := by
  intro earlier x later split
  exact proportioned earlier x (later ++ more) (by rw [split, List.append_assoc]; rfl)

theorem demand_kept_le_limit (through : A.handled items = items) (proportioned : A.Proportioned items) {kind : κ}
    (limited : 0 ≤ A.limit kind) : A.demand kind (A.kept items) ≤ A.limit kind := by
  induction items using List.reverseRecOn with
  | nil => exact limited
  | append_singleton items x ih =>
    have passes : ¬ A.Blocks items x := A.not_blocks_of_handledAfter through (rfl : items ++ [x] = items ++ x :: [])
    have sooner : A.handled items = items := by
      by_contra stopped
      have cut := A.handledAfter_append_of_blocked stopped [x]
      have longer : (items ++ [x]).length = (A.handled items).length := congrArg List.length (through.symm.trans cut)
      rcases A.handled_stops items with same | ⟨y, later, split, -⟩
      · exact stopped same
      · have length := congrArg List.length split
        simp only [List.length_append, List.length_cons] at longer length
        omega
    have before := ih sooner (proportioned.of_append A)
    by_cases isOpen : A.Open items x
    · rw [kept_concat_of_open A isOpen, demand_append, demand_singleton]
      by_cases own : A.kind x = kind
      · subst own
        have fits : A.room items + A.size x ≤ A.cap := by
          by_contra exceeds
          exact passes ⟨isOpen, Int.not_le.mp exceeds⟩
        rw [if_pos rfl, A.demand_kept_of_open isOpen]
        exact proportioned items x [] rfl fits isOpen
      · rw [if_neg own]
        omega
    · rw [kept_concat_of_not_open A isOpen]
      exact before

theorem Proportioned.demand_le (proportioned : A.Proportioned items) {kind : κ} (limited : 0 ≤ A.limit kind) :
    A.demand kind (A.kept (A.handled items)) ≤ A.limit kind := by
  apply A.demand_kept_le_limit (A.handled_handled items) _ limited
  rcases A.handled_stops items with through | ⟨y, later, split, -⟩
  · rwa [through]
  · rw [split] at proportioned
    exact proportioned.of_append A

theorem proportioned_of_within
    (within : ∀ x ∈ items, A.demand (A.kind x) (A.kept (A.handled items)) ≤ A.limit (A.kind x)) : A.Proportioned items := by
  intro earlier x later split fits isOpen
  have bound := within x (split ▸ List.mem_append_right _ (List.mem_cons_self ..))
  obtain ⟨more, turns⟩ := A.handled_of_fits fits later
  have grows := A.demand_kept_le (A.kind x) (earlier ++ [x]) more
  rw [List.append_assoc, List.singleton_append, ← turns, ← split, A.kept_concat_of_open isOpen, demand_append, demand_singleton,
    if_pos rfl, A.demand_kept_of_open isOpen] at grows
  omega

/-! ### When every item that fits is taken -/

/-- Whatever the earlier items are, an item is taken when its limit is open and
the cap has room for it. Of the items taken only what `shows` gives is seen. -/
def Fair {β : Type} (shows : α → β) (items : List α) : Prop :=
  ∀ earlier x later, items = earlier ++ x :: later →
    A.demand (A.kind x) (A.kept (A.handled earlier)) < A.limit (A.kind x) →
    A.room (A.handled earlier) + A.size x ≤ A.cap →
    ∃ more, (A.kept (A.handled items)).map shows = (A.kept (A.handled earlier)).map shows ++ shows x :: more

/-- The item that stops the turns leaves behind none that could be taken. -/
def StopsLast (items : List α) : Prop :=
  ∀ earlier blocked later, items = earlier ++ blocked :: later → A.room earlier ≤ A.cap → A.Blocks earlier blocked →
    ∀ x ∈ later, A.Open earlier x → A.cap < A.room earlier + A.size x

theorem handled_of_blocks {blocked : α} (within : A.room earlier ≤ A.cap) (blocks : A.Blocks earlier blocked)
    (later : List α) : A.handled (earlier ++ blocked :: later) = earlier := by
  rw [A.handled_through (A.handled_of_room_le within), handledAfter, if_pos blocks, List.append_nil]

theorem fair_iff {β : Type} (shows : α → β) (items : List α) : A.Fair shows items ↔ A.StopsLast items := by
  constructor
  · intro fair earlier blocked later split within blocks x member isOpen
    by_contra fits
    obtain ⟨skipped, rest, rfl⟩ := List.append_of_mem member
    have stopped : A.handled (earlier ++ blocked :: skipped) = earlier := A.handled_of_blocks within blocks skipped
    have whole : A.handled items = earlier := by rw [split]; exact A.handled_of_blocks within blocks _
    have turn := fair (earlier ++ blocked :: skipped) x rest (by rw [split, List.append_assoc]; rfl)
    rw [stopped, whole] at turn
    obtain ⟨more, same⟩ := turn (A.open_iff.mp isOpen) (Int.not_lt.mp fits)
    simp at same
  · intro stopsLast earlier x later split below fits
    rcases A.handled_stops earlier with through | ⟨blocked, passed, stops, blocks⟩
    · rw [through] at below fits ⊢
      obtain ⟨more, turns⟩ := A.handled_of_fits fits later
      rw [split, turns, kept_append, keptAfter, if_pos (A.open_iff.mpr below), List.map_append]
      exact ⟨_, rfl⟩
    · have positive := A.size_pos x
      have whole : items = A.handled earlier ++ blocked :: (passed ++ x :: later) := by
        rw [split, ← List.cons_append, ← List.append_assoc, ← stops]
      have exceeds := stopsLast _ blocked _ whole (by omega) blocks x (List.mem_append_right _ (List.mem_cons_self ..))
        (A.open_iff.mpr below)
      omega

end Allowances

end Brain
