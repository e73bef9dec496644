import Mathlib.Data.List.Induction
import Mathlib.Data.List.Nodup
import Mathlib.Logic.Function.Basic

namespace Runs
variable {σ α : Type} {step : σ → α → Option σ}

/-- The state at the end of a run, `none` when one of its steps is not possible. -/
def after (step : σ → α → Option σ) : List α → σ → Option σ
  | [], s => some s
  | a :: as, s => (step s a).bind (after step as)

/-- `P` holds at the start of a run and after each of its steps. -/
def Throughout (step : σ → α → Option σ) (P : σ → Prop) : List α → σ → Prop
  | [], s => P s
  | a :: as, s => P s ∧ ∀ t, step s a = some t → Throughout step P as t

/-- Each step of a run moves the state along `K`. -/
def Moving (step : σ → α → Option σ) (K : σ → σ → Prop) : List α → σ → Prop
  | [], _ => True
  | a :: as, s => ∀ t, step s a = some t → K s t ∧ Moving step K as t

/-- Each step of a run is taken in a state where `C` allows it. -/
def Along (step : σ → α → Option σ) (C : σ → α → Prop) : List α → σ → Prop
  | [], _ => True
  | a :: as, s => ∀ t, step s a = some t → C s a ∧ Along step C as t

@[simp] theorem after_nil (s : σ) : after step [] s = some s := rfl

variable {as : List α} {s : σ}

theorem after_cons {a : α} {t : σ} :
    after step (a :: as) s = some t ↔ ∃ u, step s a = some u ∧ after step as u = some t :=
  Option.bind_eq_some_iff

theorem after_append {bs : List α} {t : σ} :
    after step (as ++ bs) s = some t ↔ ∃ u, after step as s = some u ∧ after step bs u = some t := by
  induction as generalizing s with
  | nil => simp
  | cons a as ih =>
    simp only [List.cons_append, after_cons, ih]
    constructor
    · rintro ⟨v, taken, u, early, late⟩
      exact ⟨u, ⟨v, taken, early⟩, late⟩
    · rintro ⟨u, ⟨v, taken, early⟩, late⟩
      exact ⟨v, taken, u, early, late⟩

/-- The last entry of a list that passes a test, after one more entry. -/
theorem last_filter_append (p : α → Bool) (entries : List α) (entry : α) :
    ((entries ++ [entry]).filter p).getLast? = if p entry then some entry else (entries.filter p).getLast? := by
  rw [List.filter_append]
  cases passes : p entry <;> simp [passes]

/-- A prefix that has the last of the entries, all different, has all of them. -/
theorem eq_of_prefix_of_last {early entries : List α} {entry : α} (earlier : early <+: entries) (nodup : entries.Nodup)
    (last : entries.getLast? = some entry) (member : entry ∈ early) : early = entries := by
  obtain ⟨rest, rfl⟩ := earlier
  cases rest using List.reverseRecOn with
  | nil => exact (List.append_nil early).symm
  | append_singleton rest other =>
    rw [← List.append_assoc, List.getLast?_concat] at last
    obtain rfl : other = entry := Option.some.inj last
    rw [List.nodup_append] at nodup
    exact absurd rfl (nodup.2.2 other member other (by simp))

variable {P : σ → Prop}

theorem Throughout.head (throughout : Throughout step P as s) : P s := by
  cases as with
  | nil => exact throughout
  | cons a as => exact throughout.1

theorem Throughout.mono {Q : σ → Prop} (weaker : ∀ s, P s → Q s) (throughout : Throughout step P as s)
    : Throughout step Q as s := by
  induction as generalizing s with
  | nil => exact weaker s throughout
  | cons a as ih => exact ⟨weaker s throughout.1, fun t taken => ih (throughout.2 t taken)⟩

/-- The states of a run are those its prefixes end in. -/
theorem throughout_iff :
    Throughout step P as s ↔ ∀ first rest t, as = first ++ rest → after step first s = some t → P t := by
  induction as generalizing s with
  | nil =>
    constructor
    · intro holds first rest t split run
      obtain ⟨rfl, rfl⟩ := List.append_eq_nil_iff.mp split.symm
      cases run
      exact holds
    · intro all
      exact all [] [] s rfl rfl
  | cons a as ih =>
    constructor
    · rintro ⟨here, later⟩ first rest t split run
      cases first with
      | nil =>
        cases run
        exact here
      | cons b first =>
        obtain ⟨rfl, rfl⟩ := List.cons_eq_cons.mp split
        obtain ⟨u, taken, onward⟩ := after_cons.mp run
        exact ih.mp (later u taken) first rest t rfl onward
    · intro all
      refine ⟨all [] _ s rfl rfl, fun t taken => ih.mpr ?_⟩
      rintro first rest u rfl run
      exact all (a :: first) rest u rfl (after_cons.mpr ⟨t, taken, run⟩)

theorem Throughout.last {t : σ} (throughout : Throughout step P as s) (run : after step as s = some t) : P t :=
  throughout_iff.mp throughout as [] t (by simp) run

variable {I : σ → Prop}

/-- What every step keeps, a run keeps. -/
theorem throughout_of_kept (kept : ∀ s a t, I s → step s a = some t → I t) (start : I s) (as : List α)
    : Throughout step I as s := by
  induction as generalizing s with
  | nil => exact start
  | cons a as ih => exact ⟨start, fun t taken => ih (kept s a t start taken)⟩

theorem after_of_kept (kept : ∀ s a t, I s → step s a = some t → I t) {t : σ} (start : I s)
    (run : after step as s = some t) : I t :=
  (throughout_of_kept kept start as).last run

variable {C : σ → α → Prop}

/-- What every allowed step keeps, a run of allowed steps keeps. -/
theorem Along.throughout (kept : ∀ s a t, I s → C s a → step s a = some t → I t) (along : Along step C as s)
    (start : I s) : Throughout step I as s := by
  induction as generalizing s with
  | nil => exact start
  | cons a as ih => exact ⟨start, fun t taken => ih (along t taken).2 (kept s a t start (along t taken).1 taken)⟩

variable {K : σ → σ → Prop}

/-- Allowed steps that keep the invariant move the state along `K`. -/
theorem Along.moving (kept : ∀ s a t, I s → C s a → step s a = some t → I t)
    (moves : ∀ s a t, I s → C s a → step s a = some t → K s t)
    (along : Along step C as s) (start : I s) : Moving step K as s := by
  induction as generalizing s with
  | nil => trivial
  | cons a as ih =>
    intro t taken
    have allowed := (along t taken).1
    exact ⟨moves s a t start allowed taken, ih (along t taken).2 (kept s a t start allowed taken)⟩

theorem Moving.last {a : α} {t u : σ} (moving : Moving step K (as ++ [a]) s) (run : after step as s = some t)
    (taken : step t a = some u) : K t u := by
  induction as generalizing s with
  | nil =>
    cases run
    exact (moving u taken).1
  | cons b as ih =>
    obtain ⟨v, first, onward⟩ := after_cons.mp run
    exact ih (moving v first).2 onward

/-- When the property after a step, with how the step moved the state, says
whether the step was allowed, both hold along a run exactly when every step is
allowed. `I` is what all runs keep. -/
theorem throughout_moving_iff_along (kept : ∀ s a t, I s → step s a = some t → I t)
    (exact : ∀ s a t, I s → P s → step s a = some t → (P t ∧ K s t ↔ C s a))
    (invariant : I s) (start : P s) :
    Throughout step P as s ∧ Moving step K as s ↔ Along step C as s := by
  induction as generalizing s with
  | nil => exact ⟨fun _ => trivial, fun _ => ⟨start, trivial⟩⟩
  | cons a as ih =>
    constructor
    · rintro ⟨⟨_, later⟩, moving⟩ t taken
      have next := later t taken
      have step := moving t taken
      exact ⟨(exact s a t invariant start taken).mp ⟨next.head, step.1⟩,
        (ih (kept s a t invariant taken) next.head).mp ⟨next, step.2⟩⟩
    · intro along
      have onward : ∀ t, step s a = some t →
          (P t ∧ K s t) ∧ Throughout step P as t ∧ Moving step K as t := by
        intro t taken
        have next := (exact s a t invariant start taken).mpr (along t taken).1
        exact ⟨next, (ih (kept s a t invariant taken) next.1).mpr (along t taken).2⟩
      exact ⟨⟨start, fun t taken => (onward t taken).2.1⟩, fun t taken => ⟨(onward t taken).1.2, (onward t taken).2.2⟩⟩

theorem moving_true (as : List α) (s : σ) : Moving step (fun _ _ => True) as s := by
  induction as generalizing s with
  | nil => trivial
  | cons a as ih => exact fun t _ => ⟨trivial, ih t⟩

/-- When the property after a step says whether the step was allowed, it holds
throughout a run exactly when every step is allowed. -/
theorem throughout_iff_along (kept : ∀ s a t, I s → step s a = some t → I t)
    (exact : ∀ s a t, I s → P s → step s a = some t → (P t ↔ C s a))
    (invariant : I s) (start : P s) :
    Throughout step P as s ↔ Along step C as s := by
  rw [← throughout_moving_iff_along (K := fun _ _ => True) kept ?_ invariant start]
  · exact (and_iff_left (moving_true as s)).symm
  · intro s a t invariant holds taken
    rw [and_iff_left trivial]
    exact exact s a t invariant holds taken

theorem Along.cons {a : α} {t : σ} (taken : step s a = some t) (allowed : C s a) (rest : Along step C as t)
    : Along step C (a :: as) s := by
  intro u other
  rw [Option.some.inj (other.symm.trans taken)]
  exact ⟨allowed, rest⟩

/-- A condition on the steps themselves comes along. -/
theorem Along.and {P : α → Prop} (along : Along step C as s) (all : ∀ a ∈ as, P a)
    : Along step (fun s a => C s a ∧ P a) as s := by
  induction as generalizing s with
  | nil => trivial
  | cons a as ih =>
    intro t taken
    have later : ∀ b ∈ as, P b := fun b member => all b (List.mem_cons_of_mem _ member)
    exact ⟨⟨(along t taken).1, all a (List.mem_cons_self ..)⟩, ih (along t taken).2 later⟩

theorem Along.rest {bs : List α} {t : σ} (along : Along step C (as ++ bs) s) (run : after step as s = some t)
    : Along step C bs t := by
  induction as generalizing s with
  | nil =>
    cases run
    exact along
  | cons a as ih =>
    obtain ⟨u, taken, onward⟩ := after_cons.mp run
    exact ih (along u taken).2 onward

theorem Along.first {bs : List α} (along : Along step C (as ++ bs) s) : Along step C as s := by
  induction as generalizing s with
  | nil => trivial
  | cons a as ih => exact fun t taken => ⟨(along t taken).1, ih (along t taken).2⟩

/-- A simulation of steps, on the steps that `C` allows, is one of runs. -/
theorem Along.simulates {τ : Type} {step' : τ → α → Option τ} {R : σ → τ → Prop}
    (sim : ∀ s t a s', R s t → C s a → step s a = some s' → ∃ t', step' t a = some t' ∧ R s' t')
    {s' : σ} {t : τ} (along : Along step C as s) (related : R s t)
    (run : after step as s = some s') : ∃ t', after step' as t = some t' ∧ R s' t' := by
  induction as generalizing s t with
  | nil =>
    cases run
    exact ⟨t, rfl, related⟩
  | cons a as ih =>
    obtain ⟨u, taken, onward⟩ := after_cons.mp run
    obtain ⟨v, taken', next⟩ := sim s t a u related (along u taken).1 taken
    obtain ⟨t', onward', last⟩ := ih (along u taken).2 next onward
    exact ⟨t', after_cons.mpr ⟨v, taken', onward'⟩, last⟩

theorem after_total (total : ∀ s a, ∃ t, step s a = some t) (as : List α) (s : σ) : ∃ t, after step as s = some t := by
  induction as generalizing s with
  | nil => exact ⟨s, rfl⟩
  | cons a as ih =>
    obtain ⟨u, taken⟩ := total s a
    obtain ⟨t, onward⟩ := ih u
    exact ⟨t, after_cons.mpr ⟨u, taken, onward⟩⟩

end Runs

structure Tasks (ι ℓ σ : Type) where
  state : ι → ℓ
  shared : σ

namespace Tasks
variable {ι ℓ σ α : Type} [DecidableEq ι]

def move (tasks : Tasks ι ℓ σ) (i : ι) (next : ℓ) (shared : σ) : Tasks ι ℓ σ :=
  { state := Function.update tasks.state i next, shared }

/-- Task `i` resumes with the answer `a` to what it awaits and runs to its next
await. `none` when the answer does not fit. -/
def turn (resume : ι → α → ℓ → σ → Option (ℓ × σ)) (tasks : Tasks ι ℓ σ) (t : ι × α) : Option (Tasks ι ℓ σ) :=
  (resume t.1 t.2 (tasks.state t.1) tasks.shared).map fun r => tasks.move t.1 r.1 r.2

variable {tasks : Tasks ι ℓ σ} {i j : ι} {next : ℓ} {shared : σ}

@[simp] theorem shared_move : (tasks.move i next shared).shared = shared := rfl

@[simp] theorem state_move_self : (tasks.move i next shared).state i = next := Function.update_self ..

theorem state_move_other (other : j ≠ i) : (tasks.move i next shared).state j = tasks.state j :=
  Function.update_of_ne other ..

theorem turn_eq_some {resume : ι → α → ℓ → σ → Option (ℓ × σ)} {a : α} {tasks' : Tasks ι ℓ σ} :
    turn resume tasks (i, a) = some tasks' ↔
      ∃ next shared, resume i a (tasks.state i) tasks.shared = some (next, shared) ∧
        tasks' = tasks.move i next shared := by
  unfold turn
  simp only [Option.map_eq_some_iff, Prod.exists]
  constructor
  · rintro ⟨next, shared, moved, rfl⟩
    exact ⟨next, shared, moved, rfl⟩
  · rintro ⟨next, shared, moved, rfl⟩
    exact ⟨next, shared, moved, rfl⟩

end Tasks

/-! What any number of tasks do at most once. -/

/-- At most one task has it in hand; it was done at most once, and then none has. -/
structure Once {ι : Type} (pending : ι → Prop) (done : Nat) : Prop where
  one : ∀ i j, pending i → pending j → i = j
  undone : ∀ i, pending i → done = 0
  bound : done ≤ 1

namespace Once
variable {ι ℓ σ : Type} {pending pending' : ι → Prop} {done : Nat} {i : ι}

theorem never (idle : ∀ j, ¬ pending j) : Once pending 0 where
  one := fun j _ hasIt => absurd hasIt (idle j)
  undone := fun _ _ => rfl
  bound := Nat.zero_le 1

/-- A task takes it in hand: none has it, and it was not done. -/
theorem takes (undone : done = 0) (only : ∀ j, pending' j → j = i) : Once pending' done where
  one := fun j k left right => (only j left).trans (only k right).symm
  undone := fun _ _ => undone
  bound := by omega

/-- Fewer tasks have it in hand. -/
theorem drops (once : Once pending done) (fewer : ∀ j, pending' j → pending j) : Once pending' done where
  one := fun j k left right => once.one j k (fewer j left) (fewer k right)
  undone := fun j hasIt => once.undone j (fewer j hasIt)
  bound := once.bound

/-- The task that has it in hand does it. -/
theorem does (once : Once pending done) (own : pending i) (others : ∀ j, pending' j → j ≠ i ∧ pending j) :
    Once pending' (done + 1) where
  one := fun j k left right => once.one j k (others j left).2 (others k right).2
  undone := fun j hasIt => absurd (once.one j i (others j hasIt).2 own) (others j hasIt).1
  bound := by
    have undone := once.undone i own
    omega

section Tasks
variable [DecidableEq ι] {tasks : Tasks ι ℓ σ} {next : ℓ} {shared : σ} (holds : ι → ℓ → Prop)

/-- The task that moves keeps in hand no more than it had. -/
theorem move_drops (once : Once (fun j => holds j (tasks.state j)) done) (fewer : holds i next → holds i (tasks.state i)) :
    Once (fun j => holds j ((tasks.move i next shared).state j)) done := by
  apply once.drops
  intro j hasIt
  by_cases moved : j = i
  · rw [moved, Tasks.state_move_self] at hasIt
    rw [moved]
    exact fewer hasIt
  · rwa [Tasks.state_move_other moved] at hasIt

theorem move_takes (undone : done = 0) (idle : ∀ j, ¬ holds j (tasks.state j)) :
    Once (fun j => holds j ((tasks.move i next shared).state j)) done := by
  apply takes (i := i) undone
  intro j hasIt
  by_cases moved : j = i
  · exact moved
  · rw [Tasks.state_move_other moved] at hasIt
    exact absurd hasIt (idle j)

theorem move_does (once : Once (fun j => holds j (tasks.state j)) done) (own : holds i (tasks.state i))
    (passes : ¬ holds i next) : Once (fun j => holds j ((tasks.move i next shared).state j)) (done + 1) := by
  apply once.does own
  intro j hasIt
  by_cases moved : j = i
  · rw [moved, Tasks.state_move_self] at hasIt
    exact absurd hasIt passes
  · rw [Tasks.state_move_other moved] at hasIt
    exact ⟨moved, hasIt⟩

end Tasks

end Once
