import Brain.Lib.Paging

namespace Calls
variable {κ ε σ τ α β : Type}

/-- The two outsides behave alike at the moments from `n` up to `m`. -/
def Outside.Agree (o o' : Outside κ ε) (n m : Nat) : Prop :=
  ∀ k, n ≤ k → k < m → o.outcome k = o'.outcome k ∧ o.clock k = o'.clock k

theorem Outside.Agree.mono {o o' : Outside κ ε} {n n' m m' : Nat} (agree : o.Agree o' n m) (low : n ≤ n') (high : m' ≤ m) :
    o.Agree o' n' m' := by
  intro k le less
  exact agree k (Nat.le_trans low le) (Nat.lt_of_lt_of_le less high)

/-- What a program does depends on the outside at the moments of its run only. -/
structure Causal (p : Prog κ ε σ α) : Prop where
  forward : Forward p
  same : ∀ o o' n s, o.Agree o' n (p o n s).time → p o' n s = p o n s

namespace Causal
variable {p : Prog κ ε σ α}

theorem pure (a : α) : Causal (Pure.pure a : Prog κ ε σ α) := ⟨Forward.pure a, fun _ _ _ _ _ => rfl⟩

theorem internal (op : σ → α × σ) : Causal (Calls.internal op : Prog κ ε σ α) :=
  ⟨Forward.internal op, fun _ _ _ _ _ => rfl⟩

theorem reraise (e : Raised κ ε) : Causal (Calls.reraise e : Prog κ ε σ α) :=
  ⟨fun _ n _ => Nat.le_refl n, fun _ _ _ _ _ => rfl⟩

theorem time_call (site : κ) (op : σ → α × σ) (o : Outside κ ε) (n : Nat) (s : σ) :
    (Calls.call site op o n s).time = n + 1 := by
  unfold Calls.call
  split <;> rfl

theorem call (site : κ) (op : σ → α × σ) : Causal (Calls.call site op : Prog κ ε σ α) := by
  refine ⟨Forward.call site op, ?_⟩
  intro o o' n s agree
  have here := (agree n (Nat.le_refl n) (by rw [time_call]; omega)).1
  unfold Calls.call
  rw [here]

theorem query (site : κ) (f : σ → α) : Causal (Calls.query site f : Prog κ ε σ α) := call site _

theorem command (site : κ) (f : σ → σ) : Causal (Calls.command site f : Prog κ ε σ Unit) := call site _

theorem ask (site : κ) (f : Nat → σ → α) : Causal (Calls.ask site f : Prog κ ε σ α) :=
  ⟨Forward.ask site f, fun o o' n s agree => (query site (f n)).same o o' n s agree⟩

theorem now : Causal (Calls.now : Prog κ ε σ Nat) := by
  refine ⟨Forward.now, ?_⟩
  intro o o' n s agree
  have here := (agree n (Nat.le_refl n) (Nat.lt_succ_self n)).2
  unfold Calls.now
  rw [here]

theorem bind {p : Prog κ ε σ β} {f : β → Prog κ ε σ α} (first : Causal p) (next : ∀ b, Causal (f b)) :
    Causal (p >>= f) := by
  refine ⟨Forward.bind first.forward fun b => (next b).forward, ?_⟩
  intro o o' n s agree
  have early := first.forward o n s
  have sameFirst := first.same o o' n s
  generalize ended : p o n s = run at early sameFirst
  obtain ⟨_ | b, n', s'⟩ := run
  · rw [bind_error ended] at agree ⊢
    rw [bind_error (sameFirst agree)]
  · rw [bind_ok ended] at agree ⊢
    have later := (next b).forward o n' s'
    rw [bind_ok (sameFirst (agree.mono (Nat.le_refl n) later))]
    exact (next b).same o o' n' s' (agree.mono early (Nat.le_refl _))

theorem attempt (inner : Causal p) : Causal (Calls.attempt p) := by
  refine ⟨Forward.attempt inner.forward, ?_⟩
  intro o o' n s agree
  have same := inner.same o o' n s agree
  unfold Calls.attempt
  rw [same]

theorem swallow {p : Prog κ ε σ Unit} (inner : Causal p) : Causal (Calls.swallow p) :=
  bind (attempt inner) fun _ => pure ()

theorem forEach {body : β → Prog κ ε σ Unit} (xs : List β) (turn : ∀ x, Causal (body x)) :
    Causal (Calls.forEach body xs) := by
  induction xs with
  | nil => exact pure ()
  | cons x xs ih => exact bind (turn x) fun _ => ih

theorem tally {body : β → Prog κ ε σ Nat} (xs : List β) (turn : ∀ x, Causal (body x)) : Causal (Calls.tally body xs) := by
  induction xs with
  | nil => exact pure 0
  | cons x xs ih => exact bind (turn x) fun _ => bind ih fun _ => pure _

theorem paged {size : Nat} {turn : Nat → β → Prog κ ε σ (β × Bool)} (step : ∀ offset acc, Causal (turn offset acc))
    (turns offset : Nat) (acc : β) : Causal (Calls.paged size turn turns offset acc) := by
  induction turns generalizing offset acc with
  | zero => exact pure none
  | succ turns ih =>
    refine bind (step offset acc) ?_
    rintro ⟨next, last⟩
    cases last with
    | true => exact pure (some next)
    | false => exact ih (offset + size) next

end Causal

/-! ### A program on a part of the store -/

structure Part (σ τ : Type) where
  get : τ → σ
  put : σ → τ → τ

/-- `p` on a part of a greater store, its sites named there by `name`. -/
def Prog.on {κ' : Type} (p : Prog κ ε σ α) (name : κ → κ') (part : Part σ τ) : Prog κ' ε τ α := fun o n t =>
  match p ⟨fun k site => o.outcome k (name site), o.clock⟩ n (part.get t) with
  | ⟨.ok a, n', s⟩ => ⟨.ok a, n', part.put s t⟩
  | ⟨.error e, n', s⟩ => ⟨.error ⟨name e.site, e.tookEffect, e.exception⟩, n', part.put s t⟩

theorem Prog.time_on {κ' : Type} (p : Prog κ ε σ α) (name : κ → κ') (part : Part σ τ) (o : Outside κ' ε) (n : Nat) (t : τ) :
    (p.on name part o n t).time = (p ⟨fun k site => o.outcome k (name site), o.clock⟩ n (part.get t)).time := by
  unfold Prog.on
  split <;> rename_i ended <;> rw [ended]

theorem Causal.on {κ' : Type} {p : Prog κ ε σ α} (causal : Causal p) (name : κ → κ') (part : Part σ τ) :
    Causal (p.on name part) := by
  refine ⟨?_, ?_⟩
  · intro o n t
    rw [Prog.time_on]
    exact causal.forward _ n _
  · intro o o' n t agree
    rw [Prog.time_on] at agree
    have same := causal.same ⟨fun k site => o.outcome k (name site), o.clock⟩
      ⟨fun k site => o'.outcome k (name site), o'.clock⟩ n (part.get t) ?_
    · unfold Prog.on
      rw [same]
    · intro k le less
      obtain ⟨outcome, clock⟩ := agree k le less
      exact ⟨funext fun site => congrFun outcome (name site), clock⟩

end Calls

namespace Calls
variable {κ ε σ L α β ρ : Type}

/-- A program cut into turns, each under a label. -/
inductive Script (κ ε σ L α : Type) : Type 1
  | done (a : α)
  | turn (label : L) {β : Type} (step : Prog κ ε σ β) (next : β → Script κ ε σ L α)

namespace Script

/-- One turn. -/
def act (label : L) (step : Prog κ ε σ α) : Script κ ε σ L α := .turn label step .done

def andThen (script : Script κ ε σ L β) (f : β → Script κ ε σ L α) : Script κ ε σ L α :=
  match script with
  | .done b => f b
  | .turn label step next => .turn label step fun c => (next c).andThen f

instance : Monad (Script κ ε σ L) where
  pure := .done
  bind := andThen

/-- A loop that hands a value from turn to turn. -/
def fold (body : ρ → β → Script κ ε σ L ρ) : ρ → List β → Script κ ε σ L ρ
  | acc, [] => pure acc
  | acc, b :: bs => do
    let acc ← body acc b
    fold body acc bs

/-- A loop that joins the lists its turns return. -/
def gather (body : β → Script κ ε σ L (List α)) : List β → Script κ ε σ L (List α)
  | [] => pure []
  | b :: bs => do
    let first ← body b
    let rest ← gather body bs
    pure (first ++ rest)

def run : Script κ ε σ L α → Prog κ ε σ α
  | .done a => pure a
  | .turn _ step next => step >>= fun b => (next b).run

/-- Every turn satisfies `P`, whatever the turns before it returned. -/
def Every (P : L → {β : Type} → Prog κ ε σ β → Prop) : Script κ ε σ L α → Prop
  | .done _ => True
  | .turn label step next => P label step ∧ ∀ b, (next b).Every P

/-- Every turn looks at its own moments only. -/
abbrev Causal (script : Script κ ε σ L α) : Prop := script.Every fun _ _ step => Calls.Causal step

/-- The ranks of the turns do not fall, from `k` on. -/
def Ranked (rank : L → Nat) : Nat → Script κ ε σ L α → Prop
  | _, .done _ => True
  | k, .turn label _ next => k ≤ rank label ∧ ∀ b, (next b).Ranked rank (rank label)

/-- `turns` returned in order, from `script` at the moment `n` in the store `s` to
the rest of it at `m` in `t`. -/
inductive Reaches (o : Outside κ ε) : Script κ ε σ L α → Nat → σ → List L → Script κ ε σ L α → Nat → σ → Prop
  | refl (script : Script κ ε σ L α) (n : Nat) (s : σ) : Reaches o script n s [] script n s
  | turn {label : L} {β : Type} {step : Prog κ ε σ β} {next : β → Script κ ε σ L α} {n n' m : Nat} {s s' t : σ} {b : β}
      {labels : List L} {rest : Script κ ε σ L α} (returned : step o n s = ⟨.ok b, n', s'⟩)
      (further : Reaches o (next b) n' s' labels rest m t) :
      Reaches o (.turn label step next) n s (label :: labels) rest m t

variable {o o' : Outside κ ε} {script rest : Script κ ε σ L α} {n m : Nat} {s t : σ} {labels : List L}

/-- A run is made of the turns that returned and, where it raised, of the turn
that raised. -/
theorem run_cut (o : Outside κ ε) (script : Script κ ε σ L α) (n : Nat) (s : σ) :
    (∃ labels a m t, Reaches o script n s labels (.done a) m t ∧ script.run o n s = ⟨.ok a, m, t⟩) ∨
      ∃ (labels : List L) (label : L) (β : Type) (step : Prog κ ε σ β) (next : β → Script κ ε σ L α) (m : Nat) (t : σ)
        (e : Raised κ ε) (m' : Nat) (t' : σ), Reaches o script n s labels (.turn label step next) m t ∧
        step o m t = ⟨.error e, m', t'⟩ ∧ script.run o n s = ⟨.error e, m', t'⟩ := by
  induction script generalizing n s with
  | done a => exact Or.inl ⟨[], a, n, s, .refl _ n s, rfl⟩
  | turn label step next ih =>
    generalize ended : step o n s = first
    obtain ⟨_ | b, n', s'⟩ := first
    · exact Or.inr ⟨[], label, _, step, next, n, s, _, n', s', .refl _ n s, ended, bind_error ended⟩
    · have runs : (Script.turn label step next).run o n s = (next b).run o n' s' := bind_ok ended
      rw [runs]
      rcases ih b n' s' with ⟨labels, a, m, t, reaches, isRun⟩ | ⟨labels, label', γ, step', next', m, t, e, m', t', reaches, raised⟩
      · exact Or.inl ⟨label :: labels, a, m, t, .turn ended reaches, isRun⟩
      · exact Or.inr ⟨label :: labels, label', γ, step', next', m, t, e, m', t', .turn ended reaches, raised⟩

theorem Reaches.every {P : L → {β : Type} → Prog κ ε σ β → Prop} (every : script.Every P)
    (reaches : Reaches o script n s labels rest m t) : rest.Every P := by
  induction reaches with
  | refl => exact every
  | @turn label β step next n n' m s s' t b labels rest returned further ih => exact ih (every.2 b)

theorem Reaches.forward (causal : script.Causal) (reaches : Reaches o script n s labels rest m t) : n ≤ m := by
  induction reaches with
  | refl => exact Nat.le_refl _
  | @turn label β step next n n' m s s' t b labels rest returned further ih =>
    have early := causal.1.forward o n s
    rw [returned] at early
    exact Nat.le_trans early (ih (causal.2 b))

variable {rank : L → Nat}

theorem Ranked.mono {k k' : Nat} (ranked : script.Ranked rank k) (le : k' ≤ k) : script.Ranked rank k' := by
  cases script with
  | done a => trivial
  | turn label step next => exact ⟨Nat.le_trans le ranked.1, ranked.2⟩

/-- The turns before a turn rank no higher. -/
theorem Reaches.ranked {k : Nat} (ranked : script.Ranked rank k) (reaches : Reaches o script n s labels rest m t) :
    ∃ k', k ≤ k' ∧ rest.Ranked rank k' ∧ ∀ label ∈ labels, rank label ≤ k' := by
  induction reaches generalizing k with
  | refl => exact ⟨k, Nat.le_refl k, ranked, by simp⟩
  | @turn label β step next n n' m s s' t b labels rest returned further ih =>
    obtain ⟨k', le, restRanked, below⟩ := ih (ranked.2 b)
    refine ⟨k', Nat.le_trans ranked.1 le, restRanked, ?_⟩
    intro other member
    rcases List.mem_cons.mp member with rfl | later
    · exact le
    · exact below other later

/-- The turns up to a moment are the same under every outside that behaves alike
up to it. -/
theorem Reaches.same (causal : script.Causal) (reaches : Reaches o script n s labels rest m t) (agree : o.Agree o' n m) :
    Reaches o' script n s labels rest m t := by
  induction reaches with
  | refl => exact .refl _ _ _
  | @turn label β step next n n' m s s' t b labels rest returned further ih =>
    have early := causal.1.forward o n s
    rw [returned] at early
    have later := further.forward (causal.2 b)
    have first : step o' n s = ⟨.ok b, n', s'⟩ := by
      rw [← returned]
      refine causal.1.same o o' n s ?_
      rw [returned]
      exact agree.mono (Nat.le_refl n) later
    exact .turn first (ih (causal.2 b) (agree.mono early (Nat.le_refl m)))

/-! ### How scripts are put together -/

variable {P : L → {β : Type} → Prog κ ε σ β → Prop}

theorem every_pure (a : α) : (Pure.pure a : Script κ ε σ L α).Every P := trivial

theorem every_act {label : L} {step : Prog κ ε σ α} (holds : P label step) : (act label step).Every P :=
  ⟨holds, fun _ => trivial⟩

theorem every_bind {script : Script κ ε σ L β} {f : β → Script κ ε σ L α} (first : script.Every P)
    (next : ∀ b, (f b).Every P) : (script >>= f).Every P := by
  induction script with
  | done b => exact next b
  | turn label step rest ih => exact ⟨first.1, fun c => ih c (first.2 c)⟩

theorem every_fold {body : ρ → β → Script κ ε σ L ρ} (turn : ∀ acc b, (body acc b).Every P) (acc : ρ) (bs : List β) :
    (fold body acc bs).Every P := by
  induction bs generalizing acc with
  | nil => exact every_pure acc
  | cons b bs ih => exact every_bind (turn acc b) ih

theorem every_gather {body : β → Script κ ε σ L (List α)} (turn : ∀ b, (body b).Every P) (bs : List β) :
    (gather body bs).Every P := by
  induction bs with
  | nil => exact every_pure []
  | cons b bs ih => exact every_bind (turn b) fun _ => every_bind ih fun _ => every_pure _

theorem Every.mono {Q : L → {β : Type} → Prog κ ε σ β → Prop} (every : script.Every P)
    (weaker : ∀ label {β : Type} (step : Prog κ ε σ β), P label step → Q label step) : script.Every Q := by
  induction script with
  | done a => trivial
  | turn label step next ih => exact ⟨weaker label step every.1, fun b => ih b (every.2 b)⟩

/-- A part of one rank before parts of greater rank. -/
theorem ranked_bind {k : Nat} {script : Script κ ε σ L β} {f : β → Script κ ε σ L α}
    (first : script.Every fun label _ _ => rank label = k) (next : ∀ b, (f b).Ranked rank k) :
    (script >>= f).Ranked rank k := by
  induction script with
  | done b => exact next b
  | turn label step rest ih =>
    refine ⟨Nat.le_of_eq first.1.symm, fun c => ?_⟩
    rw [first.1]
    exact ih c (first.2 c)

theorem Every.ranked {k : Nat} (every : script.Every fun label _ _ => rank label = k) : script.Ranked rank k := by
  induction script with
  | done a => trivial
  | turn label step next ih =>
    refine ⟨Nat.le_of_eq every.1.symm, fun b => ?_⟩
    rw [every.1]
    exact ih b (every.2 b)

/-! ### What a script ends with -/

variable {Q : Except (Raised κ ε) α → σ → Prop}

theorem run_bind (script : Script κ ε σ L β) (f : β → Script κ ε σ L α) :
    (script >>= f).run = script.run >>= fun b => (f b).run := by
  induction script with
  | done b => rfl
  | turn label step rest ih =>
    funext o n s
    simp only [Bind.bind, andThen, run] at ih ⊢
    simp only [ih]
    rcases step o n s with ⟨_ | c, n', s'⟩ <;> rfl

theorem meets_act {label : L} {step : Prog κ ε σ α} (inner : Meets o step s Q) : Meets o (act label step).run s Q := by
  refine Meets.seq Q inner ?_ fun _ _ stopped => stopped
  exact fun a t reached => Meets.pure reached

/-- A loop whose turns keep what is known while `rest` is still to come. -/
theorem meets_fold {body : ρ → β → Script κ ε σ L ρ} {bs : List β} (I : List β → σ → Prop) (E : σ → Prop)
    (turn : ∀ acc b rest t, I (b :: rest) t →
      Meets o (body acc b).run t (byResult (fun _ u => I rest u) fun _ u => E u)) (start : I bs s) (acc : ρ) :
    Meets o (fold body acc bs).run s (byResult (fun _ t => I [] t) fun _ t => E t) := by
  induction bs generalizing acc s with
  | nil => exact Meets.pure start
  | cons b rest ih =>
    rw [fold, run_bind]
    exact Meets.seq _ (turn acc b rest s start) (fun acc t kept => ih kept acc) fun _ _ stopped => stopped

/-- A loop that only reads. -/
theorem meets_gather {body : β → Script κ ε σ L (List α)} (f : β → List α) {bs : List β}
    (turn : ∀ b, Meets o (body b).run s fun r t => t = s ∧ ∀ as, r = .ok as → as = f b) :
    Meets o (gather body bs).run s fun r t => t = s ∧ ∀ as, r = .ok as → as = bs.flatMap f := by
  induction bs with
  | nil => exact Meets.pure ⟨rfl, fun as isNil => by cases isNil; rfl⟩
  | cons b bs ih =>
    rw [gather, run_bind]
    refine Meets.seq _ (turn b) ?_ fun _ _ stopped => ⟨stopped.1, fun _ ended => nomatch ended⟩
    rintro first t ⟨rfl, isFirst⟩
    rw [run_bind]
    refine Meets.seq _ ih ?_ fun _ _ stopped => ⟨stopped.1, fun _ ended => nomatch ended⟩
    rintro rest t ⟨rfl, isRest⟩
    refine Meets.pure ⟨rfl, fun as isAll => ?_⟩
    cases isAll
    rw [isFirst first rfl, isRest rest rfl, List.flatMap_cons]

end Script

end Calls
