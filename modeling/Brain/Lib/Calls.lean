import Mathlib.Order.Defs.Unbundled

namespace Calls

/-- What a call to the outside does: it returns, or it raises, after or before
its effect took place. -/
inductive Outcome (ε : Type)
  | returns
  | raises (tookEffect : Bool) (exception : ε)

/-- Everything a program does not decide itself: how its `n`-th call to the
outside ends, and what the clock shows at that moment. -/
structure Outside (κ ε : Type) where
  outcome : Nat → κ → Outcome ε
  clock : Nat → Nat

/-- The call site an exception comes from. A handler sees the exception alone. -/
structure Raised (κ ε : Type) where
  site : κ
  tookEffect : Bool
  exception : ε

structure Run (κ ε σ α : Type) where
  result : Except (Raised κ ε) α
  time : Nat
  store : σ

/-- A program over a store `σ` whose calls are made at sites `κ` and may raise
`ε`. What was written before an exception stays written. -/
def Prog (κ ε σ α : Type) : Type := Outside κ ε → Nat → σ → Run κ ε σ α

variable {κ ε σ α β : Type}

instance : Monad (Prog κ ε σ) where
  pure a := fun _ n s => ⟨.ok a, n, s⟩
  bind p f := fun o n s =>
    match p o n s with
    | ⟨.ok a, n', s'⟩ => f a o n' s'
    | ⟨.error e, n', s'⟩ => ⟨.error e, n', s'⟩

def call (site : κ) (op : σ → α × σ) : Prog κ ε σ α := fun o n s =>
  match o.outcome n site with
  | .returns => ⟨.ok (op s).1, n + 1, (op s).2⟩
  | .raises tookEffect exception =>
    ⟨.error ⟨site, tookEffect, exception⟩, n + 1, if tookEffect then (op s).2 else s⟩

def query (site : κ) (f : σ → α) : Prog κ ε σ α := call site (fun s => (f s, s))

def command (site : κ) (f : σ → σ) : Prog κ ε σ Unit := call site (fun s => ((), f s))

/-- A step inside the process, which cannot fail. -/
def internal (op : σ → α × σ) : Prog κ ε σ α := fun _ n s => ⟨.ok (op s).1, n, (op s).2⟩

def now : Prog κ ε σ Nat := fun o n s => ⟨.ok (o.clock n), n + 1, s⟩

def reraise (e : Raised κ ε) : Prog κ ε σ α := fun _ n s => ⟨.error e, n, s⟩

/-- Runs `p` and hands over how it ended instead of stopping. -/
def attempt (p : Prog κ ε σ α) : Prog κ ε σ (Except (Raised κ ε) α) := fun o n s =>
  match p o n s with
  | ⟨r, n', s'⟩ => ⟨.ok r, n', s'⟩

/-- `try: p except: handler; raise`. An exception of the handler replaces the
one it handles. -/
def onRaise (p : Prog κ ε σ α) (handler : Raised κ ε → Prog κ ε σ Unit) : Prog κ ε σ α := do
  match ← attempt p with
  | .ok a => pure a
  | .error e => do
    handler e
    reraise e

/-- `try: p except: pass`. -/
def swallow (p : Prog κ ε σ Unit) : Prog κ ε σ Unit := do
  let _ ← attempt p
  pure ()

def forEach (body : β → Prog κ ε σ Unit) : List β → Prog κ ε σ Unit
  | [] => pure ()
  | b :: bs => do
    body b
    forEach body bs

/-- A loop whose turns each report how much they add to a counter. -/
def tally (body : β → Prog κ ε σ Nat) : List β → Prog κ ε σ Nat
  | [] => pure 0
  | b :: bs => do
    let first ← body b
    let rest ← tally body bs
    pure (first + rest)

/-- `while True: turn`, where a turn tells whether it breaks. `none` when `turns`
turns did not suffice. -/
def loop (turn : β → Prog κ ε σ (β × Bool)) : Nat → β → Prog κ ε σ (Option β)
  | 0, _ => pure none
  | turns + 1, acc => do
    let (acc, last) ← turn acc
    if last then pure (some acc) else loop turn turns acc

/-- Nothing outside fails. -/
def Outside.Clean (o : Outside κ ε) : Prop := ∀ n site, o.outcome n site = .returns

def Outside.clean : Outside κ ε := ⟨fun _ _ => .returns, fun _ => 0⟩

/-- `e` is how some call to the outside ends. -/
def Outside.Raises (o : Outside κ ε) (e : Raised κ ε) : Prop :=
  ∃ n, o.outcome n e.site = .raises e.tookEffect e.exception

theorem Outside.clean_clean : (Outside.clean : Outside κ ε).Clean := fun _ _ => rfl

variable {o : Outside κ ε}

theorem Outside.not_raises_of_returns {e : Raised κ ε} (returns : ∀ n, o.outcome n e.site = .returns)
    : ¬ o.Raises e := by
  rintro ⟨n, raised⟩
  rw [returns n] at raised
  cases raised

/-- A program that starts with a call goes on with the answer, or stops. -/
theorem call_bind (site : κ) (op : σ → α × σ) (next : α → Prog κ ε σ β) (o : Outside κ ε) (n : Nat) (s : σ) :
    (call site op >>= next) o n s =
      match o.outcome n site with
      | .returns => next (op s).1 o (n + 1) (op s).2
      | .raises tookEffect exception =>
        ⟨.error ⟨site, tookEffect, exception⟩, n + 1, if tookEffect then (op s).2 else s⟩ := by
  simp only [Bind.bind, call]
  cases o.outcome n site <;> rfl

theorem query_bind (site : κ) (f : σ → α) (next : α → Prog κ ε σ β) (o : Outside κ ε) (n : Nat) (s : σ) :
    (query site f >>= next) o n s =
      match o.outcome n site with
      | .returns => next (f s) o (n + 1) s
      | .raises tookEffect exception => ⟨.error ⟨site, tookEffect, exception⟩, n + 1, s⟩ := by
  unfold query
  rw [call_bind]
  cases o.outcome n site with
  | returns => rfl
  | raises tookEffect exception => simp only [ite_self]

theorem query_pure_bind {γ : Type} (site : κ) (f : σ → α) (g : α → β) (next : β → Prog κ ε σ γ) (o : Outside κ ε)
    (n : Nat) (s : σ) :
    ((query site f >>= fun a => pure (g a)) >>= next) o n s =
      match o.outcome n site with
      | .returns => next (g (f s)) o (n + 1) s
      | .raises tookEffect exception => ⟨.error ⟨site, tookEffect, exception⟩, n + 1, s⟩ := by
  rw [← query_bind site f (fun a => next (g a))]
  simp only [Bind.bind, Pure.pure, query, call]
  cases o.outcome n site <;> rfl

/-- Started in `s` at any moment, `p` ends with a result and a store of `Q`. -/
def Meets (o : Outside κ ε) (p : Prog κ ε σ α) (s : σ)
    (Q : Except (Raised κ ε) α → σ → Prop) : Prop :=
  ∀ n, Q (p o n s).result (p o n s).store

/-- The condition `k` on values, the condition `E` on exceptions. -/
def byResult (k : α → σ → Prop) (E : Raised κ ε → σ → Prop) : Except (Raised κ ε) α → σ → Prop
  | .ok a, s => k a s
  | .error e, s => E e s

@[simp] theorem byResult_ok (k : α → σ → Prop) (E : Raised κ ε → σ → Prop) (a : α) (s : σ) :
    byResult k E (.ok a) s = k a s := rfl

@[simp] theorem byResult_error (k : α → σ → Prop) (E : Raised κ ε → σ → Prop) (e : Raised κ ε) (s : σ) :
    byResult k E (.error e) s = E e s := rfl

/-- Started in `s` at any moment, `p` returns, with a value and a store of `Q`. -/
def Returns (o : Outside κ ε) (p : Prog κ ε σ α) (s : σ) (Q : α → σ → Prop) : Prop :=
  Meets o p s (byResult Q fun _ _ => False)

namespace Meets
variable {o : Outside κ ε} {p : Prog κ ε σ α} {s : σ} {Q Q' : Except (Raised κ ε) α → σ → Prop}

theorem mono (meets : Meets o p s Q) (weaker : ∀ r t, Q r t → Q' r t) : Meets o p s Q' :=
  fun n => weaker _ _ (meets n)

theorem and (left : Meets o p s Q) (right : Meets o p s Q') :
    Meets o p s (fun r t => Q r t ∧ Q' r t) :=
  fun n => ⟨left n, right n⟩

theorem pure {a : α} (done : Q (.ok a) s) : Meets o (Pure.pure a) s Q := fun _ => done

theorem bind {p : Prog κ ε σ β} {f : β → Prog κ ε σ α}
    (first : Meets o p s (byResult (fun b t => Meets o (f b) t Q) (fun e t => Q (.error e) t))) :
    Meets o (p >>= f) s Q := by
  intro n
  have atFirst := first n
  simp only [Bind.bind]
  generalize p o n s = run at atFirst
  obtain ⟨_ | b, n', t⟩ := run
  · exact atFirst
  · exact atFirst n'

/-- The rule of sequence: `P` holds after the first part, and an exception of
the first part is one of the whole. -/
theorem seq {p : Prog κ ε σ β} {f : β → Prog κ ε σ α} (P : Except (Raised κ ε) β → σ → Prop)
    (first : Meets o p s P) (next : ∀ b t, P (.ok b) t → Meets o (f b) t Q)
    (stop : ∀ e t, P (.error e) t → Q (.error e) t) : Meets o (p >>= f) s Q := by
  refine bind (first.mono ?_)
  intro r t reached
  cases r with
  | ok b => exact next b t reached
  | error e => exact stop e t reached

variable {site : κ} {op : σ → α × σ}

theorem call (returned : Q (.ok (op s).1) (op s).2)
    (raised : ∀ tookEffect exception, o.Raises ⟨site, tookEffect, exception⟩ →
      Q (.error ⟨site, tookEffect, exception⟩) (if tookEffect then (op s).2 else s)) :
    Meets o (Calls.call site op) s Q := by
  intro n
  unfold Calls.call
  cases outcome : o.outcome n site with
  | returns => exact returned
  | raises tookEffect exception => exact raised tookEffect exception ⟨n, outcome⟩

theorem query {f : σ → α} (returned : Q (.ok (f s)) s)
    (raised : ∀ tookEffect exception, o.Raises ⟨site, tookEffect, exception⟩ →
      Q (.error ⟨site, tookEffect, exception⟩) s) : Meets o (Calls.query site f) s Q := by
  refine call returned ?_
  intro tookEffect exception raises
  have stopped := raised tookEffect exception raises
  cases tookEffect <;> exact stopped

theorem command {f : σ → σ} {Q : Except (Raised κ ε) Unit → σ → Prop} (returned : Q (.ok ()) (f s))
    (before : ∀ exception, o.Raises ⟨site, false, exception⟩ → Q (.error ⟨site, false, exception⟩) s)
    (after : ∀ exception, o.Raises ⟨site, true, exception⟩ → Q (.error ⟨site, true, exception⟩) (f s)) :
    Meets o (Calls.command site f) s Q := by
  refine call returned ?_
  intro tookEffect exception raises
  cases tookEffect with
  | false => exact before exception raises
  | true => exact after exception raises

theorem call_of_returns (returns : ∀ n, o.outcome n site = .returns) (returned : Q (.ok (op s).1) (op s).2)
    : Meets o (Calls.call site op) s Q := by
  intro n
  unfold Calls.call
  rw [returns n]
  exact returned

theorem internal (done : Q (.ok (op s).1) (op s).2) : Meets o (Calls.internal op) s Q := fun _ => done

theorem now {Q : Except (Raised κ ε) Nat → σ → Prop} (done : ∀ t, Q (.ok t) s) :
    Meets o Calls.now s Q := fun n => done (o.clock n)

theorem reraise {e : Raised κ ε} (done : Q (.error e) s) : Meets o (Calls.reraise e) s Q := fun _ => done

theorem attempt {Q : Except (Raised κ ε) (Except (Raised κ ε) α) → σ → Prop}
    (inner : Meets o p s (fun r t => Q (.ok r) t)) : Meets o (Calls.attempt p) s Q := by
  intro n
  exact inner n

theorem onRaise {handler : Raised κ ε → Prog κ ε σ Unit}
    (inner : Meets o p s (byResult (fun a t => Q (.ok a) t) (fun e t => Meets o (handler e) t
      (byResult (fun _ u => Q (.error e) u) (fun e' u => Q (.error e') u))))) :
    Meets o (Calls.onRaise p handler) s Q := by
  refine bind (attempt (inner.mono ?_))
  intro r t reached
  cases r with
  | ok a => exact pure reached
  | error e =>
    refine bind (Meets.mono reached ?_)
    intro r u handled
    cases r with
    | ok _ => exact Meets.reraise handled
    | error _ => exact handled

theorem swallow {p : Prog κ ε σ Unit} {Q : Except (Raised κ ε) Unit → σ → Prop}
    (inner : Meets o p s (fun _ t => Q (.ok ()) t)) : Meets o (Calls.swallow p) s Q :=
  bind (attempt (inner.mono fun _ _ reached => pure reached))

/-- A loop keeps an invariant that every turn keeps, also when a turn raises. -/
theorem forEach {body : β → Prog κ ε σ Unit} {xs : List β} (I : σ → Prop) (start : I s)
    (turn : ∀ x ∈ xs, ∀ t, I t → Meets o (body x) t (fun _ u => I u)) :
    Meets o (Calls.forEach body xs) s (fun _ t => I t) := by
  induction xs generalizing s with
  | nil => exact pure start
  | cons x xs ih =>
    refine seq _ (turn x (List.mem_cons_self ..) s start) ?_ (fun _ _ kept => kept)
    intro _ t kept
    exact ih kept (fun y member => turn y (List.mem_cons_of_mem _ member))

/-- A loop of writes makes all of them, or those before the one that raised and
perhaps that one. -/
theorem forEach_command {f : β → σ → σ} {xs : List β} : Meets o (Calls.forEach (fun x => Calls.command site (f x)) xs) s
      (byResult (fun _ t => t = xs.foldl (fun u x => f x u) s)
        (fun e t => e.site = site ∧ ∃ done, done <+: xs ∧ t = done.foldl (fun u x => f x u) s)) := by
  induction xs generalizing s with
  | nil => exact pure rfl
  | cons x xs ih =>
    refine bind (command ?_ ?_ ?_)
    · refine ih.mono ?_
      intro r t reached
      cases r with
      | ok _ => exact reached
      | error e =>
        obtain ⟨atSite, done, early, rfl⟩ := reached
        exact ⟨atSite, x :: done, List.cons_prefix_cons.mpr ⟨rfl, early⟩, rfl⟩
    · exact fun _ _ => ⟨rfl, [], List.nil_prefix, rfl⟩
    · exact fun _ _ => ⟨rfl, [x], List.cons_prefix_cons.mpr ⟨rfl, List.nil_prefix⟩, rfl⟩

theorem tally {body : β → Prog κ ε σ Nat} {xs : List β} (I : σ → Prop) (start : I s)
    (turn : ∀ x ∈ xs, ∀ t, I t → Meets o (body x) t (fun _ u => I u)) :
    Meets o (Calls.tally body xs) s (fun _ t => I t) := by
  induction xs generalizing s with
  | nil => exact pure start
  | cons x xs ih =>
    refine seq _ (turn x (List.mem_cons_self ..) s start) ?_ (fun _ _ kept => kept)
    intro _ t kept
    refine seq _ (ih kept (fun y member => turn y (List.mem_cons_of_mem _ member))) ?_ (fun _ _ kept => kept)
    exact fun _ _ kept => pure kept

/-- A loop whose turns lower a measure ends within the turns the measure allows. -/
theorem loop {turn : β → Prog κ ε σ (β × Bool)} {turns : Nat} {acc : β}
    {Q : Except (Raised κ ε) (Option β) → σ → Prop} (I : β → σ → Prop) (measure : β → Nat) (start : I acc s)
    (step : ∀ acc t, I acc t → Meets o (turn acc) t (byResult
      (fun r u => if r.2 then Q (.ok (some r.1)) u else I r.1 u ∧ measure r.1 < measure acc)
      (fun e u => Q (.error e) u)))
    (enough : measure acc < turns) : Meets o (Calls.loop turn turns acc) s Q := by
  induction turns generalizing acc s with
  | zero => omega
  | succ turns ih =>
    refine seq _ (step acc s start) ?_ (fun _ _ stopped => stopped)
    rintro ⟨next, last⟩ t reached
    cases last with
    | true => exact pure reached
    | false =>
      have kept : I next t ∧ measure next < measure acc := reached
      exact ih kept.1 (by omega)

end Meets

/-- The store is in `P`, and an exception comes from a call at a site of `S`. -/
def Stays (o : Outside κ ε) (P : σ → Prop) (S : κ → Prop) : Except (Raised κ ε) α → σ → Prop :=
  byResult (fun _ t => P t) (fun e t => P t ∧ S e.site ∧ o.Raises e)

/-- `p` moves the store along `R` only, also when it raises, and makes calls
that can raise at sites of `S` only. -/
def Within (R : σ → σ → Prop) (S : κ → Prop) (p : Prog κ ε σ α) : Prop :=
  ∀ o s, Meets o p s (Stays o (R s) S)

theorem Stays.store {P : σ → Prop} {S : κ → Prop} {r : Except (Raised κ ε) α} {t : σ} (stays : Stays o P S r t)
    : P t := by
  cases r with
  | ok a => exact stays
  | error e => exact stays.1

theorem Stays.mono {P P' : σ → Prop} {S S' : κ → Prop} {r : Except (Raised κ ε) α} {t : σ}
    (stays : Stays o P S r t) (store : ∀ u, P u → P' u) (sites : ∀ site, S site → S' site) :
    Stays o P' S' r t := by
  cases r with
  | ok a => exact store t stays
  | error e => exact ⟨store t stays.1, sites _ stays.2.1, stays.2.2⟩

namespace Within
variable {R R' : σ → σ → Prop} {S S' : κ → Prop} {p : Prog κ ε σ α}

theorem mono (within : Within R S p) (stores : ∀ s t, R s t → R' s t) (sites : ∀ site, S site → S' site) :
    Within R' S' p := fun o s => (within o s).mono fun _ _ stays => stays.mono (stores s) sites

theorem call {site : κ} {op : σ → α × σ} [Std.Refl R] (moves : ∀ s, R s (op s).2) (listed : S site) :
    Within R S (Calls.call site op : Prog κ ε σ α) := by
  intro o s
  refine Meets.call (moves s) ?_
  intro tookEffect exception raises
  cases tookEffect with
  | false => exact ⟨refl_of R s, listed, raises⟩
  | true => exact ⟨moves s, listed, raises⟩

theorem query {site : κ} {f : σ → α} [Std.Refl R] (listed : S site) :
    Within R S (Calls.query site f : Prog κ ε σ α) :=
  call (fun s => refl_of R s) listed

theorem command {site : κ} {f : σ → σ} [Std.Refl R] (moves : ∀ s, R s (f s)) (listed : S site) :
    Within R S (Calls.command site f : Prog κ ε σ Unit) :=
  call moves listed

theorem internal {op : σ → α × σ} (moves : ∀ s, R s (op s).2) :
    Within R S (Calls.internal op : Prog κ ε σ α) := fun _ s => Meets.internal (moves s)

theorem pure [Std.Refl R] (a : α) : Within R S (Pure.pure a : Prog κ ε σ α) :=
  fun _ s => Meets.pure (refl_of R s)

theorem now [Std.Refl R] : Within R S (Calls.now : Prog κ ε σ Nat) :=
  fun _ s => Meets.now fun _ => refl_of R s

theorem bind [IsTrans σ R] {p : Prog κ ε σ β} {f : β → Prog κ ε σ α} (first : Within R S p)
    (next : ∀ b, Within R S (f b)) : Within R S (p >>= f) := by
  intro o s
  refine Meets.seq _ (first o s) ?_ (fun _ _ stays => stays)
  intro b t reached
  exact (next b o t).mono fun _ _ stays => stays.mono (fun u => trans_of R reached) (fun _ => id)

theorem attempt (inner : Within R S p) : Within R S (Calls.attempt p) :=
  fun o s => Meets.attempt ((inner o s).mono fun _ _ stays => stays.store)

theorem swallow {p : Prog κ ε σ Unit} (inner : Within R S p) : Within R S' (Calls.swallow p) :=
  fun o s => Meets.swallow ((inner o s).mono fun _ _ stays => stays.store)

theorem forEach [IsPreorder σ R] {body : β → Prog κ ε σ Unit} {xs : List β}
    (turn : ∀ x ∈ xs, Within R S (body x)) : Within R S (Calls.forEach body xs) := by
  induction xs with
  | nil => exact pure ()
  | cons x xs ih =>
    exact bind (turn x (List.mem_cons_self ..)) fun _ =>
      ih fun y member => turn y (List.mem_cons_of_mem _ member)

theorem tally [IsPreorder σ R] {body : β → Prog κ ε σ Nat} {xs : List β}
    (turn : ∀ x ∈ xs, Within R S (body x)) : Within R S (Calls.tally body xs) := by
  induction xs with
  | nil => exact pure 0
  | cons x xs ih =>
    refine bind (turn x (List.mem_cons_self ..)) fun _ => bind ?_ fun _ => pure _
    exact ih fun y member => turn y (List.mem_cons_of_mem _ member)

end Within

/-- The rule of sequence after a part of which only the way of the store is known. -/
theorem Meets.after {R : σ → σ → Prop} {S : κ → Prop} {p : Prog κ ε σ β} {f : β → Prog κ ε σ α} {s : σ}
    {Q : Except (Raised κ ε) α → σ → Prop} (first : Within R S p)
    (next : ∀ b t, R s t → Meets o (f b) t Q) (stop : ∀ e t, R s t → o.Raises e → Q (.error e) t) :
    Meets o (p >>= f) s Q :=
  Meets.seq _ (first o s) next fun e t stays => stop e t stays.1 stays.2.2

/-- What holds of the store whenever a program returns holds where it returns. -/
theorem Returns.store {p : Prog κ ε σ α} {s : σ} {Q : α → σ → Prop} {P : σ → Prop} (returns : Returns o p s Q)
    (holds : ∀ a t, Q a t → P t) (n : Nat) : P (p o n s).store := by
  have ended := returns n
  generalize p o n s = run at ended
  obtain ⟨_ | a, n', t⟩ := run
  · exact ended.elim
  · exact holds a t ended

/-- A program whose exceptions all come from calls returns when no call fails. -/
theorem Meets.returns {p : Prog κ ε σ α} {s : σ} {Q : α → σ → Prop} {E : Raised κ ε → σ → Prop}
    (meets : Meets o p s (byResult Q E)) (clean : o.Clean)
    (raises : ∀ e t, E e t → o.Raises e) : Returns o p s Q := by
  refine meets.mono ?_
  intro r t reached
  cases r with
  | ok a => exact reached
  | error e => exact Outside.not_raises_of_returns (fun n => clean n e.site) (raises e t reached)

end Calls

namespace Calls
variable {κ ε σ α β : Type}

/-- A call whose answer depends on the moment it is made at. -/
def ask (site : κ) (f : Nat → σ → α) : Prog κ ε σ α := fun o n s => query site (f n) o n s

/-- No program goes back in time. -/
def Forward (p : Prog κ ε σ α) : Prop := ∀ o n s, n ≤ (p o n s).time

variable {p : Prog κ ε σ α} {f : α → Prog κ ε σ β} {o : Outside κ ε} {s : σ}

theorem bind_ok {n n' : Nat} {s' : σ} {a : α} (first : p o n s = ⟨.ok a, n', s'⟩) : (p >>= f) o n s = f a o n' s' := by
  simp only [Bind.bind, first]

theorem bind_error {n n' : Nat} {s' : σ} {e : Raised κ ε} (first : p o n s = ⟨.error e, n', s'⟩)
    : (p >>= f) o n s = ⟨.error e, n', s'⟩ := by
  simp only [Bind.bind, first]

/-- A sequence that returns went through its first part. -/
theorem bind_eq_ok {n : Nat} {b : β} (returned : ((p >>= f) o n s).result = .ok b) :
    ∃ a n' s', p o n s = ⟨.ok a, n', s'⟩ ∧ (f a o n' s').result = .ok b := by
  generalize first : p o n s = run
  obtain ⟨_ | a, n', s'⟩ := run
  · rw [bind_error first] at returned
    cases returned
  · rw [bind_ok first] at returned
    exact ⟨a, n', s', rfl, returned⟩

variable {site : κ}

theorem call_eq_ok {op : σ → α × σ} {n n' : Nat} {s' : σ} {a : α} (returned : call site op o n s = ⟨.ok a, n', s'⟩)
    : a = (op s).1 ∧ n' = n + 1 ∧ s' = (op s).2 := by
  unfold call at returned
  split at returned
  · cases returned
    exact ⟨rfl, rfl, rfl⟩
  · cases returned

theorem call_returns {op : σ → α × σ} {n : Nat} (returns : o.outcome n site = .returns)
    : call site op o n s = ⟨.ok (op s).1, n + 1, (op s).2⟩ := by
  rw [call, returns]

theorem ask_eq_ok {f : Nat → σ → α} {n n' : Nat} {s' : σ} {a : α} (returned : ask site f o n s = ⟨.ok a, n', s'⟩)
    : a = f n s ∧ n' = n + 1 ∧ s' = s :=
  call_eq_ok returned

theorem Meets.ask {f : Nat → σ → α} {Q : Except (Raised κ ε) α → σ → Prop} (returned : ∀ n, Q (.ok (f n s)) s)
    (raised : ∀ tookEffect exception, o.Raises ⟨site, tookEffect, exception⟩ →
      Q (.error ⟨site, tookEffect, exception⟩) s) : Meets o (Calls.ask site f) s Q := by
  intro n
  exact Meets.query (returned n) raised n

namespace Within
variable {R : σ → σ → Prop} {S : κ → Prop}

theorem ask {site : κ} {f : Nat → σ → α} [Std.Refl R] (listed : S site) :
    Within R S (Calls.ask site f : Prog κ ε σ α) := by
  intro o s n
  exact query listed o s n

end Within

namespace Forward
variable {p : Prog κ ε σ α}

theorem pure (a : α) : Forward (Pure.pure a : Prog κ ε σ α) := fun _ n _ => Nat.le_refl n

theorem call (site : κ) (op : σ → α × σ) : Forward (Calls.call site op : Prog κ ε σ α) := by
  intro o n s
  unfold Calls.call
  split <;> exact Nat.le_succ n

theorem query (site : κ) (f : σ → α) : Forward (Calls.query site f : Prog κ ε σ α) := call site _

theorem command (site : κ) (f : σ → σ) : Forward (Calls.command site f : Prog κ ε σ Unit) := call site _

theorem ask (site : κ) (f : Nat → σ → α) : Forward (Calls.ask site f : Prog κ ε σ α) :=
  fun o n s => query site (f n) o n s

theorem internal (op : σ → α × σ) : Forward (Calls.internal op : Prog κ ε σ α) := fun _ n _ => Nat.le_refl n

theorem now : Forward (Calls.now : Prog κ ε σ Nat) := fun _ n _ => Nat.le_succ n

theorem attempt (inner : Forward p) : Forward (Calls.attempt p) := inner

theorem bind {p : Prog κ ε σ β} {f : β → Prog κ ε σ α} (first : Forward p) (next : ∀ b, Forward (f b)) :
    Forward (p >>= f) := by
  intro o n s
  have early := first o n s
  generalize ended : p o n s = run at early
  obtain ⟨_ | b, n', s'⟩ := run
  · rw [bind_error ended]
    exact early
  · rw [bind_ok ended]
    exact Nat.le_trans early (next b o n' s')

theorem forEach {body : β → Prog κ ε σ Unit} (turn : ∀ x, Forward (body x)) (xs : List β) :
    Forward (Calls.forEach body xs) := by
  induction xs with
  | nil => exact pure ()
  | cons x xs ih => exact bind (turn x) fun _ => ih

end Forward

/-- `p` preserves `I` of the store, also when it raises. -/
def Preserves (I : σ → Prop) (p : Prog κ ε σ α) : Prop := ∀ o s, I s → Meets o p s (fun _ t => I t)

namespace Preserves
variable {I : σ → Prop} {p : Prog κ ε σ α}

theorem pure (a : α) : Preserves I (Pure.pure a : Prog κ ε σ α) := fun _ _ kept => Meets.pure kept

theorem now : Preserves I (Calls.now : Prog κ ε σ Nat) := fun _ _ kept => Meets.now fun _ => kept

theorem reraise (e : Raised κ ε) : Preserves I (Calls.reraise e : Prog κ ε σ α) := fun _ _ kept => Meets.reraise kept

theorem call {site : κ} {op : σ → α × σ} (keeps : ∀ s, I s → I (op s).2) :
    Preserves I (Calls.call site op : Prog κ ε σ α) := by
  intro o s kept
  refine Meets.call (keeps s kept) fun tookEffect _ _ => ?_
  cases tookEffect with
  | false => exact kept
  | true => exact keeps s kept

theorem query {site : κ} {f : σ → α} : Preserves I (Calls.query site f : Prog κ ε σ α) := call fun _ kept => kept

theorem bind {p : Prog κ ε σ β} {f : β → Prog κ ε σ α} (first : Preserves I p) (next : ∀ b, Preserves I (f b)) :
    Preserves I (p >>= f) :=
  fun o s kept => Meets.seq _ (first o s kept) (fun b t reached => next b o t reached) fun _ _ reached => reached

theorem attempt (inner : Preserves I p) : Preserves I (Calls.attempt p) :=
  fun o s kept => Meets.attempt (inner o s kept)

end Preserves
end Calls
