import Brain.Workers.Settlement

namespace Brain
variable {ω : Type}

theorem flatMap_eq_iff_of_sublist {α β : Type} {f g : α → List β} {l : List α}
    (sublist : ∀ a ∈ l, List.Sublist (g a) (f a)) : l.flatMap f = l.flatMap g ↔ ∀ a ∈ l, f a = g a := by
  induction l with
  | nil => simp
  | cons a l ih =>
    have first := sublist a (List.mem_cons_self ..)
    have rest : List.Sublist (l.flatMap g) (l.flatMap f) :=
      flatMap_sublist fun b member => sublist b (List.mem_cons_of_mem _ member)
    constructor
    · intro same
      have lengths := congrArg List.length same
      simp only [List.flatMap_cons, List.length_append] at lengths
      have atFirst := first.length_le
      have atRest := rest.length_le
      have equal : g a = f a := first.eq_of_length (by omega)
      have equal' : l.flatMap g = l.flatMap f := rest.eq_of_length (by omega)
      have others := (ih fun b member => sublist b (List.mem_cons_of_mem _ member)).mp equal'.symm
      intro b member
      rcases List.mem_cons.mp member with rfl | later
      · exact equal.symm
      · exact others b later
    · exact fun same => List.flatMap_congr same
where
  flatMap_sublist {α β : Type} {f g : α → List β} {l : List α} (sublist : ∀ a ∈ l, List.Sublist (g a) (f a)) :
      List.Sublist (l.flatMap g) (l.flatMap f) := by
    induction l with
    | nil => exact List.Sublist.refl _
    | cons a l ih =>
      rw [List.flatMap_cons, List.flatMap_cons]
      exact (sublist a (List.mem_cons_self ..)).append (ih fun b member => sublist b (List.mem_cons_of_mem _ member))

def Write.isHandler : Write ω → Bool
  | .handler _ => true
  | .failure _ => false

namespace WorkerLoop
variable (self : WorkerLoop) {turn : Turn ω} {command : CommandEnvelope} {s : WorkerState ω}

/-- What should be durable of an attempt: its writes when it returned, else its failure record. -/
def granted (turn : Turn ω) (command : CommandEnvelope) (attempt : Nat) : List (Write ω) :=
  if self.returns turn command attempt then (self.dispatch command (turn.attempts attempt)).1.map .handler
  else self.recorded turn command attempt

def grantedFor (turn : Turn ω) (command : CommandEnvelope) : List (Write ω) :=
  (self.attemptsMade turn command self.maxAttempts 1).flatMap (self.granted turn command)

def RaisesClean (turn : Turn ω) (command : CommandEnvelope) : Prop :=
  ∀ attempt ∈ self.attemptsMade turn command self.maxAttempts 1, self.returns turn command attempt = false →
    (self.dispatch command (turn.attempts attempt)).1 = []

/-- No failure record of the command is saved. -/
def Unrecorded (turn : Turn ω) (command : CommandEnvelope) : Prop :=
  ∀ attempt ∈ self.attemptsMade turn command self.maxAttempts 1, self.recorded turn command attempt = []

variable {attempt : Nat}

theorem recorded_of_returns (returned : self.returns turn command attempt = true) :
    self.recorded turn command attempt = [] := by
  unfold returns at returned
  unfold recorded
  rw [Option.isNone_iff_eq_none.mp returned]

theorem recorded_failures (attempt : Nat) : (self.recorded turn command attempt).filter Write.isHandler = [] := by
  unfold recorded
  split
  · rfl
  · split
    · rfl
    · split <;> rfl

theorem handlers_of_written (attempt : Nat) : (self.written turn command attempt).filter Write.isHandler =
    (self.dispatch command (turn.attempts attempt)).1.map .handler := by
  unfold written
  rw [List.filter_append, recorded_failures, List.append_nil, List.filter_eq_self]
  simp [Write.isHandler]

theorem handlers_of_granted (attempt : Nat) : (self.granted turn command attempt).filter Write.isHandler =
    if self.returns turn command attempt then (self.dispatch command (turn.attempts attempt)).1.map .handler else [] := by
  unfold granted
  split
  · rw [List.filter_eq_self]
    simp [Write.isHandler]
  · exact self.recorded_failures attempt

theorem failures_of_written (attempt : Nat) : (self.written turn command attempt).filter (fun w => !w.isHandler) =
    (self.granted turn command attempt).filter fun w => !w.isHandler := by
  have none : ((self.dispatch command (turn.attempts attempt)).1.map Write.handler).filter (fun w => !w.isHandler) = [] := by
    rw [List.filter_eq_nil_iff]
    simp [Write.isHandler]
  unfold written granted
  rw [List.filter_append, none, List.nil_append]
  split
  · rename_i returned
    rw [self.recorded_of_returns returned, none]
    rfl
  · rfl

theorem granted_sublist (attempt : Nat) :
    List.Sublist (self.granted turn command attempt) (self.written turn command attempt) := by
  unfold granted written
  split
  · exact List.sublist_append_left _ _
  · exact List.sublist_append_right _ _

theorem written_eq_granted_iff : self.written turn command attempt = self.granted turn command attempt ↔
    (self.returns turn command attempt = false → (self.dispatch command (turn.attempts attempt)).1 = []) := by
  unfold written granted
  cases returned : self.returns turn command attempt with
  | true => simp [self.recorded_of_returns returned]
  | false => simp

theorem writtenFor_eq_iff : self.writtenFor turn command = self.grantedFor turn command ↔ self.RaisesClean turn command := by
  unfold writtenFor grantedFor RaisesClean
  rw [flatMap_eq_iff_of_sublist fun attempt _ => self.granted_sublist attempt]
  exact forall₂_congr fun attempt _ => self.written_eq_granted_iff

theorem grantedFor_sublist : List.Sublist (self.grantedFor turn command) (self.writtenFor turn command) :=
  flatMap_eq_iff_of_sublist.flatMap_sublist fun attempt _ => self.granted_sublist attempt

theorem handlers_eq_iff : (self.writtenFor turn command).filter Write.isHandler =
    (self.grantedFor turn command).filter Write.isHandler ↔ self.RaisesClean turn command := by
  unfold writtenFor grantedFor RaisesClean
  rw [List.filter_flatMap, List.filter_flatMap,
    flatMap_eq_iff_of_sublist fun attempt _ => (self.granted_sublist attempt).filter _]
  refine forall₂_congr fun attempt _ => ?_
  rw [handlers_of_written, handlers_of_granted]
  cases self.returns turn command attempt <;> simp

theorem failures_eq : (self.writtenFor turn command).filter (fun w => !w.isHandler) =
    (self.grantedFor turn command).filter fun w => !w.isHandler := by
  unfold writtenFor grantedFor
  rw [List.filter_flatMap, List.filter_flatMap]
  exact List.flatMap_congr fun attempt _ => self.failures_of_written attempt

theorem attemptsMade_within {left first : Nat} (made : attempt ∈ self.attemptsMade turn command left first) :
    attempt ∈ List.range' first left := by
  induction left generalizing first with
  | zero => simp [attemptsMade] at made
  | succ left ih =>
    rw [List.range'_succ, List.mem_cons]
    rcases List.mem_cons.mp made with same | later
    · exact Or.inl same
    · refine Or.inr (ih ?_)
      split at later
      · simp at later
      · exact later

theorem granted_of_failed (failed : self.succeeds turn command = false)
    (made : attempt ∈ self.attemptsMade turn command self.maxAttempts 1) :
    self.granted turn command attempt = self.recorded turn command attempt := by
  have raised : self.returns turn command attempt = false := by
    by_contra returned
    have some' := List.any_eq_true.mpr ⟨attempt, self.attemptsMade_within made, by simpa using returned⟩
    unfold succeeds at failed
    rw [failed] at some'
    cases some'
  unfold granted
  rw [raised]
  rfl

theorem grantedFor_failed (failed : self.succeeds turn command = false) :
    (self.grantedFor turn command).filter Write.isHandler = [] ∧
      (self.grantedFor turn command = [] ↔ self.Unrecorded turn command) := by
  constructor
  · unfold grantedFor
    rw [List.filter_flatMap, List.flatMap_eq_nil_iff]
    intro attempt made
    rw [self.granted_of_failed failed made, recorded_failures]
  · unfold grantedFor Unrecorded
    rw [List.flatMap_eq_nil_iff]
    refine forall₂_congr fun attempt made => ?_
    rw [self.granted_of_failed failed made]

/-! ### Whole runs -/

theorem handle_session {session : Session (Write ω)} (open' : s.session = some session) (commit : turn.commit = .returns) :
    ∃ t, self.handle turn command s = (.ok (), t) ∧ t.queue.pending = s.queue.pending ∧
      t.session = some (session.batch (self.writtenFor turn command, self.succeeds turn command)) := by
  have written : (s.write (self.writtenFor turn command)).session = some (session.write (self.writtenFor turn command)) := by
    rw [WorkerState.write, open']
    rfl
  rw [handle_spec]
  cases succeeded : self.succeeds turn command with
  | false =>
    rw [if_pos rfl]
    refine ⟨_, rfl, ?_, written⟩
    dsimp only
    split <;> rfl
  | true =>
    rw [if_neg (by simp), commitIfNeeded, written, commit]
    exact ⟨_, rfl, rfl, rfl⟩

/-- What a command adds to the session, and whether a commit follows. -/
def batch (x : CommandEnvelope × Turn ω) : List (Write ω) × Bool := (self.writtenFor x.2 x.1, self.succeeds x.2 x.1)

theorem run_session {maxCommands : Option Nat} {turns : List (Turn ω)} {processed : Nat} {session : Session (Write ω)}
    (open' : s.session = some session) (commits : ∀ turn ∈ turns, turn.commit = .returns) :
    (self.run maxCommands turns processed s).2.session =
      some (Session.after ((schedule maxCommands turns processed s.queue.pending).map self.batch) session) := by
  induction turns generalizing processed s session with
  | nil => exact open'
  | cons turn turns ih =>
    have later : ∀ turn ∈ turns, turn.commit = .returns := fun turn member => commits turn (List.mem_cons_of_mem _ member)
    rcases @run_cases _ self maxCommands turn turns processed s with
      ⟨pending, ran, due⟩ | ⟨ran, due⟩ | ⟨command, rest, goes, _, due⟩
    · rw [ran, due]
      exact open'
    · rw [ran, due]
      exact ih (s := { s with queue := { s.queue with pending := [] } }) open' later
    · obtain ⟨t, handled, pending, batched⟩ := @handle_session _ self turn command { s with queue := taken s.queue command rest } _ open' (commits turn (List.mem_cons_self ..))
      rw [goes t handled, ih batched later, due, pending]
      rfl

theorem mem_open {consumed : List (CommandEnvelope × Turn ω)} {x : CommandEnvelope × Turn ω}
    (member : x ∈ consumed.rtakeWhile fun x => !self.succeeds x.2 x.1) : self.succeeds x.2 x.1 = false := by
  simpa using List.mem_rtakeWhile_imp member

/-- When every commit returns, exactly the writes of the successful attempts and
the failure records are durable if and only if, up to the last command that
succeeds, no attempt raises after it wrote something, and from there on no
failure record is saved. For the handlers' writes the first condition is all. -/
theorem committed_iff (maxCommands : Option Nat) (turns : List (Turn ω)) (queue : InMemoryCommandQueue)
    (base : List (Write ω)) (commits : ∀ turn ∈ turns, turn.commit = .returns) :
    let consumed := schedule maxCommands turns 0 queue.pending
    let upToLast := consumed.rdropWhile fun x => !self.succeeds x.2 x.1
    let afterLast := consumed.rtakeWhile fun x => !self.succeeds x.2 x.1
    let due := consumed.flatMap fun x => self.grantedFor x.2 x.1
    ∃ session, (self.run maxCommands turns 0 { queue, session := some { committed := base } }).2.session = some session ∧
      (session.committed = base ++ due ↔ (∀ x ∈ upToLast, self.RaisesClean x.2 x.1) ∧
        ∀ x ∈ afterLast, self.Unrecorded x.2 x.1) ∧
      (session.committed.filter Write.isHandler = (base ++ due).filter Write.isHandler ↔
        ∀ x ∈ upToLast, self.RaisesClean x.2 x.1) := by
  intro consumed upToLast afterLast due
  refine ⟨_, self.run_session rfl commits, ?_⟩
  have committed : (Session.after (consumed.map self.batch) { committed := base }).committed =
      base ++ upToLast.flatMap fun x => self.writtenFor x.2 x.1 := by
    rw [Session.after_eq]
    simp only [List.rdropWhile, ← List.map_reverse, List.dropWhile_map, List.flatMap_map]
    rfl
  have split : due = (upToLast.flatMap fun x => self.grantedFor x.2 x.1) ++
      afterLast.flatMap fun x => self.grantedFor x.2 x.1 := by
    have parts : upToLast ++ afterLast = consumed := List.rdropWhile_append_rtakeWhile
    rw [← List.flatMap_append, parts]
  have clean : (upToLast.flatMap fun x => self.writtenFor x.2 x.1) = (upToLast.flatMap fun x => self.grantedFor x.2 x.1) ↔
      ∀ x ∈ upToLast, self.RaisesClean x.2 x.1 := by
    rw [flatMap_eq_iff_of_sublist fun x _ => self.grantedFor_sublist]
    exact forall₂_congr fun x _ => self.writtenFor_eq_iff
  have recordless : (afterLast.flatMap fun x => self.grantedFor x.2 x.1) = [] ↔ ∀ x ∈ afterLast, self.Unrecorded x.2 x.1 := by
    rw [List.flatMap_eq_nil_iff]
    exact forall₂_congr fun x member => (self.grantedFor_failed (self.mem_open member)).2
  dsimp only [consumed] at committed
  rw [committed, split, List.append_cancel_left_eq, ← clean, ← recordless]
  constructor
  · constructor
    · intro same
      -- the failure records agree before the last success, so none is left after it
      have failures := congrArg (List.filter fun w : Write ω => !w.isHandler) same
      simp only [List.filter_append, List.filter_flatMap, failures_eq] at failures
      have records : (afterLast.flatMap fun x => (self.grantedFor x.2 x.1).filter fun w => !w.isHandler) = [] := by
        simpa using failures
      have none : (afterLast.flatMap fun x => self.grantedFor x.2 x.1) = [] := by
        rw [List.flatMap_eq_nil_iff] at records ⊢
        intro x member
        have handlers := (self.grantedFor_failed (self.mem_open member)).1
        have others := records x member
        rw [List.filter_eq_nil_iff] at handlers others
        rw [List.eq_nil_iff_forall_not_mem]
        intro w listed
        cases kind : w.isHandler with
        | true => exact handlers w listed kind
        | false => exact others w listed (by rw [kind]; rfl)
      rw [none, List.append_nil] at same
      exact ⟨same, none⟩
    · rintro ⟨same, none⟩
      rw [same, none, List.append_nil]
  · have silent : (afterLast.flatMap fun x => self.grantedFor x.2 x.1).filter Write.isHandler = [] := by
      rw [List.filter_flatMap, List.flatMap_eq_nil_iff]
      exact fun x member => (self.grantedFor_failed (self.mem_open member)).1
    rw [List.filter_append, List.filter_append, List.filter_append, silent, List.append_nil, List.append_cancel_left_eq,
      clean, List.filter_flatMap, List.filter_flatMap,
      flatMap_eq_iff_of_sublist fun x _ => self.grantedFor_sublist.filter _]
    exact forall₂_congr fun x _ => self.handlers_eq_iff

/-- A handler that writes and returns: its write is committed. -/
theorem committed_iff_steady :
    let self : WorkerLoop := { registered := [.runWorkItem] }
    let command : CommandEnvelope := { commandId := .v5 "command", commandType := .runWorkItem, correlationId := .v5 "correlation" }
    let turn : Turn Nat := { attempts := fun _ => { writes := [1] } }
    ∃ session, (self.run (some 1) [turn] 0 { queue := { pending := [command] }, session := some {} }).2.session =
      some session ∧ session.committed = [.handler 1] := by
  intro self command turn
  obtain ⟨session, isSession, exact', _⟩ :=
    self.committed_iff (some 1) [turn] { pending := [command] } [] (by simp [turn])
  have only : schedule (some 1) [turn] 0 [command] = [(command, turn)] := rfl
  have succeeded : self.succeeds turn command = true := by decide
  simp only [only, List.rdropWhile_singleton, succeeded, Bool.not_true, Bool.false_eq_true, if_false] at exact'
  refine ⟨session, isSession, exact'.mpr ⟨?_, by simp [List.rtakeWhile, succeeded]⟩⟩
  intro x member attempt made raised
  rw [List.mem_singleton.mp member] at made raised ⊢
  rw [show attempt = 1 by simpa [attemptsMade, self, returns, dispatch, command, turn] using made] at raised
  cases raised

/-- The first attempt writes and raises, the second one returns. -/
def flaky : Turn Nat where
  attempts n := if n = 1 then { writes := [1], raises := some ⟨"RuntimeError", "boom"⟩ } else { writes := [2] }

/-- The write of the attempt that raised is committed with the retry. -/
theorem raised_write_committed :
    let self : WorkerLoop := { registered := [.runWorkItem] }
    let command : CommandEnvelope := { commandId := .v5 "command", commandType := .runWorkItem, correlationId := .v5 "correlation" }
    let failure : Write Nat := .failure (commandFailure command 1 ⟨"RuntimeError", "boom"⟩)
    (self.run (some 1) [flaky] 0 { queue := { pending := [command] } }).2.session.map Session.committed =
        some [.handler 1, failure, .handler 2] ∧
      self.grantedFor flaky command = [failure, .handler 2] := by
  decide

end WorkerLoop
end Brain
