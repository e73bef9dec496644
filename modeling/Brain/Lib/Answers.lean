import Mathlib.Data.List.Forall2

/-! ### Two services under the same calls -/

section Services
variable {κ π σ τ α ε : Type}

/-- What a service without failures answers to calls in turn. -/
def replies (reference : κ → σ → α × σ) : List κ → σ → List α
  | [], _ => []
  | call :: rest, s => (reference call s).1 :: replies reference rest (reference call s).2

/-- What a service that may fail answers to calls in turn, with a choice for each. -/
def served (serve : π → κ → τ → Except ε (α × τ)) : List (κ × π) → τ → Except ε (List α)
  | [], _ => .ok []
  | (call, choice) :: rest, t => do
    let (answer, next) ← serve choice call t
    return answer :: (← served serve rest next)

def AllAllowed (reference : κ → σ → α × σ) (allowed : σ → κ → Prop) : List κ → σ → Prop
  | [], _ => True
  | call :: rest, s => allowed s call ∧ AllAllowed reference allowed rest (reference call s).2

/-- One service answers the calls like the other, whatever it may choose. -/
def AnswersLike (reference : κ → σ → α × σ) (serve : π → κ → τ → Except ε (α × τ)) (agree : α → α → Prop)
    (calls : List κ) (s : σ) (t : τ) : Prop :=
  ∀ choices : List π, choices.length = calls.length →
    ∃ answers, served serve (calls.zip choices) t = .ok answers ∧
      List.Forall₂ agree (replies reference calls s) answers

variable {reference : κ → σ → α × σ} {serve : π → κ → τ → Except ε (α × τ)} {agree : α → α → Prop}
  {allowed : σ → κ → Prop} {R : σ → τ → Prop}

theorem served_cons {call : κ} {choice : π} {rest : List (κ × π)} {t : τ} {answers : List α} :
    served serve ((call, choice) :: rest) t = .ok answers ↔ ∃ answer next later,
      serve choice call t = .ok (answer, next) ∧ served serve rest next = .ok later ∧ answers = answer :: later := by
  rw [served]
  cases first : serve choice call t with
  | error raised => simp [bind, Except.bind]
  | ok result =>
    obtain ⟨answer, next⟩ := result
    cases others : served serve rest next with
    | error raised => simp [bind, Except.bind, others]
    | ok later => simp [bind, Except.bind, others, pure, Except.pure, eq_comm]

/-- A step that relates the states and the answers of allowed calls, and of these
only, decides runs: the services answer alike where every call is allowed. -/
theorem answersLike_iff [Nonempty π]
    (step : ∀ s t call choice, R s t → allowed s call → ∃ answer next,
      serve choice call t = .ok (answer, next) ∧ agree (reference call s).1 answer ∧ R (reference call s).2 next)
    (exact : ∀ s t call, R s t → (∀ choice, ∃ answer next,
      serve choice call t = .ok (answer, next) ∧ agree (reference call s).1 answer) → allowed s call)
    {calls : List κ} {s : σ} {t : τ} (related : R s t) :
    AnswersLike reference serve agree calls s t ↔ AllAllowed reference allowed calls s := by
  induction calls generalizing s t with
  | nil =>
    refine ⟨fun _ => trivial, fun _ choices _ => ⟨[], ?_, List.Forall₂.nil⟩⟩
    rw [List.zip_nil_left, served]
  | cons call rest ih =>
    constructor
    · intro alike
      have first : ∀ choice choices, choices.length = rest.length → ∃ answer next later,
          serve choice call t = .ok (answer, next) ∧ agree (reference call s).1 answer ∧
          served serve (rest.zip choices) next = .ok later ∧
          List.Forall₂ agree (replies reference rest (reference call s).2) later := by
        intro choice choices length
        obtain ⟨answers, run, agrees⟩ := alike (choice :: choices) (congrArg Nat.succ length)
        obtain ⟨answer, next, later, now, others, rfl⟩ := served_cons.mp run
        obtain ⟨head, tail⟩ := List.forall₂_cons.mp agrees
        exact ⟨answer, next, later, now, head, others, tail⟩
      have other := Classical.arbitrary π
      have here : allowed s call := by
        refine exact s t call related fun choice => ?_
        obtain ⟨answer, next, _, now, head, _⟩ := first choice (List.replicate rest.length other) (by simp)
        exact ⟨answer, next, now, head⟩
      obtain ⟨answer, next, now, _, kept⟩ := step s t call other related here
      refine ⟨here, (ih kept).mp fun choices length => ?_⟩
      obtain ⟨answer', next', later, now', _, others, tail⟩ := first other choices length
      rw [now] at now'
      cases now'
      exact ⟨later, others, tail⟩
    · rintro ⟨here, others⟩ choices length
      cases choices with
      | nil => cases length
      | cons choice choices =>
        obtain ⟨answer, next, now, head, kept⟩ := step s t call choice related here
        obtain ⟨later, run, tail⟩ := (ih kept).mpr others choices (Nat.succ.inj length)
        exact ⟨answer :: later, served_cons.mpr ⟨answer, next, later, now, run, rfl⟩, List.Forall₂.cons head tail⟩

end Services
