import Mathlib.Algebra.Order.Field.Rat
import Mathlib.Data.List.Induction
import Mathlib.Tactic.Linarith
import Brain.Domain.Entities

namespace Brain

inductive IdentityRole
  | human | service | webhook | executor | admin
  deriving DecidableEq

structure Identity where
  name : String
  role : IdentityRole
  keyId : Option Uuid := none
  deriving DecidableEq

/-- `limit` requests per `windowSeconds`. -/
structure RateLimitRule where
  limit : Nat
  windowSeconds : Nat

def defaultRules : List (String × RateLimitRule) :=
  [("project_analysis", ⟨10, 60⟩), ("context_build", ⟨20, 60⟩), ("execution", ⟨10, 60⟩), ("verification", ⟨10, 60⟩)]

structure RateLimiter where
  rules : List (String × RateLimitRule)
  buckets : String × String → List ℚ := fun _ => []

/-- A call of `check`, with what `time.monotonic` shows. -/
structure RateCall where
  identity : Identity
  operation : String
  now : ℚ

/-- The key of the buckets. -/
def RateCall.key (call : RateCall) : String × String := (call.identity.name, call.operation)

namespace RateLimiter

/-- No rules, or none at all, stand for the default ones. -/
def make (rules : Option (List (String × RateLimitRule)) := none) : RateLimiter where
  rules := if rules.getD [] = [] then defaultRules else rules.getD []

variable (limiter : RateLimiter) (call : RateCall)

/-- The accepted calls that still count. -/
def hits (rule : RateLimitRule) : List ℚ := (limiter.buckets call.key).filter (call.now - rule.windowSeconds < ·)

/-- `check`: the text of `RateLimitExceeded`, or nothing. -/
def check : Option String × RateLimiter :=
  match limiter.rules.lookup call.operation with
  | none => (none, limiter)
  | some rule =>
    if rule.limit ≤ (limiter.hits call rule).length then
      (some ("rate limit exceeded for '" ++ call.operation ++ "' (" ++ toString rule.limit ++ "/" ++
        toString rule.windowSeconds ++ "s)"), limiter)
    else (none, { limiter with buckets := Function.update limiter.buckets call.key (limiter.hits call rule ++ [call.now]) })

def count (identity : Identity) (operation : String) : Nat := (limiter.buckets (identity.name, operation)).length

/-- Each call with whether it is accepted. -/
def decisions (limiter : RateLimiter) : List RateCall → List (RateCall × Bool)
  | [] => []
  | call :: calls => (call, (limiter.check call).1.isNone) :: decisions (limiter.check call).2 calls

def after (calls : List RateCall) : RateLimiter := calls.foldl (fun limiter call => (limiter.check call).2) limiter

/-! ### Windows -/

section Windows
variable {κ : Type} [DecidableEq κ] (key : RateCall → κ)

/-- The times of the accepted calls of a key. -/
def accepted (k : κ) (decided : List (RateCall × Bool)) : List ℚ :=
  (decided.filter fun d => d.2 && key d.1 = k).map fun d => d.1.now

/-- Those within `(t - w, t]`. -/
def acceptedWithin (k : κ) (w t : ℚ) (decided : List (RateCall × Bool)) : List ℚ :=
  (accepted key k decided).filter fun time => t - w < time ∧ time ≤ t

/-- At most `limit` calls of a key are accepted within any window, a call is
rejected only after that many, and neither a rejected call nor one of another key changes
what becomes of others. -/
structure LimitsWindows (limiter : RateLimiter) (calls : List RateCall) : Prop where
  bounded : ∀ call ∈ calls, ∀ rule, limiter.rules.lookup call.operation = some rule → ∀ t,
    (acceptedWithin key (key call) rule.windowSeconds t (limiter.decisions calls)).length ≤ rule.limit
  justified : ∀ before call later, calls = before ++ call :: later → ((limiter.after before).check call).1 ≠ none →
    ∃ rule, limiter.rules.lookup call.operation = some rule ∧
      rule.limit ≤ (acceptedWithin key (key call) rule.windowSeconds call.now (limiter.decisions before)).length
  silent : ∀ before call later, calls = before ++ call :: later → ((limiter.after before).check call).1 ≠ none →
    limiter.after (before ++ [call]) = limiter.after before ∧
      limiter.decisions calls = limiter.decisions before ++ (call, false) :: (limiter.after before).decisions later
  separate : ∀ k, (limiter.decisions calls).filter (fun d => key d.1 = k) =
    limiter.decisions (calls.filter fun call => key call = k)

end Windows

variable {limiter call} {calls : List RateCall}

theorem check_rules : (limiter.check call).2.rules = limiter.rules := by
  unfold check
  split
  · rfl
  · split <;> rfl

theorem check_rejected (rejected : (limiter.check call).1 ≠ none) : (limiter.check call).2 = limiter := by
  unfold check at rejected ⊢
  split
  · rfl
  · split
    · rfl
    · rename_i found few
      simp [found, few] at rejected

variable {k : String × String}

theorem check_bucket_other (other : k ≠ call.key) : (limiter.check call).2.buckets k = limiter.buckets k := by
  unfold check
  split
  · rfl
  · split
    · rfl
    · exact Function.update_of_ne other _ _

variable {rule : RateLimitRule}

theorem check_eq_of_rule (found : limiter.rules.lookup call.operation = some rule) :
    (limiter.check call).1.isNone = decide ((limiter.hits call rule).length < rule.limit) ∧
      ((limiter.check call).1 = none → (limiter.check call).2.buckets call.key = limiter.hits call rule ++ [call.now]) := by
  unfold check
  rw [found]
  dsimp only
  by_cases full : rule.limit ≤ (limiter.hits call rule).length
  · rw [if_pos full]
    exact ⟨by simp [full], fun accepted => nomatch accepted⟩
  · rw [if_neg full]
    exact ⟨by simp only [Option.isNone_none]; exact (decide_eq_true (by omega)).symm, fun _ => Function.update_self ..⟩

theorem decisions_append (before later : List RateCall) :
    limiter.decisions (before ++ later) = limiter.decisions before ++ (limiter.after before).decisions later := by
  induction before generalizing limiter with
  | nil => rfl
  | cons call before ih =>
    rw [List.cons_append, decisions, decisions, ih]
    rfl

theorem mem_of_mem_decisions {d : RateCall × Bool} (member : d ∈ limiter.decisions calls) : d.1 ∈ calls := by
  induction calls generalizing limiter with
  | nil => cases member
  | cons call calls ih =>
    rcases List.mem_cons.mp member with rfl | member
    · exact List.mem_cons_self ..
    · exact List.mem_cons_of_mem _ (ih member)

theorem after_append (before later : List RateCall) : limiter.after (before ++ later) = (limiter.after before).after later :=
  List.foldl_append

theorem after_rules : (limiter.after calls).rules = limiter.rules := by
  induction calls generalizing limiter with
  | nil => rfl
  | cons call calls ih => exact ih.trans check_rules

/-! ### What the buckets recall -/

theorem accepted_append {κ : Type} [DecidableEq κ] (key : RateCall → κ) (k : κ) (early late : List (RateCall × Bool)) :
    accepted key k (early ++ late) = accepted key k early ++ accepted key k late := by
  rw [accepted, List.filter_append, List.map_append]
  rfl

theorem accepted_singleton {κ : Type} [DecidableEq κ] (key : RateCall → κ) (k : κ) (call : RateCall) (isAccepted : Bool) :
    accepted key k [(call, isAccepted)] = if isAccepted = true ∧ key call = k then [call.now] else [] := by
  unfold accepted
  split <;> simp_all

theorem filter_filter_window {w earlier now : ℚ} (later : earlier ≤ now) (times : List ℚ) :
    (times.filter (earlier - w < ·)).filter (now - w < ·) = times.filter (now - w < ·) := by
  rw [List.filter_filter]
  refine List.filter_congr fun time _ => ?_
  by_cases recent : now - w < time
  · have still : earlier - w < time := by linarith
    simp [recent, still]
  · simp [recent]

theorem buckets_recall (empty : ∀ k, limiter.buckets k = []) (ordered : calls.Pairwise fun c c' => c.now ≤ c'.now)
    (found : limiter.rules.lookup k.2 = some rule) {now : ℚ}
    (last : ∀ call ∈ calls, call.now ≤ now) :
    ((limiter.after calls).buckets k).filter (now - rule.windowSeconds < ·) =
      (accepted RateCall.key k (limiter.decisions calls)).filter (now - rule.windowSeconds < ·) := by
  induction calls using List.reverseRecOn generalizing now with
  | nil =>
    rw [after, List.foldl_nil, empty]
    rfl
  | append_singleton calls call ih =>
    rw [List.pairwise_append] at ordered
    have before : ∀ c ∈ calls, c.now ≤ call.now := fun c member => ordered.2.2 c member call (List.mem_singleton_self _)
    have here : call.now ≤ now := last call (List.mem_append_right _ (List.mem_singleton_self _))
    have recalled := ih ordered.1 (fun c member => (before c member).trans here)
    rw [after_append, decisions_append, accepted_append, List.filter_append, ← recalled]
    show (((limiter.after calls).check call).2.buckets k).filter _ = _ ++ (accepted _ k [(call, _)]).filter _
    rw [accepted_singleton]
    by_cases same : call.key = k
    · subst same
      have foundThen : (limiter.after calls).rules.lookup call.operation = some rule := by
        rw [after_rules]
        exact found
      obtain ⟨_, bucket⟩ := check_eq_of_rule foundThen
      cases accepts : ((limiter.after calls).check call).1 with
      | none =>
        rw [bucket accepts, List.filter_append, hits, filter_filter_window here]
        simp
      | some text =>
        rw [check_rejected (by rw [accepts]; exact Option.some_ne_none _)]
        simp
    · rw [check_bucket_other (Ne.symm same), if_neg fun both => same both.2, List.filter_nil, List.append_nil]

theorem hits_after (empty : ∀ k, limiter.buckets k = []) (ordered : (calls ++ [call]).Pairwise fun c c' => c.now ≤ c'.now)
    (found : limiter.rules.lookup call.operation = some rule) :
    (limiter.after calls).hits call rule =
      (accepted RateCall.key call.key (limiter.decisions calls)).filter (call.now - rule.windowSeconds < ·) := by
  rw [List.pairwise_append] at ordered
  exact buckets_recall empty ordered.1 found fun c member => ordered.2.2 c member call (List.mem_singleton_self _)

theorem length_acceptedWithin_le (empty : ∀ k, limiter.buckets k = []) (ordered : calls.Pairwise fun c c' => c.now ≤ c'.now)
    (found : limiter.rules.lookup k.2 = some rule) (t : ℚ) :
    (acceptedWithin RateCall.key k rule.windowSeconds t (limiter.decisions calls)).length ≤ rule.limit := by
  induction calls using List.reverseRecOn with
  | nil => exact Nat.zero_le _
  | append_singleton calls call ih =>
    have recalled := ih (List.pairwise_append.mp ordered).1
    rw [decisions_append, acceptedWithin, accepted_append, List.filter_append, List.length_append]
    show _ + ((accepted _ k [(call, _)]).filter _).length ≤ _
    rw [accepted_singleton]
    by_cases counted : ((limiter.after calls).check call).1.isNone = true ∧ call.key = k
    · rw [if_pos counted]
      obtain ⟨isAccepted, rfl⟩ := counted
      have foundThen : (limiter.after calls).rules.lookup call.operation = some rule := by
        rw [after_rules]
        exact found
      rw [(check_eq_of_rule foundThen).1, decide_eq_true_eq, hits_after empty ordered found] at isAccepted
      by_cases inside : t - rule.windowSeconds < call.now ∧ call.now ≤ t
      · -- the calls of this window counted when the last one was made
        have within : (acceptedWithin RateCall.key call.key rule.windowSeconds t (limiter.decisions calls)).length ≤
            ((accepted RateCall.key call.key (limiter.decisions calls)).filter
              (call.now - rule.windowSeconds < ·)).length := by
          refine (List.monotone_filter_right _ fun time isInside => ?_).length_le
          have bounds : t - rule.windowSeconds < time ∧ time ≤ t := by simpa using isInside
          have recent : call.now - rule.windowSeconds < time := by linarith [bounds.1, inside.2]
          simpa using recent
        rw [acceptedWithin] at within
        rw [List.filter_cons_of_pos (by simpa using inside), List.filter_nil, List.length_singleton]
        omega
      · rw [List.filter_cons_of_neg (by simpa using inside), List.filter_nil]
        exact recalled
    · rw [if_neg counted, List.filter_nil]
      exact recalled

theorem decisions_filter {limiter' : RateLimiter} (sameRules : limiter.rules = limiter'.rules)
    (sameBucket : limiter.buckets k = limiter'.buckets k) :
    (limiter.decisions calls).filter (fun d => d.1.key = k) =
      limiter'.decisions (calls.filter fun call => call.key = k) := by
  induction calls generalizing limiter limiter' with
  | nil => rfl
  | cons call calls ih =>
    rw [decisions]
    by_cases own : call.key = k
    · subst own
      have same : (limiter.check call).1 = (limiter'.check call).1 ∧
          (limiter.check call).2.buckets call.key = (limiter'.check call).2.buckets call.key := by
        unfold check hits
        rw [sameRules, sameBucket]
        split
        · exact ⟨rfl, sameBucket⟩
        · split
          · exact ⟨rfl, sameBucket⟩
          · exact ⟨rfl, by simp⟩
      rw [List.filter_cons_of_pos (by simp), List.filter_cons_of_pos (by simp), decisions, same.1]
      rw [ih (check_rules.trans (sameRules.trans check_rules.symm)) same.2]
    · rw [List.filter_cons_of_neg (by simpa using own), List.filter_cons_of_neg (by simpa using own)]
      exact ih (check_rules.trans sameRules) ((check_bucket_other (Ne.symm own)).trans sameBucket)

/-- A limiter limits the windows of each name and operation. -/
theorem make_limitsWindows (rules : Option (List (String × RateLimitRule))) (calls : List RateCall)
    (ordered : calls.Pairwise fun c c' => c.now ≤ c'.now) : LimitsWindows RateCall.key (make rules) calls where
  bounded call _ rule found t := length_acceptedWithin_le (fun _ => rfl) ordered found t
  justified before call later split rejected := by
    have orderedHere : (before ++ [call]).Pairwise fun c c' => c.now ≤ c'.now := by
      rw [split, List.append_cons] at ordered
      exact (List.pairwise_append.mp ordered).1
    cases found : (make rules).rules.lookup call.operation with
    | none =>
      have foundThen : ((make rules).after before).rules.lookup call.operation = none := by rw [after_rules, found]
      rw [check, foundThen] at rejected
      exact absurd rfl rejected
    | some rule =>
      refine ⟨rule, rfl, ?_⟩
      have foundThen : ((make rules).after before).rules.lookup call.operation = some rule := by rw [after_rules, found]
      have full : ¬ (((make rules).after before).check call).1.isNone = true := by simpa using rejected
      rw [(check_eq_of_rule foundThen).1, decide_eq_true_eq, hits_after (fun _ => rfl) orderedHere found, not_lt] at full
      refine full.trans (le_of_eq (congrArg List.length (List.filter_congr fun time member => ?_)))
      obtain ⟨d, listed, rfl⟩ := List.mem_map.mp member
      have early : d.1.now ≤ call.now := by
        rw [List.pairwise_append] at orderedHere
        have isBefore := mem_of_mem_decisions (List.mem_of_mem_filter listed)
        exact orderedHere.2.2 d.1 isBefore call (List.mem_singleton_self _)
      simp [early]
  silent before call later split rejected := by
    have same := check_rejected rejected
    refine ⟨by rw [after_append]; exact same, ?_⟩
    have isRejected : (((make rules).after before).check call).1.isNone = false :=
      Bool.eq_false_iff.mpr fun isNone => rejected (Option.isNone_iff_eq_none.mp isNone)
    rw [split, decisions_append, decisions, same, isRejected]
  separate k := decisions_filter rfl rfl

/-- Two callers of one name. -/
def callers : List RateCall :=
  [{ identity := { name := "ci", role := .service }, operation := "execution", now := 0 },
    { identity := { name := "ci", role := .admin }, operation := "execution", now := 1 }]

theorem callers_limited : LimitsWindows RateCall.key (make (some [("execution", ⟨1, 60⟩)])) callers :=
  make_limitsWindows _ callers (by decide)

/-- The second caller is rejected for the call of the first. -/
theorem shared_by_name : ¬ ∀ (rules : Option (List (String × RateLimitRule))) (calls : List RateCall),
    calls.Pairwise (fun c c' => c.now ≤ c'.now) →
      LimitsWindows (fun call => (call.identity, call.operation)) (make rules) calls := by
  intro limits
  have separate := (limits (some [("execution", ⟨1, 60⟩)]) callers (by decide)).separate
    ({ name := "ci", role := .admin }, "execution")
  have first := congrArg (List.map Prod.snd) separate
  exact absurd first (by decide +kernel)

end RateLimiter

end Brain
