import Mathlib.Data.List.DropRight

/-- A store under a transaction: what was committed, and what waits for the next commit. -/
structure Session (ω : Type) where
  committed : List ω := []
  buffer : List ω := []

namespace Session
variable {ω : Type} (s : Session ω)

def write (ws : List ω) : Session ω := { s with buffer := s.buffer ++ ws }

def commit : Session ω := { committed := s.committed ++ s.buffer, buffer := [] }

def rollback : Session ω := { s with buffer := [] }

@[simp] theorem write_nil : s.write [] = s := by simp [write]

theorem write_write (ws ws' : List ω) : (s.write ws).write ws' = s.write (ws ++ ws') := by
  simp [write]

/-- A batch of writes, and whether a commit follows it. -/
def batch (s : Session ω) (b : List ω × Bool) : Session ω := if b.2 then (s.write b.1).commit else s.write b.1

def after (batches : List (List ω × Bool)) (s : Session ω) : Session ω := batches.foldl batch s

/-- A commit also commits what the batches before it left in the buffer. -/
theorem after_eq (batches : List (List ω × Bool)) (base : List ω) : after batches { committed := base } =
    { committed := base ++ (batches.rdropWhile fun b => !b.2).flatMap Prod.fst
      buffer := (batches.rtakeWhile fun b => !b.2).flatMap Prod.fst } := by
  induction batches using List.reverseRecOn with
  | nil => simp [after]
  | append_singleton batches b ih =>
    have split : (batches.rdropWhile fun b => !b.2) ++ (batches.rtakeWhile fun b => !b.2) = batches :=
      List.rdropWhile_append_rtakeWhile
    unfold after at ih ⊢
    rw [List.foldl_append, ih]
    obtain ⟨ws, commits⟩ := b
    cases commits with
    | true =>
      have all : (batches.rdropWhile fun b => !b.2).flatMap Prod.fst ++
          (batches.rtakeWhile fun b => !b.2).flatMap Prod.fst = batches.flatMap Prod.fst := by
        rw [← List.flatMap_append, split]
      simp [batch, write, commit, ← all]
    | false => simp [batch, write]

end Session
