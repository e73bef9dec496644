import Mathlib.Data.List.Dedup

namespace Supersteps

/-- A graph of nodes that read a common state and return it rewritten. `run` also
moves the world the nodes act on, `next` gives the targets of all edges of a node
that fire after it returned a state. -/
structure Graph (ν σ ω : Type) where
  run : ν → σ → ω → σ × ω
  next : ν → σ → List ν

/-- `ran` lists the nodes that were run so far. -/
structure Config (ν σ ω : Type) where
  active : List ν
  state : σ
  world : ω
  ran : List ν := []

namespace Graph
variable {ν σ ω : Type} [DecidableEq ν] (graph : Graph ν σ ω)

def runAll (state : σ) : List ν → ω → List (ν × σ) × ω
  | [], world => ([], world)
  | node :: nodes, world =>
    let (returned, world) := graph.run node state world
    let (outs, world) := runAll state nodes world
    ((node, returned) :: outs, world)

/-- All active nodes run, the last write to the state stays, and each target of a
fired edge is active once. -/
def superstep (c : Config ν σ ω) : Config ν σ ω :=
  let (outs, world) := graph.runAll c.state c.active c.world
  { active := (outs.flatMap fun out => graph.next out.1 out.2).dedup
    state := (outs.getLast?.map Prod.snd).getD c.state
    world
    ran := c.ran ++ c.active }

def after : Nat → Config ν σ ω → Config ν σ ω
  | 0, c => c
  | n + 1, c => after n (graph.superstep c)

theorem after_add (m n : Nat) (c : Config ν σ ω) : graph.after (m + n) c = graph.after n (graph.after m c) := by
  induction m generalizing c with
  | zero => rw [Nat.zero_add]; rfl
  | succ m ih => rw [Nat.succ_add]; exact ih _

/-- What every superstep keeps holds after any number of them. -/
theorem after_of_kept {I : Config ν σ ω → Prop} (kept : ∀ c, I c → I (graph.superstep c)) {c : Config ν σ ω}
    (start : I c) (n : Nat) : I (graph.after n c) := by
  induction n generalizing c with
  | zero => exact start
  | succ n ih => exact ih (kept c start)

/-- A superstep with one active node. -/
theorem superstep_single {node : ν} {state : σ} {world : ω} {ran : List ν} :
    graph.superstep { active := [node], state, world, ran } =
      { active := (graph.next node (graph.run node state world).1).dedup
        state := (graph.run node state world).1
        world := (graph.run node state world).2
        ran := ran ++ [node] } := by
  simp [superstep, runAll]

/-- A superstep with one active node, from which one edge fires. -/
theorem superstep_edge {node following : ν} {state : σ} {world : ω} {ran : List ν}
    (edge : graph.next node (graph.run node state world).1 = [following]) :
    graph.superstep { active := [node], state, world, ran } =
      { active := [following]
        state := (graph.run node state world).1
        world := (graph.run node state world).2
        ran := ran ++ [node] } := by
  rw [superstep_single, edge, (List.nodup_singleton following).dedup]

/-- Once no node is active, nothing happens any more. -/
theorem superstep_idle {state : σ} {world : ω} {ran : List ν} :
    graph.superstep { active := [], state, world, ran } = { active := [], state, world, ran } := by
  simp [superstep, runAll]

end Graph

end Supersteps
