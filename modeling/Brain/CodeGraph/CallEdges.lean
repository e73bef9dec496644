import Brain.CodeGraph.Definitions
import Brain.Lib.Matching

namespace Brain
open LastWriter Matching

/-! ### What names denote -/

namespace Ast

def Expr.names : Expr → Option (List String)
  | .name id => some [id.text]
  | .attribute value attr => value.names.map (· ++ [attr.text])
  | _ => none

/-- What a module binds beyond what its imports and definitions tell. -/
structure Scopes where
  /-- The names that the scopes around a call bind below the module: parameters
  and locals of its function and of what is nested in that, by the number of the
  function in the text and the number of the call in its body. -/
  around : Nat → Nat → List Identifier
  /-- The names that a statement binds or deletes as a whole, where it is no
  definition, or that it imports with all names of a module. -/
  others : Nat → List Identifier
  /-- The names that a class gives another value behind its functions. -/
  rebound : Nat → List Identifier

structure Binding where
  name : String
  kind : Option SymbolKind := none
  methods : List String := []

/-- `import a.b` binds `a`. -/
def Stmt.bindings (others rebound : List Identifier) : Stmt → List Binding
  | .import names _ => names.map fun entry => { name := (entry.asname.getD entry.name.first).text, kind := some .import }
  | .importFrom _ names _ _ => names.flatMap fun
    | .star => others.map fun id => { name := id.text }
    | .name name asname => [{ name := (asname.getD name).text, kind := some .import }]
  | .classDef node =>
    [{ name := node.name.text, kind := some .class
       methods := (node.functions.map (·.name.text)).filter (· ∉ rebound.map (·.text)) }]
  | .functionDef node => [{ name := node.name.text, kind := some .function }]
  | .other => others.map fun id => { name := id.text }

def Module.bindings (scopes : Scopes) (tree : Module) : List Binding :=
  tree.body.zipIdx.flatMap fun (stmt, i) => stmt.bindings (scopes.others i) (scopes.rebound i)

/-- The kind of the symbol that names denote at the level of the module: a name
by its last binding, a method by that of its class. -/
def Module.denoted (scopes : Scopes) (tree : Module) : List String → Option SymbolKind
  | [name] => (last Binding.name (tree.bindings scopes) name).bind (·.kind)
  | [owner, method] => (last Binding.name (tree.bindings scopes) owner).bind fun binding =>
    if method ∈ binding.methods then some .method else none
  | _ => none

/-- A call in the body of a function or method, with the names that are bound around it. -/
structure Call where
  caller : Definition
  func : Expr
  bound : List Identifier

def Module.calls (module : String) (scopes : Scopes) (tree : Module) : List Call :=
  ((tree.definitions module).filter fun d => isFunctionOrMethod d.kind).zipIdx.flatMap fun (d, k) =>
    d.calls.zipIdx.map fun (func, i) => ⟨d, func, scopes.around k i⟩

/-- The callee is a name or a chain from a name that nothing around the call
binds, and these names denote a symbol of this kind. -/
structure Call.Denotes (call : Call) (scopes : Scopes) (tree : Module) (names : List String) (kind : SymbolKind) : Prop where
  isChain : call.func.names = some names
  unbound : ∀ id ∈ call.bound, names.head? ≠ some id.text
  denoted : tree.denoted scopes names = some kind

end Ast

theorem calleeName_names {func : Ast.Expr} {names : List String} (isChain : func.names = some names) :
    calleeName func = some (".".intercalate names) := by
  have parts : ∀ (e : Ast.Expr) names, e.names = some names → attrParts e = names := by
    intro e
    induction e with
    | name id =>
      intro names isChain
      exact Option.some.inj isChain
    | «attribute» value attr ih =>
      intro names isChain
      obtain ⟨before, isBefore, rfl⟩ := Option.map_eq_some_iff.mp isChain
      rw [attrParts, ih before isBefore]
    | _ =>
      intro names isChain
      cases isChain
  cases func with
  | name id =>
    obtain rfl := Option.some.inj isChain
    exact congrArg some String.intercalate_singleton.symm
  | «attribute» value attr => exact congrArg (fun names => some (".".intercalate names)) (parts _ names isChain)
  | _ => cases isChain

namespace FileContext
variable {file : FileContext} {scopes : Ast.Scopes} {tree : Ast.Module}

/-- The relation between these symbols is that of the call: it comes from the
caller and leads to what the callee denotes. -/
def RelationOf (file : FileContext) (scopes : Ast.Scopes) (tree : Ast.Module) (ends : SymbolIdentity × SymbolIdentity)
    (call : Ast.Call) : Prop :=
  ends.1 = file.definitionIdentity call.caller ∧ ∃ names kind, call.Denotes scopes tree names kind ∧
    ends.2 = file.identity (file.qualified (".".intercalate names)) kind

/-- For each call that the builder lists the text has a call of its own, by
names that denote the target. -/
def SoundCalls (file : FileContext) (scopes : Ast.Scopes) (tree : Ast.Module) : Prop :=
  Matched (file.RelationOf scopes tree)
    (((file.build tree).relations.filter fun relation => relation.relationType = .calls).map fun relation =>
      (relation.sourceIdentity, relation.targetIdentity))
    (tree.calls file.module scopes)

theorem build_calls_eq : ((file.build tree).relations.filter fun relation => relation.relationType = .calls).map
    (fun relation => (relation.sourceIdentity, relation.targetIdentity)) =
      (tree.calls file.module scopes).filterMap fun call => file.callEnds tree call.caller call.func := by
  rw [build_calls, Ast.Module.calls, List.filterMap_flatMap]
  conv_lhs => rw [← List.zipIdx_map_fst 0 ((tree.definitions file.module).filter _), List.flatMap_map]
  refine List.flatMap_congr fun entry _ => ?_
  rw [List.filterMap_map]
  conv_lhs => rw [← List.zipIdx_map_fst 0 entry.1.calls, List.filterMap_map]
  rfl

theorem callEnds_eq_some {caller : Ast.Definition} {func : Ast.Expr} {ends : SymbolIdentity × SymbolIdentity} :
    file.callEnds tree caller func = some ends ↔ ∃ name d, calleeName func = some name ∧
      last Ast.Definition.qualifiedName (tree.definitions file.module) (file.qualified name) = some d ∧
        (file.definitionIdentity caller, file.definitionIdentity d) = ends := by
  simp [callEnds, Option.bind_eq_some_iff, Option.map_eq_some_iff]

/-- The calls of a file are sound exactly when each callee whose dotted name is
that of a definition starts from a name that nothing around the call binds, and
denotes the last definition of that name. The dotted name of a callee leaves out
what it starts from where that is not a name. -/
theorem soundCalls_iff (file : FileContext) (scopes : Ast.Scopes) (tree : Ast.Module) :
    file.SoundCalls scopes tree ↔
      ∀ call ∈ tree.calls file.module scopes, ∀ name d, calleeName call.func = some name →
        last Ast.Definition.qualifiedName (tree.definitions file.module) (file.qualified name) = some d →
          ∃ names, call.Denotes scopes tree names d.kind := by
  unfold SoundCalls
  rw [@build_calls_eq file scopes tree, matched_iff]
  · refine forall₂_congr fun call _ => ?_
    constructor
    · intro sound name d isName isLast
      obtain ⟨_, names, kind, denotes, isTarget⟩ := sound _ (callEnds_eq_some.mpr ⟨name, d, isName, isLast, rfl⟩)
      have sameKind : d.kind = kind := congrArg SymbolIdentity.kind isTarget
      exact ⟨names, sameKind ▸ denotes⟩
    · intro denoted ends made
      obtain ⟨name, d, isName, isLast, rfl⟩ := callEnds_eq_some.mp made
      obtain ⟨names, denotes⟩ := denoted name d isName isLast
      refine ⟨rfl, names, d.kind, denotes, ?_⟩
      have spelled : name = ".".intercalate names :=
        Option.some.inj (isName.symm.trans (calleeName_names denotes.isChain))
      rw [← spelled, ← (last_eq_some isLast).2]
      rfl
  · intro ends made call _ isOf
    obtain ⟨other, _, made⟩ := List.mem_filterMap.mp made
    obtain ⟨name, d, _, isLast, rfl⟩ := callEnds_eq_some.mp made
    obtain ⟨isCaller, names, kind, denotes, isTarget⟩ := isOf
    have qualified : file.qualified name = file.qualified (".".intercalate names) := by
      rw [← (last_eq_some isLast).2]
      exact congrArg SymbolIdentity.qualifiedName isTarget
    rw [qualified] at isLast
    refine callEnds_eq_some.mpr ⟨_, d, calleeName_names denotes.isChain, isLast, ?_⟩
    rw [show file.definitionIdentity other.caller = file.definitionIdentity call.caller from isCaller]

/-! A method call on the result of another call -/

def sName : Identifier := ⟨"s", by decide, Identifier.plain_of_all rfl⟩

def xName : Identifier := ⟨"x", by decide, Identifier.plain_of_all rfl⟩

/-- `def s(): ...` and `def x(x): x().s()`. -/
def resultModule : Ast.Module where
  body := [.functionDef { name := sName },
    .functionDef { name := xName, args := ["x"], calls := [.attribute (.call (.name xName)) sName, .name xName] }]

/-- The parameter is bound around the calls. -/
def resultScopes : Ast.Scopes where
  around _ _ := [xName]
  others _ := []
  rebound _ := []

def resultFile : FileContext := ⟨.v5 "repository", "r1", "m.py", "m"⟩

/-- Both calls are listed, and neither is of what it is listed for. -/
theorem result_call_listed :
    ((resultFile.build resultModule).relations.map fun relation => (relation.relationType, relation.targetIdentity.qualifiedName)) =
        [(.calls, "m.s"), (.calls, "m.x")] ∧
      ¬ resultFile.SoundCalls resultScopes resultModule := by
  refine ⟨by decide, ?_⟩
  rintro ⟨chosen, within, all⟩
  have calls : ∀ call ∈ resultModule.calls resultFile.module resultScopes,
      call.func = .attribute (.call (.name xName)) sName ∨ call.func = .name xName ∧ xName ∈ call.bound := by
    decide
  have nothing : ∀ call ∈ resultModule.calls resultFile.module resultScopes, ∀ names kind,
      ¬ call.Denotes resultScopes resultModule names kind := by
    intro call listed names kind denotes
    have isCall := calls call listed
    rcases isCall with result | ⟨plain, isBound⟩
    · have isChain := denotes.isChain
      rw [result] at isChain
      cases isChain
    · have isChain := denotes.isChain
      rw [plain] at isChain
      obtain rfl := Option.some.inj isChain
      exact denotes.unbound xName isBound rfl
  have listed : 0 < chosen.length := by
    rw [← all.length_eq, List.length_map]
    decide
  obtain ⟨call, isChosen⟩ := List.exists_mem_of_length_pos listed
  obtain ⟨_, _, _, names, kind, denotes, _⟩ := exists_of_forall₂ all isChosen
  exact nothing call (within.subset isChosen) names kind denotes

end FileContext

end Brain
