import Brain.CodeGraph.Inheritance
import Brain.Lib.Writers

namespace Brain

/-! ### What a module defines -/

namespace Ast

/-- A name that a module defines, with the callees in the body of a function. -/
structure Definition where
  name : String
  qualifiedName : String
  kind : SymbolKind
  calls : List Expr := []
  deriving DecidableEq

/-- The function or method with its name in a module or class. -/
def FunctionDef.definition (owner : String) (kind : SymbolKind) (node : FunctionDef) : Definition :=
  ⟨node.name.text, owner ++ "." ++ node.name.text, kind, node.calls⟩

/-- What a statement of a module defines, in the order of its text. -/
def Stmt.definitions (module : String) : Stmt → List Definition
  | .import names _ => names.map fun entry =>
    let name := FileContext.importedAs entry.name.text none (entry.asname.map (·.text))
    ⟨name, module ++ "." ++ name, .import, []⟩
  | .importFrom _ names _ _ => names.filterMap fun
    | .star => none
    | .name name asname =>
      let bound := (asname.getD name).text
      some ⟨bound, module ++ "." ++ bound, .import, []⟩
  | .classDef node =>
    ⟨node.name.text, module ++ "." ++ node.name.text, .class, []⟩ ::
      node.functions.map (FunctionDef.definition (module ++ "." ++ node.name.text) .method)
  | .functionDef node => [node.definition module .function]
  | .other => []

def Module.definitions (module : String) (tree : Module) : List Definition := tree.body.flatMap (Stmt.definitions module)

end Ast

/-! ### The symbols of a file are its definitions -/

def Ast.Definition.outline (definition : Ast.Definition) : String × String × SymbolKind × Option (List CallSite) :=
  (definition.name, definition.qualifiedName, definition.kind,
    if isFunctionOrMethod definition.kind then some (callSites definition.calls) else none)

def ParsedSymbol.outline (symbol : ParsedSymbol) : String × String × SymbolKind × Option (List CallSite) :=
  (symbol.name, symbol.qualifiedName, symbol.kind, symbol.metadata.callSites)

namespace FileContext
open LastWriter
variable {file : FileContext} {b : FileBuilder} {definitions : List Ast.Definition}

structure Tells (file : FileContext) (definitions : List Ast.Definition) (b : FileBuilder) : Prop where
  symbols : b.symbols.map ParsedSymbol.outline = definitions.map Ast.Definition.outline
  pending : b.pending.map (fun caller => (caller.1.qualifiedName, caller.1.kind, caller.2)) =
    (definitions.filter fun d => isFunctionOrMethod d.kind).map fun d => (d.qualifiedName, d.kind, d.calls)
  known : b.byQualified = b.symbols.foldl Keyed.upsert Keyed.empty
  ids : b.symbols.map (·.id) = (List.range b.symbols.length).map (SymbolId.mk file.path)
  uncalled : ∀ relation ∈ b.relations, relation.relationType ≠ .calls

theorem Tells.addRelations (tells : file.Tells definitions b) {relations : List ParsedRelation}
    (uncalled : ∀ relation ∈ relations, relation.relationType ≠ .calls) :
    file.Tells definitions (b.addRelations relations) :=
  { tells with
    uncalled := fun relation member => (List.mem_append.mp member).elim (tells.uncalled relation) (uncalled relation) }

theorem Tells.addSymbol (tells : file.Tells definitions b) {name qualifiedName : String} {kind : SymbolKind}
    {span : Ast.Span} {details : SymbolDetails} (plain : isFunctionOrMethod kind = false)
    (unread : details.metadata.callSites = none) :
    file.Tells (definitions ++ [⟨name, qualifiedName, kind, []⟩])
      (b.addSymbol (file.newSymbol b name qualifiedName kind span details)) where
  symbols := by
    show (b.symbols ++ [_]).map _ = _
    rw [List.map_append, List.map_append, tells.symbols, List.map_singleton, List.map_singleton]
    simp [ParsedSymbol.outline, Ast.Definition.outline, newSymbol, plain, unread]
  pending := by
    rw [List.filter_append, List.filter_cons_of_neg (by simp [plain]), List.filter_nil, List.append_nil]
    exact tells.pending
  known := by
    show b.byQualified.upsert _ = (b.symbols ++ [_]).foldl Keyed.upsert Keyed.empty
    rw [List.foldl_append, ← tells.known]
    rfl
  ids := by
    show (b.symbols ++ [_]).map _ = (List.range (b.symbols ++ [_]).length).map _
    rw [List.map_append, tells.ids, List.length_append, List.length_singleton, List.range_succ, List.map_append]
    rfl
  uncalled := tells.uncalled

theorem Tells.handleFunction (tells : file.Tells definitions b) {parent : ParsedSymbol} {kind : SymbolKind} {owner : String}
    (callable : isFunctionOrMethod kind = true)
    (owns : owner = if parent.kind = .class ∨ parent.kind = .method then parent.qualifiedName else file.module)
    (node : Ast.FunctionDef) :
    file.Tells (definitions ++ [node.definition owner kind]) (file.handleFunction parent kind b node) := by
  have qualified : (if parent.kind = .class ∨ parent.kind = .method then parent.qualifiedName ++ "." ++ node.name.text
      else file.qualified node.name.text) = owner ++ "." ++ node.name.text := by
    rw [owns]
    split <;> rfl
  unfold FileContext.handleFunction
  dsimp only
  rw [qualified]
  constructor
  · show (b.symbols ++ [_]).map _ = _
    rw [List.map_append, List.map_append, tells.symbols, List.map_singleton, List.map_singleton]
    simp [ParsedSymbol.outline, Ast.Definition.outline, Ast.FunctionDef.definition, newSymbol, callable]
  · show (b.pending ++ [_]).map _ = _
    rw [List.map_append, List.filter_append, List.map_append, tells.pending]
    simp [Ast.FunctionDef.definition, newSymbol, callable]
  · show b.byQualified.upsert _ = (b.symbols ++ [_]).foldl Keyed.upsert Keyed.empty
    rw [List.foldl_append, ← tells.known]
    rfl
  · show (b.symbols ++ [_]).map _ = (List.range (b.symbols ++ [_]).length).map _
    rw [List.map_append, tells.ids, List.length_append, List.length_singleton, List.range_succ, List.map_append]
    rfl
  · exact tells.uncalled

theorem Tells.recordImport (tells : file.Tells definitions b) (module : String) (name asName : Option String)
    (isRelative : Bool) (level : Nat) (span : Ast.Span) :
    file.Tells (definitions ++ [⟨importedAs module name asName, file.qualified (importedAs module name asName), .import, []⟩])
      (file.recordImport module name asName isRelative level span b) := by
  unfold FileContext.recordImport
  dsimp only
  have listed : file.Tells definitions
      (b.addImport { module, name, asName, isRelative, level, location := file.location span }) :=
    ⟨tells.symbols, tells.pending, tells.known, tells.ids, tells.uncalled⟩
  have added := @Tells.addSymbol _ _ _ listed (importedAs module name asName)
    (file.qualified (importedAs module name asName)) .import span
    { metadata := { importModule := some module, importName := some (name.getD "") } } rfl rfl
  split
  · refine added.addRelations fun relation member => ?_
    rw [List.mem_singleton.mp member]
    exact fun same => CodeRelationType.noConfusion same
  · exact added

theorem inherits_uncalled {classSymbol : ParsedSymbol} {bases : List String} {relation : ParsedRelation}
    (member : relation ∈ bases.filterMap (file.inherits b classSymbol)) : relation.relationType ≠ .calls := by
  obtain ⟨base, _, isLinked⟩ := List.mem_filterMap.mp member
  obtain ⟨baseSymbol, _, isLinked⟩ := Option.bind_eq_some_iff.mp isLinked
  split at isLinked
  · cases isLinked
    exact fun same => CodeRelationType.noConfusion same
  · cases isLinked

theorem Tells.handleClass (tells : file.Tells definitions b) (node : Ast.ClassDef) :
    file.Tells (definitions ++ (Ast.Stmt.classDef node).definitions file.module) (file.handleClass b node) := by
  unfold FileContext.handleClass
  dsimp only
  have added := @Tells.addSymbol _ _ _ tells node.name.text (file.qualified node.name.text) .class node.span
    { docstring := node.docstring
      metadata := { bases := some node.bases, instanceAttrs := some (instanceAttrs node.functions) } } rfl rfl
  -- the functions of the class follow it
  have onward : ∀ (functions : List Ast.FunctionDef) (listed : List Ast.Definition) (b : FileBuilder), file.Tells listed b →
      ∀ parent : ParsedSymbol, parent.kind = .class → parent.qualifiedName = file.qualified node.name.text →
      file.Tells (listed ++ functions.map (Ast.FunctionDef.definition (file.qualified node.name.text) .method))
        (functions.foldl (file.handleFunction parent .method) b) := by
    intro functions
    induction functions with
    | nil =>
      intro listed b tells _ _ _
      simpa using tells
    | cons function functions ih =>
      intro listed b tells parent isClass named
      have owns : file.qualified node.name.text =
          if parent.kind = .class ∨ parent.kind = .method then parent.qualifiedName else file.module := by
        rw [if_pos (Or.inl isClass), named]
      have next := @Tells.handleFunction _ _ _ tells _ .method _ rfl owns function
      have rest := ih _ _ next parent isClass named
      rwa [List.append_assoc] at rest
  have parts : definitions ++ (Ast.Stmt.classDef node).definitions file.module =
      (definitions ++ [⟨node.name.text, file.qualified node.name.text, .class, []⟩]) ++
        node.functions.map (Ast.FunctionDef.definition (file.qualified node.name.text) .method) := by
    rw [List.append_assoc]
    rfl
  rw [parts]
  exact onward node.functions _ _ (added.addRelations fun _ => inherits_uncalled) _ rfl rfl

theorem Tells.handleStatement (tells : file.Tells definitions b) {moduleSymbol : ParsedSymbol}
    (isModule : moduleSymbol.kind = .module) (stmt : Ast.Stmt) :
    file.Tells (definitions ++ stmt.definitions file.module) (file.handleStatement moduleSymbol b stmt) := by
  cases stmt with
  | «import» names span =>
    unfold FileContext.handleStatement handleImport Ast.Stmt.definitions
    dsimp only
    induction names generalizing definitions b with
    | nil => simpa using tells
    | cons entry names ih =>
      have next := ih (tells.recordImport entry.name.text none (entry.asname.map (·.text)) false 0 span)
      rwa [List.append_assoc] at next
  | importFrom module names level span =>
    unfold FileContext.handleStatement handleImportFrom Ast.Stmt.definitions
    dsimp only
    induction names generalizing definitions b with
    | nil => simpa using tells
    | cons entry names ih =>
      cases entry with
      | star => exact ih tells
      | name name asname =>
        have recorded := tells.recordImport ((module.map (·.text)).getD "") (some name.text) (asname.map (·.text))
          (level > 0) level span
        have bound : importedAs ((module.map (·.text)).getD "") (some name.text) (asname.map (·.text)) =
            (asname.getD name).text := by
          unfold importedAs
          cases asname with
          | none => rw [Option.map_none, given_none, Option.none_or, name.given_text]; rfl
          | some asname => rw [Option.map_some, asname.given_text]; rfl
        rw [bound] at recorded
        have next := ih recorded
        rwa [List.append_assoc] at next
  | classDef node => exact tells.handleClass node
  | functionDef node => exact tells.handleFunction rfl (by rw [isModule]; rfl) node
  | other =>
    rw [Ast.Stmt.definitions, List.append_nil]
    exact tells

def moduleDefinition (file : FileContext) : Ast.Definition :=
  ⟨strOr (String.ofList (lastSegment '.' file.module.toList)) file.path, file.module, .module, []⟩

theorem gather_tells (tree : Ast.Module) :
    file.Tells (file.moduleDefinition :: tree.definitions file.module) (file.gather tree) := by
  have onward : ∀ (body : List Ast.Stmt) (listed : List Ast.Definition) (b : FileBuilder), file.Tells listed b →
      file.Tells (listed ++ body.flatMap (Ast.Stmt.definitions file.module))
        (body.foldl (file.handleStatement (file.moduleSymbol tree)) b) := by
    intro body
    induction body with
    | nil =>
      intro listed b tells
      simpa using tells
    | cons stmt body ih =>
      intro listed b tells
      have rest := ih _ _ (@Tells.handleStatement _ _ _ tells (file.moduleSymbol tree) rfl stmt)
      rwa [List.append_assoc] at rest
  have start : file.Tells [] ({} : FileBuilder) :=
    ⟨rfl, rfl, rfl, rfl, fun _ member => absurd member List.not_mem_nil⟩
  exact onward tree.body [file.moduleDefinition] _ (@Tells.addSymbol _ _ _ start _ _ .module _ _ rfl rfl)

def definitionIdentity (file : FileContext) (d : Ast.Definition) : SymbolIdentity := file.identity d.qualifiedName d.kind

theorem qualified_ne_module (name : String) : file.qualified name ≠ file.module := by
  intro same
  have lengths := congrArg (fun text : String => text.toList.length) same
  simp [qualified] at lengths

theorem known_identity (tree : Ast.Module) (name : String) :
    ((file.gather tree).byQualified.get (file.qualified name)).map (·.identity) =
      (last Ast.Definition.qualifiedName (tree.definitions file.module) (file.qualified name)).map file.definitionIdentity := by
  have tells := @gather_tells file tree
  have built := @gather_built file tree
  let key : String × String × SymbolKind × Option (List CallSite) → String := fun outline => outline.2.1
  have outlines : (last (fun symbol : ParsedSymbol => symbol.qualifiedName) (file.gather tree).symbols (file.qualified name)).map
      ParsedSymbol.outline =
        (last Ast.Definition.qualifiedName (file.moduleDefinition :: tree.definitions file.module) (file.qualified name)).map
          Ast.Definition.outline := by
    have views : last key _ (file.qualified name) = last key _ (file.qualified name) :=
      congrArg (last key · (file.qualified name)) tells.symbols
    rw [last_map, last_map] at views
    exact views
  have behind : last Ast.Definition.qualifiedName (file.moduleDefinition :: tree.definitions file.module) (file.qualified name) =
      last Ast.Definition.qualifiedName (tree.definitions file.module) (file.qualified name) := by
    have parts := @last_append _ _ _ Ast.Definition.qualifiedName [file.moduleDefinition] (tree.definitions file.module)
      (file.qualified name)
    rw [last_singleton, if_neg (show file.qualified name ≠ file.moduleDefinition.qualifiedName from qualified_ne_module name),
      Option.or_none] at parts
    exact parts
  have found : (file.gather tree).byQualified.get (file.qualified name) =
      last (fun symbol : ParsedSymbol => symbol.qualifiedName) (file.gather tree).symbols (file.qualified name) := by
    rw [tells.known, Keyed.laws.get_foldl]
    exact Option.or_none
  rw [behind] at outlines
  -- the identity of a symbol is told by its outline
  let identityOf : String × String × SymbolKind × Option (List CallSite) → SymbolIdentity := fun outline =>
    file.identity outline.2.1 outline.2.2.1
  have symbols : ∀ symbol, (file.gather tree).byQualified.get (file.qualified name) = some symbol →
      symbol.identity = identityOf symbol.outline := by
    intro symbol known
    exact (built.declares symbol (built.get known)).identity
  have identities := congrArg (Option.map identityOf) outlines
  rw [Option.map_map, Option.map_map, ← found] at identities
  calc ((file.gather tree).byQualified.get (file.qualified name)).map (·.identity)
      = ((file.gather tree).byQualified.get (file.qualified name)).map (identityOf ∘ ParsedSymbol.outline) := by
        cases known : (file.gather tree).byQualified.get (file.qualified name) with
        | none => rfl
        | some symbol => exact congrArg some (symbols symbol known)
    _ = _ := identities

def callEnds (file : FileContext) (tree : Ast.Module) (caller : Ast.Definition) (func : Ast.Expr) :
    Option (SymbolIdentity × SymbolIdentity) :=
  (calleeName func).bind fun name =>
    (last Ast.Definition.qualifiedName (tree.definitions file.module) (file.qualified name)).map fun d =>
      (file.definitionIdentity caller, file.definitionIdentity d)

theorem extractCalls_type {caller : ParsedSymbol} {calls : List Ast.Expr} {relation : ParsedRelation}
    (member : relation ∈ file.extractCalls b caller calls) : relation.relationType = .calls := by
  obtain ⟨func, _, made⟩ := List.mem_filterMap.mp member
  obtain ⟨target, _, rfl⟩ := Option.map_eq_some_iff.mp made
  rfl

theorem extractInstantiations_type {caller : ParsedSymbol} {calls : List Ast.Expr} {relation : ParsedRelation}
    (member : relation ∈ file.extractInstantiations b caller calls) : relation.relationType = .instantiates := by
  obtain ⟨func, _, made⟩ := List.mem_filterMap.mp member
  cases func with
  | name id =>
    obtain ⟨target, _, made⟩ := Option.bind_eq_some_iff.mp made
    split at made
    · cases made
      rfl
    · cases made
  | _ => cases made

theorem extractCalls_ends (caller : ParsedSymbol) (calls : List Ast.Expr) :
    (file.extractCalls b caller calls).map (fun relation => (relation.sourceIdentity, relation.targetIdentity)) =
      calls.filterMap fun func => ((calleeName func).bind fun name =>
        (b.byQualified.get (file.qualified name)).map (·.identity)).map (caller.identity, ·) := by
  unfold extractCalls
  rw [List.map_filterMap]
  refine List.filterMap_congr fun func _ => ?_
  cases calleeName func with
  | none => rfl
  | some name => cases found : b.byQualified.get (file.qualified name) <;> simp [found, newRelation]

/-- The calls that the parser lists are those of the functions and methods of
the module, in the order of its text. -/
theorem build_calls (tree : Ast.Module) :
    ((file.build tree).relations.filter fun relation => relation.relationType = .calls).map
        (fun relation => (relation.sourceIdentity, relation.targetIdentity)) =
      ((tree.definitions file.module).filter fun d => isFunctionOrMethod d.kind).flatMap fun d =>
        d.calls.filterMap (file.callEnds tree d) := by
  have tells := @gather_tells file tree
  have built := @gather_built file tree
  let b := file.gather tree
  have gathered : b.relations.filter (fun relation => relation.relationType = .calls) = [] :=
    List.filter_eq_nil_iff.mpr fun relation member => by simpa using tells.uncalled relation member
  have called : ∀ caller calls, (file.extractCalls b caller calls).filter (fun relation => relation.relationType = .calls) =
      file.extractCalls b caller calls := fun caller calls =>
    List.filter_eq_self.mpr fun relation member => decide_eq_true (extractCalls_type member)
  have instantiated : ∀ caller calls,
      (file.extractInstantiations b caller calls).filter (fun relation => relation.relationType = .calls) = [] := by
    intro caller calls
    refine List.filter_eq_nil_iff.mpr fun relation member => ?_
    rw [extractInstantiations_type member]
    exact fun same => CodeRelationType.noConfusion (of_decide_eq_true same)
  let endsOf : String × SymbolKind × List Ast.Expr → List (SymbolIdentity × SymbolIdentity) := fun caller =>
    caller.2.2.filterMap fun func => ((calleeName func).bind fun name =>
      (last Ast.Definition.qualifiedName (tree.definitions file.module) (file.qualified name)).map
        file.definitionIdentity).map (file.identity caller.1 caller.2.1, ·)
  have pending : b.pending.flatMap (fun caller => endsOf (caller.1.qualifiedName, caller.1.kind, caller.2)) =
      ((tree.definitions file.module).filter fun d => isFunctionOrMethod d.kind).flatMap fun d =>
        endsOf (d.qualifiedName, d.kind, d.calls) := by
    have views := congrArg (List.flatMap endsOf) tells.pending
    rw [List.filter_cons_of_neg (by simp [moduleDefinition, isFunctionOrMethod]), List.flatMap_map, List.flatMap_map] at views
    exact views
  have relations : (file.build tree).relations = b.relations ++ b.pending.flatMap fun caller =>
      file.extractCalls b caller.1 caller.2 ++ file.extractInstantiations b caller.1 caller.2 := rfl
  rw [relations, List.filter_append, gathered, List.nil_append, List.filter_flatMap, List.map_flatMap]
  calc b.pending.flatMap _
      = b.pending.flatMap fun caller => endsOf (caller.1.qualifiedName, caller.1.kind, caller.2) := by
        refine List.flatMap_congr fun caller member => ?_
        have identity := (built.declares _ (built.pending _ member)).identity
        rw [List.filter_append, called, instantiated, List.append_nil, extractCalls_ends, identity]
        refine List.filterMap_congr fun func _ => ?_
        cases calleeName func with
        | none => rfl
        | some name => exact congrArg (Option.map _) (known_identity tree name)
    _ = _ := pending
    _ = _ := by
      refine List.flatMap_congr fun d _ => List.filterMap_congr fun func _ => ?_
      unfold callEnds
      cases calleeName func with
      | none => rfl
      | some name => exact Option.map_map ..

theorem Tells.definition_at (tells : file.Tells definitions b) {i : Nat} {symbol : ParsedSymbol}
    (isSymbol : b.symbols[i]? = some symbol) :
    symbol.id = ⟨file.path, i⟩ ∧ ∃ d, definitions[i]? = some d ∧ symbol.outline = d.outline := by
  have bound := (List.getElem?_eq_some_iff.mp isSymbol).1
  have drawn : (b.symbols.map (·.id))[i]? = ((List.range b.symbols.length).map (SymbolId.mk file.path))[i]? :=
    congrArg (·[i]?) tells.ids
  rw [List.getElem?_map, List.getElem?_map, isSymbol, List.getElem?_range bound] at drawn
  have listed : (b.symbols.map ParsedSymbol.outline)[i]? = (definitions.map Ast.Definition.outline)[i]? :=
    congrArg (·[i]?) tells.symbols
  rw [List.getElem?_map, List.getElem?_map, isSymbol, Option.map_some] at listed
  obtain ⟨d, isDefinition, same⟩ := Option.map_eq_some_iff.mp listed.symm
  exact ⟨Option.some.inj drawn, d, isDefinition, same.symm⟩

theorem Tells.symbol_at (tells : file.Tells definitions b) {i : Nat} {d : Ast.Definition}
    (isDefinition : definitions[i]? = some d) : ∃ symbol, b.symbols[i]? = some symbol ∧ symbol.outline = d.outline := by
  have listed : (b.symbols.map ParsedSymbol.outline)[i]? = (definitions.map Ast.Definition.outline)[i]? :=
    congrArg (·[i]?) tells.symbols
  rw [List.getElem?_map, List.getElem?_map, isDefinition, Option.map_some] at listed
  obtain ⟨symbol, isSymbol, same⟩ := Option.map_eq_some_iff.mp listed
  exact ⟨symbol, isSymbol, same⟩

end FileContext

namespace Ast.Module
variable {module : String} {tree : Ast.Module} {d : Ast.Definition}

theorem definition_cases (member : d ∈ tree.definitions module) :
    d.kind ≠ .method ∧ d.qualifiedName = module ++ "." ++ d.name ∧
        (d.kind = .class → ∃ node, .classDef node ∈ tree.body ∧ d.name = node.name.text) ∨
      ∃ node, .classDef node ∈ tree.body ∧ ∃ function ∈ node.functions,
        d = function.definition (module ++ "." ++ node.name.text) .method := by
  obtain ⟨stmt, inBody, listed⟩ := List.mem_flatMap.mp member
  cases stmt with
  | «import» names span =>
    obtain ⟨entry, _, rfl⟩ := List.mem_map.mp listed
    exact Or.inl ⟨fun same => SymbolKind.noConfusion same, rfl, fun same => SymbolKind.noConfusion same⟩
  | importFrom _ names level span =>
    obtain ⟨entry, _, isEntry⟩ := List.mem_filterMap.mp listed
    cases entry with
    | star => cases isEntry
    | name name asname =>
      cases isEntry
      exact Or.inl ⟨fun same => SymbolKind.noConfusion same, rfl, fun same => SymbolKind.noConfusion same⟩
  | classDef node =>
    rcases List.mem_cons.mp listed with rfl | inClass
    · exact Or.inl ⟨fun same => SymbolKind.noConfusion same, rfl, fun _ => ⟨node, inBody, rfl⟩⟩
    · obtain ⟨function, isFunction, rfl⟩ := List.mem_map.mp inClass
      exact Or.inr ⟨node, inBody, function, isFunction, rfl⟩
  | functionDef node =>
    obtain rfl := List.mem_singleton.mp listed
    exact Or.inl ⟨fun same => SymbolKind.noConfusion same, rfl, fun same => SymbolKind.noConfusion same⟩
  | other => cases listed

theorem qualifiedName_named (member : d ∈ tree.definitions module) (notMethod : d.kind ≠ .method) :
    d.qualifiedName = module ++ "." ++ d.name := by
  rcases definition_cases member with ⟨_, named, _⟩ | ⟨_, _, _, _, rfl⟩
  · exact named
  · exact absurd rfl notMethod

end Ast.Module

end Brain
