import Brain.Application.PythonAstParser

namespace Brain

theorem Identifier.no_colon (identifier : Identifier) : ':' ∉ identifier.text.toList :=
  fun colon => (identifier.plain ':' colon).2 rfl

theorem Identifier.given_text (identifier : Identifier) : given (some identifier.text) = some identifier.text :=
  given_eq_some.mpr ⟨rfl, identifier.nonempty⟩

namespace FileContext
variable {file : FileContext} {b : FileBuilder}

structure Declares (file : FileContext) (symbol : ParsedSymbol) : Prop where
  identity : symbol.identity = file.identity symbol.qualifiedName symbol.kind
  path : symbol.path = file.path
  named : ∃ suffix, ':' ∉ suffix ∧ symbol.qualifiedName.toList = file.module.toList ++ suffix

structure Relates (file : FileContext) (symbols : List ParsedSymbol) (relation : ParsedRelation) : Prop where
  repositoryId : relation.repositoryId = file.repositoryId
  revision : relation.revision = file.revision
  sourcePath : relation.sourcePath = file.path
  targetPath : relation.targetPath = some file.path
  source : relation.sourceIdentity ∈ symbols.map (·.identity)
  target : relation.targetIdentity ∈ symbols.map (·.identity)

/-- What holds of the builder of a file at any time. -/
structure Built (file : FileContext) (b : FileBuilder) : Prop where
  module : (b.symbols.find? (·.kind = .module)).isSome
  declares : ∀ symbol ∈ b.symbols, file.Declares symbol
  known : ∀ symbol ∈ b.byQualified.items, symbol ∈ b.symbols
  relates : ∀ relation ∈ b.relations, file.Relates b.symbols relation
  pending : ∀ caller ∈ b.pending, caller.1 ∈ b.symbols

theorem Relates.mono {symbols symbols' : List ParsedSymbol} {relation : ParsedRelation}
    (relates : file.Relates symbols relation) (subset : symbols ⊆ symbols') : file.Relates symbols' relation :=
  { relates with
    source := List.map_subset _ subset relates.source
    target := List.map_subset _ subset relates.target }

theorem newRelation_relates {symbols : List ParsedSymbol} {relationType : CodeRelationType}
    {source target : ParsedSymbol} {metadata : List (String × String)} (fromSource : source ∈ symbols)
    (toTarget : target ∈ symbols) : file.Relates symbols (file.newRelation relationType source target metadata) where
  repositoryId := rfl
  revision := rfl
  sourcePath := rfl
  targetPath := rfl
  source := List.mem_map_of_mem fromSource
  target := List.mem_map_of_mem toTarget

theorem newSymbol_declares {name : String} {kind : SymbolKind} {span : Ast.Span} {details : SymbolDetails}
    {qualifiedName : String} (suffix : List Char) (noColon : ':' ∉ suffix)
    (named : qualifiedName.toList = file.module.toList ++ suffix) :
    file.Declares (file.newSymbol b name qualifiedName kind span details) :=
  ⟨rfl, rfl, suffix, noColon, named⟩

theorem qualified_declares {name : String} {kind : SymbolKind} {span : Ast.Span} {details : SymbolDetails}
    (noColon : ':' ∉ name.toList) : file.Declares (file.newSymbol b name (file.qualified name) kind span details) := by
  refine newSymbol_declares ('.' :: name.toList) ?_ (by simp [qualified])
  simp [noColon]

theorem Built.addSymbol (built : file.Built b) {symbol : ParsedSymbol} (declares : file.Declares symbol) :
    file.Built (b.addSymbol symbol) where
  module := by
    have first := built.module
    show ((b.symbols ++ [symbol]).find? _).isSome
    rw [List.find?_append]
    cases found : b.symbols.find? (·.kind = .module) with
    | none => simp [found] at first
    | some _ => rfl
  declares := by
    intro other member
    rcases List.mem_append.mp member with old | new
    · exact built.declares other old
    · rw [List.mem_singleton.mp new]
      exact declares
  known := by
    intro other member
    rcases Keyed.mem_upsert.mp member with rfl | ⟨old, _⟩
    · exact List.mem_append_right _ (List.mem_singleton_self _)
    · exact List.mem_append_left _ (built.known other old)
  relates := fun relation member => (built.relates relation member).mono (List.subset_append_left ..)
  pending := fun caller member => List.mem_append_left _ (built.pending caller member)

theorem Built.addImport (built : file.Built b) (statement : ImportStatement) : file.Built (b.addImport statement) :=
  { built with }

theorem Built.addPending (built : file.Built b) {caller : ParsedSymbol × List Ast.Expr} (known : caller.1 ∈ b.symbols) :
    file.Built (b.addPending caller) :=
  { built with
    pending := by
      intro other member
      rcases List.mem_append.mp member with old | new
      · exact built.pending other old
      · rw [List.mem_singleton.mp new]
        exact known }

theorem Built.addRelations (built : file.Built b) (relations : List ParsedRelation)
    (relates : ∀ relation ∈ relations, file.Relates b.symbols relation) : file.Built (b.addRelations relations) :=
  { built with
    relates := by
      intro relation member
      rcases List.mem_append.mp member with old | new
      · exact built.relates relation old
      · exact relates relation new }

theorem mem_addSymbol {symbol : ParsedSymbol} : symbol ∈ (b.addSymbol symbol).symbols :=
  List.mem_append_right _ (List.mem_singleton_self _)

theorem Built.get (built : file.Built b) {qualifiedName : String} {symbol : ParsedSymbol}
    (found : b.byQualified.get qualifiedName = some symbol) : symbol ∈ b.symbols :=
  built.known symbol (Keyed.get_eq_some.mp found).1

theorem importedAs_no_colon {module : String} {name asName : Option Identifier} (noColon : ':' ∉ module.toList) :
    ':' ∉ (importedAs module (name.map (·.text)) (asName.map (·.text))).toList := by
  unfold importedAs
  cases asName with
  | some identifier =>
    rw [Option.map_some, identifier.given_text]
    exact identifier.no_colon
  | none =>
    cases name with
    | some identifier =>
      rw [Option.map_some, identifier.given_text]
      exact identifier.no_colon
    | none => simpa using fun colon => noColon (mem_lastSegment colon)

theorem Built.recordImport (built : file.Built b) {module : String} (name asName : Option Identifier)
    (noColon : ':' ∉ module.toList) (isRelative : Bool) (level : Nat) (span : Ast.Span) :
    file.Built (file.recordImport module (name.map (·.text)) (asName.map (·.text)) isRelative level span b) := by
  unfold FileContext.recordImport
  dsimp only
  let bound := importedAs module (name.map (·.text)) (asName.map (·.text))
  let details : SymbolDetails :=
    { metadata := { importModule := some module, importName := some ((name.map (·.text)).getD "") } }
  have declares : file.Declares (file.newSymbol b bound (file.qualified bound) .import span details) :=
    qualified_declares (importedAs_no_colon noColon)
  have added := (built.addImport { module, name := name.map (·.text), asName := asName.map (·.text), isRelative, level
                                   location := file.location span }).addSymbol declares
  split
  · rename_i moduleSymbol found
    apply added.addRelations
    intro relation member
    rw [List.mem_singleton.mp member]
    exact newRelation_relates (added.get found) mem_addSymbol
  · exact added

theorem Built.handleFunction (built : file.Built b) {parent : ParsedSymbol} (declared : file.Declares parent)
    (kind : SymbolKind) (node : Ast.FunctionDef) : file.Built (file.handleFunction parent kind b node) := by
  unfold FileContext.handleFunction
  dsimp only
  have noColon := node.name.no_colon
  refine Built.addPending (Built.addSymbol built ?_) mem_addSymbol
  split
  · obtain ⟨suffix, plain, named⟩ := declared.named
    refine newSymbol_declares (suffix ++ '.' :: node.name.text.toList) ?_ (by simp [named])
    simp [plain, noColon]
  · exact qualified_declares noColon

theorem inherits_relates {classSymbol : ParsedSymbol} {base : String} {relation : ParsedRelation}
    (built : file.Built b) (member : classSymbol ∈ b.symbols)
    (linked : file.inherits b classSymbol base = some relation) : file.Relates b.symbols relation := by
  unfold FileContext.inherits at linked
  obtain ⟨baseSymbol, found, linked⟩ := Option.bind_eq_some_iff.mp linked
  split at linked
  · cases linked
    exact newRelation_relates member (built.get found)
  · cases linked

theorem Built.handleClass (built : file.Built b) (node : Ast.ClassDef) : file.Built (file.handleClass b node) := by
  unfold FileContext.handleClass
  dsimp only
  let details : SymbolDetails :=
    { docstring := node.docstring
      metadata := { bases := some node.bases, instanceAttrs := some (instanceAttrs node.functions) } }
  have declares : file.Declares
      (file.newSymbol b node.name.text (file.qualified node.name.text) .class node.span details) :=
    qualified_declares node.name.no_colon
  have added := built.addSymbol declares
  have linked := added.addRelations (node.bases.filterMap (file.inherits _ _)) fun relation member => by
    obtain ⟨base, _, isLinked⟩ := List.mem_filterMap.mp member
    exact inherits_relates added mem_addSymbol isLinked
  exact List.foldlRecOn _ _ linked fun _ before function _ => before.handleFunction declares .method function

theorem Built.handleStatement (built : file.Built b) {moduleSymbol : ParsedSymbol} (declared : file.Declares moduleSymbol)
    (stmt : Ast.Stmt) : file.Built (file.handleStatement moduleSymbol b stmt) := by
  cases stmt with
  | «import» names span =>
    refine List.foldlRecOn _ _ built fun _ before entry _ => ?_
    exact before.recordImport none entry.asname entry.name.no_colon false 0 span
  | importFrom module names level span =>
    refine List.foldlRecOn _ _ built fun _ before entry _ => ?_
    cases entry with
    | star => exact before
    | name name asname =>
      refine before.recordImport (some name) asname ?_ (level > 0) level span
      cases module with
      | none => simp
      | some module => exact module.no_colon
  | classDef node => exact built.handleClass node
  | functionDef node => exact built.handleFunction declared .function node
  | other => exact built

theorem moduleSymbol_declares (tree : Ast.Module) : file.Declares (file.moduleSymbol tree) :=
  newSymbol_declares [] (by simp) (by simp)

theorem gather_built (tree : Ast.Module) : file.Built (file.gather tree) := by
  have declared : file.Declares (file.moduleSymbol tree) := moduleSymbol_declares tree
  refine List.foldlRecOn _ _ ?_ fun _ before stmt _ => before.handleStatement declared stmt
  exact
    { module := rfl
      declares := by simpa [FileBuilder.addSymbol] using declared
      known := by simp [FileBuilder.addSymbol, Keyed.mem_upsert]
      relates := by simp [FileBuilder.addSymbol]
      pending := by simp [FileBuilder.addSymbol] }

theorem extractCalls_relates (built : file.Built b) {caller : ParsedSymbol} (known : caller ∈ b.symbols)
    {calls : List Ast.Expr} {relation : ParsedRelation} (member : relation ∈ file.extractCalls b caller calls) :
    file.Relates b.symbols relation := by
  obtain ⟨func, _, made⟩ := List.mem_filterMap.mp member
  obtain ⟨target, found, rfl⟩ := Option.map_eq_some_iff.mp made
  obtain ⟨name, _, found⟩ := Option.bind_eq_some_iff.mp found
  exact newRelation_relates known (built.get found)

theorem extractInstantiations_relates (built : file.Built b) {caller : ParsedSymbol} (known : caller ∈ b.symbols)
    {calls : List Ast.Expr} {relation : ParsedRelation} (member : relation ∈ file.extractInstantiations b caller calls) :
    file.Relates b.symbols relation := by
  obtain ⟨func, _, made⟩ := List.mem_filterMap.mp member
  split at made
  · obtain ⟨target, found, made⟩ := Option.bind_eq_some_iff.mp made
    split at made
    · cases made
      exact newRelation_relates known (built.get found)
    · cases made
  · cases made

theorem build_built (tree : Ast.Module) : file.Built (file.build tree) := by
  have gathered : file.Built (file.gather tree) := gather_built tree
  have read := gathered.addRelations ((file.gather tree).pending.flatMap fun caller =>
    file.extractCalls (file.gather tree) caller.1 caller.2 ++
      file.extractInstantiations (file.gather tree) caller.1 caller.2) fun relation member => by
    obtain ⟨caller, isPending, member⟩ := List.mem_flatMap.mp member
    have known := gathered.pending caller isPending
    rcases List.mem_append.mp member with call | instantiation
    · exact extractCalls_relates gathered known call
    · exact extractInstantiations_relates gathered known instantiation
  exact { read with pending := by simp [build] }

end FileContext

end Brain
