import Brain.CodeGraph.Replacement
import Brain.Lib.Writers

namespace Brain

theorem append_separator_injective {α : Type} [DecidableEq α] {separator : α} {xs xs' ys ys' : List α}
    (same : xs ++ separator :: ys = xs' ++ separator :: ys') (counts : xs.count separator = xs'.count separator) :
    xs = xs' ∧ ys = ys' := by
  induction xs generalizing xs' with
  | nil =>
    cases xs' with
    | nil => exact ⟨rfl, (List.cons_eq_cons.mp same).2⟩
    | cons x' xs' =>
      obtain ⟨rfl, _⟩ := List.cons_eq_cons.mp same
      simp at counts
  | cons x xs ih =>
    cases xs' with
    | nil =>
      obtain ⟨rfl, _⟩ := List.cons_eq_cons.mp same
      simp at counts
    | cons x' xs' =>
      obtain ⟨rfl, rest⟩ := List.cons_eq_cons.mp same
      have later : xs.count separator = xs'.count separator := by
        rw [List.count_cons, List.count_cons] at counts
        omega
      obtain ⟨rfl, rfl⟩ := ih rest later
      exact ⟨rfl, rfl⟩

theorem append_separator_injective_right {α : Type} [DecidableEq α] {separator : α} {xs xs' ys ys' : List α}
    (same : xs ++ separator :: ys = xs' ++ separator :: ys') (absent : separator ∉ ys) (absent' : separator ∉ ys') :
    xs = xs' ∧ ys = ys' := by
  have counts := congrArg (List.count separator) same
  simp only [List.count_append, List.count_cons_self, List.count_eq_zero.mpr absent,
    List.count_eq_zero.mpr absent'] at counts
  exact append_separator_injective same (by omega)

theorem SymbolKind.value_injective {kind other : SymbolKind} (same : kind.value.toList = other.value.toList) :
    kind = other := by
  cases kind <;> cases other <;> first | rfl | exact absurd same (by decide)

/-- A qualified name that starts with the module and goes on without a colon. -/
def SymbolIdentity.Plain (identity : SymbolIdentity) : Prop :=
  ∃ suffix, ':' ∉ suffix ∧ identity.qualifiedName.toList = identity.module.toList ++ suffix

theorem SymbolIdentity.key_injective {identity other : SymbolIdentity} (plain : identity.Plain) (plain' : other.Plain)
    (repositoryId : identity.repositoryId = other.repositoryId) (revision : identity.revision = other.revision)
    (same : identity.key = other.key) : identity = other := by
  obtain ⟨suffix, noColon, named⟩ := plain
  obtain ⟨suffix', noColon', named'⟩ := plain'
  have texts := congrArg String.toList same
  rw [toList_key, toList_key, repositoryId, revision, named, named', List.append_cancel_left_eq, List.cons_eq_cons] at texts
  have tail := (List.cons_eq_cons.mp (List.append_cancel_left texts.2)).2
  have none : suffix.count ':' = 0 := List.count_eq_zero.mpr noColon
  have none' : suffix'.count ':' = 0 := List.count_eq_zero.mpr noColon'
  have counts := congrArg (List.count ':') tail
  simp only [List.count_append, List.count_cons, none, none', SymbolKind.value_no_colon] at counts
  obtain ⟨module, rest⟩ := append_separator_injective tail (by omega)
  rw [module, List.append_assoc, List.append_assoc] at rest
  obtain ⟨suffixes, kinds⟩ := append_separator_injective (List.append_cancel_left rest) (none.trans none'.symm)
  have qualified : identity.qualifiedName = other.qualifiedName := by
    rw [← String.toList_inj, named, named', module, suffixes]
  cases identity
  cases other
  simp only [SymbolIdentity.mk.injEq]
  exact ⟨repositoryId, revision, String.toList_inj.mp module, qualified, SymbolKind.value_injective kinds⟩

theorem FileContext.Declares.plain {file : FileContext} {symbol : ParsedSymbol} (declares : file.Declares symbol) :
    symbol.identity.Plain := by
  rw [declares.identity]
  exact declares.named

namespace GraphResolver
variable {self : GraphResolver} {parsed : ParsedFile}

variable {symbol : ParsedSymbol}

theorem moduleSymbolFromModule_some {module : String} (found : self.moduleSymbolFromModule module = some symbol)
    : ∃ file ∈ self.files, symbol ∈ file.symbols := by
  obtain ⟨file, isFile, isModule⟩ := Option.bind_eq_some_iff.mp found
  exact ⟨file, (moduleToFile_some isFile).1, List.mem_of_find?_eq_some isModule⟩

theorem byModuleSymbol_some {module name : String} (found : self.byModuleSymbol module name = some symbol)
    : ∃ file ∈ self.files, symbol ∈ file.symbols := by
  obtain ⟨file, isFile, isNamed⟩ := Option.bind_eq_some_iff.mp found
  exact ⟨file, (moduleToFile_some isFile).1, List.mem_of_find?_eq_some isNamed⟩

theorem resolveImportedName_some {name : String} {localNames : Keyed LocalName.bound}
    (found : self.resolveImportedName name localNames = some symbol) : ∃ file ∈ self.files, symbol ∈ file.symbols := by
  obtain ⟨resolved, _, found⟩ := Option.bind_eq_some_iff.mp found
  rcases Option.or_eq_some_iff.mp found with named | ⟨_, isModule⟩
  · split at named
    · cases named
    · exact byModuleSymbol_some named
  · exact moduleSymbolFromModule_some isModule

theorem findMethod_some {classSymbol : ParsedSymbol} {method : String}
    (found : self.findMethod classSymbol method = some symbol) : ∃ file ∈ self.files, symbol ∈ file.symbols := by
  unfold findMethod at found
  split at found
  · exact List.mem_flatMap.mp (List.mem_of_find?_eq_some found)
  · cases found

theorem resolveCallSite_some {localNames : Keyed LocalName.bound} {caller : ParsedSymbol} {site : CallSite}
    (found : self.resolveCallSite parsed localNames caller site = some symbol) :
    ∃ file ∈ self.files, symbol ∈ file.symbols := by
  cases site with
  | name name => exact resolveImportedName_some found
  | attrMethod name method => exact resolveImportedName_some found
  | ctorMethod name method =>
    obtain ⟨classSymbol, _, found⟩ := Option.bind_eq_some_iff.mp found
    exact findMethod_some found
  | selfMethod attr method =>
    obtain ⟨enclosing, _, found⟩ := Option.bind_eq_some_iff.mp found
    obtain ⟨className, _, found⟩ := Option.bind_eq_some_iff.mp found
    obtain ⟨classSymbol, _, found⟩ := Option.bind_eq_some_iff.mp found
    exact findMethod_some found

theorem Refers.defined {source target : ParsedSymbol} (refers : self.Refers parsed source target) :
    source ∈ parsed.symbols ∧ ∃ file ∈ self.files, target ∈ file.symbols := by
  cases refers with
  | imports listed imported isModule =>
    exact ⟨List.mem_of_find?_eq_some isModule, moduleSymbolFromModule_some (importedModule_fst imported).2⟩
  | calls isSite resolved =>
    obtain ⟨symbol, callable, inSymbol⟩ := List.mem_flatMap.mp isSite
    obtain ⟨site, _, rfl⟩ := List.mem_map.mp inSymbol
    exact ⟨(List.mem_filter.mp callable).1, resolveCallSite_some resolved⟩

def filesAfter (self : GraphResolver) (path : String) : List ParsedFile := (self.files.dropWhile (·.path ≠ path)).tail

/-- A file after the one at `path` defines a symbol of the same identity. -/
def Redefined (self : GraphResolver) (path : String) (identity : SymbolIdentity) : Prop :=
  ∃ file ∈ self.filesAfter path, identity ∈ file.symbols.map (·.identity)

theorem files_split (paths : (self.files.map (·.path)).Nodup) (member : parsed ∈ self.files) :
    ∃ before, self.files = before ++ parsed :: self.filesAfter parsed.path := by
  unfold filesAfter
  cases rest : self.files.dropWhile (·.path ≠ parsed.path) with
  | nil =>
    have all := List.dropWhile_eq_nil_iff.mp rest parsed member
    simp at all
  | cons first later =>
    have isFirst : first.path = parsed.path := by
      have stops := List.head?_dropWhile_not (fun file : ParsedFile => file.path ≠ parsed.path) self.files
      rw [rest] at stops
      simpa using stops
    have split := List.takeWhile_append_dropWhile (p := fun file : ParsedFile => file.path ≠ parsed.path)
      (l := self.files)
    rw [rest] at split
    have listed : first ∈ self.files := by
      rw [← split]
      simp
    obtain rfl := List.inj_on_of_nodup_map paths listed member isFirst
    exact ⟨_, split.symm⟩

end GraphResolver

theorem GraphResolver.symbol_key {self : GraphResolver} (reads : self.Reads) {parsed : ParsedFile}
    (member : parsed ∈ self.files) {symbol : ParsedSymbol} (inFile : symbol ∈ parsed.symbols) :
    symbol.graphKey = (revisionKey self.repositoryId self.revision, symbol.identity.key) ∧ symbol.identity.Plain ∧
      symbol.path = parsed.path ∧ symbol.qualifiedName = symbol.identity.qualifiedName ∧
      symbol.identity.repositoryId = self.repositoryId ∧ symbol.identity.revision = self.revision := by
  have read := reads parsed member
  have declares := read.declares symbol inFile
  have repositoryId : symbol.identity.repositoryId = self.repositoryId := by
    rw [declares.identity]
    exact read.repositoryId
  have revision : symbol.identity.revision = self.revision := by
    rw [declares.identity]
    exact read.revision
  refine ⟨?_, declares.plain, declares.path, ?_, repositoryId, revision⟩
  · rw [ParsedSymbol.graphKey, repositoryId, revision]
    rfl
  · rw [declares.identity]
    rfl

structure Stores (graph : InMemoryCodeGraph) (resolver : GraphResolver) : Prop where
  reads : resolver.Reads
  paths : (resolver.files.map (·.path)).Nodup
  symbols : graph.listSymbols resolver.repositoryId resolver.revision =
    ((resolver.files.flatMap (·.symbols) ++ resolver.files.flatMap (·.symbols)).foldl Keyed.upsert
      (Keyed.empty : Keyed ParsedSymbol.graphKey)).items

namespace Stores
variable {graph : InMemoryCodeGraph} {self : GraphResolver} {parsed : ParsedFile} {symbol stored : ParsedSymbol}

theorem mem_listSymbols (stores : Stores graph self) (listed : symbol ∈ graph.listSymbols self.repositoryId self.revision) :
    ∃ parsed ∈ self.files, symbol ∈ parsed.symbols := by
  rw [stores.symbols] at listed
  rcases Keyed.mem_foldl_upsert listed with start | given
  · simp at start
  · exact List.mem_flatMap.mp (by simpa using given)

theorem last_iff (stores : Stores graph self) :
    symbol ∈ graph.listSymbols self.repositoryId self.revision ↔
      LastWriter.last ParsedSymbol.graphKey (self.files.flatMap (·.symbols)) symbol.graphKey = some symbol := by
  have read := Keyed.laws.get_foldl (self.files.flatMap (·.symbols) ++ self.files.flatMap (·.symbols))
    (Keyed.empty : Keyed ParsedSymbol.graphKey) symbol.graphKey
  have twice : ∀ found : Option ParsedSymbol, (found.or found).or ((Keyed.empty : Keyed ParsedSymbol.graphKey).get symbol.graphKey) =
      found := by
    intro found
    cases found <;> rfl
  rw [LastWriter.last_append, twice] at read
  rw [stores.symbols, ← read, Keyed.get_eq_some]
  exact (and_iff_left rfl).symm

theorem stored_path (stores : Stores graph self) (member : parsed ∈ self.files) (inFile : symbol ∈ parsed.symbols) :
    ∃ stored ∈ graph.listSymbols self.repositoryId self.revision, stored.identity = symbol.identity ∧
      (stored.path = symbol.path ↔ ¬ self.Redefined parsed.path symbol.identity) := by
  obtain ⟨before, split⟩ := GraphResolver.files_split stores.paths member
  have isSymbol := GraphResolver.symbol_key stores.reads member inFile
  have sameIdentity : ∀ file ∈ self.files, ∀ other ∈ file.symbols, other.graphKey = symbol.graphKey →
      other.identity = symbol.identity := by
    intro file inMap other defined same
    have isOther := GraphResolver.symbol_key stores.reads inMap defined
    rw [isSymbol.1, isOther.1] at same
    exact SymbolIdentity.key_injective isOther.2.1 isSymbol.2.1 (isOther.2.2.2.2.1.trans isSymbol.2.2.2.2.1.symm)
      (isOther.2.2.2.2.2.trans isSymbol.2.2.2.2.2.symm) (congrArg Prod.snd same)
  have whole : LastWriter.last ParsedSymbol.graphKey (self.files.flatMap (·.symbols)) symbol.graphKey =
      (LastWriter.last ParsedSymbol.graphKey ((self.filesAfter parsed.path).flatMap (·.symbols)) symbol.graphKey).or
        ((LastWriter.last ParsedSymbol.graphKey parsed.symbols symbol.graphKey).or
          (LastWriter.last ParsedSymbol.graphKey (before.flatMap (·.symbols)) symbol.graphKey)) := by
    have parts : self.files.flatMap (·.symbols) = (before.flatMap (·.symbols) ++ parsed.symbols) ++
        (self.filesAfter parsed.path).flatMap (·.symbols) := by
      conv_lhs => rw [split]
      simp
    rw [parts, LastWriter.last_append, LastWriter.last_append]
  cases later : LastWriter.last ParsedSymbol.graphKey ((self.filesAfter parsed.path).flatMap (·.symbols))
      symbol.graphKey with
  | some other =>
    obtain ⟨defined, same⟩ := LastWriter.last_eq_some later
    obtain ⟨file, isLater, defined⟩ := List.mem_flatMap.mp defined
    have inMap : file ∈ self.files := by
      rw [split]
      exact List.mem_append_right _ (List.mem_cons_of_mem _ isLater)
    have identity := sameIdentity file inMap other defined same
    refine ⟨other, stores.last_iff.mpr ?_, identity, ?_⟩
    · rw [same, whole, later, Option.some_or]
    · have paths := stores.paths
      rw [split, List.map_append, List.nodup_append, List.map_cons, List.nodup_cons] at paths
      have otherPath : other.path ≠ symbol.path := by
        rw [(GraphResolver.symbol_key stores.reads inMap defined).2.2.1, isSymbol.2.2.1]
        intro equal
        exact paths.2.1.1 (List.mem_map.mpr ⟨file, isLater, equal⟩)
      have redefined : self.Redefined parsed.path symbol.identity :=
        ⟨file, isLater, identity ▸ List.mem_map_of_mem defined⟩
      exact iff_of_false otherPath (not_not_intro redefined)
  | none =>
    obtain ⟨own, found⟩ := LastWriter.exists_last ParsedSymbol.graphKey inFile
    obtain ⟨defined, same⟩ := LastWriter.last_eq_some found
    refine ⟨own, stores.last_iff.mpr ?_, sameIdentity parsed member own defined same, ?_⟩
    · rw [same, whole, later, found]
      rfl
    · have ownPath : own.path = symbol.path := by
        rw [(GraphResolver.symbol_key stores.reads member defined).2.2.1, isSymbol.2.2.1]
      refine iff_of_true ownPath ?_
      rintro ⟨file, isLater, defines⟩
      obtain ⟨other, defined, identity⟩ := List.mem_map.mp defines
      have inMap : file ∈ self.files := by
        rw [split]
        exact List.mem_append_right _ (List.mem_cons_of_mem _ isLater)
      have key : other.graphKey = symbol.graphKey := by
        rw [(GraphResolver.symbol_key stores.reads inMap defined).1, isSymbol.1, identity]
      obtain ⟨last, present⟩ := LastWriter.exists_last ParsedSymbol.graphKey
        (List.mem_flatMap.mpr ⟨file, isLater, defined⟩)
      rw [key, later] at present
      cases present

theorem stored_unique (stores : Stores graph self) (listed : symbol ∈ graph.listSymbols self.repositoryId self.revision)
    (listed' : stored ∈ graph.listSymbols self.repositoryId self.revision) (same : stored.identity = symbol.identity) :
    stored = symbol := by
  have first := stores.last_iff.mp listed
  have second := stores.last_iff.mp listed'
  have key : stored.graphKey = symbol.graphKey :=
    congrArg (fun identity => (revisionKey identity.repositoryId identity.revision, identity.key)) same
  rw [key, first] at second
  exact (Option.some.inj second).symm

theorem path_iff (stores : Stores graph self) (member : parsed ∈ self.files) (inFile : symbol ∈ parsed.symbols) :
    (∃ stored ∈ graph.listSymbols self.repositoryId self.revision,
        stored.identity = symbol.identity ∧ stored.path = symbol.path) ↔
      ¬ self.Redefined symbol.path symbol.identity := by
  obtain ⟨stored, listed, identity, atPath⟩ := stores.stored_path member inFile
  rw [(GraphResolver.symbol_key stores.reads member inFile).2.2.1] at atPath ⊢
  constructor
  · rintro ⟨other, listed', identity', path⟩
    obtain rfl := stores.stored_unique listed listed' (identity'.trans identity.symm)
    exact atPath.mp path
  · intro alone
    exact ⟨stored, listed, identity, atPath.mpr alone⟩

end Stores

/-- A stored relation that the resolver made: it was drawn after those that the
parser read off its file. -/
def StoredRelation.ByResolver (relation : StoredRelation) (resolver : GraphResolver) : Prop :=
  ∃ parsed ∈ resolver.files, relation.id.path = parsed.path ∧ parsed.relations.length ≤ relation.id.draw

instance (relation : StoredRelation) (resolver : GraphResolver) : Decidable (relation.ByResolver resolver) :=
  inferInstanceAs (Decidable (∃ parsed ∈ resolver.files,
    relation.id.path = parsed.path ∧ parsed.relations.length ≤ relation.id.draw))

namespace GraphResolver
variable {self : GraphResolver} {build : Nat} {relation : StoredRelation}

theorem mem_drawn (member : relation ∈ (self.files.map self.resolved).flatMap (·.drawIds build)) :
    ∃ parsed ∈ self.files, relation.toParsedRelation ∈ parsed.relations ∨
      relation.toParsedRelation ∈ self.added parsed := by
  obtain ⟨resolved, isResolved, drawn⟩ := List.mem_flatMap.mp member
  obtain ⟨parsed, inMap, rfl⟩ := List.mem_map.mp isResolved
  exact ⟨parsed, inMap, List.mem_append.mp (mem_drawIds drawn).1⟩

variable (build) in
theorem drawn_of_read {parsed : ParsedFile} (inMap : parsed ∈ self.files) {read : ParsedRelation}
    (member : read ∈ parsed.relations) :
    ∃ relation ∈ (self.files.map self.resolved).flatMap (·.drawIds build), relation.toParsedRelation = read := by
  have given : read ∈ ((self.files.map self.resolved).flatMap (·.drawIds build)).map (·.toParsedRelation) := by
    rw [flatMap_drawIds_bare]
    exact List.mem_flatMap.mpr ⟨self.resolved parsed, List.mem_map_of_mem inMap, List.mem_append_left _ member⟩
  exact List.mem_map.mp given

variable (build) in
theorem drawn_of_added {parsed : ParsedFile} (inMap : parsed ∈ self.files) {made : ParsedRelation}
    (member : made ∈ self.added parsed) :
    ∃ relation ∈ (self.files.map self.resolved).flatMap (·.drawIds build),
      relation.toParsedRelation = made ∧ relation.ByResolver self := by
  obtain ⟨i, bound, rfl⟩ := List.mem_iff_getElem.mp member
  let relation : StoredRelation :=
    { (self.added parsed)[i] with id := ⟨build, parsed.path, parsed.relations.length + i⟩ }
  refine ⟨relation, ?_, rfl, parsed, inMap, rfl, Nat.le_add_right ..⟩
  refine List.mem_flatMap.mpr ⟨self.resolved parsed, List.mem_map_of_mem inMap, ?_⟩
  refine List.mem_mapIdx.mpr ⟨parsed.relations.length + i, ?_, ?_⟩
  · show _ < (parsed.relations ++ self.added parsed).length
    rw [List.length_append]
    omega
  · simp [resolved, relation]

theorem mem_added_of_byResolver (paths : (self.files.map (·.path)).Nodup)
    (member : relation ∈ (self.files.map self.resolved).flatMap (·.drawIds build))
    (byResolver : relation.ByResolver self) :
    ∃ parsed ∈ self.files, relation.toParsedRelation ∈ self.added parsed := by
  obtain ⟨resolved, isResolved, drawn⟩ := List.mem_flatMap.mp member
  obtain ⟨parsed, inMap, rfl⟩ := List.mem_map.mp isResolved
  obtain ⟨other, inMap', path, late⟩ := byResolver
  obtain rfl := List.inj_on_of_nodup_map paths inMap inMap' ((mem_drawIds drawn).2.2.symm.trans path)
  obtain ⟨draw, bound, rfl⟩ := List.mem_mapIdx.mp drawn
  have atDraw : parsed.relations.length ≤ draw := late
  have value := @List.getElem_append_right _ parsed.relations (self.added parsed) draw atDraw bound
  exact ⟨parsed, inMap, List.mem_of_getElem value.symm⟩

end GraphResolver

open CodeIntelligenceService

structure Integrity (graph : InMemoryCodeGraph) (resolver : GraphResolver) : Prop where
  ends : ∀ relation ∈ graph.listRelations resolver.repositoryId resolver.revision,
    (∃ symbol ∈ graph.listSymbols resolver.repositoryId resolver.revision,
      symbol.identityKey = relation.sourceIdentity.key) ∧
    ∃ symbol ∈ graph.listSymbols resolver.repositoryId resolver.revision,
      symbol.identityKey = relation.targetIdentity.key
  paths : ∀ relation ∈ graph.listRelations resolver.repositoryId resolver.revision,
    (∃ symbol ∈ graph.listSymbols resolver.repositoryId resolver.revision,
      symbol.identity = relation.sourceIdentity ∧ symbol.path = relation.sourcePath) ∧
    ∃ symbol ∈ graph.listSymbols resolver.repositoryId resolver.revision,
      symbol.identity = relation.targetIdentity ∧ some symbol.path = relation.targetPath
  apart : ∀ relation ∈ graph.listRelations resolver.repositoryId resolver.revision,
    relation.ByResolver resolver → relation.sourceIdentity ≠ relation.targetIdentity
  called : ∀ relation qualifiedName,
    relation ∈ whatCalls graph resolver.repositoryId resolver.revision qualifiedName →
    relation ∈ whatIsCalledBy graph resolver.repositoryId resolver.revision relation.sourceIdentity.qualifiedName
  calling : ∀ relation qualifiedName,
    relation ∈ whatIsCalledBy graph resolver.repositoryId resolver.revision qualifiedName →
    relation ∈ whatCalls graph resolver.repositoryId resolver.revision relation.targetIdentity.qualifiedName

/-- No definition at an end of a relation is defined again by a later file, and
nothing refers to another definition of its own identity. -/
structure Separate (resolver : GraphResolver) : Prop where
  read : ∀ parsed ∈ resolver.files, ∀ relation ∈ parsed.relations,
    ¬ resolver.Redefined parsed.path relation.sourceIdentity ∧ ¬ resolver.Redefined parsed.path relation.targetIdentity
  referring : ∀ parsed ∈ resolver.files, ∀ source target, resolver.Refers parsed source target →
    source.id ≠ target.id → source.identity ≠ target.identity ∧ ¬ resolver.Redefined source.path source.identity ∧
      ¬ resolver.Redefined target.path target.identity

section Stored
variable {graph : InMemoryCodeGraph} {self : GraphResolver} {build : Nat}

theorem relation_ends (reads : self.Reads) {parsed : ParsedFile} (inMap : parsed ∈ self.files) {relation : ParsedRelation}
    (member : relation ∈ parsed.relations ∨ relation ∈ self.added parsed) :
    (∃ file ∈ self.files, ∃ symbol ∈ file.symbols, symbol.identity = relation.sourceIdentity ∧
      symbol.path = relation.sourcePath) ∧
    ∃ file ∈ self.files, ∃ symbol ∈ file.symbols, symbol.identity = relation.targetIdentity ∧
      some symbol.path = relation.targetPath := by
  rcases member with read | added
  · have relates := (reads parsed inMap).relates relation read
    obtain ⟨source, inFile, isSource⟩ := List.mem_map.mp relates.source
    obtain ⟨target, inFile', isTarget⟩ := List.mem_map.mp relates.target
    refine ⟨⟨parsed, inMap, source, inFile, isSource, ?_⟩, ⟨parsed, inMap, target, inFile', isTarget, ?_⟩⟩
    · rw [(GraphResolver.symbol_key reads inMap inFile).2.2.1, relates.sourcePath]
      rfl
    · rw [(GraphResolver.symbol_key reads inMap inFile').2.2.1, relates.targetPath]
      rfl
  · obtain ⟨source, target, refers, _, joins⟩ := GraphResolver.mem_added added
    obtain ⟨inFile, file, inMap', inFile'⟩ := refers.defined
    exact ⟨⟨parsed, inMap, source, inFile, joins.sourceIdentity.symm, joins.sourcePath.symm⟩,
      ⟨file, inMap', target, inFile', joins.targetIdentity.symm, joins.targetPath.symm⟩⟩

theorem relation_paths_iff (stores : Stores graph self) {parsed : ParsedFile} (inMap : parsed ∈ self.files)
    {relation : ParsedRelation} (member : relation ∈ parsed.relations ∨ relation ∈ self.added parsed) {path : String}
    (isPath : relation.targetPath = some path) :
    ((∃ symbol ∈ graph.listSymbols self.repositoryId self.revision,
        symbol.identity = relation.sourceIdentity ∧ symbol.path = relation.sourcePath) ∧
      ∃ symbol ∈ graph.listSymbols self.repositoryId self.revision,
        symbol.identity = relation.targetIdentity ∧ some symbol.path = relation.targetPath) ↔
      ¬ self.Redefined relation.sourcePath relation.sourceIdentity ∧
        ¬ self.Redefined path relation.targetIdentity := by
  obtain ⟨⟨file, inMap', source, inFile, isSource, sourcePath⟩, ⟨file', inMap'', target, inFile', isTarget, targetPath⟩⟩ :=
    relation_ends stores.reads inMap member
  rw [isPath, Option.some.injEq] at targetPath
  have first := stores.path_iff inMap' inFile
  have second := stores.path_iff inMap'' inFile'
  rw [isSource, sourcePath] at first
  rw [isTarget, targetPath] at second
  rw [first, isPath]
  simp only [Option.some.injEq]
  rw [second]

theorem mem_findSymbol (stores : Stores graph self) {symbol : ParsedSymbol}
    (listed : symbol ∈ graph.listSymbols self.repositoryId self.revision) :
    symbol ∈ graph.findSymbol self.repositoryId self.revision symbol.identity.qualifiedName := by
  obtain ⟨parsed, inMap, inFile⟩ := stores.mem_listSymbols listed
  exact List.mem_filter.mpr ⟨listed, by simp [(GraphResolver.symbol_key stores.reads inMap inFile).2.2.2.1]⟩

theorem called_iff {keys : List String} {key : String} {relationType : CodeRelationType} :
    (keys.contains key && decide (relationType = .calls)) = true ↔ key ∈ keys ∧ relationType = .calls := by
  simp

theorem integrity_iff_separate (stores : Stores graph self)
    (relations : graph.listRelations self.repositoryId self.revision =
      (self.files.map self.resolved).flatMap (·.drawIds build)) : Integrity graph self ↔ Separate self := by
  have stored : ∀ file ∈ self.files, ∀ symbol ∈ file.symbols, ∃ stored ∈ graph.listSymbols self.repositoryId self.revision,
      stored.identity = symbol.identity := by
    intro file inMap symbol inFile
    obtain ⟨stored, listed, identity, _⟩ := stores.stored_path inMap inFile
    exact ⟨stored, listed, identity⟩
  have ends : ∀ relation ∈ graph.listRelations self.repositoryId self.revision,
      (∃ symbol ∈ graph.listSymbols self.repositoryId self.revision, symbol.identity = relation.sourceIdentity) ∧
      ∃ symbol ∈ graph.listSymbols self.repositoryId self.revision, symbol.identity = relation.targetIdentity := by
    intro relation member
    rw [relations] at member
    obtain ⟨parsed, inMap, origin⟩ := GraphResolver.mem_drawn member
    obtain ⟨⟨file, inMap', source, inFile, isSource, _⟩, ⟨file', inMap'', target, inFile', isTarget, _⟩⟩ :=
      relation_ends stores.reads inMap origin
    obtain ⟨symbol, listed, identity⟩ := stored file inMap' source inFile
    obtain ⟨symbol', listed', identity'⟩ := stored file' inMap'' target inFile'
    exact ⟨⟨symbol, listed, identity.trans isSource⟩, ⟨symbol', listed', identity'.trans isTarget⟩⟩
  constructor
  · intro integrity
    constructor
    · intro parsed inMap relation member
      have relates := (stores.reads parsed inMap).relates relation member
      obtain ⟨drawn, inDrawn, rfl⟩ := GraphResolver.drawn_of_read build inMap member
      have settled := (relation_paths_iff stores inMap (Or.inl member) relates.targetPath).mp
        (integrity.paths drawn (relations ▸ inDrawn))
      rw [relates.sourcePath] at settled
      exact settled
    · intro parsed inMap source target refers different
      obtain ⟨relation, member, joins⟩ := GraphResolver.added_of_refers refers different
      obtain ⟨drawn, inDrawn, rfl, byResolver⟩ := GraphResolver.drawn_of_added build inMap member
      have settled := (relation_paths_iff stores inMap (Or.inr member) joins.targetPath).mp
        (integrity.paths drawn (relations ▸ inDrawn))
      have apart := integrity.apart drawn (relations ▸ inDrawn) byResolver
      rw [joins.sourceIdentity, joins.targetIdentity] at apart
      rw [joins.sourcePath, joins.sourceIdentity, joins.targetIdentity] at settled
      exact ⟨apart, settled⟩
  · intro separate
    constructor
    · intro relation member
      obtain ⟨⟨symbol, listed, identity⟩, ⟨symbol', listed', identity'⟩⟩ := ends relation member
      exact ⟨⟨symbol, listed, congrArg SymbolIdentity.key identity⟩,
        ⟨symbol', listed', congrArg SymbolIdentity.key identity'⟩⟩
    · intro relation member
      rw [relations] at member
      obtain ⟨parsed, inMap, origin⟩ := GraphResolver.mem_drawn member
      rcases origin with read | added
      · have relates := (stores.reads parsed inMap).relates _ read
        refine (relation_paths_iff stores inMap (Or.inl read) relates.targetPath).mpr ?_
        rw [relates.sourcePath]
        exact separate.read parsed inMap _ read
      · obtain ⟨source, target, refers, different, joins⟩ := GraphResolver.mem_added added
        refine (relation_paths_iff stores inMap (Or.inr added) joins.targetPath).mpr ?_
        rw [joins.sourcePath, joins.sourceIdentity, joins.targetIdentity]
        exact (separate.referring parsed inMap source target refers different).2
    · intro relation member byResolver
      rw [relations] at member
      obtain ⟨parsed, inMap, added⟩ := GraphResolver.mem_added_of_byResolver stores.paths member byResolver
      obtain ⟨source, target, refers, different, joins⟩ := GraphResolver.mem_added added
      rw [joins.sourceIdentity, joins.targetIdentity]
      exact (separate.referring parsed inMap source target refers different).1
    · intro relation qualifiedName member
      obtain ⟨listed, calls⟩ := List.mem_filter.mp member
      obtain ⟨⟨symbol, isListed, identity⟩, _⟩ := ends relation listed
      have found := mem_findSymbol stores isListed
      rw [identity] at found
      exact List.mem_filter.mpr ⟨listed, called_iff.mpr
        ⟨List.mem_map.mpr ⟨symbol, found, congrArg SymbolIdentity.key identity⟩, (called_iff.mp calls).2⟩⟩
    · intro relation qualifiedName member
      obtain ⟨listed, calls⟩ := List.mem_filter.mp member
      obtain ⟨_, ⟨symbol, isListed, identity⟩⟩ := ends relation listed
      have found := mem_findSymbol stores isListed
      rw [identity] at found
      exact List.mem_filter.mpr ⟨listed, called_iff.mpr
        ⟨List.mem_map.mpr ⟨symbol, found, congrArg SymbolIdentity.key identity⟩, (called_iff.mp calls).2⟩⟩

end Stored

namespace CodeIntelligenceService

theorem separate_models : Separate (twoModules.resolver (.v5 "repository") "r1" modelsCall.files) := by
  have files : (twoModules.resolver (.v5 "repository") "r1" modelsCall.files).files =
      [twoModules.parser.parsedFile (.v5 "repository") "r1" "app/models.py" "class Base: ..."
        { body := [.classDef { name := baseName }] }] := rfl
  constructor
  · intro parsed inMap relation member
    rw [files, List.mem_singleton] at inMap
    subst inMap
    cases member
  · intro parsed inMap source target refers
    rw [files, List.mem_singleton] at inMap
    subst inMap
    cases refers with
    | imports listed => cases listed
    | calls isSite => cases isSite

def nodeName : Identifier := ⟨"Node", by decide, Identifier.plain_of_all rfl⟩

def sizeName : Identifier := ⟨"size", by decide, Identifier.plain_of_all rfl⟩

def childName : Identifier := ⟨"child", by decide, Identifier.plain_of_all rfl⟩

def selfIdentifier : Identifier := ⟨"self", by decide, Identifier.plain_of_all rfl⟩

/-- A class whose method `size` is defined twice, the second time by a call of
`size` on a child of the class. -/
def nodeClass : Ast.ClassDef where
  name := nodeName
  functions :=
    [{ name := ⟨"__init__", by decide, Identifier.plain_of_all rfl⟩, calls := [.name nodeName]
       assigns := [⟨[.attribute (.name selfIdentifier) childName], .call (.name nodeName)⟩] },
      { name := sizeName },
      { name := sizeName, calls := [.attribute (.attribute (.name selfIdentifier) childName) sizeName] }]

def nodeModule : CodeIntelligenceService where
  parser := { contentHash := id, astParse := fun _ => some { body := [.classDef nodeClass] } }

def nodeFile : Keyed SourceFile.path := Keyed.empty.upsert ⟨"node.py", "class Node: ..."⟩

end CodeIntelligenceService

end Brain
