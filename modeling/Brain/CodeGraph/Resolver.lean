import Brain.Application.CodeIntelligence
import Brain.CodeGraph.Builder
import Brain.Lib.Checked
import Mathlib.Data.List.ReduceOption

namespace Brain

def ParsedFile.context (parsed : ParsedFile) : FileContext :=
  ⟨parsed.repositoryId, parsed.revision, parsed.path, parsed.module⟩

/-- What holds of a file that the parser gives, before and after it is resolved
as far as its symbols go. -/
structure ParsedFile.Read (repositoryId : RepositoryId) (revision : String) (parsed : ParsedFile) : Prop where
  repositoryId : parsed.repositoryId = repositoryId
  revision : parsed.revision = revision
  module : parsed.moduleSymbol.isSome
  declares : ∀ symbol ∈ parsed.symbols, parsed.context.Declares symbol
  relates : ∀ relation ∈ parsed.relations, parsed.context.Relates parsed.symbols relation

theorem PythonAstParser.parsedFile_read (self : PythonAstParser) (repositoryId : RepositoryId)
    (revision path content : String) (tree : Ast.Module) :
    (self.parsedFile repositoryId revision path content tree).Read repositoryId revision := by
  have built := @FileContext.build_built ⟨repositoryId, revision, path, moduleFromPath path⟩ tree
  exact ⟨rfl, rfl, built.module, built.declares, built.relates⟩

namespace GraphResolver
variable {self : GraphResolver} {parsed : ParsedFile}

/-- The resolver works on files that the parser gave. -/
def Reads (self : GraphResolver) : Prop := ∀ parsed ∈ self.files, parsed.Read self.repositoryId self.revision

theorem moduleToFile_some {module : String} (found : self.moduleToFile module = some parsed) :
    parsed ∈ self.files ∧ parsed.module = module := by
  have member := List.mem_of_getLast? found
  simpa using member

theorem moduleToFile_of_hasModule {module : String} (known : self.hasModule module = true) :
    ∃ parsed, self.moduleToFile module = some parsed := by
  obtain ⟨parsed, member, same⟩ := List.any_eq_true.mp known
  have listed : parsed ∈ self.files.filter (·.module = module) := List.mem_filter.mpr ⟨member, same⟩
  exact List.getLast?_isSome.mpr (List.ne_nil_of_mem listed) |> Option.isSome_iff_exists.mp

theorem resolveModule_known {currentModule module : String} {imp : ImportStatement}
    (resolved : self.resolveModule currentModule imp = some module) : self.hasModule module = true := by
  unfold resolveModule at resolved
  dsimp only at resolved
  have known : ∀ candidate, (if self.hasModule candidate then some candidate else none) = some module →
      self.hasModule module = true := by
    intro candidate isKnown
    split at isKnown
    · cases isKnown
      assumption
    · cases isKnown
  split at resolved
  · exact known _ resolved
  · exact known _ resolved

theorem moduleSymbol_of_hasModule (reads : self.Reads) {module : String} (known : self.hasModule module = true) :
    ∃ symbol, self.moduleSymbolFromModule module = some symbol := by
  obtain ⟨file, found⟩ := moduleToFile_of_hasModule known
  obtain ⟨symbol, isModule⟩ := Option.isSome_iff_exists.mp (reads file (moduleToFile_some found).1).module
  exact ⟨symbol, by rw [moduleSymbolFromModule, found, Option.bind_some, isModule]⟩

theorem importedModule_fst {imp : ImportStatement} {target : String × ParsedSymbol}
    (imported : self.importedModule parsed imp = some target) :
    self.resolveModule parsed.module imp = some target.1 ∧ self.moduleSymbolFromModule target.1 = some target.2 := by
  obtain ⟨module, resolved, found⟩ := Option.bind_eq_some_iff.mp imported
  obtain ⟨symbol, isModule, rfl⟩ := Option.map_eq_some_iff.mp found
  exact ⟨resolved, isModule⟩

theorem importedModule_of_resolved (reads : self.Reads) {imp : ImportStatement} {module : String}
    (resolved : self.resolveModule parsed.module imp = some module) :
    ∃ symbol, self.importedModule parsed imp = some (module, symbol) := by
  obtain ⟨symbol, isModule⟩ := moduleSymbol_of_hasModule reads (resolveModule_known resolved)
  exact ⟨symbol, by rw [importedModule, resolved, Option.bind_some, isModule, Option.map_some]⟩

def names (self : GraphResolver) (parsed : ParsedFile) : Keyed LocalName.bound :=
  parsed.imports.foldl (self.bindName parsed) Keyed.empty

def Binds (self : GraphResolver) (parsed : ParsedFile) (imp : ImportStatement) (entry : LocalName) : Prop :=
  ∃ symbol, self.importedModule parsed imp = some (entry.module, symbol) ∧ given imp.name = some entry.name ∧
    entry.bound = (given imp.asName).getD entry.name

theorem bindName_eq (names : Keyed LocalName.bound) (imp : ImportStatement) :
    (∃ entry, self.Binds parsed imp entry ∧ self.bindName parsed names imp = names.upsert entry) ∨
      (∀ entry, ¬ self.Binds parsed imp entry) ∧ self.bindName parsed names imp = names := by
  unfold bindName
  cases imported : self.importedModule parsed imp with
  | none =>
    refine Or.inr ⟨?_, rfl⟩
    rintro entry ⟨symbol, found, _⟩
    rw [imported] at found
    cases found
  | some target =>
    cases named : given imp.name with
    | none =>
      refine Or.inr ⟨?_, rfl⟩
      rintro entry ⟨symbol, _, found, _⟩
      rw [named] at found
      cases found
    | some name => exact Or.inl ⟨⟨(given imp.asName).getD name, target.1, name⟩, ⟨target.2, imported, named, rfl⟩, rfl⟩

theorem mem_foldl_bindName {imports : List ImportStatement} {names : Keyed LocalName.bound} {entry : LocalName}
    (member : entry ∈ (imports.foldl (self.bindName parsed) names).items) :
    entry ∈ names.items ∨ ∃ imp ∈ imports, self.Binds parsed imp entry := by
  induction imports generalizing names with
  | nil => exact Or.inl member
  | cons imp imports ih =>
    rcases ih member with before | ⟨later, listed, binds⟩
    · rcases @bindName_eq self parsed names imp with ⟨bound, binds, next⟩ | ⟨_, next⟩
      · rw [next] at before
        rcases Keyed.mem_upsert.mp before with rfl | ⟨old, _⟩
        · exact Or.inr ⟨imp, List.mem_cons_self .., binds⟩
        · exact Or.inl old
      · rw [next] at before
        exact Or.inl before
    · exact Or.inr ⟨later, List.mem_cons_of_mem _ listed, binds⟩

theorem mem_names {entry : LocalName} (member : entry ∈ (self.names parsed).items) :
    ∃ imp ∈ parsed.imports, self.Binds parsed imp entry := by
  rcases mem_foldl_bindName member with start | bound
  · simp at start
  · exact bound

theorem bound_foldl_bindName {imports : List ImportStatement} {names : Keyed LocalName.bound} {name : String}
    (bound : (∃ entry, names.get name = some entry) ∨
      ∃ imp ∈ imports, ∃ entry, self.Binds parsed imp entry ∧ entry.bound = name) :
    ∃ entry, (imports.foldl (self.bindName parsed) names).get name = some entry := by
  induction imports generalizing names with
  | nil => simpa using bound
  | cons imp imports ih =>
    apply ih
    rcases @bindName_eq self parsed names imp with ⟨added, binds, next⟩ | ⟨none, next⟩
    · rw [next]
      by_cases same : name = added.bound
      · exact Or.inl ⟨added, by rw [same, Keyed.get_upsert_self]⟩
      · rw [Keyed.get_upsert_ne _ same]
        rcases bound with before | ⟨other, listed, entry, bindsEntry, isName⟩
        · exact Or.inl before
        · rcases List.mem_cons.mp listed with rfl | later
          · obtain ⟨symbol, imported, named, bindsAs⟩ := binds
            obtain ⟨symbol', imported', named', bindsAs'⟩ := bindsEntry
            have sameName : added.name = entry.name := Option.some.inj (named.symm.trans named')
            rw [← sameName, ← bindsAs] at bindsAs'
            exact absurd (isName.symm.trans bindsAs') same
          · exact Or.inr ⟨other, later, entry, bindsEntry, isName⟩
    · rw [next]
      rcases bound with before | ⟨other, listed, entry, bindsEntry, isName⟩
      · exact Or.inl before
      · rcases List.mem_cons.mp listed with rfl | later
        · exact absurd bindsEntry (none entry)
        · exact Or.inr ⟨other, later, entry, bindsEntry, isName⟩

theorem names_get_iff {name : String} :
    (∃ entry, (self.names parsed).get name = some entry) ↔
      ∃ imp ∈ parsed.imports, ∃ entry, self.Binds parsed imp entry ∧ entry.bound = name := by
  constructor
  · rintro ⟨entry, found⟩
    obtain ⟨member, isName⟩ := Keyed.get_eq_some.mp found
    obtain ⟨imp, listed, binds⟩ := mem_names member
    exact ⟨imp, listed, entry, binds, isName⟩
  · intro bound
    exact bound_foldl_bindName (Or.inr bound)

/-- A base of a class starts with an imported name. -/
def Inherits (self : GraphResolver) (parsed : ParsedFile) : Prop :=
  ∃ declared ∈ declaredBases parsed, ∃ entry, (self.names parsed).get (firstPart declared.2) = some entry

def added (self : GraphResolver) (parsed : ParsedFile) : List ParsedRelation :=
  parsed.imports.filterMap (self.importRelation parsed) ++
    (sites parsed).filterMap (self.callRelation parsed (self.names parsed)) ++
    match isTestPath parsed.path, parsed.moduleSymbol with
    | true, some testModuleSymbol =>
      ((self.names parsed).items.map (·.module)).eraseDups.filterMap (self.testRelation parsed testModuleSymbol)
    | _, _ => []

def resolved (self : GraphResolver) (parsed : ParsedFile) : ParsedFile :=
  { parsed with relations := parsed.relations ++ self.added parsed, localNames := some (self.names parsed) }

theorem inheritsRelation_eq (names : Keyed LocalName.bound) (declared : ParsedSymbol × String) :
    self.inheritsRelation parsed names declared =
      match names.get (firstPart declared.2) with
      | none => .ok none
      | some _ => .error ⟨"AttributeError", "'str' object has no attribute 'symbols'"⟩ := by
  unfold inheritsRelation
  cases names.get (firstPart declared.2) <;> rfl

def beforeInheritance (self : GraphResolver) (parsed : ParsedFile) : ParsedFile :=
  { parsed with
    relations := parsed.relations ++ parsed.imports.filterMap (self.importRelation parsed) ++
      (sites parsed).filterMap (self.callRelation parsed (self.names parsed))
    localNames := some (self.names parsed) }

theorem resolveFile_eq (parsed : ParsedFile) :
    self.resolveFile parsed =
      ((declaredBases parsed).mapM (self.inheritsRelation parsed (self.names parsed)) >>= fun relations =>
        pure (self.resolveTestRelations { self.beforeInheritance parsed with
          relations := (self.beforeInheritance parsed).relations ++ relations.reduceOption })) := by
  have reached : self.resolveCrossModuleCalls (self.resolveFileImports parsed) = self.beforeInheritance parsed := rfl
  unfold resolveFile
  rw [reached]
  show Except.map _ ((declaredBases parsed).mapM (self.inheritsRelation parsed (self.names parsed)) >>= _) = _
  cases (declaredBases parsed).mapM (self.inheritsRelation parsed (self.names parsed)) <;> rfl

theorem resolveFile_of_inherits (inherits : self.Inherits parsed) : ∃ e, self.resolveFile parsed = .error e := by
  obtain ⟨declared, member, entry, found⟩ := inherits
  have refused := Checked.mapM_of_error (f := self.inheritsRelation parsed (self.names parsed)) member
    (by rw [inheritsRelation_eq, found])
  obtain ⟨e, whole⟩ := refused
  exact ⟨e, by rw [resolveFile_eq, whole]; rfl⟩

theorem resolveTestRelations_eq (parsed : ParsedFile) :
    self.resolveTestRelations (self.beforeInheritance parsed) = self.resolved parsed := by
  unfold resolveTestRelations resolved added
  have symbol : (self.beforeInheritance parsed).moduleSymbol = parsed.moduleSymbol := rfl
  have path : (self.beforeInheritance parsed).path = parsed.path := rfl
  rw [symbol, path]
  cases isTestPath parsed.path with
  | false => simp [beforeInheritance]
  | true =>
    cases parsed.moduleSymbol with
    | none => simp [beforeInheritance]
    | some testModuleSymbol =>
      simp only [beforeInheritance, List.append_assoc]
      rfl

theorem resolveFile_of_not_inherits (alone : ¬ self.Inherits parsed) :
    self.resolveFile parsed = .ok (self.resolved parsed) := by
  have accepted : ∀ declared ∈ declaredBases parsed,
      self.inheritsRelation parsed (self.names parsed) declared = .ok none := by
    intro declared member
    rw [inheritsRelation_eq]
    cases found : (self.names parsed).get (firstPart declared.2) with
    | none => rfl
    | some entry => exact absurd ⟨declared, member, entry, found⟩ alone
  have nothing : ((declaredBases parsed).map fun _ => (none : Option ParsedRelation)).reduceOption = [] := by
    rw [List.map_const', List.reduceOption_replicate_none]
  rw [resolveFile_eq, Checked.mapM_of_ok accepted, ← resolveTestRelations_eq]
  show Except.ok (self.resolveTestRelations { self.beforeInheritance parsed with
    relations := (self.beforeInheritance parsed).relations ++ List.reduceOption _ }) = _
  rw [nothing, List.append_nil]

theorem resolve_ok_iff : (∃ files, self.resolve = .ok files) ↔ ∀ parsed ∈ self.files, ¬ self.Inherits parsed :=
  Checked.mapM_ok_iff (fun _ _ => resolveFile_of_inherits) fun _ _ => resolveFile_of_not_inherits

theorem resolve_eq_ok (alone : ∀ parsed ∈ self.files, ¬ self.Inherits parsed) :
    self.resolve = .ok (self.files.map self.resolved) :=
  Checked.mapM_of_ok fun parsed member => resolveFile_of_not_inherits (alone parsed member)

/-- A definition of a file refers to another one: the module imports a module,
or a function has a call site that resolves to a definition. -/
inductive Refers (self : GraphResolver) (parsed : ParsedFile) : ParsedSymbol → ParsedSymbol → Prop
  | imports {imp module source target} (listed : imp ∈ parsed.imports)
      (imported : self.importedModule parsed imp = some (module, target))
      (isModule : parsed.moduleSymbol = some source) : Refers self parsed source target
  | calls {call target} (isSite : call ∈ sites parsed)
      (resolved : self.resolveCallSite parsed (self.names parsed) call.1 call.2 = some target) :
      Refers self parsed call.1 target

structure Joins (resolver : GraphResolver) (source target : ParsedSymbol) (relation : ParsedRelation) : Prop where
  repositoryId : relation.repositoryId = resolver.repositoryId
  revision : relation.revision = resolver.revision
  sourceIdentity : relation.sourceIdentity = source.identity
  targetIdentity : relation.targetIdentity = target.identity
  sourcePath : relation.sourcePath = source.path
  targetPath : relation.targetPath = some target.path

section AddRelation
variable {relationType : CodeRelationType} {parsedSymbol sourceSymbol targetSymbol : Option ParsedSymbol}
  {confidence : String} {metadata : List (String × String)}

theorem addRelation_eq_some {relation : ParsedRelation}
    (made : self.addRelation parsed relationType parsedSymbol sourceSymbol targetSymbol confidence metadata =
      some relation) :
    ∃ source target, (sourceSymbol.or parsed.moduleSymbol).or parsedSymbol = some source ∧
      targetSymbol.or parsedSymbol = some target ∧ source.id ≠ target.id ∧ self.Joins source target relation := by
  unfold addRelation at made
  split at made
  · rename_i source target isSource isTarget
    split at made
    · cases made
    · rename_i different
      cases made
      exact ⟨source, target, isSource, isTarget, different, rfl, rfl, rfl, rfl, rfl, rfl⟩
  · cases made

theorem exists_addRelation {source target : ParsedSymbol}
    (isSource : (sourceSymbol.or parsed.moduleSymbol).or parsedSymbol = some source)
    (isTarget : targetSymbol.or parsedSymbol = some target) (different : source.id ≠ target.id) :
    ∃ relation, self.addRelation parsed relationType parsedSymbol sourceSymbol targetSymbol confidence metadata =
      some relation := by
  unfold addRelation
  rw [isSource, isTarget]
  exact ⟨_, if_neg different⟩

end AddRelation

theorem mem_added {relation : ParsedRelation} (member : relation ∈ self.added parsed) :
    ∃ source target, self.Refers parsed source target ∧ source.id ≠ target.id ∧ self.Joins source target relation := by
  rcases List.mem_append.mp member with resolved | tests
  · rcases List.mem_append.mp resolved with imports | calls
    · obtain ⟨imp, listed, made⟩ := List.mem_filterMap.mp imports
      obtain ⟨imported, found, made⟩ := Option.bind_eq_some_iff.mp made
      obtain ⟨source, target, isSource, isTarget, different, joins⟩ := addRelation_eq_some made
      cases isTarget
      cases isModule : parsed.moduleSymbol with
      | none =>
        rw [isModule] at isSource
        cases isSource
        exact absurd rfl different
      | some symbol =>
        rw [isModule] at isSource
        cases isSource
        exact ⟨source, imported.2, .imports listed found isModule, different, joins⟩
    · obtain ⟨call, isSite, made⟩ := List.mem_filterMap.mp calls
      obtain ⟨callee, resolved, made⟩ := Option.bind_eq_some_iff.mp made
      obtain ⟨source, target, isSource, isTarget, different, joins⟩ := addRelation_eq_some made
      cases isSource
      cases isTarget
      exact ⟨call.1, callee, .calls isSite resolved, different, joins⟩
  · split at tests
    · rename_i testModuleSymbol _ isModule
      obtain ⟨module, listed, made⟩ := List.mem_filterMap.mp tests
      obtain ⟨callee, isTarget, made⟩ := Option.bind_eq_some_iff.mp made
      obtain ⟨source, target, isSource, same, different, joins⟩ := addRelation_eq_some made
      rw [isModule] at isSource
      cases isSource
      cases same
      obtain ⟨entry, inNames, rfl⟩ := List.mem_map.mp (List.mem_eraseDups.mp listed)
      obtain ⟨imp, imported, symbol, found, _⟩ := mem_names inNames
      have isSymbol := (importedModule_fst found).2
      cases Option.some.inj (isSymbol.symm.trans isTarget)
      exact ⟨testModuleSymbol, symbol, .imports imported found isModule, different, joins⟩
    · cases tests

theorem added_of_refers {source target : ParsedSymbol} (refers : self.Refers parsed source target)
    (different : source.id ≠ target.id) : ∃ relation ∈ self.added parsed, self.Joins source target relation := by
  cases refers with
  | @imports imp module _ _ listed imported isModule =>
    have made : ∃ relation,
        self.addRelation parsed .imports (some target) none none "1.0" [("module", module)] = some relation :=
      exists_addRelation (by rw [isModule]; rfl) rfl different
    obtain ⟨relation, made⟩ := made
    obtain ⟨source', target', isSource, isTarget, _, joins⟩ := addRelation_eq_some made
    rw [isModule] at isSource
    cases isSource
    cases isTarget
    refine ⟨relation, List.mem_append_left _ (List.mem_append_left _ ?_), joins⟩
    refine List.mem_filterMap.mpr ⟨imp, listed, ?_⟩
    rw [importRelation, imported, Option.bind_some, made]
  | @calls call _ isSite resolved =>
    have made : ∃ relation, self.addRelation parsed (callType call.2 target) none (some call.1) (some target) "0.8"
        [("call_site", call.2.text)] = some relation := exists_addRelation rfl rfl different
    obtain ⟨relation, made⟩ := made
    obtain ⟨source', target', isSource, isTarget, _, joins⟩ := addRelation_eq_some made
    cases isSource
    cases isTarget
    refine ⟨relation, List.mem_append_left _ (List.mem_append_right _ ?_), joins⟩
    refine List.mem_filterMap.mpr ⟨call, isSite, ?_⟩
    rw [callRelation, resolved, Option.bind_some, made]

end GraphResolver

end Brain
