import Brain.CodeGraph.MethodCalls

namespace Brain

/-- Whether a path is that of the `__init__.py` of a package. -/
def isPackageFile (path : String) : Bool := lastSegment '/' (forwardSlashes path) = "__init__.py".toList

def packageOf (module : String) (isPackage : Bool) : List String :=
  if isPackage then dotParts module else (dotParts module).dropLast

/-- What a relative import starts from: `level - 1` above a package. -/
def ancestor (package : List String) (level : Nat) : List String := package.take (package.length + 1 - level)

/-- A module is named from the package above it; without a name it is the package. -/
def under (base : String) : Option DottedName → String
  | none => base
  | some module => base ++ "." ++ module.text

/-- Python's rule for a relative import: one that climbs to the top level or
above it is an error. -/
def relativeName (package : List String) (level : Nat) (module : Option DottedName) : Option String :=
  let base := ".".intercalate (ancestor package level)
  if base = "" then none else some (under base module)

def FromImport.parts (entry : FromImport) : List String := (entry.module.map fun module => dotParts module.text).getD []

theorem DottedName.text_ne_empty (name : DottedName) : name.text ≠ "" := by
  unfold DottedName.text
  cases name.rest with
  | nil =>
    rw [List.map_nil, String.intercalate_singleton]
    exact name.first.nonempty
  | cons next rest => simp [String.intercalate_cons_cons]

theorem dropLast_iterate {α : Type} (l : List α) (n : Nat) : List.dropLast^[n] l = l.take (l.length - n) := by
  induction n with
  | zero => simp
  | succ n ih =>
    rw [Function.iterate_succ_apply', ih, List.dropLast_eq_take, List.take_take, List.length_take]
    exact congrArg (List.take · l) (by omega)

theorem intercalate_dotParts (text : String) : ".".intercalate (dotParts text) = text := by
  refine String.toList_inj.mp ?_
  have parts : (dotParts text).map String.toList = text.toList.splitOn '.' := by
    rw [dotParts, List.map_map]
    exact (List.map_congr_left fun part _ => String.toList_ofList).trans (List.map_id' _)
  rw [String.toList_intercalate, parts]
  exact List.intercalate_splitOn '.'

def FromImport.reached (entry : FromImport) (package : List String) : String :=
  ".".intercalate (ancestor package entry.level ++ entry.parts)

variable {entry : FromImport}

theorem FromImport.parts_ne_nil {module : DottedName} (named : entry.module = some module) :
    entry.parts = dotParts module.text ∧ dotParts module.text ≠ [] := by
  have parts : entry.parts = dotParts module.text := by rw [FromImport.parts, named]; rfl
  refine ⟨parts, ?_⟩
  rw [dotParts, ne_eq, List.map_eq_nil_iff]
  exact List.splitOn_ne_nil '.' module.text.toList

theorem FromImport.reached_eq {package : List String} (below : ".".intercalate (ancestor package entry.level) ≠ "") :
    entry.reached package = under (".".intercalate (ancestor package entry.level)) entry.module := by
  have some : ancestor package entry.level ≠ [] := by
    intro none
    rw [none] at below
    exact below String.intercalate_nil
  unfold reached
  cases named : entry.module with
  | none =>
    rw [FromImport.parts, named]
    exact congrArg (".".intercalate ·) (List.append_nil _)
  | some module =>
    obtain ⟨parts, nonempty⟩ := parts_ne_nil named
    rw [parts, String.intercalate_append_of_ne_nil some nonempty, intercalate_dotParts, under]

theorem relativeName_eq_some {package : List String} {name : String} :
    relativeName package entry.level entry.module = some name ↔
      ".".intercalate (ancestor package entry.level) ≠ "" ∧ entry.reached package = name := by
  unfold relativeName
  dsimp only
  split
  · rename_i top
    constructor
    · intro named
      cases named
    · intro below
      exact absurd top below.1
  · rename_i below
    rw [Option.some.injEq, FromImport.reached_eq below]
    exact ⟨fun same => ⟨below, same⟩, fun same => same.2⟩

theorem intercalate_longer {before after : List String} {part : String}
    (named : ".".intercalate (before ++ [part]) ≠ "") :
    ".".intercalate (before ++ [part] ++ after) ≠ ".".intercalate (before ++ after) := by
  intro same
  have dot : ".".length = 1 := rfl
  have lengths := congrArg String.length same
  have joined : ∀ {xs ys : List String}, xs ≠ [] → ys ≠ [] →
      (".".intercalate (xs ++ ys)).length = (".".intercalate xs).length + 1 + (".".intercalate ys).length := by
    intro xs ys some some'
    rw [String.intercalate_append_of_ne_nil some some', String.length_append, String.length_append, dot]
  rw [List.append_assoc] at lengths
  cases before with
  | nil =>
    cases after with
    | nil => exact named same
    | cons next after =>
      rw [List.nil_append, List.nil_append, joined (by simp) (by simp)] at lengths
      omega
  | cons first before =>
    cases after with
    | nil =>
      rw [List.append_nil, List.append_nil, joined (by simp) (by simp)] at lengths
      omega
    | cons next after =>
      rw [joined (by simp) (by simp), joined (by simp) (by simp), joined (by simp) (by simp)] at lengths
      omega

theorem ancestor_dropLast {parts : List String} {level : Nat} (relative : 0 < level) (inside : level ≤ parts.length) :
    ∃ part, ancestor parts level = ancestor parts.dropLast level ++ [part] := by
  have first : parts.length + 1 - level = parts.length - level + 1 := by omega
  have second : parts.length - 1 + 1 - level = parts.length - level := by omega
  refine ⟨parts[parts.length - level], ?_⟩
  unfold ancestor
  rw [List.length_dropLast, first, second, List.dropLast_eq_take, List.take_take, List.take_succ_eq_append_getElem (by omega),
    Nat.min_eq_left (by omega)]

theorem FromImport.reached_ne (relative : 0 < entry.level) {module : String} {flag own : Bool}
    (differ : flag ≠ own) (below : ".".intercalate (ancestor (packageOf module own) entry.level) ≠ "") :
    entry.reached (packageOf module own) ≠ entry.reached (packageOf module flag) := by
  have inside : entry.level ≤ (dotParts module).length := by
    by_contra above
    have top : ancestor (packageOf module own) entry.level = [] := by
      unfold ancestor packageOf
      rw [List.take_eq_nil_iff]
      cases own <;> simp <;> omega
    rw [top] at below
    exact below String.intercalate_nil
  obtain ⟨part, longer⟩ := ancestor_dropLast relative inside
  unfold reached
  cases own with
  | true =>
    obtain rfl : flag = false := by simpa using differ
    show ".".intercalate (ancestor (dotParts module) entry.level ++ entry.parts) ≠
      ".".intercalate (ancestor (dotParts module).dropLast entry.level ++ entry.parts)
    have named : ".".intercalate (ancestor (dotParts module) entry.level) ≠ "" := below
    rw [longer] at named ⊢
    exact intercalate_longer named
  | false =>
    obtain rfl : flag = true := by simpa using differ
    show ".".intercalate (ancestor (dotParts module).dropLast entry.level ++ entry.parts) ≠
      ".".intercalate (ancestor (dotParts module) entry.level ++ entry.parts)
    have some : ancestor (dotParts module).dropLast entry.level ≠ [] := by
      intro none
      have named : ".".intercalate (ancestor (dotParts module).dropLast entry.level) ≠ "" := below
      rw [none] at named
      exact named String.intercalate_nil
    have named : ".".intercalate (ancestor (dotParts module).dropLast entry.level ++ [part]) ≠ "" := by
      rw [String.intercalate_append_of_ne_nil some (by simp)]
      simp
    rw [longer]
    exact (intercalate_longer named).symm

namespace CodeIntelligenceService
variable {self : CodeIntelligenceService} {repositoryId : RepositoryId} {revision : String} {files : Keyed SourceFile.path}

def HasModule (service : CodeIntelligenceService) (files : Keyed SourceFile.path) (module : String) : Prop :=
  ∃ source ∈ service.sources files, moduleFromPath source.1.path = module

/-- A package is in a directory: a file of its name is an `__init__.py`, or there is none. -/
def HasPackage (service : CodeIntelligenceService) (files : Keyed SourceFile.path) (module : String) : Prop :=
  service.HasModule files module →
    ∃ source ∈ service.sources files, moduleFromPath source.1.path = module ∧ isPackageFile source.1.path = true

def takenForPackage (service : CodeIntelligenceService) (files : Keyed SourceFile.path) (module : String) : Bool :=
  (service.moduleSource files module).any fun source => lastSegment '/' source.1.path.toList = "__init__.py".toList

/-- An import of a file is resolved as Python resolves it, and one that takes a
submodule from its package leads to the file of the submodule. -/
structure ImportsAsPython (service : CodeIntelligenceService) (repositoryId : RepositoryId) (revision : String)
    (files : Keyed SourceFile.path) (source : SourceFile × Ast.Module) (entry : FromImport) : Prop where
  resolves : ∀ target,
    (service.resolver repositoryId revision files).resolveModule (moduleFromPath source.1.path)
        (FileContext.statement ⟨repositoryId, revision, source.1.path, moduleFromPath source.1.path⟩ entry) = some target ↔
      relativeName (packageOf (moduleFromPath source.1.path) (isPackageFile source.1.path)) entry.level entry.module =
        some target ∧ service.HasModule files target
  submodule : ∀ package,
    relativeName (packageOf (moduleFromPath source.1.path) (isPackageFile source.1.path)) entry.level entry.module =
      some package → service.HasPackage files package → service.HasModule files (package ++ "." ++ entry.name.text) →
    ∃ relation, (service.resolver repositoryId revision files).importRelation
        (service.parsedSource repositoryId revision source)
        (FileContext.statement ⟨repositoryId, revision, source.1.path, moduleFromPath source.1.path⟩ entry) =
          some relation ∧ relation.relationType = .imports ∧
      ∃ imported ∈ service.sources files, moduleFromPath imported.1.path = package ++ "." ++ entry.name.text ∧
        relation.targetPath = some imported.1.path

/-- An import stays below the top level, from a package that the resolver
recognises, or no module is where it leads; and it takes no submodule. -/
structure Climbs (service : CodeIntelligenceService) (files : Keyed SourceFile.path)
    (source : SourceFile × Ast.Module) (entry : FromImport) : Prop where
  inside : service.takenForPackage files (moduleFromPath source.1.path) = isPackageFile source.1.path ∧
      ".".intercalate (ancestor (packageOf (moduleFromPath source.1.path) (isPackageFile source.1.path)) entry.level) ≠ "" ∨
    ¬ service.HasModule files (entry.reached
      (packageOf (moduleFromPath source.1.path) (service.takenForPackage files (moduleFromPath source.1.path)))) ∧
    ∀ target, relativeName (packageOf (moduleFromPath source.1.path) (isPackageFile source.1.path)) entry.level
      entry.module = some target → ¬ service.HasModule files target
  plain : ∀ package,
    relativeName (packageOf (moduleFromPath source.1.path) (isPackageFile source.1.path)) entry.level entry.module =
      some package → service.HasPackage files package → ¬ service.HasModule files (package ++ "." ++ entry.name.text)

theorem hasModule_iff {module : String} :
    (self.resolver repositoryId revision files).hasModule module = true ↔ self.HasModule files module := by
  show (self.parseFiles repositoryId revision files).any _ = true ↔ _
  rw [parseFiles_eq, List.any_map, List.any_eq_true]
  exact exists_congr fun source => and_congr_right fun _ => decide_eq_true_iff

theorem resolveModule_relative {module : String} {file : FileContext} {entry : FromImport} (relative : 0 < entry.level)
    {target : String} :
    (self.resolver repositoryId revision files).resolveModule module (file.statement entry) = some target ↔
      entry.reached (packageOf module (self.takenForPackage files module)) = target ∧ self.HasModule files target := by
  have flag : ((self.resolver repositoryId revision files).moduleToFile module).any
      (fun file => lastSegment '/' file.path.toList = "__init__.py".toList) = self.takenForPackage files module := by
    rw [moduleToFile_eq, Option.any_map]
    rfl
  have parts : (if (file.statement entry).module = "" then [] else dotParts (file.statement entry).module) =
      entry.parts := by
    unfold FileContext.statement FromImport.parts
    cases entry.module with
    | none => rfl
    | some name => exact if_neg name.text_ne_empty
  have looked : (self.resolver repositoryId revision files).resolveModule module (file.statement entry) =
      if (self.resolver repositoryId revision files).hasModule
          (entry.reached (packageOf module (self.takenForPackage files module))) then
        some (entry.reached (packageOf module (self.takenForPackage files module))) else none := by
    unfold GraphResolver.resolveModule
    dsimp only
    have isRelative : (file.statement entry).isRelative = true := decide_eq_true relative
    have level : (file.statement entry).level = entry.level := rfl
    rw [if_pos isRelative, flag, parts, level, dropLast_iterate]
    have climbed : ∀ package : List String, package.take (package.length - (entry.level - 1)) =
        ancestor package entry.level := by
      intro package
      exact congrArg package.take (by omega)
    rw [climbed]
    rfl
  rw [looked]
  split
  · rename_i known
    rw [Option.some.injEq]
    exact ⟨fun same => ⟨same, same ▸ hasModule_iff.mp known⟩, fun found => found.1⟩
  · rename_i unknown
    constructor
    · intro found
      cases found
    · rintro ⟨rfl, found⟩
      exact absurd (hasModule_iff.mpr found) unknown

theorem importRelation_targetPath {parsed : ParsedFile} {imp : ImportStatement} {relation : ParsedRelation}
    (made : (self.resolver repositoryId revision files).importRelation parsed imp = some relation) :
    ∃ target path, (self.resolver repositoryId revision files).resolveModule parsed.module imp = some target ∧
      relation.targetPath = some path ∧ moduleFromPath path = target := by
  obtain ⟨⟨target, symbol⟩, imported, added⟩ := Option.bind_eq_some_iff.mp made
  obtain ⟨resolved, isModule⟩ := GraphResolver.importedModule_fst imported
  obtain ⟨file, isFile, isSymbol⟩ := Option.bind_eq_some_iff.mp isModule
  obtain ⟨inFiles, named⟩ := GraphResolver.moduleToFile_some isFile
  have path : symbol.path = file.path := ((resolver_reads file inFiles).declares symbol (List.mem_of_find?_eq_some isSymbol)).path
  obtain ⟨source, other, _, isOther, _, joins⟩ := GraphResolver.addRelation_eq_some added
  cases isOther
  obtain ⟨held, _, _, tree, _, rfl⟩ := mem_parseFiles.mp inFiles
  exact ⟨target, symbol.path, resolved, joins.targetPath, by rw [path]; exact named⟩

/-- Relative imports are resolved as Python resolves them exactly when they stay
inside the package of their file and take no submodule. -/
theorem importsAsPython_iff (service : CodeIntelligenceService) (repositoryId : RepositoryId) (revision : String)
    (files : Keyed SourceFile.path) (source : SourceFile × Ast.Module) (entry : FromImport) (relative : 0 < entry.level) :
    service.ImportsAsPython repositoryId revision files source entry ↔ service.Climbs files source entry := by
  let module := moduleFromPath source.1.path
  let own := packageOf module (isPackageFile source.1.path)
  let looked := entry.reached (packageOf module (service.takenForPackage files module))
  have resolved : ∀ target,
      (service.resolver repositoryId revision files).resolveModule module
        (FileContext.statement ⟨repositoryId, revision, source.1.path, module⟩ entry) = some target ↔
      looked = target ∧ service.HasModule files target := fun target => resolveModule_relative relative
  have named : ∀ target, relativeName own entry.level entry.module = some target ↔
      ".".intercalate (ancestor own entry.level) ≠ "" ∧ entry.reached own = target := fun target => relativeName_eq_some
  constructor
  · intro imports
    refine ⟨?_, ?_⟩
    · by_cases inside : service.takenForPackage files module = isPackageFile source.1.path ∧
          ".".intercalate (ancestor own entry.level) ≠ ""
      · exact Or.inl inside
      -- what Python names is not where the resolver looks
      have apart : ∀ target, relativeName own entry.level entry.module = some target → looked ≠ target := by
        intro target isName
        obtain ⟨below, rfl⟩ := (named target).mp isName
        have differ : service.takenForPackage files module ≠ isPackageFile source.1.path := fun same => inside ⟨same, below⟩
        exact (FromImport.reached_ne relative differ below).symm
      refine Or.inr ⟨?_, ?_⟩
      · intro known
        have python := ((imports.resolves looked).mp ((resolved looked).mpr ⟨rfl, known⟩)).1
        exact apart looked python rfl
      · intro target isName known
        have found := (resolved target).mp ((imports.resolves target).mpr ⟨isName, known⟩)
        exact apart target isName found.1
    · intro package isName isPackage known
      obtain ⟨relation, made, _, imported, _, isSubmodule, leads⟩ := imports.submodule package isName isPackage known
      obtain ⟨target, path, isTarget, leads', isPath⟩ := importRelation_targetPath made
      obtain rfl : imported.1.path = path := Option.some.inj (leads.symm.trans leads')
      have python := ((imports.resolves target).mp isTarget).1
      obtain rfl : package = target := Option.some.inj (isName.symm.trans python)
      have lengths := congrArg String.length (isPath.symm.trans isSubmodule)
      have dot : ".".length = 1 := rfl
      rw [String.length_append, String.length_append, dot] at lengths
      omega
  · intro climbs
    refine ⟨?_, ?_⟩
    · intro target
      rw [resolved, named]
      rcases climbs.inside with ⟨same, below⟩ | ⟨absent, unnamed⟩
      · have isOwn : looked = entry.reached own := congrArg (fun flag => entry.reached (packageOf module flag)) same
        rw [isOwn]
        exact and_congr_left fun _ => ⟨fun isTarget => ⟨below, isTarget⟩, fun python => python.2⟩
      · constructor
        · rintro ⟨rfl, known⟩
          exact absurd known absent
        · rintro ⟨python, known⟩
          exact absurd known (unnamed target ((named target).mpr python))
    · intro package isName isPackage known
      exact absurd known (climbs.plain package isName isPackage)

def configModule : DottedName where
  first := ⟨"config", by decide, Identifier.plain_of_all rfl⟩

def settingsName : Identifier := ⟨"settings", by decide, Identifier.plain_of_all rfl⟩

/-- `from .config import settings`. -/
def configImport : FromImport := ⟨some configModule, 1, settingsName, none, {}⟩

def plainModules : CodeIntelligenceService where
  parser := { contentHash := id, astParse := fun _ => some {} }

/-- The importing file at the top level or in a package, beside the module that
it names. -/
def besideConfig (folder : String) : Keyed SourceFile.path :=
  (Keyed.empty.upsert ⟨folder ++ "config.py", ""⟩).upsert ⟨folder ++ "main.py", ""⟩

theorem importsAsPython_iff_inPackage :
    plainModules.ImportsAsPython (.v5 "repository") "r1" (besideConfig "app/") (⟨"app/main.py", ""⟩, {}) configImport ↔
      plainModules.Climbs (besideConfig "app/") (⟨"app/main.py", ""⟩, {}) configImport :=
  importsAsPython_iff plainModules (.v5 "repository") "r1" (besideConfig "app/") (⟨"app/main.py", ""⟩, {}) configImport
    (by decide)

/-- A module at the top level is in no package, and its relative import is resolved. -/
theorem top_level_import_resolved :
    ¬ plainModules.ImportsAsPython (.v5 "repository") "r1" (besideConfig "") (⟨"main.py", ""⟩, {}) configImport := by
  intro imports
  have found : (plainModules.resolver (.v5 "repository") "r1" (besideConfig "")).resolveModule "main"
      (FileContext.statement ⟨.v5 "repository", "r1", "main.py", "main"⟩ configImport) = some "config" := by decide
  have module : moduleFromPath "main.py" = "main" := by decide
  have python := (imports.resolves "config").mp (by rw [module]; exact found)
  have refused : relativeName (packageOf (moduleFromPath "main.py") (isPackageFile "main.py")) 1 (some configModule) = none := by
    decide
  cases refused.symm.trans python.1

end CodeIntelligenceService

end Brain
