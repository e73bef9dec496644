import Brain.CodeGraph.ModuleCalls

namespace Brain
open LastWriter

/-! ### The names of methods -/

theorem Identifier.no_dot (identifier : Identifier) : '.' ∉ identifier.text.toList :=
  fun dot => (identifier.plain '.' dot).1 rfl

theorem dotted_inj {before before' : String} {name name' : Identifier}
    (same : before ++ "." ++ name.text = before' ++ "." ++ name'.text) : before = before' ∧ name.text = name'.text := by
  have texts := congrArg String.toList same
  simp only [String.toList_append] at texts
  have parts : before.toList ++ '.' :: name.text.toList = before'.toList ++ '.' :: name'.text.toList := by
    simpa using texts
  obtain ⟨first, second⟩ := append_separator_injective_right parts name.no_dot name'.no_dot
  exact ⟨String.toList_inj.mp first, String.toList_inj.mp second⟩

theorem dotParts_append (before : String) (name : Identifier) :
    dotParts (before ++ "." ++ name.text) = dotParts before ++ [name.text] := by
  have text : (before ++ "." ++ name.text).toList = before.toList ++ '.' :: name.text.toList := by simp
  unfold dotParts
  rw [text, List.splitOn_append_cons_self, List.splitOn_eq_singleton name.no_dot, List.map_append, List.map_singleton,
    String.ofList_toList]

/-- A class as its symbol tells it: name, qualified name and instance attributes. -/
def ParsedSymbol.classEntry (symbol : ParsedSymbol) : List (String × String × List (String × String)) :=
  match symbol.kind, symbol.metadata.instanceAttrs with
  | .class, some assigned => [(symbol.name, symbol.qualifiedName, assigned)]
  | _, _ => []

def Ast.ClassDef.entry (module : String) (node : Ast.ClassDef) : String × String × List (String × String) :=
  (node.name.text, module ++ "." ++ node.name.text, instanceAttrs node.functions)

theorem FileContext.classEntries (file : FileContext) (tree : Ast.Module) :
    (file.build tree).symbols.flatMap ParsedSymbol.classEntry =
      (tree.body.flatMap Ast.Stmt.classes).map (Ast.ClassDef.entry file.module) := by
  have view : file.ClassView ParsedSymbol.classEntry fun node => [node.entry file.module] := by
    refine ⟨fun symbol plain => ?_, fun b node => rfl⟩
    unfold ParsedSymbol.classEntry
    split
    · exact absurd ‹_› plain
    · rfl
  rw [view.build, List.map_flatMap]
  exact List.flatMap_congr fun stmt _ => (List.map_eq_flatMap ..).symm

def Ast.Module.lastClass (tree : Ast.Module) (name : String) : Option Ast.ClassDef :=
  last (fun node : Ast.ClassDef => node.name.text) (tree.body.flatMap Ast.Stmt.classes) name

/-- The name whose value or instance an attribute of a class is assigned last. -/
def Ast.Module.attributeClass (tree : Ast.Module) (owner attr : String) : Option String :=
  (tree.lastClass owner).bind fun node => (instanceAttrs node.functions).lookup attr

/-- What the methods of a class assign to an attribute of `self`. -/
def Ast.ClassDef.assigned (node : Ast.ClassDef) (attr : Identifier) : List Ast.Expr :=
  (node.functions.flatMap (·.assigns)).flatMap fun assign => assign.targets.filterMap fun
    | .attribute value name => if selfName value && name = attr then some assign.value else none
    | _ => none

namespace GraphResolver
variable {self : GraphResolver} {parsed : ParsedFile}

/-- The module and name that a name of a file stands for: what it was imported
as, or itself. -/
def standsFor (self : GraphResolver) (parsed : ParsedFile) (name : String) : String × String :=
  match (self.names parsed).get name with
  | some entry => (entry.module, entry.name)
  | none => (parsed.module, name)

/-- A method of what a name of a module stands for. -/
def methodOf (self : GraphResolver) (target : String × String) (method : String) : Option ParsedSymbol :=
  (self.byModuleSymbol target.1 target.2).bind fun classSymbol => self.findMethod classSymbol method

variable {symbol : ParsedSymbol}

theorem findMethod_module (isModule : symbol.kind = .module) (method : String) :
    self.findMethod symbol method = none := by
  rw [findMethod, if_neg]
  rw [isModule]
  exact nofun

theorem resolveImportedName_method {name : String} {entry : LocalName}
    (bound : (self.names parsed).get name = some entry) (other : Option ParsedSymbol) (method : String) :
    (((self.resolveImportedName name (self.names parsed)).or other).bind fun classSymbol =>
      self.findMethod classSymbol method) = self.methodOf (entry.module, entry.name) method := by
  obtain ⟨imp, _, symbol, imported, named, _⟩ := mem_names (Keyed.get_eq_some.mp bound).1
  have isNamed : entry.name ≠ "" := (given_eq_some.mp named).2
  have isModule := (importedModule_fst imported).2
  rw [resolveImportedName, bound, Option.bind_some, if_neg isNamed, isModule, methodOf]
  cases self.byModuleSymbol entry.module entry.name with
  | none =>
    rw [Option.none_or, Option.some_or, Option.bind_some, findMethod_module (moduleSymbolFromModule_kind isModule)]
    rfl
  | some classSymbol => rfl

theorem resolveImportedName_kind {name : String} {localNames : Keyed LocalName.bound}
    (found : self.resolveImportedName name localNames = some symbol) : symbol.kind ≠ .method := by
  intro isMethod
  obtain ⟨entry, _, found⟩ := Option.bind_eq_some_iff.mp found
  rcases Option.or_eq_some_iff.mp found with named | ⟨_, isModule⟩
  · split at named
    · cases named
    · obtain ⟨file, _, isNamed⟩ := Option.bind_eq_some_iff.mp named
      have passes := List.find?_some isNamed
      rw [isMethod] at passes
      simp [isClassOrFunction] at passes
  · rw [moduleSymbolFromModule_kind isModule] at isMethod
    cases isMethod

theorem standsFor_method (name method : String) :
    (((self.resolveImportedName name (self.names parsed)).or (self.byModuleSymbol parsed.module name)).bind fun classSymbol =>
      self.findMethod classSymbol method) = self.methodOf (self.standsFor parsed name) method := by
  unfold standsFor
  cases bound : (self.names parsed).get name with
  | none =>
    rw [resolveImportedName, bound, Option.bind_none, Option.none_or]
    rfl
  | some entry => exact resolveImportedName_method bound _ method

theorem classAttrs_lookup (qualifiedName : String) : (classAttrs parsed).lookup qualifiedName =
    (last Prod.fst ((parsed.symbols.flatMap ParsedSymbol.classEntry).map Prod.snd) qualifiedName).map Prod.snd := by
  have folded : classAttrs parsed = ((parsed.symbols.flatMap ParsedSymbol.classEntry).map Prod.snd).foldl
      (fun attrs entry => putKeyed Prod.fst entry attrs) [] := by
    rw [List.map_flatMap, List.foldl_flatMap]
    refine List.foldl_ext _ _ _ fun attrs symbol _ => ?_
    unfold ParsedSymbol.classEntry
    generalize symbol.metadata.instanceAttrs = assigned
    generalize symbol.kind = kind
    cases kind <;> cases assigned <;> rfl
  rw [folded, lookup_foldl_putKeyed]
  exact Option.or_none

theorem enclosingClass_eq {owner method : Identifier}
    (named : symbol.qualifiedName = symbol.identity.module ++ "." ++ owner.text ++ "." ++ method.text) :
    self.enclosingClass symbol = (self.moduleToFile symbol.identity.module).bind fun file =>
      file.symbols.find? fun s => s.kind = .class && s.name = owner.text := by
  have parts : dotParts symbol.qualifiedName = dotParts symbol.identity.module ++ [owner.text] ++ [method.text] := by
    rw [named, dotParts_append, dotParts_append]
  have some : 0 < (dotParts symbol.identity.module).length := by
    rw [dotParts, List.length_map]
    exact List.length_pos_of_ne_nil (List.splitOn_ne_nil _ _)
  have long : (dotParts symbol.qualifiedName).length = (dotParts symbol.identity.module).length + 2 := by
    rw [parts, List.length_append, List.length_append]
    rfl
  have second : ((dotParts symbol.qualifiedName)[(dotParts symbol.qualifiedName).length - 2]?).getD "" = owner.text := by
    rw [long, parts, List.append_assoc, Nat.add_sub_cancel, List.getElem?_append_right (Nat.le_refl _), Nat.sub_self]
    rfl
  unfold enclosingClass
  dsimp only
  rw [if_neg (by omega), second]

end GraphResolver

namespace CodeIntelligenceService
variable {self : CodeIntelligenceService} {repositoryId : RepositoryId} {revision : String} {files : Keyed SourceFile.path}

def encloses (service : CodeIntelligenceService) (files : Keyed SourceFile.path) (module owner : String) : Bool :=
  (service.moduleSource files module).any fun source => (source.2.lastClass owner).isSome

/-- What a name in a file stands for: what its last import takes from a module
of the files, or the name itself. -/
def standsFor (service : CodeIntelligenceService) (repositoryId : RepositoryId) (revision : String)
    (files : Keyed SourceFile.path) (source : SourceFile × Ast.Module) (name : String) : String × String :=
  match last LocalName.bound (service.localImports repositoryId revision files source.1.path source.2) name with
  | some entry => (entry.module, entry.name)
  | none => (moduleFromPath source.1.path, name)

/-- The class that a call in a method of `owner` names the receiver of, with the
method that it calls: `name(...).method(...)` or `self.attr.method(...)`. -/
def receiver (service : CodeIntelligenceService) (repositoryId : RepositoryId) (revision : String)
    (files : Keyed SourceFile.path) (source : SourceFile × Ast.Module) (owner : String) :
    Ast.Expr → Option ((String × String) × Identifier)
  | .attribute (.call (.name id)) method =>
    (last LocalName.bound (service.localImports repositoryId revision files source.1.path source.2) id.text).map fun entry =>
      ((entry.module, entry.name), method)
  | .attribute (.attribute value attr) method =>
    if selfName value && service.encloses files (moduleFromPath source.1.path) owner then
      (source.2.attributeClass owner attr.text).map fun name => (service.standsFor repositoryId revision files source name, method)
    else none
  | _ => none

theorem standsFor_eq (source : SourceFile × Ast.Module) (name : String) :
    (self.resolver repositoryId revision files).standsFor (self.parsedSource repositoryId revision source) name =
      self.standsFor repositoryId revision files source name := by
  unfold GraphResolver.standsFor standsFor
  rw [localNames_get]
  rfl

variable {source : SourceFile × Ast.Module}

theorem mem_classes {entry : String × String × List (String × String)} :
    (∃ symbol ∈ (self.parsedSource repositoryId revision source).symbols, entry ∈ symbol.classEntry) ↔
      ∃ node, .classDef node ∈ source.2.body ∧ node.entry (moduleFromPath source.1.path) = entry := by
  have entries := FileContext.classEntries ⟨repositoryId, revision, source.1.path, moduleFromPath source.1.path⟩ source.2
  have listed : (∃ symbol ∈ (self.parsedSource repositoryId revision source).symbols, entry ∈ symbol.classEntry) ↔
      entry ∈ (source.2.body.flatMap Ast.Stmt.classes).map (Ast.ClassDef.entry (moduleFromPath source.1.path)) := by
    rw [← List.mem_flatMap]
    exact (congrArg (entry ∈ ·) entries).to_iff
  rw [listed, List.mem_map]
  exact exists_congr fun node => and_congr_left fun _ => Ast.Module.mem_classes

variable {symbol : ParsedSymbol}

theorem mem_classEntry {entry : String × String × List (String × String)} :
    entry ∈ symbol.classEntry ↔ symbol.kind = .class ∧ symbol.name = entry.1 ∧ symbol.qualifiedName = entry.2.1 ∧
      symbol.metadata.instanceAttrs = some entry.2.2 := by
  obtain ⟨name, qualifiedName, assigned⟩ := entry
  unfold ParsedSymbol.classEntry
  split
  · rename_i isClass isAssigned
    rw [isClass, isAssigned]
    simp [eq_comm]
  · rename_i other
    refine iff_of_false List.not_mem_nil ?_
    rintro ⟨isClass, _, _, isAssigned⟩
    exact other _ isClass isAssigned

theorem lastClass_isSome {tree : Ast.Module} {name : String} :
    (tree.lastClass name).isSome = true ↔ ∃ node, .classDef node ∈ tree.body ∧ node.name.text = name := by
  rw [Option.isSome_iff_exists]
  constructor
  · rintro ⟨node, isLast⟩
    obtain ⟨member, named⟩ := last_eq_some isLast
    exact ⟨node, Ast.Module.mem_classes.mp member, named⟩
  · rintro ⟨node, inBody, rfl⟩
    exact exists_last _ (Ast.Module.mem_classes.mpr inBody)

theorem enclosingClass_name {module : String} {owner method : Identifier} (inModule : symbol.identity.module = module)
    (named : symbol.qualifiedName = module ++ "." ++ owner.text ++ "." ++ method.text) :
    ((self.resolver repositoryId revision files).enclosingClass symbol).map (·.qualifiedName) =
      if self.encloses files module owner.text then some (module ++ "." ++ owner.text) else none := by
  subst inModule
  rw [GraphResolver.enclosingClass_eq named, moduleToFile_eq, Option.bind_map, encloses]
  cases isLast : self.moduleSource files symbol.identity.module with
  | none => rfl
  | some source =>
    have inModule := (moduleSource_some isLast).2
    rw [Option.bind_some, Option.any_some]
    show ((self.parsedSource repositoryId revision source).symbols.find? _).map _ = _
    cases found : (self.parsedSource repositoryId revision source).symbols.find? fun s => s.kind = .class && s.name = owner.text with
    | none =>
      rw [if_neg]
      · rfl
      intro isClass
      obtain ⟨node, inBody, isOwner⟩ := lastClass_isSome.mp isClass
      obtain ⟨s, member, isEntry⟩ := (@mem_classes self repositoryId revision source _).mpr ⟨node, inBody, rfl⟩
      obtain ⟨kind, name, _⟩ := mem_classEntry.mp isEntry
      have fails := List.find?_eq_none.mp found s member
      rw [kind, name, show (node.entry (moduleFromPath source.1.path)).1 = owner.text from isOwner] at fails
      simp at fails
    | some s =>
      have passes := List.find?_some found
      simp only [Bool.and_eq_true, decide_eq_true_eq] at passes
      obtain ⟨k, isSymbol⟩ := List.mem_iff_getElem?.mp (List.mem_of_find?_eq_some found)
      obtain ⟨i, rfl⟩ := index_of_kind isSymbol (by rw [passes.1]; exact nofun)
      obtain ⟨_, d, isDefinition, outline, _⟩ := definition_of_symbol isSymbol
      have kind : d.kind = .class := (congrArg (fun outline => outline.2.2.1) outline).symm.trans passes.1
      have name : d.name = owner.text := (congrArg (fun outline => outline.1) outline).symm.trans passes.2
      rcases Ast.Module.definition_cases (List.mem_of_getElem? isDefinition) with ⟨_, qualified, isClass⟩ | ⟨_, _, _, _, rfl⟩
      · obtain ⟨node, inBody, isNode⟩ := isClass kind
        rw [if_pos (lastClass_isSome.mpr ⟨node, inBody, isNode.symm.trans name⟩), Option.map_some,
          show s.qualifiedName = d.qualifiedName from congrArg (fun outline => outline.2.1) outline, qualified, name, inModule]
      · cases kind

theorem attributeClass_eq (source : SourceFile × Ast.Module) (owner attr : String) :
    (((GraphResolver.classAttrs (self.parsedSource repositoryId revision source)).lookup
      (moduleFromPath source.1.path ++ "." ++ owner)).getD []).lookup attr = source.2.attributeClass owner attr := by
  have entries := FileContext.classEntries ⟨repositoryId, revision, source.1.path, moduleFromPath source.1.path⟩ source.2
  have listed : (self.parsedSource repositoryId revision source).symbols.flatMap ParsedSymbol.classEntry =
      (source.2.body.flatMap Ast.Stmt.classes).map (Ast.ClassDef.entry (moduleFromPath source.1.path)) := entries
  have isLast := @last_comp _ _ _ _ _ (fun name => moduleFromPath source.1.path ++ "." ++ name) (fun _ _ => qualified_inj)
    (fun node : Ast.ClassDef => node.name.text) (source.2.body.flatMap Ast.Stmt.classes) owner
  rw [GraphResolver.classAttrs_lookup, listed, List.map_map, last_map]
  show ((((last _ _ _).map _).map _).getD []).lookup attr = _
  rw [show (Prod.fst ∘ Prod.snd ∘ Ast.ClassDef.entry (moduleFromPath source.1.path)) =
    fun node => moduleFromPath source.1.path ++ "." ++ node.name.text from rfl, isLast]
  unfold Ast.Module.attributeClass Ast.Module.lastClass
  cases last (fun node : Ast.ClassDef => node.name.text) (source.2.body.flatMap Ast.Stmt.classes) owner <;> rfl

variable {callee : ParsedSymbol}

theorem resolveCallSite_method {owner method : Identifier}
    (inModule : symbol.identity.module = moduleFromPath source.1.path)
    (named : symbol.qualifiedName = moduleFromPath source.1.path ++ "." ++ owner.text ++ "." ++ method.text)
    (isMethod : callee.kind = .method) {func : Ast.Expr} {site : CallSite} (isSite : callSite func = some site) :
    (self.resolver repositoryId revision files).resolveCallSite (self.parsedSource repositoryId revision source)
        ((self.resolver repositoryId revision files).names (self.parsedSource repositoryId revision source)) symbol site =
          some callee ↔
      ∃ target g, self.receiver repositoryId revision files source owner.text func = some (target, g) ∧
        (self.resolver repositoryId revision files).methodOf target g.text = some callee := by
  let resolver := self.resolver repositoryId revision files
  let parsed := self.parsedSource repositoryId revision source
  have noMethod : ∀ name, resolver.resolveImportedName name (resolver.names parsed) ≠ some callee := by
    intro name found
    exact GraphResolver.resolveImportedName_kind found isMethod
  cases func with
  | name id =>
    cases isSite
    exact iff_of_false (noMethod _) (by simp [receiver])
  | «attribute» value g =>
    cases value with
    | «attribute» inner attr =>
      have isSite : (if selfName inner then some (CallSite.selfMethod attr.text g.text) else none) = some site := isSite
      by_cases isSelf : selfName inner = true
      · rw [if_pos isSelf] at isSite
        cases isSite
        have resolved : resolver.resolveCallSite parsed (resolver.names parsed) symbol (.selfMethod attr.text g.text) =
            ((resolver.enclosingClass symbol).map (·.qualifiedName)).bind fun qualifiedName =>
              ((((GraphResolver.classAttrs parsed).lookup qualifiedName).getD []).lookup attr.text).bind fun name =>
                resolver.methodOf (resolver.standsFor parsed name) g.text := by
          simp only [← GraphResolver.standsFor_method]
          rw [Option.bind_map]
          rfl
        have receives : self.receiver repositoryId revision files source owner.text (.attribute (.attribute inner attr) g) =
            if selfName inner && self.encloses files (moduleFromPath source.1.path) owner.text then
              (source.2.attributeClass owner.text attr.text).map fun name =>
                (self.standsFor repositoryId revision files source name, g)
            else none := rfl
        rw [show (self.resolver repositoryId revision files).resolveCallSite _ _ symbol _ = _ from resolved,
          enclosingClass_name inModule named, receives, isSelf, Bool.true_and]
        split
        · rw [Option.bind_some, attributeClass_eq, Option.bind_eq_some_iff]
          constructor
          · rintro ⟨name, assigned, found⟩
            rw [standsFor_eq] at found
            exact ⟨_, g, by rw [assigned]; rfl, found⟩
          · rintro ⟨target, g', given, found⟩
            obtain ⟨name, assigned, same⟩ := Option.map_eq_some_iff.mp given
            obtain ⟨rfl, rfl⟩ := Prod.mk.inj same
            exact ⟨name, assigned, by rw [standsFor_eq]; exact found⟩
        · simp
      · rw [if_neg isSelf] at isSite
        cases isSite
    | call inner =>
      cases inner with
      | name id =>
        cases isSite
        have resolved : resolver.resolveCallSite parsed (resolver.names parsed) symbol (.ctorMethod id.text g.text) =
            ((resolver.names parsed).get id.text).bind fun entry => resolver.methodOf (entry.module, entry.name) g.text := by
          cases bound : (resolver.names parsed).get id.text with
          | none =>
            rw [GraphResolver.resolveCallSite, GraphResolver.resolveImportedName, bound]
            rfl
          | some entry =>
            rw [Option.bind_some, ← GraphResolver.resolveImportedName_method bound none, Option.or_none]
            rfl
        rw [show (self.resolver repositoryId revision files).resolveCallSite _ _ symbol _ = _ from resolved,
          localNames_get, Option.bind_eq_some_iff]
        constructor
        · rintro ⟨entry, bound, found⟩
          exact ⟨_, g, by rw [receiver, bound]; rfl, found⟩
        · rintro ⟨target, g', given, found⟩
          obtain ⟨entry, bound, same⟩ := Option.map_eq_some_iff.mp given
          obtain ⟨rfl, rfl⟩ := Prod.mk.inj same
          exact ⟨entry, bound, found⟩
      | _ => cases isSite
    | name id =>
      cases isSite
      exact iff_of_false (noMethod _) (by simp [receiver])
    | other => cases isSite
  | _ => cases isSite

def firstMethod (service : CodeIntelligenceService) (files : Keyed SourceFile.path) (qualifiedName : String) :
    Option ((SourceFile × Ast.Module) × Nat) :=
  (service.sources files).findSome? fun source =>
    ((source.2.definitions (moduleFromPath source.1.path)).findIdx? fun d =>
      d.qualifiedName = qualifiedName && d.kind = .method).map (source, ·)

def firstIsClass (service : CodeIntelligenceService) (files : Keyed SourceFile.path) (target : String × String) : Bool :=
  (service.moduleSource files target.1).any fun source =>
    ((source.2.definitions target.1).find? (isNamed target.2)).any fun d => d.kind = .class

theorem findSome?_bind_iff {α β γ : Type} {f : α → Option β} {h : α → β → Option γ}
    (leads : ∀ a b, f a = some b → (h a b).isSome = true) {l : List α} {c : γ} :
    (l.findSome? fun a => (f a).bind (h a)) = some c ↔
      ∃ a b, (l.findSome? fun a => (f a).map (a, ·)) = some (a, b) ∧ h a b = some c := by
  induction l with
  | nil => simp
  | cons a l ih =>
    cases found : f a with
    | none => simpa [List.findSome?_cons, found] using ih
    | some b =>
      obtain ⟨c', isSome⟩ := Option.isSome_iff_exists.mp (leads a b found)
      simp [found, isSome]

theorem findMethod_iff {classSymbol : ParsedSymbol} (isClass : classSymbol.kind = .class) {method : String} :
    (self.resolver repositoryId revision files).findMethod classSymbol method = some callee ↔
      ∃ source j, self.firstMethod files (classSymbol.qualifiedName ++ "." ++ method) = some (source, j) ∧
        (self.parsedSource repositoryId revision source).symbols[j + 1]? = some callee := by
  let qualifiedName := classSymbol.qualifiedName ++ "." ++ method
  let passes : String × String × SymbolKind × Option (List CallSite) → Bool := fun outline =>
    outline.2.1 = qualifiedName && outline.2.2.1 = .method
  have searched : (self.resolver repositoryId revision files).findMethod classSymbol method =
      (self.sources files).findSome? fun source =>
        ((source.2.definitions (moduleFromPath source.1.path)).findIdx? (passes ∘ Ast.Definition.outline)).bind fun j =>
          (self.parsedSource repositoryId revision source).symbols[j + 1]? := by
    rw [GraphResolver.findMethod, if_pos isClass, show (self.resolver repositoryId revision files).files = _ from parseFiles_eq,
      List.find?_flatMap, List.findSome?_map]
    refine congrArg (List.findSome? · _) (funext fun source => ?_)
    exact @symbols_find? self repositoryId revision source passes fun _ _ _ => by simp [passes]
  rw [searched]
  refine findSome?_bind_iff fun source j found => ?_
  obtain ⟨bound, _⟩ := List.findIdx?_eq_some_iff_getElem.mp found
  obtain ⟨symbol, isSymbol, _⟩ := @symbol_of_definition self repositoryId revision source j _ (List.getElem?_eq_getElem bound)
  rw [isSymbol]
  rfl

theorem methodOf_iff {target : String × String} {method : String} :
    (self.resolver repositoryId revision files).methodOf target method = some callee ↔
      self.firstIsClass files target = true ∧ ∃ source j,
        self.firstMethod files (target.1 ++ "." ++ target.2 ++ "." ++ method) = some (source, j) ∧
        (self.parsedSource repositoryId revision source).symbols[j + 1]? = some callee := by
  -- the class or function of the name, by its symbol
  have isNamedClass : ∀ {classSymbol : ParsedSymbol},
      (self.resolver repositoryId revision files).byModuleSymbol target.1 target.2 = some classSymbol →
      (classSymbol.kind = .class ↔ self.firstIsClass files target = true) ∧
        (classSymbol.kind = .class → classSymbol.qualifiedName = target.1 ++ "." ++ target.2) := by
    intro classSymbol found
    obtain ⟨source, j, isLast, isFirst, isSymbol⟩ := byModuleSymbol_iff.mp found
    have inModule := (moduleSource_some isLast).2
    obtain ⟨_, d, isDefinition, outline, _⟩ := definition_of_symbol isSymbol
    have kind : classSymbol.kind = d.kind := congrArg (fun outline => outline.2.2.1) outline
    have isFirstNamed : (source.2.definitions target.1).find? (isNamed target.2) = some d := by
      rw [← inModule, List.find?_eq_bind_findIdx?_getElem?, isFirst]
      exact isDefinition
    have passes := List.find?_some isFirstNamed
    simp only [isNamed, Bool.and_eq_true, decide_eq_true_eq] at passes
    refine ⟨?_, fun isClass => ?_⟩
    · rw [firstIsClass, isLast, Option.any_some, isFirstNamed, Option.any_some, kind, decide_eq_true_eq]
    · have qualified := Ast.Module.qualifiedName_named (List.mem_of_getElem? isDefinition)
        (by rw [← kind, isClass]; simp)
      rw [show classSymbol.qualifiedName = d.qualifiedName from congrArg (fun outline => outline.2.1) outline, qualified,
        inModule, passes.1]
  unfold GraphResolver.methodOf
  rw [Option.bind_eq_some_iff]
  constructor
  · rintro ⟨classSymbol, found, isMethod⟩
    have isClass : classSymbol.kind = .class := by
      by_contra other
      rw [GraphResolver.findMethod, if_neg other] at isMethod
      cases isMethod
    rw [findMethod_iff isClass, (isNamedClass found).2 isClass] at isMethod
    exact ⟨(isNamedClass found).1.mp isClass, isMethod⟩
  · rintro ⟨isClass, isMethod⟩
    obtain ⟨source, isLast, isFirst⟩ := (Option.any_eq_true ..).mp isClass
    obtain ⟨d, isFirst, _⟩ := (Option.any_eq_true ..).mp isFirst
    have inModule := (moduleSource_some isLast).2
    rw [← inModule, List.find?_eq_bind_findIdx?_getElem?, Option.bind_eq_some_iff] at isFirst
    obtain ⟨j, isFirst, isDefinition⟩ := isFirst
    obtain ⟨classSymbol, isSymbol, _⟩ := @symbol_of_definition self repositoryId revision source j d isDefinition
    have found : (self.resolver repositoryId revision files).byModuleSymbol target.1 target.2 = some classSymbol :=
      byModuleSymbol_iff.mpr ⟨source, j, isLast, isFirst, isSymbol⟩
    have kind := (isNamedClass found).1.mpr isClass
    refine ⟨classSymbol, found, ?_⟩
    rw [findMethod_iff kind, (isNamedClass found).2 kind]
    exact isMethod

def methodIdentity (repositoryId : RepositoryId) (revision module : String) (owner method : Identifier) : SymbolIdentity :=
  FileContext.identity ⟨repositoryId, revision, "", module⟩ (module ++ "." ++ owner.text ++ "." ++ method.text) .method

theorem firstIsClass_identifier {target : String × String} (isClass : self.firstIsClass files target = true) :
    ∃ owner : Identifier, target.2 = owner.text := by
  obtain ⟨source, _, isFirst⟩ := (Option.any_eq_true ..).mp isClass
  obtain ⟨d, isFirst, kind⟩ := (Option.any_eq_true ..).mp isFirst
  have passes := List.find?_some isFirst
  simp only [isNamed, Bool.and_eq_true, decide_eq_true_eq] at passes
  rcases Ast.Module.definition_cases (List.mem_of_find?_eq_some isFirst) with ⟨_, _, isClass⟩ | ⟨_, _, _, _, rfl⟩
  · obtain ⟨node, _, isNode⟩ := isClass (of_decide_eq_true kind)
    exact ⟨node.name, passes.1.symm.trans isNode⟩
  · cases of_decide_eq_true kind

theorem firstMethod_identity {module : String} {owner method : Identifier} {j : Nat}
    (found : self.firstMethod files (module ++ "." ++ owner.text ++ "." ++ method.text) = some (source, j))
    (isSymbol : (self.parsedSource repositoryId revision source).symbols[j + 1]? = some callee) :
    callee.kind = .method ∧ callee.identity = methodIdentity repositoryId revision module owner method := by
  obtain ⟨source', _, searched⟩ := List.exists_of_findSome?_eq_some found
  obtain ⟨j', isFirst, same⟩ := Option.map_eq_some_iff.mp searched
  obtain ⟨rfl, rfl⟩ := Prod.mk.inj same
  obtain ⟨bound, passes, _⟩ := List.findIdx?_eq_some_iff_getElem.mp isFirst
  obtain ⟨_, d, isDefinition, outline, isIdentity⟩ := definition_of_symbol isSymbol
  rw [List.getElem?_eq_getElem bound] at isDefinition
  rw [Option.some.inj isDefinition] at passes
  simp only [Bool.and_eq_true, decide_eq_true_eq] at passes
  refine ⟨(congrArg (fun outline => outline.2.2.1) outline).trans passes.2, ?_⟩
  rcases Ast.Module.definition_cases (List.mem_of_getElem? (List.getElem?_eq_getElem bound)) with ⟨notMethod, _⟩ | isMethod
  · rw [Option.some.inj isDefinition] at notMethod
    exact absurd passes.2 notMethod
  · obtain ⟨node, _, function, _, isFunction⟩ := isMethod
    rw [Option.some.inj isDefinition] at isFunction
    have named : module ++ "." ++ owner.text ++ "." ++ method.text =
        moduleFromPath source'.1.path ++ "." ++ node.name.text ++ "." ++ function.name.text := by
      rw [← passes.1, isFunction]
      rfl
    obtain ⟨before, _⟩ := dotted_inj named
    obtain ⟨inModule, _⟩ := dotted_inj before
    rw [isIdentity, definitionIdentity, passes.1, passes.2, ← inModule]
    rfl

/-! ### Where a call of a method comes from -/

def NamedCall (service : CodeIntelligenceService) (repositoryId : RepositoryId) (revision : String)
    (files : Keyed SourceFile.path) (caller : SymbolIdentity) (module : String) (owner g : Identifier) : Prop :=
  ∃ path tree i d, service.Caller repositoryId revision files caller path tree i d ∧ moduleFromPath path = module ∧
    (∃ func ∈ d.calls, calleeName func = some (owner.text ++ "." ++ g.text)) ∧
    ∃ d', last Ast.Definition.qualifiedName (tree.definitions module) (module ++ "." ++ owner.text ++ "." ++ g.text) = some d' ∧
      d'.kind = .method

/-- The method of the class `enclosing`, in some file, makes a call whose
receiver stands for the class, where that is the first of its name and the
caller is not itself the first method of that name. -/
def ReceiverCall (service : CodeIntelligenceService) (repositoryId : RepositoryId) (revision : String)
    (files : Keyed SourceFile.path) (caller : SymbolIdentity) (enclosing : Identifier) (module : String)
    (owner g : Identifier) : Prop :=
  ∃ source ∈ service.sources files, ∃ i d,
    service.Caller repositoryId revision files caller source.1.path source.2 i d ∧
    (∃ func ∈ d.calls, ∃ g', service.receiver repositoryId revision files source enclosing.text func =
      some ((module, owner.text), g') ∧ g'.text = g.text) ∧
    service.firstIsClass files (module, owner.text) = true ∧
    ∃ place, service.firstMethod files (module ++ "." ++ owner.text ++ "." ++ g.text) = some place ∧
      (place.1.1.path, place.2) ≠ (source.1.path, i)

section Calls
variable {module here : String} {owner g enclosing method : Identifier}

theorem read_iff_named {caller : SymbolIdentity} :
    (∃ parsed ∈ (self.resolver repositoryId revision files).files, ∃ relation ∈ parsed.relations,
        relation.relationType = .calls ∧ relation.sourceIdentity = caller ∧
          relation.targetIdentity = methodIdentity repositoryId revision module owner g) ↔
      self.NamedCall repositoryId revision files caller module owner g := by
  have dotted : module ++ "." ++ (owner.text ++ "." ++ g.text) = module ++ "." ++ owner.text ++ "." ++ g.text := by
    rw [String.append_assoc, String.append_assoc, String.append_assoc, String.append_assoc, String.append_assoc]
  rw [read_iff]
  constructor
  · rintro ⟨path, tree, i, d, isCaller, func, isCall, name, d', isName, isLast, isTarget⟩
    have inModule : moduleFromPath path = module := congrArg SymbolIdentity.module isTarget
    have kind : d'.kind = .method := congrArg SymbolIdentity.kind isTarget
    have plain : name = owner.text ++ "." ++ g.text := by
      have qualified := (last_eq_some isLast).2.symm.trans (congrArg SymbolIdentity.qualifiedName isTarget)
      rw [inModule] at qualified
      exact qualified_inj (qualified.trans dotted.symm)
    subst inModule plain
    rw [dotted] at isLast
    exact ⟨path, tree, i, d, isCaller, rfl, ⟨func, isCall, isName⟩, d', isLast, kind⟩
  · rintro ⟨path, tree, i, d, isCaller, rfl, ⟨func, isCall, isName⟩, d', isLast, kind⟩
    refine ⟨path, tree, i, d, isCaller, func, isCall, owner.text ++ "." ++ g.text, d', isName, ?_, ?_⟩
    · rw [dotted]
      exact isLast
    · rw [definitionIdentity, (last_eq_some isLast).2, kind]
      rfl

variable {source : SourceFile × Ast.Module}

theorem method_symbol {i : Nat} {symbol : ParsedSymbol}
    (isSymbol : (self.parsedSource repositoryId revision source).symbols[i + 1]? = some symbol)
    (identity : symbol.identity = methodIdentity repositoryId revision here enclosing method) :
    symbol.identity.module = moduleFromPath source.1.path ∧
      symbol.qualifiedName = moduleFromPath source.1.path ++ "." ++ enclosing.text ++ "." ++ method.text := by
  obtain ⟨_, d, _, outline, isIdentity⟩ := definition_of_symbol isSymbol
  have inModule : moduleFromPath source.1.path = here := congrArg SymbolIdentity.module (isIdentity.symm.trans identity)
  have named : d.qualifiedName = here ++ "." ++ enclosing.text ++ "." ++ method.text :=
    congrArg SymbolIdentity.qualifiedName (isIdentity.symm.trans identity)
  refine ⟨by rw [isIdentity]; rfl, ?_⟩
  rw [show symbol.qualifiedName = d.qualifiedName from congrArg (fun outline => outline.2.1) outline, named, inModule]

theorem exists_firstMethod {qualifiedName : String} {place : (SourceFile × Ast.Module) × Nat}
    (isFirst : self.firstMethod files qualifiedName = some place) :
    ∃ callee, (self.parsedSource repositoryId revision place.1).symbols[place.2 + 1]? = some callee := by
  obtain ⟨source, _, searched⟩ := List.exists_of_findSome?_eq_some isFirst
  obtain ⟨j, atIndex, rfl⟩ := Option.map_eq_some_iff.mp searched
  obtain ⟨bound, _⟩ := List.findIdx?_eq_some_iff_getElem.mp atIndex
  obtain ⟨callee, atPlace, _⟩ := @symbol_of_definition self repositoryId revision source j _ (List.getElem?_eq_getElem bound)
  exact ⟨callee, atPlace⟩

theorem methodOf_identity {target : String × String} {g' : Identifier} {callee : ParsedSymbol} :
    ((self.resolver repositoryId revision files).methodOf target g'.text = some callee ∧
        callee.identity = methodIdentity repositoryId revision module owner g) ↔
      target = (module, owner.text) ∧ g'.text = g.text ∧ self.firstIsClass files (module, owner.text) = true ∧ ∃ place,
        self.firstMethod files (module ++ "." ++ owner.text ++ "." ++ g.text) = some place ∧
        (self.parsedSource repositoryId revision place.1).symbols[place.2 + 1]? = some callee := by
  rw [methodOf_iff]
  constructor
  · rintro ⟨⟨isClass, source, j, isFirst, atPlace⟩, isTarget⟩
    obtain ⟨owner', isOwner⟩ := firstIsClass_identifier isClass
    rw [isOwner] at isFirst
    have same := (firstMethod_identity isFirst atPlace).2.symm.trans isTarget
    have inModule : target.1 = module := congrArg SymbolIdentity.module same
    obtain ⟨before, sameName⟩ := dotted_inj (congrArg SymbolIdentity.qualifiedName same)
    obtain ⟨_, sameOwner⟩ := dotted_inj before
    obtain rfl : target = (module, owner.text) := Prod.ext inModule (isOwner.trans sameOwner)
    rw [sameOwner, sameName] at isFirst
    exact ⟨rfl, sameName, isClass, (source, j), isFirst, atPlace⟩
  · rintro ⟨rfl, sameName, isClass, place, isFirst, atPlace⟩
    exact ⟨⟨isClass, place.1, place.2, by rw [sameName]; exact isFirst, atPlace⟩, (firstMethod_identity isFirst atPlace).2⟩

theorem callSite_of_receiver {owner : String} {func : Ast.Expr} {given : (String × String) × Identifier}
    (receives : self.receiver repositoryId revision files source owner func = some given) : ∃ site, callSite func = some site := by
  unfold receiver at receives
  split at receives
  · exact ⟨_, rfl⟩
  · rename_i value attr method
    split at receives
    · rename_i isSelf
      rw [Bool.and_eq_true] at isSelf
      exact ⟨.selfMethod attr.text method.text, if_pos isSelf.1⟩
    · cases receives
  · cases receives

theorem receiver_method {enclosing : String} {value : Ast.Expr} {g' : Identifier} {target : String × String}
    (receives : self.receiver repositoryId revision files source enclosing (.attribute value g) = some (target, g')) : g' = g := by
  unfold receiver at receives
  split at receives
  · rename_i isFunc
    obtain ⟨_, rfl⟩ := Ast.Expr.attribute.inj isFunc
    obtain ⟨_, _, same⟩ := Option.map_eq_some_iff.mp receives
    exact (Prod.mk.inj same).2.symm
  · rename_i isFunc
    obtain ⟨_, rfl⟩ := Ast.Expr.attribute.inj isFunc
    split at receives
    · obtain ⟨_, _, same⟩ := Option.map_eq_some_iff.mp receives
      exact (Prod.mk.inj same).2.symm
    · cases receives
  · cases receives

theorem added_iff_receiver :
    (∃ parsed ∈ (self.resolver repositoryId revision files).files,
        ∃ relation ∈ (self.resolver repositoryId revision files).added parsed, relation.relationType = .calls ∧
          relation.sourceIdentity = methodIdentity repositoryId revision here enclosing method ∧
          relation.targetIdentity = methodIdentity repositoryId revision module owner g) ↔
      self.ReceiverCall repositoryId revision files (methodIdentity repositoryId revision here enclosing method) enclosing
        module owner g := by
  have reads : (self.resolver repositoryId revision files).Reads := resolver_reads
  have notClass : (methodIdentity repositoryId revision module owner g).kind ≠ .class := fun same => SymbolKind.noConfusion same
  constructor
  · rintro ⟨parsed, member, isAdded⟩
    rw [show (self.resolver repositoryId revision files).files = _ from parseFiles_eq] at member
    obtain ⟨source, isSource, rfl⟩ := List.mem_map.mp member
    obtain ⟨call, isSite, isCaller, callee, isTarget, resolved, different⟩ :=
      (GraphResolver.call_added_iff reads notClass).mp isAdded
    obtain ⟨i, d, isDefinition, callable, isSymbol, inCalls⟩ := mem_sites.mp isSite
    obtain ⟨func, isCall, isFunc⟩ := List.mem_filterMap.mp inCalls
    obtain ⟨inModule, named⟩ := method_symbol isSymbol isCaller
    obtain ⟨isId, d', isDefinition', _, isIdentity⟩ := definition_of_symbol isSymbol
    obtain rfl : d = d' := Option.some.inj (isDefinition.symm.trans isDefinition')
    have isMethod : callee.kind = .method := by
      obtain ⟨file, inMap, inFile⟩ := GraphResolver.resolveCallSite_some resolved
      rw [← GraphResolver.symbol_kind reads inMap inFile, isTarget]
      rfl
    obtain ⟨target, g', receives, found⟩ := (resolveCallSite_method inModule named isMethod isFunc).mp resolved
    obtain ⟨rfl, sameName, isClass, place, isFirst, atPlace⟩ := methodOf_identity.mp ⟨found, isTarget⟩
    obtain ⟨isId', _⟩ := definition_of_symbol atPlace
    refine ⟨source, isSource, i, d, ⟨(mem_sources.mp isSource).2, isDefinition, callable, isIdentity.symm.trans isCaller⟩,
      ⟨func, isCall, g', receives, sameName⟩, isClass, place, isFirst, fun same => different ?_⟩
    obtain ⟨samePath, sameIndex⟩ := Prod.mk.inj same
    rw [isId, isId', samePath, sameIndex]
  · rintro ⟨source, isSource, i, d, ⟨isHeld, isDefinition, callable, isCaller⟩, ⟨func, isCall, g', receives, sameName⟩, isClass,
      place, isFirst, different⟩
    obtain ⟨symbol, isSymbol, _⟩ := @symbol_of_definition self repositoryId revision source i d isDefinition
    obtain ⟨isId, d', isDefinition', _, isIdentity⟩ := definition_of_symbol isSymbol
    obtain rfl : d = d' := Option.some.inj (isDefinition.symm.trans isDefinition')
    have isCaller' : symbol.identity = methodIdentity repositoryId revision here enclosing method := isIdentity.trans isCaller
    obtain ⟨inModule, named⟩ := method_symbol isSymbol isCaller'
    -- the symbol of the method that is called
    obtain ⟨callee, atPlace⟩ := exists_firstMethod isFirst
    obtain ⟨isMethod, isTarget⟩ := firstMethod_identity isFirst atPlace
    have found := (@methodOf_identity self repositoryId revision files module owner g (module, owner.text) g' callee).mpr
      ⟨rfl, sameName, isClass, place, isFirst, atPlace⟩
    obtain ⟨site, isSite⟩ := callSite_of_receiver receives
    obtain ⟨isId', _⟩ := definition_of_symbol atPlace
    refine ⟨self.parsedSource repositoryId revision source, ?_, (GraphResolver.call_added_iff reads notClass).mpr
      ⟨(symbol, site), mem_sites.mpr ⟨i, d, isDefinition, callable, isSymbol, List.mem_filterMap.mpr ⟨func, isCall, isSite⟩⟩,
        isCaller', callee, isTarget, ?_, fun same => different ?_⟩⟩
    · rw [show (self.resolver repositoryId revision files).files = _ from parseFiles_eq]
      exact List.mem_map_of_mem isSource
    · exact (resolveCallSite_method inModule named isMethod isSite).mpr ⟨_, g', receives, found.1⟩
    · rw [isId, isId'] at same
      obtain ⟨samePath, sameDraw⟩ := SymbolId.mk.inj same
      rw [samePath, Nat.succ_injective sameDraw]

end Calls

/-! ### Calls through `self` -/

/-- A name of a file is that of a class: of one that the file defines, or of one
that it imports from a file of the map. -/
inductive NamesClass (service : CodeIntelligenceService) (repositoryId : RepositoryId) (revision : String)
    (files : Keyed SourceFile.path) (source : SourceFile × Ast.Module) (name : Identifier) : String → Ast.ClassDef → Prop
  | own {target} (defined : .classDef target ∈ source.2.body) (named : target.name = name) :
      NamesClass service repositoryId revision files source name (moduleFromPath source.1.path) target
  | imported {stmt entry module source' target} (listed : stmt ∈ source.2.body) (imports : entry ∈ Ast.Stmt.fromImports stmt)
      (bound : entry.bound = name)
      (resolved : (service.resolver repositoryId revision files).resolveModule (moduleFromPath source.1.path)
        (FileContext.statement ⟨repositoryId, revision, source.1.path, moduleFromPath source.1.path⟩ entry) = some module)
      (inMap : source' ∈ service.sources files) (inModule : moduleFromPath source'.1.path = module)
      (defined : .classDef target ∈ source'.2.body) (named : target.name = entry.name) :
      NamesClass service repositoryId revision files source name module target

/-- Of which class the attributes of a class hold instances: where every
assignment in its methods makes one by the same name of that class. The class
with the attribute is given by its file and place. -/
structure Instances (service : CodeIntelligenceService) (repositoryId : RepositoryId) (revision : String)
    (files : Keyed SourceFile.path) where
  holds : String → Nat → Identifier → Option (String × Ast.ClassDef)
  assigned : ∀ source ∈ service.sources files, ∀ place node attr module target,
    source.2.body[place]? = some (.classDef node) → holds source.1.path place attr = some (module, target) →
      ∃ name, (∀ value ∈ node.assigned attr, value = .call (.name name)) ∧
        service.NamesClass repositoryId revision files source name module target

/-- A method of a class calls `self.g(...)`, and the class defines `g`. -/
structure SelfCall (service : CodeIntelligenceService) (files : Keyed SourceFile.path) (source : SourceFile × Ast.Module)
    (node : Ast.ClassDef) (function : Ast.FunctionDef) (g : Identifier) : Prop where
  listed : source ∈ service.sources files
  isClass : .classDef node ∈ source.2.body
  isMethod : function ∈ node.functions
  calls : .attribute (.name selfIdentifier) g ∈ function.calls
  defines : ∃ other ∈ node.functions, other.name = g

/-- A method of a class calls `self.attr.g(...)`, and the attribute holds
instances of a class that defines `g`. -/
structure AttributeCall {service : CodeIntelligenceService} {repositoryId : RepositoryId} {revision : String}
    {files : Keyed SourceFile.path} (instances : service.Instances repositoryId revision files)
    (source : SourceFile × Ast.Module) (node : Ast.ClassDef) (function : Ast.FunctionDef) (attr g : Identifier)
    (module : String) (target : Ast.ClassDef) : Prop where
  listed : source ∈ service.sources files
  holds : ∃ place, source.2.body[place]? = some (.classDef node) ∧
    instances.holds source.1.path place attr = some (module, target)
  isMethod : function ∈ node.functions
  calls : .attribute (.attribute (.name selfIdentifier) attr) g ∈ function.calls
  defines : ∃ other ∈ target.functions, other.name = g

/-- The graph that a build leaves has a call from the one to the other. -/
def Linked (service : CodeIntelligenceService) (repositoryId : RepositoryId) (revision : String)
    (files : Keyed SourceFile.path) (graph : InMemoryCodeGraph) (caller target : SymbolIdentity) : Prop :=
  ∃ relation ∈ (service.buildRevision repositoryId revision files true graph).2.listRelations repositoryId revision,
    relation.relationType = .calls ∧ relation.sourceIdentity = caller ∧ relation.targetIdentity = target

/-- The relations that the resolver makes for `self.attr.g(...)` in this method
lead to no other target. -/
def OnlyTo (service : CodeIntelligenceService) (repositoryId : RepositoryId) (revision : String)
    (files : Keyed SourceFile.path) (source : SourceFile × Ast.Module) (caller : SymbolIdentity) (attr g : Identifier)
    (target : SymbolIdentity) : Prop :=
  ∀ (i : Nat) symbol, (service.parsedSource repositoryId revision source).symbols[i + 1]? = some symbol →
    symbol.identity = caller → ∀ relation, (service.resolver repositoryId revision files).callRelation
        (service.parsedSource repositoryId revision source)
        ((service.resolver repositoryId revision files).names (service.parsedSource repositoryId revision source))
        (symbol, .selfMethod attr.text g.text) = some relation →
      relation.targetIdentity = target

/-- Calls of own methods and of methods of instances in attributes are linked
with these methods, the latter with no others. -/
structure LinksSelfCalls {service : CodeIntelligenceService} {repositoryId : RepositoryId} {revision : String}
    {files : Keyed SourceFile.path} (instances : service.Instances repositoryId revision files) (graph : InMemoryCodeGraph) :
    Prop where
  own : ∀ source node function g, service.SelfCall files source node function g →
    service.Linked repositoryId revision files graph
      (methodIdentity repositoryId revision (moduleFromPath source.1.path) node.name function.name)
      (methodIdentity repositoryId revision (moduleFromPath source.1.path) node.name g)
  throughAttr : ∀ source node function attr g module target, AttributeCall instances source node function attr g module target →
    service.Linked repositoryId revision files graph
      (methodIdentity repositoryId revision (moduleFromPath source.1.path) node.name function.name)
      (methodIdentity repositoryId revision module target.name g)
  alone : ∀ source node function attr g module target, AttributeCall instances source node function attr g module target →
    service.OnlyTo repositoryId revision files source
      (methodIdentity repositoryId revision (moduleFromPath source.1.path) node.name function.name) attr g
      (methodIdentity repositoryId revision module target.name g)

/-- The build returns, and the method calls the other by the name of its class
or through a receiver that stands for it. -/
def Reaches (service : CodeIntelligenceService) (repositoryId : RepositoryId) (revision : String)
    (files : Keyed SourceFile.path) (here : String) (enclosing method : Identifier) (module : String) (owner g : Identifier) :
    Prop :=
  let caller := methodIdentity repositoryId revision here enclosing method
  ¬ service.Fails ⟨repositoryId, revision, files, true⟩ ∧
    (service.ReceiverCall repositoryId revision files caller enclosing module owner g ∨
      service.NamedCall repositoryId revision files caller module owner g)

/-- Where the receiver `self.attr` leads to a method besides the caller, it
stands for this class. -/
def StandsOnlyFor (service : CodeIntelligenceService) (repositoryId : RepositoryId) (revision : String)
    (files : Keyed SourceFile.path) (source : SourceFile × Ast.Module) (enclosing method attr g : Identifier)
    (module : String) (owner : Identifier) : Prop :=
  ∀ (i : Nat) d, (source.2.definitions (moduleFromPath source.1.path))[i]? = some d →
    definitionIdentity repositoryId revision (moduleFromPath source.1.path) d =
      methodIdentity repositoryId revision (moduleFromPath source.1.path) enclosing method →
    ∀ other : String × String, service.receiver repositoryId revision files source enclosing.text
        (.attribute (.attribute (.name selfIdentifier) attr) g) = some (other, g) →
      service.firstIsClass files other = true → ∀ place,
      service.firstMethod files (other.1 ++ "." ++ other.2 ++ "." ++ g.text) = some place →
      (place.1.1.path, place.2) ≠ (source.1.path, i) → other = (module, owner.text)

section SelfCalls
variable {graph : InMemoryCodeGraph} {module here : String} {owner g enclosing method attr : Identifier}

theorem linked_iff : self.Linked repositoryId revision files graph (methodIdentity repositoryId revision here enclosing method)
      (methodIdentity repositoryId revision module owner g) ↔
    self.Reaches repositoryId revision files here enclosing method module owner g := by
  unfold Linked Reaches
  rw [listed_call_iff, added_iff_receiver, read_iff_named]

theorem onlyTo_iff {source : SourceFile × Ast.Module} :
    self.OnlyTo repositoryId revision files source
        (methodIdentity repositoryId revision (moduleFromPath source.1.path) enclosing method) attr g
        (methodIdentity repositoryId revision module owner g) ↔
      self.StandsOnlyFor repositoryId revision files source enclosing method attr g module owner := by
  let func : Ast.Expr := .attribute (.attribute (.name selfIdentifier) attr) g
  have isSite : callSite func = some (.selfMethod attr.text g.text) := rfl
  constructor
  · intro only i d isDefinition isCaller other receives isClass place isFirst different
    obtain ⟨symbol, isSymbol, _⟩ := @symbol_of_definition self repositoryId revision source i d isDefinition
    obtain ⟨isId, d', isDefinition', _, isIdentity⟩ := definition_of_symbol isSymbol
    obtain rfl : d = d' := Option.some.inj (isDefinition.symm.trans isDefinition')
    obtain ⟨inModule, named⟩ := method_symbol isSymbol (isIdentity.trans isCaller)
    obtain ⟨other', isOther⟩ := firstIsClass_identifier isClass
    obtain ⟨callee, atPlace⟩ := exists_firstMethod isFirst
    obtain ⟨isId', _⟩ := definition_of_symbol atPlace
    rw [isOther] at isFirst
    obtain ⟨isMethod, isTarget⟩ := firstMethod_identity isFirst atPlace
    have found : (self.resolver repositoryId revision files).methodOf other g.text = some callee :=
      methodOf_iff.mpr ⟨isClass, place.1, place.2, by rw [isOther]; exact isFirst, atPlace⟩
    have resolved := (resolveCallSite_method inModule named isMethod isSite).mpr ⟨other, g, receives, found⟩
    have apart : symbol.id ≠ callee.id := by
      intro same
      rw [isId, isId'] at same
      obtain ⟨samePath, sameDraw⟩ := SymbolId.mk.inj same
      exact different (by rw [samePath, Nat.succ_injective sameDraw])
    obtain ⟨relation, made⟩ := @GraphResolver.exists_addRelation (self.resolver repositoryId revision files)
      (self.parsedSource repositoryId revision source) (GraphResolver.callType (.selfMethod attr.text g.text) callee) none
      (some symbol) (some callee) "0.8" [("call_site", (CallSite.selfMethod attr.text g.text).text)] symbol callee rfl rfl apart
    have isRelation := only i symbol isSymbol (isIdentity.trans isCaller) relation (by
      rw [GraphResolver.callRelation, resolved, Option.bind_some]
      exact made)
    obtain ⟨_, _, isSource, isCallee, _, joins⟩ := GraphResolver.addRelation_eq_some made
    cases isCallee
    have same := isTarget.symm.trans (joins.targetIdentity.symm.trans isRelation)
    obtain ⟨before, _⟩ := dotted_inj (congrArg SymbolIdentity.qualifiedName same)
    exact Prod.ext (congrArg SymbolIdentity.module same) (isOther.trans (dotted_inj before).2)
  · intro only i symbol isSymbol isCaller relation made
    obtain ⟨callee, resolved, made⟩ := Option.bind_eq_some_iff.mp made
    obtain ⟨_, _, isSource, isCallee, different, joins⟩ := GraphResolver.addRelation_eq_some made
    cases isSource
    cases isCallee
    obtain ⟨inModule, named⟩ := method_symbol isSymbol isCaller
    obtain ⟨isId, d, isDefinition, _, isIdentity⟩ := definition_of_symbol isSymbol
    have isMethod : callee.kind = .method := by
      obtain ⟨_, _, found⟩ := Option.bind_eq_some_iff.mp resolved
      obtain ⟨_, _, found⟩ := Option.bind_eq_some_iff.mp found
      obtain ⟨_, _, found⟩ := Option.bind_eq_some_iff.mp found
      exact GraphResolver.findMethod_kind found
    obtain ⟨other, g', receives, found⟩ := (resolveCallSite_method inModule named isMethod isSite).mp resolved
    obtain rfl : g' = g := receiver_method receives
    obtain ⟨isClass, source', j, isFirst, atPlace⟩ := methodOf_iff.mp found
    obtain ⟨isId', _⟩ := definition_of_symbol atPlace
    have isOther := only i d isDefinition (isIdentity.symm.trans isCaller) other receives isClass (source', j) isFirst (by
      intro same
      obtain ⟨samePath, sameIndex⟩ := Prod.mk.inj same
      exact different (by rw [isId, isId', show source'.1.path = source.1.path from samePath, show j = i from sameIndex]))
    rw [joins.targetIdentity]
    subst isOther
    exact (firstMethod_identity isFirst atPlace).2

end SelfCalls

/-- Calls through `self` are linked exactly when the build returns, the caller
reaches each of the methods by the name of its class or through a receiver that
stands for it, and no receiver `self.attr` stands for another class that has the
method. -/
theorem self_calls_iff (self : CodeIntelligenceService) (repositoryId : RepositoryId) (revision : String)
    (files : Keyed SourceFile.path) (instances : self.Instances repositoryId revision files) (graph : InMemoryCodeGraph) :
    LinksSelfCalls instances graph ↔
      (∀ source node function g, self.SelfCall files source node function g →
        self.Reaches repositoryId revision files (moduleFromPath source.1.path) node.name function.name
          (moduleFromPath source.1.path) node.name g) ∧
      ∀ source node function attr g module target, AttributeCall instances source node function attr g module target →
        self.Reaches repositoryId revision files (moduleFromPath source.1.path) node.name function.name module target.name g ∧
        self.StandsOnlyFor repositoryId revision files source node.name function.name attr g module target.name := by
  constructor
  · intro links
    refine ⟨fun source node function g call => linked_iff.mp (links.own source node function g call), ?_⟩
    intro source node function attr g module target call
    exact ⟨linked_iff.mp (links.throughAttr _ _ _ _ _ _ _ call), onlyTo_iff.mp (links.alone _ _ _ _ _ _ _ call)⟩
  · rintro ⟨own, throughAttr⟩
    refine ⟨fun source node function g call => linked_iff.mpr (own source node function g call), ?_, ?_⟩
    · intro source node function attr g module target call
      exact linked_iff.mpr (throughAttr _ _ _ _ _ _ _ call).1
    · intro source node function attr g module target call
      exact onlyTo_iff.mpr (throughAttr _ _ _ _ _ _ _ call).2

/-! A class whose method calls another method of its own -/

def counterName : Identifier := ⟨"Counter", by decide, Identifier.plain_of_all rfl⟩

def stepName : Identifier := ⟨"step", by decide, Identifier.plain_of_all rfl⟩

def counterClass : Ast.ClassDef where
  name := counterName
  functions := [{ name := runName, calls := [.attribute (.name selfIdentifier) stepName] }, { name := stepName }]

def counterService : CodeIntelligenceService where
  parser :=
    { contentHash := id
      astParse := fun content =>
        if content = "class Counter: ..." then some { body := [.classDef counterClass] } else none }

def counterFiles : Keyed SourceFile.path := Keyed.empty.upsert ⟨"counter.py", "class Counter: ..."⟩

def noInstances : counterService.Instances (.v5 "repository") "r1" counterFiles where
  holds _ _ _ := none
  assigned := by
    intro source _ place node attr module target _ holds
    cases holds

/-- The build returns, and the call of the own method is not linked. -/
theorem own_method_unlinked :
    (counterService.buildRevision (.v5 "repository") "r1" counterFiles true {}).1.isOk = true ∧
      ¬ LinksSelfCalls noInstances {} := by
  refine ⟨by decide, fun links => ?_⟩
  have sources : counterService.sources counterFiles =
      [(⟨"counter.py", "class Counter: ..."⟩, { body := [.classDef counterClass] })] := by rfl
  have call : counterService.SelfCall counterFiles (⟨"counter.py", "class Counter: ..."⟩, { body := [.classDef counterClass] })
      counterClass { name := runName, calls := [.attribute (.name selfIdentifier) stepName] } stepName :=
    ⟨by rw [sources]; exact List.mem_singleton_self _, List.mem_singleton_self _, List.mem_cons_self .., List.mem_singleton_self _, { name := stepName },
      by decide, rfl⟩
  obtain ⟨relation, member, isCall, _⟩ := links.own _ _ _ _ call
  have uncalled : ∀ relation ∈ (counterService.buildRevision (.v5 "repository") "r1" counterFiles true {}).2.listRelations
      (.v5 "repository") "r1", relation.relationType ≠ .calls := by
    decide
  exact uncalled relation member isCall

end CodeIntelligenceService

end Brain
