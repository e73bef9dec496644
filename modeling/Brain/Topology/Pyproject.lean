import Brain.Adapters.ManifestDetector
import Brain.Parsing.Text

namespace Brain

/-! ### A dependencies array and its layouts -/

/-- Spaces and tabs. -/
def Blank (cs : List Char) : Prop := ∀ c ∈ cs, c = ' ' ∨ c = '\t'

instance (cs : List Char) : Decidable (Blank cs) :=
  decidable_of_iff (cs.all (fun c => c = ' ' || c = '\t') = true) (by simp [Blank])

/-- A requirement string: the name of a package, and what follows it (extras,
version specifiers, markers). -/
structure RequirementString where
  quote : Char
  name : List Char
  rest : List Char
  quoted : isQuote quote = true
  named : name ≠ [] ∧ ∀ c ∈ name, isNameChar c = true
  ends : ∀ c ∈ rest.head?, isNameChar c = false

namespace RequirementString

def text (requirement : RequirementString) : List Char :=
  requirement.quote :: requirement.name ++ requirement.rest ++ [requirement.quote]

/-- The lower-cased name. -/
def package (requirement : RequirementString) : String := lower (String.ofList requirement.name)

end RequirementString

inductive ArrayToken
  | blank (cs : List Char) (isBlank : Blank cs)
  | entry (requirement : RequirementString)
  | comma

namespace ArrayToken

def text : ArrayToken → List Char
  | blank cs _ => cs
  | entry requirement => requirement.text
  | comma => [',']

def requirement? : ArrayToken → Option RequirementString
  | entry requirement => some requirement
  | _ => none

def isBlank : ArrayToken → Bool
  | blank _ _ => true
  | _ => false

end ArrayToken

/-- Entries with a comma between each two of them, and perhaps one at the end. -/
def CommaSeparated : List ArrayToken → Prop
  | [] => True
  | [.entry _] => True
  | .entry _ :: .comma :: tokens => CommaSeparated tokens
  | _ => False

def commentText : Option (List Char) → List Char
  | some comment => '#' :: comment
  | none => []

structure ArrayLine where
  tokens : List ArrayToken
  comment : Option (List Char) := none

def ArrayLine.text (line : ArrayLine) : List Char := line.tokens.flatMap ArrayToken.text ++ commentText line.comment

/-- An array of requirement strings, in any layout: `lines` are those that end within
the brackets, and `last` is what stands before the closing bracket on its line. -/
structure DependencyArray where
  indent : List Char
  keyGap : List Char
  valueGap : List Char
  lines : List ArrayLine
  last : List ArrayToken
  trailing : List Char
  comment : Option (List Char) := none
  blanks : Blank indent ∧ Blank keyGap ∧ Blank valueGap ∧ Blank trailing
  separated : CommaSeparated ((lines.flatMap ArrayLine.tokens ++ last).filter fun token => !token.isBlank)

namespace DependencyArray
variable (array : DependencyArray)

def requirements : List RequirementString := (array.lines.flatMap ArrayLine.tokens ++ array.last).filterMap ArrayToken.requirement?

def packages : List String := array.requirements.map RequirementString.package

/-- What stands before the first entry on the line of the opening bracket. -/
def key : List Char :=
  array.indent ++ ("dependencies".toList ++ (array.keyGap ++ '=' :: (array.valueGap ++ ['['])))

/-- The end of the line of the closing bracket. -/
def closing : List Char :=
  array.last.flatMap ArrayToken.text ++ ']' :: (array.trailing ++ commentText array.comment)

/-- What follows the opening bracket on its line. -/
def opening : List Char :=
  match array.lines with
  | [] => array.closing
  | line :: _ => line.text

/-- The lines of the array after the first one. -/
def laterLines : List (List Char) :=
  match array.lines with
  | [] => []
  | _ :: lines => lines.map ArrayLine.text ++ [array.closing]

def physicalLines : List String := String.ofList (array.key ++ array.opening) :: array.laterLines.map String.ofList

/-- The names between the commas of the opening line, where that line ends with a bracket. -/
def onOpeningLine : List String :=
  let line := stripRight isSpace array.opening
  if line.getLast? = some ']' then (line.dropLast.splitOn ',').filterMap fun entry => entryName (String.ofList entry)
  else []

end DependencyArray

/-! ### What the scan reads of each line -/

theorem isSpace_of_blank {cs : List Char} (blank : Blank cs) : ∀ c ∈ cs, isSpace c = true := by
  intro c member
  rcases blank c member with rfl | rfl <;> decide

theorem afterLiteral_append (literal rest : List Char) : afterLiteral literal (literal ++ rest) = some rest := by
  rw [afterLiteral, if_pos (List.isPrefixOf_iff_prefix.mpr (List.prefix_append ..)), List.drop_left]

theorem afterEquals_blank {before after rest : List Char} (front : Blank before) (back : Blank after)
    (visible : ∀ c ∈ rest.head?, isSpace c = false) :
    afterEquals (before ++ '=' :: (after ++ rest)) = some rest := by
  have here : ('=' :: (after ++ rest)).dropWhile isSpace = ['='] ++ (after ++ rest) :=
    List.dropWhile_cons_of_neg (by decide)
  rw [afterEquals, List.dropWhile_append_of_pos (isSpace_of_blank front), here, afterLiteral_append, Option.map_some,
    List.dropWhile_append_of_pos (isSpace_of_blank back)]
  exact congrArg some (stripLeft_eq_self visible)

theorem stripRight_append_of_last {p : Char → Bool} {front : List Char} {c : Char} (kept : p c = false) (back : List Char) :
    stripRight p (front ++ c :: back) = front ++ c :: stripRight p back := by
  rw [stripRight, List.reverse_append, List.reverse_cons, List.append_assoc, List.dropWhile_append, stripRight]
  split
  · rename_i none_
    have all : back.reverse.dropWhile p = [] := List.isEmpty_iff.mp none_
    rw [all, List.singleton_append, List.dropWhile_cons_of_neg (by simp [kept])]
    simp
  · simp

def StartsNoKey (line : List Char) : Prop := ∀ c ∈ (line.dropWhile isSpace).head?, isNameChar c = false

theorem head?_strip {line : List Char} {c : Char} (first : c ∈ (strip (String.ofList line)).toList.head?) :
    c ∈ (line.dropWhile isSpace).head? := by
  rw [strip, String.toList_ofList, String.toList_ofList] at first
  exact head?_stripRight first

theorem linePackages_of_startsNoKey {line : List Char} (none_ : StartsNoKey line) : linePackages (String.ofList line) = [] := by
  unfold linePackages
  dsimp only
  generalize first : strip (String.ofList line) = stripped
  split
  · rfl
  · have noKey : ∀ c ∈ stripped.toList.head?, isNameChar c = false :=
      fun c head => none_ c (head?_strip (first ▸ head))
    have noArray : inlineArray stripped.toList = none := by
      have unlike : afterLiteral "dependencies".toList stripped.toList = none := by
        refine if_neg ?_
        intro begins
        obtain ⟨rest, same⟩ := List.isPrefixOf_iff_prefix.mp begins
        have isName := noKey 'd' (by rw [← same]; rfl)
        exact absurd isName (by decide)
      rw [inlineArray, unlike]
      rfl
    have noPoetry : poetryKey stripped.toList = none := by
      have nothing : stripped.toList.takeWhile isNameChar = [] := by
        cases split : stripped.toList with
        | nil => rfl
        | cons c cs => exact List.takeWhile_cons_of_neg (by simp [noKey c (by rw [split]; rfl)])
      rw [poetryKey, nothing, if_pos rfl]
      rfl
    rw [noArray, noPoetry]

theorem startsNoKey_append {front back : List Char} (blank : Blank front) (starts : StartsNoKey back) :
    StartsNoKey (front ++ back) := by
  rw [StartsNoKey, List.dropWhile_append_of_pos (isSpace_of_blank blank)]
  exact starts

theorem startsNoKey_cons {c : Char} (visible : isSpace c = false) (noName : isNameChar c = false) (cs : List Char) :
    StartsNoKey (c :: cs) := by
  rw [StartsNoKey, List.dropWhile_cons_of_neg (by simp [visible])]
  rintro d ⟨⟩
  exact noName

theorem isQuote_cases {c : Char} (quote : isQuote c = true) : c = '"' ∨ c = '\'' := by
  simpa [isQuote] using quote

theorem startsNoKey_tokens {tokens : List ArrayToken} {back : List Char} (starts : StartsNoKey back) :
    StartsNoKey (tokens.flatMap ArrayToken.text ++ back) := by
  induction tokens with
  | nil => exact starts
  | cons token tokens ih =>
    rw [List.flatMap_cons, List.append_assoc]
    cases token with
    | blank cs isBlank => exact startsNoKey_append isBlank ih
    | entry requirement =>
      have quote := isQuote_cases requirement.quoted
      refine startsNoKey_cons ?_ ?_ _
      · rcases quote with same | same <;> rw [same] <;> decide
      · rcases quote with same | same <;> rw [same] <;> decide
    | comma => exact startsNoKey_cons (by decide) (by decide) _

theorem startsNoKey_comment (comment : Option (List Char)) : StartsNoKey (commentText comment) := by
  cases comment with
  | none => exact fun c first => absurd first (by simp [commentText])
  | some comment => exact startsNoKey_cons (by decide) (by decide) _

namespace DependencyArray
variable (array : DependencyArray)

theorem startsNoKey_closing : StartsNoKey array.closing :=
  startsNoKey_tokens (startsNoKey_cons (by decide) (by decide) _)

theorem startsNoKey_laterLines : ∀ line ∈ array.laterLines, StartsNoKey line := by
  intro line member
  rw [laterLines] at member
  split at member
  · cases member
  · rcases List.mem_append.mp member with between | last
    · obtain ⟨interior, _, rfl⟩ := List.mem_map.mp between
      exact startsNoKey_tokens (startsNoKey_comment interior.comment)
    · rw [List.mem_singleton.mp last]
      exact array.startsNoKey_closing

theorem strip_opening :
    (strip (String.ofList (array.key ++ array.opening))).toList =
      "dependencies".toList ++ (array.keyGap ++ '=' :: (array.valueGap ++ ('[' :: stripRight isSpace array.opening))) := by
  obtain ⟨indent, _, _, _⟩ := array.blanks
  have dropped : stripLeft isSpace (array.key ++ array.opening) =
      "dependencies".toList ++ (array.keyGap ++ '=' :: (array.valueGap ++ ('[' :: array.opening))) := by
    rw [stripLeft, key, List.append_assoc, List.dropWhile_append_of_pos (isSpace_of_blank indent)]
    have first : ∀ rest : List Char, ("dependencies".toList ++ rest).dropWhile isSpace = "dependencies".toList ++ rest :=
      fun rest => List.dropWhile_cons_of_neg (by decide)
    simp only [List.append_assoc, first, List.cons_append, List.nil_append]
  have front : ∀ rest : List Char,
      "dependencies".toList ++ (array.keyGap ++ '=' :: (array.valueGap ++ ('[' :: rest))) =
        ("dependencies".toList ++ array.keyGap ++ '=' :: array.valueGap) ++ '[' :: rest := by
    intro rest
    simp only [List.append_assoc, List.cons_append]
  rw [strip, String.toList_ofList, String.toList_ofList, dropped, front, stripRight_append_of_last (by decide), front]

theorem linePackages_opening : linePackages (String.ofList (array.key ++ array.opening)) = array.onOpeningLine := by
  obtain ⟨_, before, after, _⟩ := array.blanks
  have equals : ∀ rest : List Char, afterEquals (array.keyGap ++ '=' :: (array.valueGap ++ ('[' :: rest))) =
      some ('[' :: rest) := by
    intro rest
    refine afterEquals_blank before after ?_
    rintro c ⟨⟩
    decide
  have visible : strip (String.ofList (array.key ++ array.opening)) ≠ "" := by
    intro empty
    have line := array.strip_opening
    rw [empty] at line
    exact List.cons_ne_nil _ _ line.symm
  unfold linePackages
  dsimp only
  rw [if_neg visible, array.strip_opening, onOpeningLine]
  generalize stripRight isSpace array.opening = line
  have whole : inlineArray ("dependencies".toList ++ (array.keyGap ++ '=' :: (array.valueGap ++ ('[' :: line)))) =
      if line.getLast? = some ']' then some line.dropLast else none := by
    have bracket : afterLiteral ['['] ('[' :: line) = some line := afterLiteral_append ['['] line
    simp only [inlineArray, afterLiteral_append, equals, bracket, Option.bind_eq_bind, Option.bind_some]
  have noPoetry : poetryKey ("dependencies".toList ++ (array.keyGap ++ '=' :: (array.valueGap ++ ('[' :: line)))) =
      none := by
    have word : ("dependencies".toList ++ (array.keyGap ++ '=' :: (array.valueGap ++ ('[' :: line)))).takeWhile isNameChar =
        "dependencies".toList := by
      rw [List.takeWhile_append_of_pos (List.all_eq_true.mp rfl)]
      have stops : (array.keyGap ++ '=' :: (array.valueGap ++ ('[' :: line))).takeWhile isNameChar = [] := by
        cases gap : array.keyGap with
        | nil => exact List.takeWhile_cons_of_neg (by decide)
        | cons c cs =>
          refine List.takeWhile_cons_of_neg ?_
          rcases before c (by rw [gap]; exact List.mem_cons_self ..) with rfl | rfl <;> decide
      rw [stops, List.append_nil]
    have unquoted : quotedText ('[' :: line) = none := by simp [quotedText, isQuote]
    simp only [poetryKey, word, List.drop_left, equals, unquoted, Option.bind_eq_bind, Option.bind_some, Option.bind_none]
    rfl
  rw [whole, noPoetry]
  by_cases closed : line.getLast? = some ']'
  · rw [if_pos closed, if_pos closed]
  · rw [if_neg closed, if_neg closed]

theorem physicalLines_packages : array.physicalLines.flatMap linePackages = array.onOpeningLine := by
  rw [physicalLines, List.flatMap_cons, array.linePackages_opening]
  have later : (array.laterLines.map String.ofList).flatMap linePackages = [] := by
    rw [List.flatMap_eq_nil_iff]
    intro line member
    obtain ⟨cs, listed, rfl⟩ := List.mem_map.mp member
    exact linePackages_of_startsNoKey (array.startsNoKey_laterLines cs listed)
  rw [later, List.append_nil]

end DependencyArray

/-! ### What the packages lead to -/

def packageResource (dep : String) : Option (ResourceType × String) :=
  match pyprojectDeps.lookup dep with
  | some _ => none
  | none => knownResources.lookup dep

def packageFramework (dep : String) : Option (String × ComponentType) := (pyprojectDeps.lookup dep).map (dep, ·)

def resourcesOf (deps : List String) : List (ResourceType × String) := deps.filterMap packageResource

def frameworksOf (deps : List String) : List (String × ComponentType) := deps.filterMap packageFramework

def typedResource (name : String) : ResourceType × String :=
  ((knownResources.map Prod.snd).find? (·.2 = name)).getD (.externalService, name)

theorem typedResource_of_package {dep : String} {known : ResourceType × String} (found : packageResource dep = some known) :
    typedResource known.2 = known := by
  have all : ∀ entry ∈ knownResources, typedResource entry.2.2 = entry.2 := by decide
  unfold packageResource at found
  split at found
  · cases found
  · obtain ⟨before, after, split, _⟩ := List.lookup_eq_some_iff.mp found
    exact all (dep, known) (by rw [split]; exact List.mem_append_right _ (List.mem_cons_self ..))

theorem resourcesOf_eq_iff {deps others : List String} :
    resourcesOf deps = resourcesOf others ↔ (resourcesOf deps).map Prod.snd = (resourcesOf others).map Prod.snd := by
  have back : ∀ deps, ((resourcesOf deps).map Prod.snd).map typedResource = resourcesOf deps := by
    intro deps
    rw [List.map_map]
    conv_rhs => rw [← List.map_id (resourcesOf deps)]
    apply List.map_congr_left
    intro known member
    obtain ⟨dep, _, found⟩ := List.mem_filterMap.mp member
    exact typedResource_of_package found
  constructor
  · exact congrArg _
  · intro same
    rw [← back deps, ← back others, same]

namespace ManifestTopologyDetector
variable {run : ManifestRun} {topology : DiscoveredTopology}

def knownResource (run : ManifestRun) (known : ResourceType × String) : ResourceCandidate :=
  resource run known.2 known.1 "pyproject.toml"

def frameworkComponent (run : ManifestRun) (framework : String × ComponentType) : ComponentCandidate :=
  component run framework.1 framework.2 "pyproject.toml"

theorem any_name_iff {α : Type} {name : α → String} {kept : List α} {wanted : String} :
    kept.any (fun a => decide (name a = wanted)) = true ↔ wanted ∈ kept.map name := by
  rw [List.any_eq_true, List.mem_map]
  simp only [decide_eq_true_eq]

theorem addKnown_eq (known : ResourceType × String) :
    (if topology.resources.any (·.name = known.2) then topology
      else { topology with resources := topology.resources ++ [resource run known.2 known.1 "pyproject.toml"] }) =
      { topology with
        resources := FirstWriter.enter ResourceCandidate.name topology.resources (knownResource run known) } := by
  have named : topology.resources.any (·.name = known.2) = true ↔
      (knownResource run known).name ∈ topology.resources.map ResourceCandidate.name := any_name_iff
  by_cases taken : (knownResource run known).name ∈ topology.resources.map ResourceCandidate.name
  · rw [if_pos (named.mpr taken), FirstWriter.enter, if_pos taken]
  · rw [if_neg (fun any => taken (named.mp any)), FirstWriter.enter, if_neg taken]
    rfl

theorem addPackage_named {name : String} (listed : name ∈ topology.components.map (·.name)) (dep : String) :
    addPackage run (some name) topology dep =
      { topology with
        resources := ((packageResource dep).toList.map (knownResource run)).foldl
          (FirstWriter.enter ResourceCandidate.name) topology.resources
        dependencies := topology.dependencies ++ (packageResource dep).toList.map fun known => dependency run name known.2 } := by
  unfold addPackage packageResource
  cases framework : pyprojectDeps.lookup dep with
  | some type =>
    have there : topology.components.any (·.name = (some name).getD dep) = true := any_name_iff.mpr listed
    show (if topology.components.any (·.name = (some name).getD dep) = true then topology else _) = _
    rw [if_pos there]
    simp
  | none =>
    cases found : knownResources.lookup dep with
    | none => simp
    | some known =>
      have added := @addKnown_eq run topology known
      simp only [added, Option.toList_some, List.map_cons, List.map_nil, List.foldl_cons, List.foldl_nil]

theorem addPackage_unnamed (dep : String) :
    addPackage run none topology dep =
      { topology with
        components := ((packageFramework dep).toList.map (frameworkComponent run)).foldl
          (FirstWriter.enter ComponentCandidate.name) topology.components
        resources := ((packageResource dep).toList.map (knownResource run)).foldl
          (FirstWriter.enter ResourceCandidate.name) topology.resources } := by
  unfold addPackage packageResource packageFramework
  cases framework : pyprojectDeps.lookup dep with
  | some type =>
    simp only [Option.getD_none, Option.map_some, Option.toList_some, Option.toList_none, List.map_cons, List.map_nil,
      List.foldl_cons, List.foldl_nil, FirstWriter.enter, frameworkComponent, component, addComponent]
    by_cases taken : dep ∈ topology.components.map ComponentCandidate.name
    · rw [if_pos (any_name_iff.mpr taken), if_pos taken]
    · rw [if_neg (fun any => taken (any_name_iff.mp any)), if_neg taken]
  | none =>
    cases found : knownResources.lookup dep with
    | none => simp
    | some known =>
      have added := @addKnown_eq run topology known
      simp only [added, Option.map_none, Option.toList_some, Option.toList_none, List.map_cons, List.map_nil,
        List.foldl_cons, List.foldl_nil]

theorem resourcesOf_cons (dep : String) (deps : List String) :
    resourcesOf (dep :: deps) = (packageResource dep).toList ++ resourcesOf deps := by
  rw [resourcesOf, List.filterMap_cons]
  cases packageResource dep <;> rfl

theorem frameworksOf_cons (dep : String) (deps : List String) :
    frameworksOf (dep :: deps) = (packageFramework dep).toList ++ frameworksOf deps := by
  rw [frameworksOf, List.filterMap_cons]
  cases packageFramework dep <;> rfl

theorem foldl_named {name : String} (deps : List String) (topology : DiscoveredTopology)
    (listed : name ∈ topology.components.map (·.name)) :
    deps.foldl (addPackage run (some name)) topology =
      { topology with
        resources := ((resourcesOf deps).map (knownResource run)).foldl (FirstWriter.enter ResourceCandidate.name)
          topology.resources
        dependencies := topology.dependencies ++ (resourcesOf deps).map fun known => dependency run name known.2 } := by
  induction deps generalizing topology with
  | nil =>
    rw [List.foldl_nil, resourcesOf, List.filterMap_nil, List.map_nil, List.map_nil, List.append_nil]
    rfl
  | cons dep deps ih =>
    rw [List.foldl_cons, addPackage_named listed, ih _ (by exact listed), resourcesOf_cons, List.map_append, List.map_append,
      List.foldl_append, List.append_assoc]

theorem foldl_unnamed (deps : List String) (topology : DiscoveredTopology) :
    deps.foldl (addPackage run none) topology =
      { topology with
        components := ((frameworksOf deps).map (frameworkComponent run)).foldl (FirstWriter.enter ComponentCandidate.name)
          topology.components
        resources := ((resourcesOf deps).map (knownResource run)).foldl (FirstWriter.enter ResourceCandidate.name)
          topology.resources } := by
  induction deps generalizing topology with
  | nil => rfl
  | cons dep deps ih =>
    rw [List.foldl_cons, addPackage_unnamed, ih, resourcesOf_cons, frameworksOf_cons, List.map_append, List.map_append,
      List.foldl_append, List.foldl_append]

variable (run) in
def undiscovered : DiscoveredTopology := { repositoryId := run.repositoryId, revision := run.revision }

theorem addPyproject_named_iff {name : String} {deps others : List String} :
    addPyproject run (some name) deps (undiscovered run) = addPyproject run (some name) others (undiscovered run) ↔
      resourcesOf deps = resourcesOf others := by
  have listed : name ∈
      (addComponent (component run name .backendService "pyproject.toml") (undiscovered run)).components.map (·.name) :=
    List.mem_singleton_self name
  have whole : ∀ deps, addPyproject run (some name) deps (undiscovered run) = _ := fun deps => foldl_named deps _ listed
  rw [whole, whole]
  constructor
  · intro same
    have edges := congrArg (fun topology => topology.dependencies.map DependencyCandidate.target) same
    simp only [List.map_append, List.map_map, List.append_cancel_left_eq] at edges
    exact resourcesOf_eq_iff.mpr edges
  · intro same
    rw [same]

theorem firsts_map_eq_iff {α β κ : Type} [DecidableEq κ] {f : α → β} {key : α → κ} {key' : β → κ}
    (same : ∀ a, key' (f a) = key a) (injective : Function.Injective f) {as bs : List α} :
    FirstWriter.firsts key' (as.map f) = FirstWriter.firsts key' (bs.map f) ↔
      FirstWriter.firsts key as = FirstWriter.firsts key bs := by
  have mapped : ∀ as : List α, FirstWriter.firsts key' (as.map f) = (FirstWriter.firsts key as).map f := by
    intro as
    exact (FirstWriter.map_foldl same [] as).symm
  rw [mapped, mapped, List.map_inj_right injective]

theorem addPyproject_unnamed_iff {deps others : List String} :
    addPyproject run none deps (undiscovered run) = addPyproject run none others (undiscovered run) ↔
      FirstWriter.firsts Prod.fst (frameworksOf deps) = FirstWriter.firsts Prod.fst (frameworksOf others) ∧
        FirstWriter.firsts Prod.snd (resourcesOf deps) = FirstWriter.firsts Prod.snd (resourcesOf others) := by
  have frameworks : Function.Injective (frameworkComponent run) := by
    intro first second same
    exact Prod.ext (congrArg ComponentCandidate.name same) (congrArg ComponentCandidate.componentType same)
  have resources : Function.Injective (knownResource run) := by
    intro first second same
    exact Prod.ext (congrArg ResourceCandidate.resourceType same) (congrArg ResourceCandidate.name same)
  have byComponents := @firsts_map_eq_iff _ _ _ _ (frameworkComponent run) Prod.fst ComponentCandidate.name
    (fun _ => rfl) frameworks (frameworksOf deps) (frameworksOf others)
  have byResources := @firsts_map_eq_iff _ _ _ _ (knownResource run) Prod.snd ResourceCandidate.name
    (fun _ => rfl) resources (resourcesOf deps) (resourcesOf others)
  have whole : ∀ deps, addPyproject run none deps (undiscovered run) =
      { undiscovered run with
        components := FirstWriter.firsts ComponentCandidate.name ((frameworksOf deps).map (frameworkComponent run))
        resources := FirstWriter.firsts ResourceCandidate.name ((resourcesOf deps).map (knownResource run)) } :=
    fun deps => foldl_unnamed deps _
  rw [whole, whole, ← byComponents, ← byResources]
  constructor
  · intro same
    exact ⟨congrArg DiscoveredTopology.components same, congrArg DiscoveredTopology.resources same⟩
  · rintro ⟨components, resources⟩
    rw [components, resources]

theorem addRequirements_eq (files : SnapshotFiles) : ∃ added : List ComponentCandidate, ∀ topology,
    addRequirements run files topology = { topology with components := topology.components ++ added } := by
  unfold addRequirements
  split
  · split
    · exact ⟨[], fun topology => by rw [List.append_nil]⟩
    · split
      · exact ⟨_, fun topology => rfl⟩
      · exact ⟨[], fun topology => by rw [List.append_nil]⟩
  · exact ⟨[], fun topology => by rw [List.append_nil]⟩

theorem addPackageJson_eq (files : SnapshotFiles) : ∃ added : List ComponentCandidate, ∀ topology,
    addPackageJson run files topology = { topology with components := topology.components ++ added } := by
  unfold addPackageJson
  split
  · split
    · exact ⟨_, fun topology => rfl⟩
    · exact ⟨[], fun topology => by rw [List.append_nil]⟩
  · exact ⟨[], fun topology => by rw [List.append_nil]⟩

theorem others_eq_iff (files : SnapshotFiles) {first second : DiscoveredTopology} :
    addPackageJson run files (addRequirements run files first) =
        addPackageJson run files (addRequirements run files second) ↔ first = second := by
  obtain ⟨required, requirements⟩ := @addRequirements_eq run files
  obtain ⟨packed, packages⟩ := @addPackageJson_eq run files
  rw [packages, packages, requirements, requirements]
  constructor
  · intro same
    cases first
    cases second
    simpa using same
  · exact fun same => by rw [same]

end ManifestTopologyDetector

/-! ### Detection and layout -/

/-- A `pyproject.toml` by its lines: those of the dependencies array, and the others. -/
structure PyprojectFile where
  content : String
  before : List String
  array : DependencyArray
  after : List String
  lines : splitlines content = before ++ array.physicalLines ++ after

namespace PyprojectFile
open ManifestTopologyDetector
variable (file : PyprojectFile)

/-- Whatever the layout, the detector finds what the packages of the array lead to,
and nothing else. -/
def DetectsEntries (run : ManifestRun) : Prop :=
  ∀ files : SnapshotFiles, files.lookup "pyproject.toml" = some file.content →
    detect run files = detectBy run (fun _ => file.array.packages) files

/-- The packages that the lines besides those within the brackets name. -/
def namedOnLines : List String :=
  file.before.flatMap linePackages ++ (file.array.onOpeningLine ++ file.after.flatMap linePackages)

structure ReadByLines : Prop where
  /-- With a project name each known resource is an edge of its own. -/
  named : projectName file.content ≠ none → resourcesOf file.namedOnLines = resourcesOf file.array.packages
  /-- Without one the first package of each kind is what counts. -/
  unnamed : projectName file.content = none →
    FirstWriter.firsts Prod.fst (frameworksOf file.namedOnLines) =
        FirstWriter.firsts Prod.fst (frameworksOf file.array.packages) ∧
      FirstWriter.firsts Prod.snd (resourcesOf file.namedOnLines) =
        FirstWriter.firsts Prod.snd (resourcesOf file.array.packages)

theorem pyprojectDependencies_content : pyprojectDependencies file.content = file.namedOnLines := by
  rw [pyprojectDependencies, file.lines, List.flatMap_append, List.flatMap_append, file.array.physicalLines_packages,
    List.append_assoc, namedOnLines]

/-- The packages are detected exactly where the lines name them. -/
theorem detectsEntries_iff (run : ManifestRun) : file.DetectsEntries run ↔ file.ReadByLines := by
  have reduced : file.DetectsEntries run ↔
      addPyproject run (projectName file.content) file.namedOnLines (undiscovered run) =
        addPyproject run (projectName file.content) file.array.packages (undiscovered run) := by
    have whole : ∀ dependencies (files : SnapshotFiles), files.lookup "pyproject.toml" = some file.content →
        detectBy run dependencies files = addPackageJson run files (addRequirements run files
          (addPyproject run (projectName file.content) (dependencies file.content) (undiscovered run))) := by
      intro dependencies files stored
      rw [detectBy, stored]
      rfl
    constructor
    · intro detects
      have stored : [("pyproject.toml", file.content)].lookup "pyproject.toml" = some file.content := rfl
      have same := detects _ stored
      rw [detect, whole _ _ stored, whole _ _ stored, others_eq_iff, file.pyprojectDependencies_content] at same
      exact same
    · intro same files stored
      rw [detect, whole _ _ stored, whole _ _ stored, others_eq_iff, file.pyprojectDependencies_content]
      exact same
  rw [reduced]
  cases name : projectName file.content with
  | some name =>
    rw [addPyproject_named_iff]
    constructor
    · intro same
      exact ⟨fun _ => same, fun unnamed => absurd (name.symm.trans unnamed) (by simp)⟩
    · intro read
      exact read.named (by simp [name])
  | none =>
    rw [addPyproject_unnamed_iff]
    constructor
    · intro same
      exact ⟨fun named => absurd name named, fun _ => same⟩
    · intro read
      exact read.unnamed name

/-- A project that lists one package, on a line of its own. -/
def shop : PyprojectFile where
  content := "[project]\nname = \"shop\"\ndependencies = [\n  \"redis>=5\",\n]\n"
  before := ["[project]", "name = \"shop\""]
  array := {
    indent := []
    keyGap := [' ']
    valueGap := [' ']
    lines := [{ tokens := [] },
      { tokens := [.blank [' ', ' '] (by simp [Blank]),
          .entry ⟨'"', "redis".toList, ">=5".toList, rfl, by simp [isNameChar], by simp [isNameChar]⟩, .comma] }]
    last := []
    trailing := []
    blanks := by simp [Blank]
    separated := trivial }
  after := []
  lines := by decide +kernel

/-- Redis is listed, and nothing is found. -/
theorem several_lines_unread : ¬ ∀ (file : PyprojectFile) (run : ManifestRun), file.DetectsEntries run := by
  intro detects
  have same := detects shop ⟨0, .v4 1, "r1"⟩ [("pyproject.toml", shop.content)] rfl
  have resources := congrArg (fun topology => topology.resources.map ResourceCandidate.name) same
  have found : (detect ⟨0, .v4 1, "r1"⟩ [("pyproject.toml", shop.content)]).resources.map ResourceCandidate.name = [] := by
    decide +kernel
  have listed : (detectBy ⟨0, .v4 1, "r1"⟩ (fun _ => shop.array.packages)
      [("pyproject.toml", shop.content)]).resources.map ResourceCandidate.name = ["Redis"] := by
    decide +kernel
  rw [found, listed] at resources
  cases resources

end PyprojectFile

end Brain
