import Brain.Application.Revisions
import Brain.Parsing.Text
import Mathlib.Tactic.Push
import Mathlib.Tactic.SplitIfs
import Mathlib.Tactic.Use

namespace Brain

/-- The whole of a `RepositorySnapshot`, with what a scan finds. -/
structure ScannedSnapshot extends RepositorySnapshot where
  id : Uuid
  capturedAt : Time
  tree : List String := []
  languages : List String := []
  manifestFiles : List String := []
  dockerfiles : List String := []
  composeFiles : List String := []
  ciConfiguration : List String := []
  documentationRoots : List String := []
  testRoots : List String := []
  deriving DecidableEq

def dockerfileNames : List String := ["dockerfile", "dockerfile.dev", "dockerfile.prod"]

def composeNames : List String := ["docker-compose.yml", "docker-compose.yaml", "compose.yml", "compose.yaml"]

def ciPaths : List String :=
  [".gitlab-ci.yml", ".gitlab-ci.yaml", ".github/workflows", ".circleci/config.yml", "jenkinsfile", ".travis.yml",
    "azure-pipelines.yml"]

def docRoots : List String := ["docs", "doc", "documentation"]

def testRootNames : List String := ["tests", "test", "spec", "specs", "__tests__"]

def languageBySuffix : List (String × String) :=
  [(".py", "Python"), (".js", "JavaScript"), (".jsx", "JavaScript"), (".ts", "TypeScript"), (".tsx", "TypeScript"),
    (".go", "Go"), (".rs", "Rust"), (".java", "Java"), (".kt", "Kotlin"), (".kts", "Kotlin"), (".c", "C"), (".h", "C"),
    (".cpp", "C++"), (".hpp", "C++"), (".cs", "C#"), (".rb", "Ruby"), (".php", "PHP"), (".swift", "Swift"),
    (".scala", "Scala"), (".sh", "Shell"), (".bash", "Shell"), (".sql", "SQL")]

/-- `Path(path).name`: the last part that is neither empty nor a dot. -/
def pathName (path : String) : String :=
  String.ofList (((path.toList.splitOn '/').filter fun part => part ≠ [] ∧ part ≠ ['.']).getLast?.getD [])

/-- `Path(path).suffix`: what is behind the last dot, unless the dot is at an end of the name. -/
def pathSuffix (path : String) : String :=
  let name := (pathName path).toList
  let last := lastSegment '.' name
  if last ≠ [] ∧ last.length + 1 < name.length then String.ofList ('.' :: last) else ""

namespace RepositoryScanner

/-- `path.lower().split("/")`. -/
def lowerSplit (path : String) : List String := ((lower path).toList.splitOn '/').map String.ofList

def language (path : String) : Option String := languageBySuffix.lookup (lower (pathSuffix path))

def isCi (path : String) : Bool :=
  ciPaths.contains (lower path) || textContains (lowered path) ".github/workflows" ||
    textContains (lowered path) ".gitlab-ci"

def isDoc (path : String) : Bool :=
  (lowerSplit path).any docRoots.contains || [".md", ".markdown", ".rst", ".adoc", ".txt"].contains (lower (pathSuffix path))

def isTest (path : String) : Bool :=
  let name := lower (pathName path)
  (lowerSplit path).any testRootNames.contains ||
    "test_".toList.isPrefixOf name.toList || textEnds name ["_test.py"] || textEnds name ["_test.go"]

def root (path : String) : String :=
  match path.toList.splitOn '/' with
  | first :: _ :: _ => String.ofList first
  | _ => path

/-- `scan` of a checkout with these files, under the id and at the time it takes. -/
def scan (files : List String) (repositoryId : RepositoryId) (revision : String) (id : Uuid) (now : Time) :
    ScannedSnapshot :=
  let files := files.insertionSort (· ≤ ·)
  { id, repositoryId, revision
    capturedAt := now
    tree := files
    languages := sortedSet (files.filterMap language)
    manifestFiles := files.filter fun f => classifyFile f = .manifest
    dockerfiles := files.filter fun f => dockerfileNames.contains (lower (pathName f))
    composeFiles := files.filter fun f => composeNames.contains (lower (pathName f))
    ciConfiguration := files.filter isCi
    documentationRoots := (files.filter isDoc).map root
    testRoots := (files.filter isTest).map root }

example : (scan ["Tests/Login.py", "compose.yml"] (.v4 1) "r1" (.v4 2) 0).testRoots = ["Tests"] := by decide

end RepositoryScanner

end Brain

namespace Brain

/-! ### The rules of the classification -/

/-- A path without its letter case and its kinds of slashes. -/
def foldedPath (path : String) : List Char := (forwardSlashes path).map lowerChar

def lowerName (path : String) : String := String.ofList (lastSegment '/' (foldedPath path))

def lowerParts (path : String) : List String := ((foldedPath path).splitOn '/').map String.ofList

def namedManifest (path : String) : Bool := manifestNames.contains (lowerName path) || textEnds (lowerName path) [".toml"]

def underForge (path : String) : Bool := (lowerParts path).contains ".github" || (lowerParts path).contains ".gitlab"

def namedDeployment (path : String) : Bool :=
  deploymentNames.contains (lowerName path) || ciNames.contains (lowerName path) || lowerName path = "dockerfile" ||
    underForge path

def underTests (path : String) : Bool := (lowerParts path).any ["test", "tests", "spec", "specs", "__tests__"].contains

def testName (name : List Char) : Bool :=
  "test_".toList.isPrefixOf name || "_test.py".toList.isSuffixOf name || "_test.go".toList.isSuffixOf name

/-- Documentation by its directory or by its whole name. -/
def documented (path : String) : Bool :=
  (lowerParts path).any ["docs", "doc", "documentation"].contains ||
    ["readme", "readme.md", "changelog", "changelog.md", "contributing"].contains (lowerName path)

def extensions : List String := docExtensions ++ schemaExtensions ++ sourceExtensions ++ configExtensions

/-- What a file is when it is none of manifest, deployment and test. -/
def contentCategory (path : String) : FileCategory :=
  let normalized := String.ofList (forwardSlashes path)
  if documented path || textEnds normalized docExtensions then .documentation
  else if textEnds normalized schemaExtensions then .schema
  else if textEnds normalized sourceExtensions then .source
  else if textEnds normalized configExtensions then .configuration
  else .unknown

theorem lowerChar_slash (c : Char) : lowerChar c = '/' ↔ c = '/' := lowerChar_eq_mark (.inl (by decide))

theorem forwardSlashes_ofList (cs : List Char) :
    forwardSlashes (String.ofList cs) = cs.map fun c => if c = '\\' then '/' else c := by
  rw [forwardSlashes, String.toList_ofList]

theorem lowerName_eq (path : String) : lowerName path = lower (String.ofList (lastSegment '/' (forwardSlashes path))) := by
  rw [lowerName, foldedPath, lastSegment_map lowerChar_slash, lower, String.toList_ofList]

theorem lowerParts_eq (path : String) :
    lowerParts path = ((forwardSlashes path).splitOn '/').map fun part => lower (String.ofList part) := by
  rw [lowerParts, foldedPath, splitOn_map lowerChar_slash, List.map_map]
  apply List.map_congr_left
  intro part _
  rw [Function.comp_apply, lower, String.toList_ofList]

theorem classifyFile_eq (path : String) :
    classifyFile path =
      if namedManifest path then .manifest
      else if namedDeployment path then .deployment
      else if underTests path || testName (lastSegment '/' (forwardSlashes path)) then .test
      else contentCategory path := by
  have named : lower (String.ofList (lastSegment '/' (String.ofList (forwardSlashes path)).toList)) = lowerName path := by
    rw [String.toList_ofList, lowerName_eq]
  have parts : ((String.ofList (forwardSlashes path)).toList.splitOn '/').map (fun part => lower (String.ofList part)) =
      lowerParts path := by
    rw [String.toList_ofList, lowerParts_eq]
  have tested : isTest (String.ofList (forwardSlashes path)) (lowerParts path) =
      (underTests path || testName (lastSegment '/' (forwardSlashes path))) := by
    simp only [isTest, underTests, testName, textEnds, List.any_cons, List.any_nil, Bool.or_false, String.toList_ofList,
      Bool.or_assoc]
  have content : isDocumentation (String.ofList (forwardSlashes path)) (lowerName path) (lowerParts path) =
      (documented path || textEnds (String.ofList (forwardSlashes path)) docExtensions) := by
    rw [isDocumentation, documented, Bool.or_assoc, Bool.or_assoc]
    exact congrArg _ (Bool.or_comm _ _)
  simp only [classifyFile, named, parts, tested, content]
  rw [contentCategory, namedManifest, namedDeployment, underForge]
  cases (manifestNames.contains (lowerName path) || textEnds (lowerName path) [".toml"]) with
  | true => rw [if_pos rfl, if_pos rfl]
  | false =>
    rw [if_neg Bool.false_ne_true, if_neg Bool.false_ne_true]
    cases (deploymentNames.contains (lowerName path) || ciNames.contains (lowerName path) ||
      decide (lowerName path = "dockerfile")) with
    | true => rw [if_pos rfl, Bool.true_or, if_pos rfl]
    | false => rw [if_neg Bool.false_ne_true, Bool.false_or]

theorem contentCategory_ne (path : String) :
    contentCategory path ≠ .manifest ∧ contentCategory path ≠ .deployment ∧ contentCategory path ≠ .test := by
  unfold contentCategory
  dsimp only
  split_ifs <;> simp

theorem classifyFile_manifest (path : String) : classifyFile path = .manifest ↔ namedManifest path = true := by
  obtain ⟨notManifest, _, _⟩ := contentCategory_ne path
  rw [classifyFile_eq]
  split_ifs <;> simp_all

theorem classifyFile_deployment (path : String) :
    classifyFile path = .deployment ↔ namedManifest path = false ∧ namedDeployment path = true := by
  obtain ⟨_, notDeployment, _⟩ := contentCategory_ne path
  rw [classifyFile_eq]
  split_ifs <;> simp_all

theorem classifyFile_test (path : String) :
    classifyFile path = .test ↔ namedManifest path = false ∧ namedDeployment path = false ∧
      (underTests path || testName (lastSegment '/' (forwardSlashes path))) = true := by
  obtain ⟨_, _, notTest⟩ := contentCategory_ne path
  rw [classifyFile_eq]
  split_ifs <;> simp_all

variable {path : String}

theorem classifyFile_content (manifest : namedManifest path = false) (deployment : namedDeployment path = false)
    (test : (underTests path || testName (lastSegment '/' (forwardSlashes path))) = false) :
    classifyFile path = contentCategory path := by
  rw [classifyFile_eq, manifest, deployment, test]
  rfl

/-! ### Letter case of a path -/

theorem foldedPath_eq (path : String) : foldedPath path = forwardSlashes (lower path) := by
  rw [foldedPath, forwardSlashes, forwardSlashes, lower, String.toList_ofList, List.map_map, List.map_map]
  apply List.map_congr_left
  intro c _
  show lowerChar (if c = '\\' then '/' else c) = if lowerChar c = '\\' then '/' else lowerChar c
  by_cases back : c = '\\'
  · rw [if_pos back, if_pos ((lowerChar_eq_mark (.inr rfl)).mpr back)]
    exact lowerChar_slash _ |>.mpr rfl
  · rw [if_neg back, if_neg (fun same => back ((lowerChar_eq_mark (.inr rfl)).mp same))]

theorem foldedPath_congr {other : String} (same : lower path = lower other) : foldedPath path = foldedPath other := by
  rw [foldedPath_eq, foldedPath_eq, same]

def EndsWithPath (path name : String) : Prop := path = name ∨ ∃ dir, path = dir ++ "/" ++ name

/-- The paths differ at most in the letter case of the file name or of an end of it. -/
def SameButCase (path other : String) : Prop :=
  ∃ front back back', path = front ++ back ∧ other = front ++ back' ∧ '/' ∉ back.toList ∧ lower back = lower back'

theorem SameButCase.lower {other : String} (same : SameButCase path other) : lower path = lower other := by
  obtain ⟨front, back, back', rfl, rfl, _, folded⟩ := same
  have folded : back.toList.map lowerChar = back'.toList.map lowerChar := String.ofList_injective folded
  rw [Brain.lower, Brain.lower, String.toList_append, String.toList_append, List.map_append, List.map_append, folded]

theorem lastSegment_append_segments (separator : Char) (xs ys : List Char) :
    lastSegment separator (xs ++ separator :: ys) = lastSegment separator ys := by
  rcases lastSegment_split separator ys with whole | ⟨above, split⟩
  · rw [lastSegment_append_cons xs (whole ▸ not_mem_lastSegment separator ys), ← whole]
  · have joined : xs ++ separator :: ys = (xs ++ separator :: above) ++ separator :: lastSegment separator ys := by
      rw [List.append_assoc, List.cons_append, ← split]
    rw [joined, lastSegment_append_cons _ (not_mem_lastSegment separator ys)]

theorem EndsWithPath.lowerName {name : String} (ends : EndsWithPath path name) : lowerName path = lowerName name := by
  rcases ends with rfl | ⟨dir, rfl⟩
  · rfl
  · have slash : ("/" : String).toList = ['/'] := rfl
    have split : foldedPath (dir ++ "/" ++ name) = foldedPath dir ++ '/' :: foldedPath name := by
      simp only [foldedPath, forwardSlashes, String.toList_append, slash, List.map_append, List.append_assoc]
      rfl
    rw [Brain.lowerName, split, lastSegment_append_segments, Brain.lowerName]

theorem EndsWithPath.namedManifest {name : String} (ends : EndsWithPath path name) :
    namedManifest path = namedManifest name := by
  rw [Brain.namedManifest, Brain.namedManifest, ends.lowerName]

variable {ending : List Char}

theorem suffix_last_part {xs ys : List Char} (plain : '/' ∉ ending) (ends : ending <:+ xs ++ '/' :: ys) :
    ending <:+ ys := by
  obtain ⟨front, joined⟩ := ends
  rcases List.append_eq_append_iff.mp joined with ⟨gap, _, right⟩ | ⟨gap, _, right⟩
  · exact absurd (right ▸ List.mem_append_right gap (List.mem_cons_self ..)) plain
  · cases gap with
    | nil =>
      rw [List.nil_append] at right
      exact absurd (right ▸ List.mem_cons_self ..) plain
    | cons c gap => exact ⟨gap, (List.cons.inj right).2.symm⟩

variable {f : Char → Char}

theorem suffix_of_map {cs : List Char} (fixed : ∀ c, f c ∈ ending → f c = c) (ends : ending <:+ cs.map f)
    : ending <:+ cs := by
  obtain ⟨front, joined⟩ := ends
  obtain ⟨before, after, rfl, _, same⟩ := List.map_eq_append_iff.mp joined.symm
  have unchanged : after.map f = after.map id := by
    apply List.map_congr_left
    intro c member
    exact fixed c (same ▸ List.mem_map_of_mem member)
  rw [List.map_id] at unchanged
  rw [← same, unchanged]
  exact List.suffix_append before after

/-! ### The file name in another letter case -/

/-- The path with every character of its file name replaced. -/
def respelled (f : Char → Char) (path : String) : String :=
  let name := lastSegment '/' path.toList
  String.ofList (path.toList.take (path.toList.length - name.length) ++ name.map f)

theorem take_front (path : String) :
    ∃ front : List Char, (front = [] ∨ ∃ above, front = above ++ ['/']) ∧
      path.toList.take (path.toList.length - (lastSegment '/' path.toList).length) = front ∧
      path.toList = front ++ lastSegment '/' path.toList := by
  rcases lastSegment_split '/' path.toList with whole | ⟨above, split⟩
  · use [], .inl rfl
    rw [← whole, Nat.sub_self, List.take_zero, List.nil_append]
    exact ⟨rfl, rfl⟩
  · use above ++ ['/'], .inr ⟨above, rfl⟩
    generalize lastSegment '/' path.toList = name at split ⊢
    have joined : path.toList = (above ++ ['/']) ++ name := by
      rw [split, List.append_assoc, List.singleton_append]
    have size : path.toList.length - name.length = (above ++ ['/']).length := by
      rw [joined, List.length_append, Nat.add_sub_cancel]
    rw [size]
    conv_lhs => rw [joined]
    exact ⟨List.take_left, joined⟩

theorem respelled_sameButCase (same : ∀ c, lowerChar (f c) = lowerChar c) (path : String) :
    SameButCase path (respelled f path) := by
  obtain ⟨front, _, taken, split⟩ := take_front path
  refine ⟨String.ofList front, String.ofList (lastSegment '/' path.toList),
    String.ofList ((lastSegment '/' path.toList).map f), ?_, ?_, ?_, ?_⟩
  · rw [← String.ofList_append, ← split, String.ofList_toList]
  · rw [respelled, taken, String.ofList_append]
  · rw [String.toList_ofList]
    exact not_mem_lastSegment '/' path.toList
  · rw [lower, lower, String.toList_ofList, String.toList_ofList, List.map_map]
    congr 1
    apply List.map_congr_left
    intro c _
    exact (same c).symm

theorem forwardSlashes_respelled (f : Char → Char) (path : String) :
    ∃ front : List Char, (front = [] ∨ ∃ above, front = above ++ ['/']) ∧
      forwardSlashes (respelled f path) = front ++ forwardSlashes (String.ofList ((lastSegment '/' path.toList).map f)) := by
  obtain ⟨front, closed, taken, _⟩ := take_front path
  have slashed : forwardSlashes (respelled f path) =
      forwardSlashes (String.ofList front) ++ forwardSlashes (String.ofList ((lastSegment '/' path.toList).map f)) := by
    simp only [respelled, taken, forwardSlashes, String.toList_ofList, List.map_append]
  rcases closed with rfl | ⟨above, rfl⟩
  · exact ⟨[], .inl rfl, slashed⟩
  · refine ⟨_, .inr ⟨forwardSlashes (String.ofList above), ?_⟩, slashed⟩
    rw [forwardSlashes, forwardSlashes, String.toList_ofList, String.toList_ofList, List.map_append]
    rfl

theorem lastSegment_respelled (f : Char → Char) (path : String) :
    lastSegment '/' (forwardSlashes (respelled f path)) =
      lastSegment '/' (forwardSlashes (String.ofList ((lastSegment '/' path.toList).map f))) := by
  obtain ⟨front, rfl | ⟨above, rfl⟩, slashed⟩ := forwardSlashes_respelled f path
  · rw [slashed, List.nil_append]
  · rw [slashed, List.append_assoc, List.singleton_append, lastSegment_append_segments]

theorem suffix_respelled (plain : '/' ∉ ending) (ends : ending <:+ forwardSlashes (respelled f path)) :
    ending <:+ forwardSlashes (String.ofList ((lastSegment '/' path.toList).map f)) := by
  obtain ⟨front, rfl | ⟨above, rfl⟩, slashed⟩ := forwardSlashes_respelled f path
  · rw [slashed, List.nil_append] at ends
    exact ends
  · rw [slashed, List.append_assoc, List.singleton_append] at ends
    exact suffix_last_part plain ends

theorem suffix_respelled_of_name
    (ends : ending <:+ forwardSlashes (String.ofList ((lastSegment '/' path.toList).map f))) :
    ending <:+ forwardSlashes (respelled f path) := by
  obtain ⟨front, _, slashed⟩ := forwardSlashes_respelled f path
  rw [slashed]
  exact ends.trans (List.suffix_append _ _)

theorem respelled_id (path : String) : respelled id path = path := by
  obtain ⟨front, _, taken, split⟩ := take_front path
  rw [respelled, taken, List.map_id, ← split, String.ofList_toList]

theorem lastSegment_lower (path : String) :
    lastSegment '/' (lower path).toList = (lastSegment '/' path.toList).map lowerChar := by
  rw [lower, String.toList_ofList, lastSegment_map lowerChar_slash]

theorem lowerName_respelled (path : String) :
    lastSegment '/' (forwardSlashes (respelled lowerChar path)) = (lowerName path).toList := by
  have whole := lastSegment_respelled id (lower path)
  rw [respelled_id, List.map_id, lastSegment_lower] at whole
  rw [lastSegment_respelled, lowerName, String.toList_ofList, foldedPath_eq, whole]

theorem folded_suffix_respelled (plain : '/' ∉ ending) (ends : ending <:+ foldedPath path)
    : ending <:+ forwardSlashes (respelled lowerChar path) := by
  rw [foldedPath_eq, ← respelled_id (lower path)] at ends
  have named := suffix_respelled plain ends
  rw [List.map_id, lastSegment_lower] at named
  exact suffix_respelled_of_name named

def capital (c : Char) : Char := (lowerChar c).toUpper

theorem lowerChar_capital (c : Char) : lowerChar (capital c) = lowerChar c := lowerChar_toUpper c

variable {name : List Char}

theorem not_small_capital {c : Char} (member : c ∈ forwardSlashes (String.ofList (name.map capital))) :
    ¬ (0x61 ≤ c.toNat ∧ c.toNat ≤ 0x7a) := by
  rw [forwardSlashes, String.toList_ofList, List.map_map] at member
  obtain ⟨d, _, rfl⟩ := List.mem_map.mp member
  rw [Function.comp_apply]
  split
  · decide
  · have raised := toNat_toUpper (lowerChar d)
    rw [capital, raised]
    split <;> omega

/-! ### Test names and extensions in any letter case -/

theorem begins_map_lowerChar {front : List Char} (small : front.map lowerChar = front) (begins : front <+: name) :
    front <+: name.map lowerChar := by
  rw [← small]
  exact begins.map lowerChar

theorem ends_map_lowerChar (small : ending.map lowerChar = ending) (ends : ending <:+ name) :
    ending <:+ name.map lowerChar := by
  rw [← small]
  exact ends.map lowerChar

theorem testName_iff :
    testName name = true ↔ "test_".toList <+: name ∨ "_test.py".toList <:+ name ∨ "_test.go".toList <:+ name := by
  rw [testName, Bool.or_eq_true, Bool.or_eq_true, List.isPrefixOf_iff_prefix, List.isSuffixOf_iff_suffix,
    List.isSuffixOf_iff_suffix, or_assoc]

theorem testName_lower (named : testName name = true) : testName (name.map lowerChar) = true := by
  rcases testName_iff.mp named with begins | ends | ends
  · exact testName_iff.mpr (.inl (begins_map_lowerChar (by decide) begins))
  · exact testName_iff.mpr (.inr (.inl (ends_map_lowerChar (by decide) ends)))
  · exact testName_iff.mpr (.inr (.inr (ends_map_lowerChar (by decide) ends)))

theorem mem_of_testName (named : testName name = true) : 't' ∈ name := by
  rcases testName_iff.mp named with begins | ends | ends
  · exact begins.subset (by decide)
  · exact ends.subset (by decide)
  · exact ends.subset (by decide)

theorem extension_facts {extension : String} (listed : extension ∈ extensions) :
    '/' ∉ extension.toList ∧ extension.toList.map lowerChar = extension.toList ∧
      ∃ c ∈ extension.toList, 0x61 ≤ c.toNat ∧ c.toNat ≤ 0x7a := by
  have all : (extensions.all fun extension => !extension.toList.contains '/' &&
      decide (extension.toList.map lowerChar = extension.toList) &&
      extension.toList.any fun c => decide (0x61 ≤ c.toNat ∧ c.toNat ≤ 0x7a)) = true := rfl
  have facts := List.all_eq_true.mp all extension listed
  simpa [and_assoc] using facts

theorem textEnds_iff {text : String} {endings : List String} :
    textEnds text endings = true ↔ ∃ ending ∈ endings, ending.toList <:+ text.toList := by
  rw [textEnds, List.any_eq_true]
  simp only [List.isSuffixOf_iff_suffix]

theorem textEnds_eq_false_iff {text : String} {endings : List String} :
    textEnds text endings = false ↔ ∀ ending ∈ endings, ¬ ending.toList <:+ text.toList := by
  rw [Bool.eq_false_iff, ne_eq, textEnds_iff]
  push Not
  rfl

theorem contentCategory_unknown : contentCategory path = .unknown ↔
      documented path = false ∧ ∀ extension ∈ extensions, ¬ extension.toList <:+ forwardSlashes path := by
  have each : (∀ extension ∈ extensions, ¬ extension.toList <:+ forwardSlashes path) ↔
      textEnds (String.ofList (forwardSlashes path)) docExtensions = false ∧
        textEnds (String.ofList (forwardSlashes path)) schemaExtensions = false ∧
        textEnds (String.ofList (forwardSlashes path)) sourceExtensions = false ∧
        textEnds (String.ofList (forwardSlashes path)) configExtensions = false := by
    simp only [textEnds_eq_false_iff, String.toList_ofList, extensions, List.mem_append, or_imp, forall_and, and_assoc]
  rw [each, contentCategory]
  generalize textEnds (String.ofList (forwardSlashes path)) docExtensions = documentation
  cases documented path <;> cases documentation <;> split_ifs <;> simp_all

/-! ### Three sets of rules -/

structure RepositoryPath where
  text : String
  clean : ∀ part ∈ text.toList.splitOn '/', part ≠ [] ∧ part ≠ ['.']

/-- `classify_file`, the lists of the scanner and `is_test_path` agree on a path. -/
structure Consistent (path : String) : Prop where
  manifest : ∀ files repositoryId revision id now, path ∈ files →
    (path ∈ (RepositoryScanner.scan files repositoryId revision id now).manifestFiles ↔ classifyFile path = .manifest)
  ci : ∀ files repositoryId revision id now,
    path ∈ (RepositoryScanner.scan files repositoryId revision id now).ciConfiguration → classifyFile path = .deployment
  compose : ∀ files repositoryId revision id now,
    path ∈ (RepositoryScanner.scan files repositoryId revision id now).composeFiles → classifyFile path = .deployment
  taken : RepositoryScanner.isTest path = true ∨ isTestPath path = true →
    classifyFile path ∈ [FileCategory.test, .manifest, .deployment]
  test : classifyFile path = .test → RepositoryScanner.isTest path = true ∨ isTestPath path = true
  manifestName : ∀ name ∈ manifestNames, EndsWithPath path name → classifyFile path = .manifest
  deploymentName : ∀ name ∈ deploymentNames, EndsWithPath path name → classifyFile path = .deployment
  ciName : ∀ name ∈ ciNames, EndsWithPath path name → classifyFile path = .deployment
  letterCase : ∀ other, SameButCase path other → classifyFile other = classifyFile path

structure ReadAlike (path : String) : Prop where
  /-- What the scanner finds by a part of the text is a deployment by its name or its directory. -/
  ciText : textContains (lowered path) ".github/workflows" = true ∨
      textContains (lowered path) ".gitlab-ci" = true →
    namedManifest path = false ∧ namedDeployment path = true
  ciPath : lower path ≠ "jenkinsfile" ∧ lower path ≠ ".circleci/config.yml"
  /-- These names of the manifest table are no names in small letters, or also a deployment's. -/
  manifestName : ∀ name ∈ ["Cargo.lock", "Gemfile", "Gemfile.lock", "Dockerfile"], ¬ EndsWithPath path name
  /-- These names of the CI table are no file names in small letters. -/
  ciName : ∀ name ∈ ["Jenkinsfile", ".circleci/config.yml"], EndsWithPath path name → underForge path = true
  /-- A rule for any letter case applies, or none that reads small letters only. -/
  letterCase : namedManifest path = true ∨ namedDeployment path = true ∨ underTests path = true ∨
    (testName (lower (pathName path)).toList = false ∧ testName (lowerName path).toList = false ∧
      (documented path = true ∨ ∀ extension ∈ extensions, ¬ extension.toList <:+ foldedPath path))

/-! ### The scanner's rules by the classification's -/

theorem RepositoryPath.pathName_eq (path : RepositoryPath) :
    pathName path.text = String.ofList (lastSegment '/' path.text.toList) := by
  have kept : (path.text.toList.splitOn '/').filter (fun part => decide (part ≠ [] ∧ part ≠ ['.'])) =
      path.text.toList.splitOn '/' :=
    List.filter_eq_self.mpr fun part member => decide_eq_true (path.clean part member)
  rw [pathName, kept, getLast?_splitOn, Option.getD_some]

theorem RepositoryPath.endsWith_pathName (path : RepositoryPath) : EndsWithPath path.text (pathName path.text) := by
  rw [path.pathName_eq]
  rcases lastSegment_split '/' path.text.toList with whole | ⟨above, split⟩
  · left
    rw [← whole, String.ofList_toList]
  · right
    use String.ofList above
    have slash : ("/" : String) = String.ofList ['/'] := rfl
    rw [slash, ← String.ofList_append, ← String.ofList_append, List.append_assoc, List.singleton_append, ← split,
      String.ofList_toList]

section folded
variable {path other : String} (same : foldedPath path = foldedPath other)
include same

theorem lowerName_congr : lowerName path = lowerName other := by rw [lowerName, lowerName, same]

theorem lowerParts_congr : lowerParts path = lowerParts other := by rw [lowerParts, lowerParts, same]

theorem namedManifest_congr : namedManifest path = namedManifest other := by
  rw [namedManifest, namedManifest, lowerName_congr same]

theorem underForge_congr : underForge path = underForge other := by rw [underForge, underForge, lowerParts_congr same]

theorem namedDeployment_congr : namedDeployment path = namedDeployment other := by
  rw [namedDeployment, namedDeployment, lowerName_congr same, underForge_congr same]

theorem underTests_congr : underTests path = underTests other := by rw [underTests, underTests, lowerParts_congr same]

theorem documented_congr : documented path = documented other := by
  rw [documented, documented, lowerName_congr same, lowerParts_congr same]

end folded

theorem mem_lowerParts {part : String} (member : part ∈ RepositoryScanner.lowerSplit path)
    (plain : (part.toList.map fun c => if c = '\\' then '/' else c).splitOn '/' = [part.toList]) :
    part ∈ lowerParts path := by
  obtain ⟨cs, inside, rfl⟩ := List.mem_map.mp member
  rw [lowerParts, foldedPath_eq, forwardSlashes, splitOn_map_flatMap rfl]
  rw [String.toList_ofList] at plain
  apply List.mem_map_of_mem
  exact List.mem_flatMap.mpr ⟨cs, inside, by rw [plain]; exact List.mem_singleton_self cs⟩

theorem underTests_iff :
    underTests path = true ↔ ∃ part ∈ lowerParts path, part ∈ ["test", "tests", "spec", "specs", "__tests__"] := by
  rw [underTests, List.any_eq_true]
  simp only [List.contains_iff_mem]

theorem underTests_of_scanner (found : (RepositoryScanner.lowerSplit path).any testRootNames.contains = true)
    : underTests path = true := by
  obtain ⟨part, member, listed⟩ := List.any_eq_true.mp found
  have facts : ∀ part ∈ testRootNames, part ∈ ["test", "tests", "spec", "specs", "__tests__"] ∧
      (part.toList.map fun c => if c = '\\' then '/' else c).splitOn '/' = [part.toList] := by
    decide
  obtain ⟨rooted, plain⟩ := facts part (List.contains_iff_mem.mp listed)
  exact underTests_iff.mpr ⟨part, mem_lowerParts member plain, rooted⟩

theorem scanner_isTest_iff : RepositoryScanner.isTest path = true ↔
      (RepositoryScanner.lowerSplit path).any testRootNames.contains = true ∨
        testName (lower (pathName path)).toList = true := by
  rw [RepositoryScanner.isTest, testName]
  simp only [textEnds, List.any_cons, List.any_nil, Bool.or_false, Bool.or_eq_true, or_assoc]

theorem isTestPath_iff : isTestPath path = true ↔ underTests path = true ∨
      "test_".toList <+: lastSegment '/' (forwardSlashes path) ∨
      "_test.py".toList <:+ lastSegment '/' (forwardSlashes path) := by
  rw [isTestPath, underTests, lowerParts_eq, Bool.or_eq_true, Bool.or_eq_true, List.isPrefixOf_iff_prefix,
    List.isSuffixOf_iff_suffix, or_assoc]

/-! ### Paths that end with a name of the tables -/

theorem manifestName_manifest
    (plain : ∀ name ∈ ["Cargo.lock", "Gemfile", "Gemfile.lock", "Dockerfile"], ¬ EndsWithPath path name) :
    ∀ name ∈ manifestNames, EndsWithPath path name → classifyFile path = .manifest := by
  intro name listed ends
  have facts : ∀ name ∈ manifestNames,
      name ∈ ["Cargo.lock", "Gemfile", "Gemfile.lock", "Dockerfile"] ∨ namedManifest name = true := by
    decide
  rcases facts name listed with capitals | manifest
  · exact absurd ends (plain name capitals)
  · exact (classifyFile_manifest path).mpr (ends.namedManifest.trans manifest)

theorem deploymentName_deployment {name : String} (listed : name ∈ deploymentNames) (ends : EndsWithPath path name) :
    classifyFile path = .deployment := by
  have facts : ∀ name ∈ deploymentNames, namedManifest name = false ∧ lowerName name ∈ deploymentNames := by
    decide
  obtain ⟨manifest, deployment⟩ := facts name listed
  rw [classifyFile_deployment, ends.namedManifest, namedDeployment, ends.lowerName,
    List.contains_iff_mem.mpr deployment, Bool.true_or, Bool.true_or, Bool.true_or]
  exact ⟨manifest, rfl⟩

theorem ciName_deployment {name : String} (listed : name ∈ ciNames) (ends : EndsWithPath path name) :
    classifyFile path = .deployment ↔ (name ∈ ["Jenkinsfile", ".circleci/config.yml"] → underForge path = true) := by
  have facts : ∀ name ∈ ciNames, namedManifest name = false ∧
      (name ∈ ["Jenkinsfile", ".circleci/config.yml"] ∧ lowerName name ∉ deploymentNames ∧ lowerName name ∉ ciNames ∧
          lowerName name ≠ "dockerfile" ∨
        name ∉ ["Jenkinsfile", ".circleci/config.yml"] ∧ lowerName name ∈ ciNames) := by
    decide
  obtain ⟨manifest, ⟨capitals, notDeployment, notCi, notDocker⟩ | ⟨plain, ci⟩⟩ := facts name listed
  · rw [classifyFile_deployment, ends.namedManifest, namedDeployment, ends.lowerName]
    simp [manifest, capitals, notDeployment, notCi, notDocker]
  · rw [classifyFile_deployment, ends.namedManifest, namedDeployment, ends.lowerName]
    simp [manifest, plain, ci]

/-! ### What the scanner lists -/

theorem compose_deployment (path : RepositoryPath) (listed : composeNames.contains (lower (pathName path.text)) = true) :
    classifyFile path.text = .deployment := by
  have facts : ∀ name ∈ composeNames, namedManifest name = false ∧ lower name = name ∧ lowerName name ∈ deploymentNames := by
    decide
  obtain ⟨manifest, small, deployment⟩ := facts _ (List.contains_iff_mem.mp listed)
  have folded := foldedPath_congr small
  rw [namedManifest_congr folded] at manifest
  rw [lowerName_congr folded] at deployment
  rw [classifyFile_deployment, path.endsWith_pathName.namedManifest, namedDeployment, path.endsWith_pathName.lowerName,
    List.contains_iff_mem.mpr deployment, Bool.true_or, Bool.true_or, Bool.true_or]
  exact ⟨manifest, rfl⟩

theorem isCi_iff : RepositoryScanner.isCi path = true ↔ lower path ∈ ciPaths ∨
      textContains (lowered path) ".github/workflows" = true ∨
        textContains (lowered path) ".gitlab-ci" = true := by
  rw [RepositoryScanner.isCi, Bool.or_eq_true, Bool.or_eq_true, List.contains_iff_mem, or_assoc]

theorem ciPath_deployment (listed : lower path ∈ ciPaths) :
    classifyFile path = .deployment ↔ lower path ≠ "jenkinsfile" ∧ lower path ≠ ".circleci/config.yml" := by
  have facts : ∀ small ∈ ciPaths, (namedManifest small = false ∧ namedDeployment small = true ↔
      small ≠ "jenkinsfile" ∧ small ≠ ".circleci/config.yml") := by
    decide
  have folded := foldedPath_congr (lower_lower path)
  rw [classifyFile_deployment, ← namedManifest_congr folded, ← namedDeployment_congr folded]
  exact facts (lower path) listed

variable {files : List String} {repositoryId : RepositoryId} {revision : String}

theorem mem_ciConfiguration {id : Uuid} {now : Time} :
    path ∈ (RepositoryScanner.scan files repositoryId revision id now).ciConfiguration ↔
      path ∈ files ∧ RepositoryScanner.isCi path = true := by
  rw [RepositoryScanner.scan, List.mem_filter, List.mem_insertionSort]

theorem mem_composeFiles {id : Uuid} {now : Time} :
    path ∈ (RepositoryScanner.scan files repositoryId revision id now).composeFiles ↔
      path ∈ files ∧ composeNames.contains (lower (pathName path)) = true := by
  rw [RepositoryScanner.scan, List.mem_filter, List.mem_insertionSort]

theorem mem_manifestFiles {id : Uuid} {now : Time} :
    path ∈ (RepositoryScanner.scan files repositoryId revision id now).manifestFiles ↔
      path ∈ files ∧ classifyFile path = .manifest := by
  rw [RepositoryScanner.scan, List.mem_filter, List.mem_insertionSort, decide_eq_true_iff]

/-! ### Tests -/

theorem scanner_test_suffix {path : RepositoryPath}
    (ends : "_test.go".toList <:+ lastSegment '/' (forwardSlashes path.text)) : RepositoryScanner.isTest path.text = true := by
  have whole : "_test.go".toList <:+ forwardSlashes path.text := by
    refine ends.trans ?_
    rcases lastSegment_split '/' (forwardSlashes path.text) with same | ⟨above, split⟩
    · exact same ▸ List.suffix_refl _
    · conv_rhs => rw [split]
      exact List.suffix_append_of_suffix (List.suffix_cons _ _)
  rw [← respelled_id path.text] at whole
  have named := suffix_respelled (by decide) whole
  rw [List.map_id, forwardSlashes_ofList] at named
  have raw : "_test.go".toList <:+ lastSegment '/' path.text.toList := by
    refine suffix_of_map ?_ named
    intro c member
    split at member
    · exact absurd member (by decide)
    · rename_i plain
      exact if_neg plain
  rw [scanner_isTest_iff, path.pathName_eq, lower, String.toList_ofList, String.toList_ofList]
  exact .inr (testName_iff.mpr (.inr (.inr (ends_map_lowerChar (by decide) raw))))

theorem test_taken {path : RepositoryPath} (test : classifyFile path.text = .test) :
    RepositoryScanner.isTest path.text = true ∨ isTestPath path.text = true := by
  obtain ⟨_, _, found⟩ := (classifyFile_test path.text).mp test
  rcases (Bool.or_eq_true _ _).mp found with rooted | named
  · exact .inr (isTestPath_iff.mpr (.inl rooted))
  · rcases testName_iff.mp named with begins | python | go
    · exact .inr (isTestPath_iff.mpr (.inr (.inl begins)))
    · exact .inr (isTestPath_iff.mpr (.inr (.inr python)))
    · exact .inl (scanner_test_suffix go)

theorem testName_lowerName (named : testName (lastSegment '/' (forwardSlashes path)) = true) :
    testName (lowerName path).toList = true := by
  rw [lowerName_eq, lower, String.toList_ofList, String.toList_ofList]
  exact testName_lower named

theorem ReadAlike.taken (readAlike : ReadAlike path)
    (taken : RepositoryScanner.isTest path = true ∨ isTestPath path = true) :
    classifyFile path ∈ [FileCategory.test, .manifest, .deployment] := by
  cases manifest : namedManifest path with
  | true =>
    rw [(classifyFile_manifest path).mpr manifest]
    decide
  | false =>
    cases deployment : namedDeployment path with
    | true =>
      rw [(classifyFile_deployment path).mpr ⟨manifest, deployment⟩]
      decide
    | false =>
      have rooted : underTests path = true := by
        rcases readAlike.letterCase with found | found | found | ⟨rawName, name, _⟩
        · exact absurd (found.symm.trans manifest) (by decide)
        · exact absurd (found.symm.trans deployment) (by decide)
        · exact found
        · rcases taken with scanner | testPath
          · rcases scanner_isTest_iff.mp scanner with root | named
            · exact underTests_of_scanner root
            · exact absurd (named.symm.trans rawName) (by decide)
          · rcases isTestPath_iff.mp testPath with root | begins | ends
            · exact root
            · exact absurd ((testName_lowerName (testName_iff.mpr (.inl begins))).symm.trans name) (by decide)
            · exact absurd ((testName_lowerName (testName_iff.mpr (.inr (.inl ends)))).symm.trans name) (by decide)
      have test : classifyFile path = .test :=
        (classifyFile_test path).mpr ⟨manifest, deployment, by rw [rooted, Bool.true_or]⟩
      rw [test]
      decide

/-! ### Letter case -/

theorem ReadAlike.same_category {other : String} (readAlike : ReadAlike path)
    (folded : foldedPath path = foldedPath other) : classifyFile other = classifyFile path := by
  have manifests := namedManifest_congr folded
  have deployments := namedDeployment_congr folded
  have tests := underTests_congr folded
  have documents := documented_congr folded
  cases manifest : namedManifest path with
  | true => rw [(classifyFile_manifest path).mpr manifest, (classifyFile_manifest other).mpr (manifests ▸ manifest)]
  | false =>
    cases deployment : namedDeployment path with
    | true =>
      rw [(classifyFile_deployment path).mpr ⟨manifest, deployment⟩,
        (classifyFile_deployment other).mpr ⟨manifests ▸ manifest, deployments ▸ deployment⟩]
    | false =>
      cases rooted : underTests path with
      | true =>
        rw [(classifyFile_test path).mpr ⟨manifest, deployment, by rw [rooted, Bool.true_or]⟩,
          (classifyFile_test other).mpr ⟨manifests ▸ manifest, deployments ▸ deployment, by
            rw [← tests, rooted, Bool.true_or]⟩]
      | false =>
        rcases readAlike.letterCase with found | found | found | ⟨_, name, content⟩
        · exact absurd (found.symm.trans manifest) (by decide)
        · exact absurd (found.symm.trans deployment) (by decide)
        · exact absurd (found.symm.trans rooted) (by decide)
        · have unnamed : ∀ {p : String}, foldedPath path = foldedPath p →
              testName (lastSegment '/' (forwardSlashes p)) = false := by
            intro p same
            rw [Bool.eq_false_iff]
            intro named
            rw [lowerName_congr same] at name
            exact absurd ((testName_lowerName named).symm.trans name) (by decide)
          rw [classifyFile_content manifest deployment (by rw [rooted, unnamed rfl]; rfl),
            classifyFile_content (manifests ▸ manifest) (deployments ▸ deployment) (by
              rw [← tests, rooted, unnamed folded]; rfl)]
          cases document : documented path with
          | true =>
            rw [contentCategory, contentCategory, ← documents, document, Bool.true_or, Bool.true_or, if_pos rfl, if_pos rfl]
          | false =>
            have none : ∀ {p : String}, foldedPath path = foldedPath p → contentCategory p = .unknown := by
              intro p same
              refine contentCategory_unknown.mpr ⟨(documented_congr same).symm.trans document, ?_⟩
              intro extension listed ends
              rcases content with found | without
              · exact absurd (found.symm.trans document) (by decide)
              · obtain ⟨_, small, _⟩ := extension_facts listed
                refine without extension listed ?_
                rw [same]
                exact ends_map_lowerChar small ends
            rw [none rfl, none folded]

theorem contentCategory_respelled_capital (path : String) (nameless : documented path = false) :
    contentCategory (respelled capital path) = .unknown := by
  have folded := foldedPath_congr (respelled_sameButCase lowerChar_capital path).lower
  refine contentCategory_unknown.mpr ⟨(documented_congr folded).symm.trans nameless, ?_⟩
  intro extension listed ends
  obtain ⟨plain, _, c, member, small⟩ := extension_facts listed
  exact not_small_capital ((suffix_respelled plain ends).subset member) small

theorem letterCase_of_same (manifest : namedManifest path = false) (deployment : namedDeployment path = false)
    (rooted : underTests path = false)
    (same : ∀ other, SameButCase path other → classifyFile other = classifyFile path) :
    classifyFile path ≠ .test ∧ testName (lowerName path).toList = false ∧
      (documented path = true ∨ ∀ extension ∈ extensions, ¬ extension.toList <:+ foldedPath path) := by
  have smallCase := respelled_sameButCase lowerChar_lowerChar path
  have capitalCase := respelled_sameButCase lowerChar_capital path
  have smallFolded := foldedPath_congr smallCase.lower
  have capitalFolded := foldedPath_congr capitalCase.lower
  have unnamed : testName (lastSegment '/' (forwardSlashes (respelled capital path))) = false := by
    rw [Bool.eq_false_iff, lastSegment_respelled]
    intro named
    have inside := mem_lastSegment (mem_of_testName named)
    exact not_small_capital inside (by decide)
  have asCapital : classifyFile path = contentCategory (respelled capital path) := by
    rw [← same _ capitalCase]
    refine classifyFile_content (namedManifest_congr capitalFolded ▸ manifest)
      (namedDeployment_congr capitalFolded ▸ deployment) ?_
    rw [← underTests_congr capitalFolded, rooted, unnamed, Bool.false_or]
  have notTest : classifyFile path ≠ .test := by
    rw [asCapital]
    exact (contentCategory_ne _).2.2
  have nameless : testName (lowerName path).toList = false := by
    rw [Bool.eq_false_iff]
    intro named
    refine notTest ?_
    rw [← same _ smallCase, classifyFile_test, lowerName_respelled, named, Bool.or_true]
    exact ⟨namedManifest_congr smallFolded ▸ manifest, namedDeployment_congr smallFolded ▸ deployment, rfl⟩
  refine ⟨notTest, nameless, ?_⟩
  cases document : documented path with
  | true => exact .inl rfl
  | false =>
    right
    intro extension listed ends
    have asSmall : classifyFile path = contentCategory (respelled lowerChar path) := by
      rw [← same _ smallCase]
      refine classifyFile_content (namedManifest_congr smallFolded ▸ manifest)
        (namedDeployment_congr smallFolded ▸ deployment) ?_
      rw [← underTests_congr smallFolded, rooted, lowerName_respelled, nameless, Bool.false_or]
    have unknown := contentCategory_respelled_capital path document
    rw [← asCapital, asSmall, contentCategory_unknown] at unknown
    exact unknown.2 extension listed (folded_suffix_respelled (extension_facts listed).1 ends)

/-- The three sets of rules agree exactly on the paths that none of them reads in its own way. -/
theorem RepositoryPath.consistent_iff (path : RepositoryPath) : Consistent path.text ↔ ReadAlike path.text := by
  constructor
  · intro consistent
    have listed : RepositoryScanner.isCi path.text = true → classifyFile path.text = .deployment := fun found =>
      consistent.ci [path.text] (.v4 0) "" (.v4 0) 0 (mem_ciConfiguration.mpr ⟨List.mem_singleton_self _, found⟩)
    have notListed : ∀ small ∈ ["jenkinsfile", ".circleci/config.yml"], lower path.text ≠ small := by
      intro small member same
      have inPaths : lower path.text ∈ ciPaths := by
        rw [same]
        exact (by decide : ∀ small ∈ ["jenkinsfile", ".circleci/config.yml"], small ∈ ciPaths) small member
      obtain ⟨notJenkins, notCircle⟩ := (ciPath_deployment inPaths).mp (listed (isCi_iff.mpr (.inl inPaths)))
      rcases List.mem_cons.mp member with rfl | member
      · exact notJenkins same
      · exact notCircle (same.trans (List.mem_singleton.mp member))
    refine ⟨?_, ⟨notListed _ (by decide), notListed _ (by decide)⟩, ?_, ?_, ?_⟩
    · intro contains
      exact (classifyFile_deployment path.text).mp (listed (isCi_iff.mpr (.inr contains)))
    · intro name member ends
      have facts : ∀ name ∈ ["Cargo.lock", "Gemfile", "Gemfile.lock", "Dockerfile"],
          name ∈ manifestNames ∧ namedManifest name = false := by
        decide
      obtain ⟨inTable, unread⟩ := facts name member
      have read := (classifyFile_manifest path.text).mp (consistent.manifestName name inTable ends)
      rw [ends.namedManifest, unread] at read
      exact Bool.false_ne_true read
    · intro name member ends
      have inTable : name ∈ ciNames :=
        (by decide : ∀ name ∈ ["Jenkinsfile", ".circleci/config.yml"], name ∈ ciNames) name member
      exact (ciName_deployment inTable ends).mp (consistent.ciName name inTable ends) member
    · cases manifest : namedManifest path.text with
      | true => exact .inl rfl
      | false =>
        cases deployment : namedDeployment path.text with
        | true => exact .inr (.inl rfl)
        | false =>
          cases rooted : underTests path.text with
          | true => exact .inr (.inr (.inl rfl))
          | false =>
            obtain ⟨notTest, nameless, content⟩ := letterCase_of_same manifest deployment rooted consistent.letterCase
            refine .inr (.inr (.inr ⟨?_, nameless, content⟩))
            rw [Bool.eq_false_iff]
            intro named
            have category := consistent.taken (.inl (scanner_isTest_iff.mpr (.inr named)))
            simp only [List.mem_cons, List.not_mem_nil, or_false] at category
            rcases category with test | inManifest | inDeployment
            · exact notTest test
            · exact absurd (((classifyFile_manifest _).mp inManifest).symm.trans manifest) (by decide)
            · exact absurd (((classifyFile_deployment _).mp inDeployment).2.symm.trans deployment) (by decide)
  · intro readAlike
    constructor
    · intro files repositoryId revision id now member
      rw [mem_manifestFiles]
      exact and_iff_right member
    · intro files repositoryId revision id now member
      rcases isCi_iff.mp (mem_ciConfiguration.mp member).2 with inPaths | contains
      · exact (ciPath_deployment inPaths).mpr readAlike.ciPath
      · exact (classifyFile_deployment path.text).mpr (readAlike.ciText contains)
    · intro files repositoryId revision id now member
      exact compose_deployment path (mem_composeFiles.mp member).2
    · exact readAlike.taken
    · exact test_taken
    · exact manifestName_manifest readAlike.manifestName
    · intro name listed ends
      exact deploymentName_deployment listed ends
    · intro name listed ends
      exact (ciName_deployment listed ends).mpr fun capitals => readAlike.ciName name capitals ends
    · intro other same
      exact readAlike.same_category (foldedPath_congr same.lower)

/-- A Gemfile is in the manifest table, under a name that the classification lowers first. -/
theorem gemfile_unread : ¬ ∀ path : RepositoryPath, Consistent path.text := by
  intro consistent
  have manifest := (consistent ⟨"Gemfile", by decide⟩).manifestName "Gemfile" (by decide) (.inl rfl)
  exact absurd manifest (by decide)

end Brain
