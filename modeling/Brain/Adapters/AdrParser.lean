import Brain.Adapters.MarkdownParser

namespace Brain

inductive AdrSection
  | status | context | decision | alternatives | consequences
  deriving DecidableEq

def sectionHeadings : List (String × AdrSection) :=
  [("status", .status), ("context", .context), ("decision", .decision), ("alternatives", .alternatives),
    ("considered options", .alternatives), ("consequences", .consequences)]

/-- `_SECTION_NODE_TYPES.get(section)`. -/
def AdrSection.nodeType : AdrSection → Option DocumentNodeType
  | .status => none
  | .context => some .adrContext
  | .decision => some .adrDecision
  | .alternatives => some .adrAlternatives
  | .consequences => some .adrConsequences

/-- `text.rstrip(":")`. -/
def stripColons (text : String) : String := String.ofList (stripRight (· = ':') text.toList)

namespace BlockNode

def classifySection (node : BlockNode) : Option AdrSection :=
  if node.nodeType ≠ .section then none
  else sectionHeadings.lookup (stripColons (lower (strip (node.title.getD ""))))

/-- `(node.content or node.title or "").strip()`. -/
def ownText (node : BlockNode) : String := strip (strOr node.content (node.title.getD ""))

def retag (section_ : AdrSection) (node : BlockNode) : BlockNode :=
  { node with nodeType := section_.nodeType.getD node.nodeType }

end BlockNode

/-- The text of the first paragraph that has one, before anything else comes. -/
def followingText : List BlockNode → String
  | [] => ""
  | child :: rest =>
    if child.nodeType ≠ .paragraph then ""
    else if strip child.content = "" then followingText rest else strip child.content

def sectionContent (node : BlockNode) (following : List BlockNode) : String :=
  strOr (strip node.content) (followingText following)

/-- An `AdrSections` with its status. -/
structure ExtractedSections extends AdrSections where
  status : Option String := none
  deriving DecidableEq

/-- What the scan has come to: the section it is in, and the nodes that were
taken for each section. -/
structure AdrScan where
  current : Option AdrSection := none
  status : Option String := none
  taken : List (AdrSection × BlockNode) := []
  nodes : List BlockNode := []

namespace AdrScan
variable (self : AdrScan)

/-- The current section where a node with a text comes. -/
def currentAt (node : BlockNode) : Option AdrSection :=
  self.current.or (node.headingPath.getLast?.bind fun last => sectionHeadings.lookup (stripColons (lower last)))

def turn (node : BlockNode) (following : List BlockNode) : AdrScan :=
  match node.classifySection with
  | some section_ =>
    { self with
      current := some section_
      status := if section_ = .status then some (sectionContent node following) else self.status
      nodes := self.nodes ++ [node.retag section_] }
  | none =>
    if node.ownText = "" then { self with nodes := self.nodes ++ [node] }
    else
      let current := self.currentAt node
      { self with
        current
        taken := self.taken ++ (current.filter (· ≠ .status)).toList.map (·, node)
        nodes := self.nodes ++ [node] }

def scan (self : AdrScan) : List BlockNode → AdrScan
  | [] => self
  | node :: rest => (self.turn node rest).scan rest

def takenFor (section_ : AdrSection) : List BlockNode := (self.taken.filter (·.1 = section_)).map Prod.snd

def texts (section_ : AdrSection) : List String := (self.takenFor section_).map BlockNode.ownText

def sections : ExtractedSections where
  context := strip (joinLines (self.texts .context))
  decision := strip (joinLines (self.texts .decision))
  alternatives := self.texts .alternatives
  consequences := self.texts .consequences
  status := self.status

end AdrScan

/-- `_extract_sections`, which changes the types of the nodes as well. -/
def extractSections (nodes : List BlockNode) : ExtractedSections × List BlockNode :=
  let scanned := AdrScan.scan {} nodes
  (scanned.sections, scanned.nodes)

/-- `text.title()`, where the first character comes after a cased one or not. -/
def titleCase : Bool → List Char → List Char
  | _, [] => []
  | afterCased, c :: cs => (if afterCased then lowerChar c else c.toUpper) :: titleCase c.isAlpha cs

def titleFromUri (artifact : SourceArtifact) : String :=
  let name := (given artifact.fileName).getD (String.ofList (lastSegment '/' artifact.sourceUri.toList))
  let stem := if name.toList.contains '.' then name.toList.take (name.length - (lastSegment '.' name.toList).length - 1)
    else name.toList
  String.ofList (titleCase false (stem.map fun c => if c = '-' ∨ c = '_' then ' ' else c))

/-- `front_matter.setdefault(key, value)`. -/
def setDefault (entry : String × PyValue) (dict : RawDict) : RawDict :=
  if dict.any (·.1 = entry.1) then dict else dict ++ [entry]

/-- A `ParsedDocument` with the sections of an ADR. -/
structure AdrDocument extends ParserDocument where
  adrSections : ExtractedSections

/-- `AdrParser.parse` of what the Markdown parser returns. -/
def adrParse (artifact : SourceArtifact) (parsed : ParserDocument) : AdrDocument :=
  let title := strOr (parsed.title.getD "") (titleFromUri artifact)
  let (sections, nodes) := extractSections parsed.nodes
  let defaults : RawDict :=
    [("adr", .bool true), ("adr_title", .str title), ("adr_status", .str ((given sections.status).getD "proposed"))]
  { title := some title
    frontMatter := defaults.foldl (fun dict entry => setDefault entry dict) parsed.frontMatter
    nodes, adrSections := sections }

end Brain
