import Brain.Adapters.AdrParser
import Brain.Adapters.HtmlParser
import Brain.Adapters.XWikiSyntaxParser
import Brain.Application.DocumentParsers

namespace Brain

/-- `_adr_status`. -/
def adrStatusOf : Option PyValue → DecisionStatus
  | some (.str value) =>
    ([DecisionStatus.proposed, .accepted, .superseded, .rejected, .deprecated].find? fun status =>
      status.value = lower (strip value)).getD .proposed
  | _ => .proposed

/-- What ingestion stores of a node, with the references in it that stay unresolved. -/
def BlockNode.parsed (unresolved : BlockNode → List String) (node : BlockNode) : ParsedNode :=
  { node.toParsedNode with unresolvedRefs := unresolved node }

/-- What ingestion stores of a parsed document. -/
def ParserDocument.parsed (unresolved : BlockNode → List String) (document : ParserDocument) : ParsedDocument :=
  { title := document.title, adrStatus := adrStatusOf (document.frontMatter.lookup "adr_status")
    nodes := document.nodes.map (BlockNode.parsed unresolved) }

def AdrDocument.parsed (unresolved : BlockNode → List String) (document : AdrDocument) : ParsedDocument :=
  { document.toParserDocument.parsed unresolved with adrSections := some document.adrSections.toAdrSections }

def splitParagraphs (text : String) : List String := ((text.splitOn "\n\n").map strip).filter (· ≠ "")

/-- `_looks_like_heading`, with `str.isupper`. -/
def looksLikeHeading (isUpper : String → Bool) (text : String) : Bool :=
  text.length < 120 && (isUpper text || (stripRight isSpace text.toList).getLast? = some ':')

/-- `PdfParser.parse` of the texts of the pages. -/
def pdfParse (isUpper : String → Bool) (pages : List String) (nextUuid : Nat) : ParserDocument × Nat :=
  let paragraphs := splitParagraphs (joinLines pages)
  let nodes := paragraphs.zipIdx.map fun (text, index) =>
    if looksLikeHeading isUpper text then
      ({ id := .v4 (nextUuid + index), nodeType := .section, title := some text, headingPath := [text], content := text
         order := index } : BlockNode)
    else { id := .v4 (nextUuid + index), nodeType := .paragraph, content := text, order := index }
  ({ nodes }, nodes.length)

inductive StructuredParser
  | markdown | adr | html | pdf | xwiki
  deriving DecidableEq

/-- What the parsers get from markdown-it, BeautifulSoup, pypdf and the strings of
Python: the tokens, the tree and the pages of an artifact. -/
structure StructuredSources where
  mdParse : String → List Token
  soupOf : String → HtmlContents
  pagesOf : SourceArtifact → Except PyException (List String)
  isUpper : String → Bool

namespace ParserLibraries
variable (libraries : ParserLibraries)

/-- `MarkdownParser.parse` of an artifact, with the token streams of markdown-it. -/
def parseMarkdown (mdParse : String → List Token) (artifact : SourceArtifact) (nextUuid : Nat) :
    Except PyException (ParserDocument × Nat) := do
  let text ← libraries.decode artifact
  markdownParse mdParse text nextUuid

/-- `AdrParser.parse` of an artifact. -/
def parseAdr (mdParse : String → List Token) (artifact : SourceArtifact) (nextUuid : Nat) :
    Except PyException (AdrDocument × Nat) := do
  let (parsed, drawn) ← libraries.parseMarkdown mdParse artifact nextUuid
  return (adrParse artifact parsed, drawn)

/-- `HtmlParser.parse` of an artifact, with the trees of BeautifulSoup. -/
def parseHtml (soupOf : String → HtmlContents) (artifact : SourceArtifact) (nextUuid : Nat) :
    Except PyException (ParserDocument × Nat) := do
  let text ← decodeHtml artifact
  return htmlParse (soupOf text) nextUuid

/-- `XWikiSyntaxParser.parse` of an artifact. -/
def parseXWiki (artifact : TaggedArtifact) (nextUuid : Nat) : Except PyException (ParserDocument × Nat) := do
  let text ← libraries.decode artifact.toSourceArtifact
  return xwikiParse artifact.sourceUri artifact.metadata text nextUuid

/-- What one of the parsers makes of an artifact, as ingestion stores it. -/
def parseStructured (sources : StructuredSources) (unresolved : BlockNode → List String) (parser : StructuredParser)
    (artifact : TaggedArtifact) (nextUuid : Nat) : Except PyException (ParsedDocument × Nat) :=
  match parser with
  | .markdown => (libraries.parseMarkdown sources.mdParse artifact.toSourceArtifact nextUuid).map fun made =>
    (made.1.parsed unresolved, made.2)
  | .adr => (libraries.parseAdr sources.mdParse artifact.toSourceArtifact nextUuid).map fun made =>
    (made.1.parsed unresolved, made.2)
  | .html => (parseHtml sources.soupOf artifact.toSourceArtifact nextUuid).map fun made =>
    (made.1.parsed unresolved, made.2)
  | .pdf => (sources.pagesOf artifact.toSourceArtifact).map fun pages =>
    ((pdfParse sources.isUpper pages nextUuid).1.parsed unresolved, (pdfParse sources.isUpper pages nextUuid).2)
  | .xwiki => (libraries.parseXWiki artifact nextUuid).map fun made => (made.1.parsed unresolved, made.2)

end ParserLibraries

/-- A service whose artifacts are parsed by one of the parsers each; one that
cannot be parsed has no nodes. -/
def DocumentIngestionService.structured (self : DocumentIngestionService) (libraries : ParserLibraries)
    (sources : StructuredSources) (unresolved : BlockNode → List String)
    (select : SourceArtifact → StructuredParser × RawDict) : DocumentIngestionService :=
  { self with
    parse := fun artifact n =>
      match libraries.parseStructured sources unresolved (select artifact).1
          { toSourceArtifact := artifact, metadata := (select artifact).2 } n with
      | .ok made => made
      | .error _ => ({}, 0) }

end Brain
