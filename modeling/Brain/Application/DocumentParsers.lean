import Brain.Application.DocumentIngestion

namespace Brain
open Calls

/-- A `SourceArtifact` with its `metadata`, which only the choice of a parser reads. -/
structure TaggedArtifact extends SourceArtifact where
  metadata : RawDict := []

structure DocumentParser where
  name : String
  canParse : TaggedArtifact → Bool
  parse : TaggedArtifact → Except PyException (Nat → ParsedDocument × Nat)

/-- What turns a text or bytes into nodes: markdown-it, BeautifulSoup and pypdf,
each with the code that goes through its output. Bytes are kept as their text. -/
structure ParserLibraries where
  b64decode : String → Except PyException String
  markdown : SourceArtifact → String → Nat → ParsedDocument × Nat
  adrSections : SourceArtifact → ParsedDocument → ParsedDocument
  html : SourceArtifact → String → Nat → ParsedDocument × Nat
  pdf : SourceArtifact → String → Except PyException (Nat → ParsedDocument × Nat)
  xwiki : SourceArtifact → String → Nat → ParsedDocument × Nat

namespace TaggedArtifact
variable (artifact : TaggedArtifact)

/-- `(artifact.file_name or artifact.source_uri).lower()`. -/
def loweredName : String := lower (strOr ((given artifact.fileName).getD "") artifact.sourceUri)

def nameEnds (extensions : List String) : Bool :=
  extensions.any fun extension => extension.toList.isSuffixOf artifact.loweredName.toList

def hasMimeType (mimeTypes : List String) : Bool := (given artifact.mimeType).any mimeTypes.contains

end TaggedArtifact

def undecodable : PyException :=
  ⟨"ValueError", "SourceArtifact must carry content or a raw bytes reference to be parsed"⟩

namespace ParserLibraries
variable (libraries : ParserLibraries)

/-- `_decode` of the Markdown and the XWiki parser. -/
def decode (artifact : SourceArtifact) : Except PyException String :=
  match artifact.content, given artifact.rawBytesRef with
  | some content, _ => .ok content
  | none, some ref =>
    if "data:".toList.isPrefixOf ref.toList then
      libraries.b64decode (String.ofList ((ref.toList.dropWhile (· ≠ ',')).drop 1))
    else .ok ref
  | none, none => .error undecodable

/-- `_decode` of the HTML parser. -/
def decodeHtml (artifact : SourceArtifact) : Except PyException String :=
  match artifact.content, given artifact.rawBytesRef with
  | some content, _ => .ok content
  | none, some ref => .ok ref
  | none, none => .error undecodable

def markdownParser : DocumentParser where
  name := "markdown"
  canParse artifact :=
    artifact.hasMimeType ["text/markdown", "text/x-markdown"] ||
      artifact.nameEnds [".md", ".markdown", ".mdown", ".mkd"]
  parse artifact := (libraries.decode artifact.toSourceArtifact).map (libraries.markdown artifact.toSourceArtifact)

def adrParser : DocumentParser where
  name := "adr"
  canParse artifact :=
    libraries.markdownParser.canParse artifact &&
      (textContains artifact.loweredName "adr" ||
        ["decisions/", "docs/adr"].any fun start => start.toList.isPrefixOf artifact.loweredName.toList)
  parse artifact := (libraries.markdownParser.parse artifact).map fun parsed n =>
    (libraries.adrSections artifact.toSourceArtifact (parsed n).1, (parsed n).2)

def htmlParser : DocumentParser where
  name := "html"
  canParse artifact :=
    artifact.hasMimeType ["text/html", "application/xhtml+xml"] || artifact.nameEnds [".html", ".htm", ".xhtml"]
  parse artifact := (decodeHtml artifact.toSourceArtifact).map (libraries.html artifact.toSourceArtifact)

def pdfParser : DocumentParser where
  name := "pdf"
  canParse artifact := artifact.hasMimeType ["application/pdf"] || artifact.nameEnds [".pdf"]
  parse artifact := libraries.pdf artifact.toSourceArtifact (artifact.content.getD "")

def xwikiSyntaxParser : DocumentParser where
  name := "xwiki"
  canParse artifact :=
    let syntaxName := (pyGet artifact.metadata "syntax").or (pyGet artifact.metadata "xwiki_syntax")
    artifact.hasMimeType ["text/x-xwiki", "application/x-xwiki"] ||
      (syntaxName.truthy && "xwiki/".toList.isPrefixOf syntaxName.text.toList) ||
      artifact.nameEnds [".xwiki"]
  parse artifact := (libraries.decode artifact.toSourceArtifact).map (libraries.xwiki artifact.toSourceArtifact)

/-- `_build_parser_registry`. -/
def registry : List DocumentParser :=
  [libraries.adrParser, libraries.markdownParser, libraries.htmlParser, libraries.pdfParser, libraries.xwikiSyntaxParser]

def select (artifact : TaggedArtifact) : Option DocumentParser :=
  libraries.registry.find? fun parser => parser.canParse artifact

end ParserLibraries

structure IngestDocumentCommand where
  documentId : DocumentId
  projectId : Option ProjectId := none

/-- The dictionary `_ingest_document` returns. -/
inductive IngestDocumentReturn
  | notFound (documentId : DocumentId)
  | ingested (documentId : DocumentId) (versionId : DocumentVersionId)

namespace DocumentIngestionService
variable (self : DocumentIngestionService) (libraries : ParserLibraries)

/-- `ingest` with the parser that the registry selects. -/
def ingestSelected (artifact : TaggedArtifact) (projectId : ProjectId) (documentType : Option DocumentType := none)
    (repositoryId : Option RepositoryId := none) (commitSha : Option String := none) : Prog DocumentIngestionResult :=
  let hashed : TaggedArtifact :=
    { artifact with contentHash := some (artifact.contentHash.getD (self.contentHash artifact.toSourceArtifact)) }
  match libraries.select hashed with
  | none =>
    reraise ⟨.parserParse, false,
      ⟨"ValueError", "no parser registered for artifact " ++ PyValue.reprString artifact.sourceUri⟩⟩
  | some parser =>
    match parser.parse hashed with
    | .error exception => reraise ⟨.parserParse, false, exception⟩
    | .ok parsed =>
      ({ self with parse := fun _ => parsed } : DocumentIngestionService).ingest artifact.toSourceArtifact projectId
        documentType repositoryId commitSha

def ingestDocument (command : IngestDocumentCommand) : Prog IngestDocumentReturn := do
  let found ← query .documentGet (·.documents.get command.documentId)
  match found with
  | none => pure (.notFound command.documentId)
  | some document => do
    let artifact : TaggedArtifact :=
      { sourceUri := document.source.uri, provider := document.source.provider, mimeType := document.source.mimeType }
    let result ← self.ingestSelected libraries artifact document.projectId (some document.type)
    pure (.ingested command.documentId result.version.id)

/-- What the worker makes of an `INGEST_DOCUMENT` command: an exception of the
handler is its failure, and the next command follows. -/
def dispatchIngestDocument (command : IngestDocumentCommand) : Prog Unit :=
  swallow do
    let _ ← self.ingestDocument libraries command
    pure ()

end DocumentIngestionService

end Brain
