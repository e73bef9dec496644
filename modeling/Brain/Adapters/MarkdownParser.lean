import Brain.Adapters.DocumentBuilder
import Brain.Adapters.Ports

namespace Brain

/-! ### Lines and words -/

/-- The characters that `str.splitlines` breaks lines at. -/
def isLineBreak (c : Char) : Bool :=
  [0xa, 0xb, 0xc, 0xd, 0x1c, 0x1d, 0x1e, 0x85, 0x2028, 0x2029].contains c.toNat

/-- The lines of a text whose first line starts with `line`. -/
def linesFrom (line : List Char) : List Char → List (List Char)
  | [] => if line.isEmpty then [] else [line]
  | '\r' :: '\n' :: cs => line :: linesFrom [] cs
  | c :: cs => if isLineBreak c then line :: linesFrom [] cs else linesFrom (line ++ [c]) cs

/-- `text.splitlines()`. -/
def splitlines (text : String) : List String := (linesFrom [] text.toList).map String.ofList

example : splitlines "a\r\n\nb" = ["a", "", "b"] := by decide

/-- `text.split()`. -/
def words (text : String) : List String :=
  ((text.toList.splitOnP isSpace).filter fun word => !word.isEmpty).map String.ofList

/-- `items[0]`. -/
def firstItem {α : Type} : List α → Except PyException α
  | [] => .error ⟨"IndexError", "list index out of range"⟩
  | item :: _ => .ok item

/-! ### Tokens -/

inductive InlineType
  | text | codeInline | softbreak | hardbreak | linkOpen | linkClose | emOpen | emClose | strongOpen | strongClose
  | image | htmlInline
  deriving DecidableEq

structure InlineToken where
  type : InlineType
  content : String := ""
  href : Option String := none
  deriving DecidableEq

inductive TokenType
  | headingOpen | headingClose | paragraphOpen | paragraphClose | inline | fence | codeBlock | htmlBlock | hr
  | blockquoteOpen | blockquoteClose | bulletListOpen | bulletListClose | orderedListOpen | orderedListClose | listClose
  | listItemOpen | listItemClose | tableOpen | tableClose | theadOpen | theadClose | tbodyOpen | tbodyClose
  | trOpen | trClose | thOpen | thClose | tdOpen | tdClose
  deriving DecidableEq

/-- A token of markdown-it. The level is the digit in the tag of a heading. -/
structure Token where
  type : TokenType
  level : Nat := 0
  content : String := ""
  info : String := ""
  children : List InlineToken := []
  deriving DecidableEq

/-- What `_inline_text` takes of a token into the text. -/
def InlineToken.part (tok : InlineToken) : String :=
  match tok.type with
  | .text | .codeInline => tok.content
  | .softbreak | .hardbreak => "\n"
  | _ => ""

def InlineToken.link (tok : InlineToken) : Option String :=
  match tok.type with
  | .linkOpen => given tok.href
  | _ => none

def inlineText (tokens : List InlineToken) : String × List String :=
  (String.join (tokens.map InlineToken.part), tokens.filterMap InlineToken.link)

def tableFromTokens (rowsTokens : List (List Token)) : ParsedTable :=
  rowsTokens.foldl (fun table row =>
    let cells := (row.filter fun tok => tok.type = .inline).map fun tok => (inlineText tok.children).1
    if table.headers.isEmpty then { table with headers := cells } else { table with rows := table.rows ++ [cells] }) {}

/-! ### The walk over the tokens -/

/-- The inline tokens of a row, up to its end. -/
def rowCells : List Token → Except PyException (List Token)
  | [] => .ok []
  | tok :: rest =>
    if tok.type = .trClose then .ok []
    else if tok.type = .thOpen ∨ tok.type = .tdOpen then do
      let cell ← firstItem rest
      let cells ← rowCells rest
      return cell :: cells
    else rowCells rest

/-- The rows of a table, up to its end, and how many tokens they take. The first
`skip` tokens belong to a row that was read. -/
def tableRows : Nat → List Token → Except PyException (List (List Token) × Nat)
  | _, [] => .ok ([], 0)
  | skip + 1, _ :: rest => do
    let (rows, taken) ← tableRows skip rest
    return (rows, taken + 1)
  | 0, tok :: rest =>
    if tok.type = .tableClose then .ok ([], 0)
    else if tok.type = .trOpen then do
      let cells ← rowCells rest
      let (rows, taken) ← tableRows (rest.takeWhile fun tok => tok.type ≠ .trClose).length rest
      return (cells :: rows, taken + 1)
    else do
      let (rows, taken) ← tableRows 0 rest
      return (rows, taken + 1)

/-- The builder, and the items of the list that is read. -/
structure MarkdownWalk where
  builder : DocumentBuilder
  listBuffer : List String := []
  deriving DecidableEq

namespace MarkdownWalk
variable (self : MarkdownWalk)

def flushList : MarkdownWalk :=
  if self.listBuffer.isEmpty then self
  else { builder := self.builder.addList (joinLines self.listBuffer), listBuffer := [] }

def addItem (text : String) : MarkdownWalk :=
  { self with listBuffer := self.listBuffer ++ [if text = "" then "-" else "- " ++ text] }

/-- One turn of the loop: the token it is at, with those after it, and how many
of these it goes past. -/
def turn (tok : Token) (rest : List Token) : Except PyException (MarkdownWalk × Nat) :=
  match tok.type with
  | .headingOpen => do
    let inline ← firstItem rest
    let (text, links) := inlineText inline.children
    return ({ self with builder := self.builder.heading tok.level text links }, 2)
  | .paragraphOpen => do
    let inline ← firstItem rest
    let (text, links) := inlineText inline.children
    return ({ self with builder := self.builder.paragraph text links }, 2)
  | .fence => do
    let info ← firstItem (words (strip tok.info))
    return ({ self.flushList with builder := self.flushList.builder.codeBlock (given (some info)) tok.content }, 0)
  | .codeBlock =>
    return ({ self.flushList with builder := self.flushList.builder.codeBlock none tok.content }, 0)
  | .tableOpen => do
    let (rowsTokens, taken) ← tableRows 0 rest
    return ({ self.flushList with builder := self.flushList.builder.table (tableFromTokens rowsTokens) }, taken + 1)
  | .bulletListOpen | .orderedListOpen => return (self.flushList, 0)
  | .listItemOpen =>
    let inlineTok := (rest.take 3).find? fun candidate => candidate.type = .inline
    return (self.addItem (inlineTok.elim "" fun tok => (inlineText tok.children).1), 1)
  | .listItemClose => return (self, 0)
  | .listClose | .bulletListClose | .orderedListClose => return (self.flushList, 0)
  | _ => return (self, 0)

/-- The loop, after which `skip` more tokens are gone past. -/
def walk : Nat → List Token → MarkdownWalk → Except PyException MarkdownWalk
  | _, [], self => .ok self
  | skip + 1, _ :: rest, self => walk skip rest self
  | 0, tok :: rest, self => do
    let (next, skip) ← self.turn tok rest
    walk skip rest next

end MarkdownWalk

/-! ### The parser -/

/-- A `ParsedDocument` as a parser returns it. -/
structure ParserDocument where
  title : Option String := none
  frontMatter : RawDict := []
  nodes : List BlockNode := []

/-- `text.partition(":")` when there is a colon in it. -/
def partitionColon (text : String) : Option (String × String) :=
  if text.toList.contains ':' then
    some (String.ofList (text.toList.takeWhile (· ≠ ':')), String.ofList ((text.toList.dropWhile (· ≠ ':')).drop 1))
  else none

def isQuote (c : Char) : Bool := c = '"' || c = '\''

def frontMatterEntry (line : String) : Option (String × PyValue) :=
  (partitionColon line).bind fun (key, value) =>
    if strip key = "" then none
    else some (strip key, .str (String.ofList (stripRight isQuote (stripLeft isQuote (strip value).toList))))

def extractFrontMatter (text : String) : RawDict × String :=
  let lines := splitlines text
  if !"---".toList.isPrefixOf text.toList || lines.length < 3 then ([], text)
  else match lines.tail.findIdx? fun line => strip line = "---" with
    | none => ([], text)
    | some end_ =>
      ((lines.tail.take end_).foldl (fun fm line => (frontMatterEntry line).elim fm fun entry => putKeyed Prod.fst entry fm) [],
        String.ofList ((joinLines (lines.tail.drop (end_ + 1))).toList.dropWhile (· = '\n')))

/-- `_derive_title` of the Markdown parser. -/
def deriveTitle (body : String) : Option String :=
  ((splitlines body).find? fun line => "# ".toList.isPrefixOf line.toList).map fun line =>
    strip (String.ofList (line.toList.drop 2))

def dumpFrontMatter (fm : RawDict) : String := joinLines (fm.map fun entry => entry.1 ++ ": " ++ entry.2.text)

/-- `MarkdownParser.parse` of a decoded text, by the tokens that markdown-it makes
of its body. The ids are drawn from `nextUuid`; the number drawn is returned. -/
def markdownParse (mdParse : String → List Token) (text : String) (nextUuid : Nat) :
    Except PyException (ParserDocument × Nat) := do
  let (frontMatter, body) := extractFrontMatter text
  let walked ← MarkdownWalk.walk 0 (mdParse body) { builder := { nextUuid } }
  let builder := walked.flushList.builder.finish
  let nodes := if frontMatter.isEmpty then builder.nodes
    else { id := .v4 builder.nextUuid, nodeType := .frontMatter, title := some "Front Matter"
           content := dumpFrontMatter frontMatter } :: builder.nodes
  return ({ title := deriveTitle body, frontMatter, nodes }, nodes.length)

end Brain
