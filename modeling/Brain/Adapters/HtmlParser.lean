import Brain.Adapters.MarkdownParser

namespace Brain

/-- The attributes of a tag that the parser looks at. -/
structure HtmlAttributes where
  href : Option String := none
  classes : List String := []
  role : Option String := none
  deriving DecidableEq

/-- The contents of an element as BeautifulSoup gives them: its first child, and
what comes after it. A comment stands for any string that `get_text` leaves out. -/
inductive HtmlContents
  | nil
  | text (content : String) (rest : HtmlContents)
  | comment (content : String) (rest : HtmlContents)
  | tag (name : String) (attributes : HtmlAttributes) (contents rest : HtmlContents)
  deriving DecidableEq

structure HtmlTag where
  name : String
  attributes : HtmlAttributes
  contents : HtmlContents

namespace HtmlContents

/-- The strings in it, stripped, without the empty ones. -/
def strings : HtmlContents → List String
  | nil => []
  | text content rest => (if strip content = "" then [] else [strip content]) ++ rest.strings
  | comment _ rest => rest.strings
  | tag _ _ contents rest => contents.strings ++ rest.strings

/-- `get_text(separator, strip=True)`. -/
def getText (separator : String) (contents : HtmlContents) : String := separator.intercalate contents.strings

/-- The tags at any depth, in document order. -/
def tags : HtmlContents → List HtmlTag
  | nil => []
  | text _ rest => rest.tags
  | comment _ rest => rest.tags
  | tag name attributes contents rest => ⟨name, attributes, contents⟩ :: contents.tags ++ rest.tags

def children : HtmlContents → List HtmlTag
  | nil => []
  | text _ rest => rest.children
  | comment _ rest => rest.children
  | tag name attributes contents rest => ⟨name, attributes, contents⟩ :: rest.children

/-- `find_all` of the tags with one of the names. -/
def findAll (names : List String) (contents : HtmlContents) : List HtmlTag :=
  contents.tags.filter fun found => names.contains found.name

def find (name : String) (contents : HtmlContents) : Option HtmlTag := (contents.findAll [name]).head?

end HtmlContents

/-- One of the `_NOISE_SELECTORS` selects the tag. -/
def isNoise (name : String) (attributes : HtmlAttributes) : Bool :=
  ["nav", "header", "footer", "aside", "script", "style", "form", "noscript", "iframe"].contains name ||
    attributes.classes.any (["nav", "navbar", "navigation", "breadcrumb", "sidebar", "footer", "header"].contains ·) ||
    attributes.role = some "navigation"

/-- What is left when the noise is decomposed. -/
def HtmlContents.removeNoise : HtmlContents → HtmlContents
  | .nil => .nil
  | .text content rest => .text content rest.removeNoise
  | .comment content rest => .comment content rest.removeNoise
  | .tag name attributes contents rest =>
    if isNoise name attributes then rest.removeNoise
    else .tag name attributes contents.removeNoise rest.removeNoise

def tableFromElement (contents : HtmlContents) : ParsedTable :=
  let rows := (contents.findAll ["tr"]).map fun row =>
    (row.contents.findAll ["th", "td"]).map fun cell => cell.contents.getText " "
  match rows.filter fun cells => !cells.isEmpty with
  | [] => {}
  | headers :: rows => { headers, rows }

def linksFromElement (contents : HtmlContents) : List String :=
  ((contents.findAll ["a"]).filterMap fun anchor => anchor.attributes.href).foldl
    (fun links href => if links.contains href then links else links ++ [href]) []

def listContent (contents : HtmlContents) : String :=
  let items := (contents.children.filter fun child => child.name = "li").map fun item => item.contents.getText " "
  joinLines ((items.filter (· ≠ "")).map fun item => "- " ++ item)

/-- What the walk does with a tag, by its name. -/
inductive HtmlKind
  | heading (level : Nat)
  | table
  | pre
  | list
  | paragraph
  | wrapper
  | other
  deriving DecidableEq

def htmlKind (name : String) : HtmlKind :=
  match ["h1", "h2", "h3", "h4", "h5", "h6"].findIdx? (· = name) with
  | some i => .heading (i + 1)
  | none =>
    if name = "table" then .table
    else if name = "pre" then .pre
    else if ["ul", "ol"].contains name then .list
    else if ["p", "blockquote"].contains name then .paragraph
    else if ["div", "section", "article", "main"].contains name then .wrapper
    else .other

def headingBlock (contents : HtmlContents) : Block := { nodeType := .section, title := some (contents.getText " ") }

def tableBlock (contents : HtmlContents) : Block :=
  { nodeType := .table, content := (tableFromElement contents).render, tables := [tableFromElement contents] }

def preBlock (contents : HtmlContents) : Block :=
  { nodeType := .codeBlock, content := contents.getText "\n", codeBlocks := [{ content := contents.getText "\n" }] }

def listBlock (contents : HtmlContents) : Block := { nodeType := .list, content := listContent contents }

def paragraphBlock (contents : HtmlContents) : Block :=
  { nodeType := .paragraph, content := contents.getText "\n", links := linksFromElement contents }

/-- The path and the nodes, which all calls of `_walk` share. Ids are drawn from
`nextUuid`. -/
structure HtmlWalk where
  headingPath : List String := []
  nodes : List BlockNode := []
  nextUuid : Nat := 0

namespace HtmlWalk
variable (self : HtmlWalk)

def add (block : Block) (order : Nat) : HtmlWalk :=
  { self with
    nodes := self.nodes ++ [{
      id := .v4 self.nextUuid, nodeType := block.nodeType, title := block.title, headingPath := self.headingPath
      content := block.content, links := block.links, codeBlocks := block.codeBlocks, tables := block.tables, order }]
    nextUuid := self.nextUuid + 1 }

/-- The path is cut to `level - 1` titles and extended. -/
def enter (level : Nat) (title : String) : HtmlWalk :=
  { self with headingPath := self.headingPath.take (level - 1) ++ [title] }

/-- `_walk`. What a call within it counts of the order is not seen by it. -/
def walk (self : HtmlWalk) (order : Nat) : HtmlContents → HtmlWalk
  | .nil => self
  | .text _ rest => self.walk order rest
  | .comment _ rest => self.walk order rest
  | .tag name _ contents rest =>
    match htmlKind name with
    | .heading level => ((self.enter level (contents.getText " ")).add (headingBlock contents) order).walk (order + 1) rest
    | .table => (self.add (tableBlock contents) order).walk (order + 1) rest
    | .pre => (self.add (preBlock contents) order).walk (order + 1) rest
    | .list => (self.add (listBlock contents) order).walk (order + 1) rest
    | .paragraph =>
      if contents.getText "\n" ≠ "" then (self.add (paragraphBlock contents) order).walk (order + 1) rest
      else self.walk order rest
    | .wrapper =>
      if contents.getText "\n" ≠ "" then (self.add (paragraphBlock contents) order).walk (order + 1) rest
      else (self.walk order contents).walk order rest
    | .other => self.walk order rest

end HtmlWalk

def pageTitle (soup : HtmlContents) : Option String :=
  match soup.find "title" with
  | some title => some (title.contents.getText " ")
  | none => (soup.find "h1").map fun h1 => h1.contents.getText " "

/-- `HtmlParser.parse` of what BeautifulSoup makes of a text. -/
def htmlParse (soup : HtmlContents) (nextUuid : Nat) : ParserDocument × Nat :=
  let soup := soup.removeNoise
  let body := ((soup.find "body").map HtmlTag.contents).getD soup
  let walked := HtmlWalk.walk { nextUuid } 0 body
  ({ title := pageTitle soup, nodes := walked.nodes }, walked.nodes.length)

end Brain
