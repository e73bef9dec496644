import Brain.Domain.Documents
import Brain.Lib.Outline

namespace Brain

structure ParsedTable where
  headers : List String := []
  rows : List (List String) := []
  deriving DecidableEq

structure ParsedCodeBlock where
  language : Option String := none
  content : String := ""
  deriving DecidableEq

/-- A `ParsedNode` with the fields that ingestion does not store. -/
structure BlockNode extends ParsedNode where
  codeBlocks : List ParsedCodeBlock := []
  tables : List ParsedTable := []
  order : Nat := 0
  deriving DecidableEq

/-- What the builder says of a node before it has its place. -/
structure Block where
  nodeType : DocumentNodeType
  title : Option String := none
  content : String := ""
  links : List String := []
  codeBlocks : List ParsedCodeBlock := []
  tables : List ParsedTable := []
  deriving DecidableEq

def BlockNode.adopt (child : Uuid) (node : BlockNode) : BlockNode := { node with childIds := node.childIds ++ [child] }

def joinLines (lines : List String) : String := "\n".intercalate lines

/-- `"| " + " | ".join(row) + " |"`. -/
def ParsedTable.renderRow (row : List String) : String := "| " ++ " | ".intercalate row ++ " |"

def ParsedTable.render (table : ParsedTable) : String :=
  joinLines (renderRow table.headers :: table.rows.map renderRow)

/-- `_Builder` of the Markdown parser, which the one of the XWiki parser repeats
line by line. The nodes on the stack are given by their places in `nodes`; ids are
drawn from `nextUuid`. -/
structure DocumentBuilder where
  nodes : List BlockNode := []
  stack : List Nat := []
  order : Nat := 0
  currentContent : List String := []
  currentLinks : List String := []
  nextUuid : Nat := 0
  deriving DecidableEq

namespace DocumentBuilder
variable (self : DocumentBuilder)

def parent : Option BlockNode := self.stack.getLast?.bind fun place => self.nodes[place]?

/-- `list(parent.heading_path) if parent else []`. -/
def parentPath : List String := self.parent.elim [] fun parent => parent.headingPath

/-- The node that a block becomes here. -/
def nodeOf (block : Block) (headingPath : List String) : BlockNode :=
  { id := .v4 self.nextUuid, nodeType := block.nodeType, title := block.title, headingPath, content := block.content
    parentId := self.parent.map fun parent => parent.id, links := block.links
    codeBlocks := block.codeBlocks, tables := block.tables, order := self.order }

/-- `_attach` of a new node. -/
def attach (block : Block) (headingPath : List String) : DocumentBuilder :=
  let node := self.nodeOf block headingPath
  let nodes := match self.stack.getLast? with
    | none => self.nodes
    | some place => self.nodes.modify place (BlockNode.adopt node.id)
  { self with nodes := nodes ++ [node], order := self.order + 1, nextUuid := self.nextUuid + 1 }

def flushContent : DocumentBuilder :=
  let content := strip (joinLines self.currentContent)
  let links := self.currentLinks
  let flushed : DocumentBuilder := { self with currentContent := [], currentLinks := [] }
  if content = "" then flushed
  else flushed.attach { nodeType := .paragraph, content, links } flushed.parentPath

def heading (level : Int) (text : String) (links : List String) : DocumentBuilder :=
  let flushed := self.flushContent
  -- the stack is emptied down to `level - 1` nodes, and filled up to `level` ones
  let popped := { flushed with stack := Outline.popped level.toNat flushed.stack }
  let attached := popped.attach { nodeType := .section, title := some text, links } (popped.parentPath ++ [text])
  { attached with stack := Outline.pushed level.toNat popped.nodes.length attached.stack }

def paragraph (text : String) (links : List String) : DocumentBuilder :=
  if strip text = "" then self
  else { self with currentContent := self.currentContent ++ [strip text], currentLinks := self.currentLinks ++ links }

def codeBlock (language : Option String) (content : String) : DocumentBuilder :=
  let flushed := self.flushContent
  flushed.attach { nodeType := .codeBlock, codeBlocks := [{ language, content }], content } flushed.parentPath

def table (table : ParsedTable) : DocumentBuilder :=
  let flushed := self.flushContent
  flushed.attach { nodeType := .table, tables := [table], content := table.render } flushed.parentPath

/-- What is pending stays pending. -/
def addList (content : String) : DocumentBuilder := self.attach { nodeType := .list, content } self.parentPath

/-- No caller gives references. -/
def finish : DocumentBuilder := self.flushContent

end DocumentBuilder

inductive BuilderCall
  | heading (level : Int) (text : String) (links : List String)
  | paragraph (text : String) (links : List String)
  | codeBlock (language : Option String) (content : String)
  | table (table : ParsedTable)
  | addList (content : String)
  | finish

def DocumentBuilder.handle (self : DocumentBuilder) : BuilderCall → DocumentBuilder
  | .heading level text links => self.heading level text links
  | .paragraph text links => self.paragraph text links
  | .codeBlock language content => self.codeBlock language content
  | .table table => self.table table
  | .addList content => self.addList content
  | .finish => self.finish

/-- A new builder after calls. -/
def DocumentBuilder.built (calls : List BuilderCall) (nextUuid : Nat := 0) : DocumentBuilder :=
  calls.foldl handle { nextUuid }

end Brain
