import Brain.Adapters.MarkdownParser

namespace Brain

/-! ### The patterns

A line holds no line break, so `.` stands for any character and `$` for the end. -/

/-- The text after `start`, if it starts so. -/
def afterPrefix (start : String) (cs : List Char) : Option (List Char) :=
  if start.toList.isPrefixOf cs then some (cs.drop start.length) else none

def dropBlanks (cs : List Char) : List Char := cs.dropWhile isSpace

def dropBlanksRight (cs : List Char) : List Char := stripRight isSpace cs

/-- What `(={1,6})\s*(.*?)\s*\1$` captures second when the first group has this length. -/
def headingBody (level : Nat) (cs : List Char) : Option (List Char) :=
  let equals := List.replicate level '='
  if equals.isPrefixOf cs && equals.isSuffixOf (cs.drop level) then
    some (dropBlanksRight (dropBlanks ((cs.drop level).take (cs.length - 2 * level))))
  else none

/-- `_HEADING_RE.match`: the level and the title of a heading. -/
def headingMatch (line : String) : Option (Nat × String) :=
  [6, 5, 4, 3, 2, 1].findSome? fun level => (headingBody level line.toList).map (level, String.ofList ·)

/-- The item of `_LIST_BULLET_RE` or `_LIST_NUMBER_RE`. -/
def listItemMatch (marker : Char) (line : String) : Option String :=
  match dropBlanks line.toList with
  | c :: d :: rest => if c = marker && isSpace d then some (String.ofList (dropBlanks rest)) else none
  | _ => none

/-- `_DEFINITION_RE.match`: the term and its definition. -/
def definitionMatch (line : String) : Option (String × String) :=
  (afterPrefix ";" (dropBlanks line.toList)).bind fun rest =>
    let body := dropBlanks rest
    if body.contains ':' then
      some (String.ofList (dropBlanksRight (body.takeWhile (· ≠ ':'))),
        String.ofList (dropBlanks ((body.dropWhile (· ≠ ':')).drop 1)))
    else none

/-- `_TABLE_LINE_RE.match`. -/
def isTableLine (line : String) : Bool :=
  let cs := (strip line).toList
  cs.head? = some '|' && cs.getLast? = some '|' && 2 ≤ cs.length

/-- What `\s+language="?([^"\s}]+)"?` captures at the start. -/
def codeLanguage (cs : List Char) : Option String :=
  if cs.head?.any isSpace then
    (afterPrefix "language=" (dropBlanks cs)).bind fun rest =>
      let value := (if rest.head? = some '"' then rest.drop 1 else rest).takeWhile fun c =>
        c ≠ '"' && !isSpace c && c ≠ '\x7d'
      if value.isEmpty then none else some (String.ofList value)
  else none

/-- `_CODE_START_RE.match`, with the language when there is one. -/
def codeStartMatch (line : String) : Option (Option String) :=
  (afterPrefix "\x7b\x7bcode" line.toList).bind fun rest =>
    if "\x7d\x7d".toList.isSuffixOf (dropBlanksRight rest) then some (codeLanguage rest) else none

/-- `_CODE_END_RE.match`. -/
def isCodeEnd (line : String) : Bool := dropBlanksRight line.toList = "\x7b\x7b/code\x7d\x7d".toList

/-- `_MACRO_BLOCK_RE.match`. -/
def isMacro (line : String) : Bool :=
  (afterPrefix "\x7b\x7b" line.toList).any fun rest => "\x7d\x7d".toList.isPrefixOf (rest.dropWhile (· ≠ '\x7d'))

/-- `_LINK_RE` at the start: the page, the label if there is one, and what follows. -/
def linkMatch (cs : List Char) : Option (List Char × Option (List Char) × List Char) :=
  (afterPrefix "[[" cs).bind fun inside =>
    let page := inside.takeWhile fun c => c ≠ ']' && c ≠ '|' && c ≠ '>'
    let rest := inside.drop page.length
    if page.isEmpty then none
    else ((afterPrefix "|" rest).or (afterPrefix ">>" rest)).bind fun rest =>
      let label := rest.takeWhile (· ≠ ']')
      (afterPrefix "]]" (rest.drop label.length)).map fun rest =>
        (page, if label.isEmpty then none else some label, rest)

/-- `_LINK_RE.sub(_link_repl, text)`, with the targets. The first `skip` characters
belong to a link that was replaced. -/
def subLinks : Nat → List Char → List Char × List String
  | _, [] => ([], [])
  | skip + 1, _ :: rest => subLinks skip rest
  | 0, c :: rest =>
    match linkMatch (c :: rest) with
    | some (page, label, after) =>
      let target := strip (String.ofList page)
      let shown := strip ((label.map String.ofList).getD target)
      let (text, links) := subLinks (rest.length - after.length) rest
      (shown.toList ++ text, target :: links)
    | none =>
      let (text, links) := subLinks 0 rest
      (c :: text, links)

/-- What stands before the first two marks, and what after them. -/
def splitMarks (mark : Char) : List Char → Option (List Char × List Char)
  | [] => none
  | c :: rest =>
    if [mark, mark].isPrefixOf (c :: rest) then some ([], rest.drop 1)
    else (splitMarks mark rest).map fun (before, after) => (c :: before, after)

/-- The text between two marks at the start, and what follows. -/
def styleMatch (mark : Char) (cs : List Char) : Option (List Char × List Char) :=
  match cs with
  | a :: b :: c :: rest =>
    if a = mark && b = mark then (splitMarks mark rest).map fun (before, after) => (c :: before, after) else none
  | _ => none

/-- `re.sub` of one of the `_INLINE_STYLES`. -/
def subStyle (mark : Char) : Nat → List Char → List Char
  | _, [] => []
  | skip + 1, _ :: rest => subStyle mark skip rest
  | 0, c :: rest =>
    match styleMatch mark (c :: rest) with
    | some (inside, after) => inside ++ subStyle mark (rest.length - after.length) rest
    | none => c :: subStyle mark 0 rest

def stripInline (text : String) : String × List String :=
  let (linked, links) := subLinks 0 text.toList
  (strip (String.ofList (['*', '/', '_', '#', '~'].foldl (fun cs mark => subStyle mark 0 cs) linked)), links)

def splitTableRow (line : String) : List String :=
  let inner := stripRight (· = '|') (stripLeft (· = '|') (strip line).toList)
  ((inner.splitOn '|').map fun cell => strip (String.ofList cell)).filter (· ≠ "")

/-! ### The parser -/

/-- What a line is read as outside of code. -/
inductive XWikiLine
  | codeStart (language : Option String)
  | macro_
  | heading (level : Nat) (title : String)
  | tableRow (cells : List String)
  | item (text : String)
  | blank
  | paragraph (text : String)
  deriving DecidableEq

def xwikiLine (line : String) : XWikiLine :=
  match codeStartMatch line with
  | some language => .codeStart language
  | none =>
    if isMacro line then .macro_
    else match headingMatch line with
      | some (level, title) => .heading level title
      | none =>
        if isTableLine line then .tableRow (splitTableRow line)
        else match listItemMatch '*' line, listItemMatch '#' line, definitionMatch line with
          | some item, _, _ => .item ("* " ++ (stripInline item).1)
          | none, some item, _ => .item ("# " ++ (stripInline item).1)
          | none, none, some (term, text) => .item ("; " ++ (stripInline term).1 ++ ": " ++ (stripInline text).1)
          | none, none, none => if strip line = "" then .blank else .paragraph line

/-- The builder, and what is pending. -/
structure XWikiWalk where
  builder : DocumentBuilder
  listBuffer : List String := []
  tableRows : List (List String) := []
  inCode : Bool := false
  codeLines : List String := []
  language : Option String := none

namespace XWikiWalk
variable (self : XWikiWalk)

def flushList : XWikiWalk :=
  if self.listBuffer.isEmpty then self
  else { self with builder := self.builder.addList (joinLines self.listBuffer), listBuffer := [] }

/-- A single row makes no table. -/
def flushTable : XWikiWalk :=
  match self.tableRows with
  | headers :: row :: rows =>
    { self with builder := self.builder.table { headers, rows := row :: rows }, tableRows := [] }
  | _ => { self with tableRows := [] }

def flush : XWikiWalk := self.flushList.flushTable

def onBuilder (f : DocumentBuilder → DocumentBuilder) : XWikiWalk := { self with builder := f self.builder }

def turn (line : String) : XWikiWalk :=
  if self.inCode then
    if isCodeEnd line then
      { self with
        builder := self.builder.codeBlock self.language (joinLines self.codeLines)
        inCode := false, codeLines := [], language := none }
    else { self with codeLines := self.codeLines ++ [line] }
  else match xwikiLine line with
    | .codeStart language => { self.flush with inCode := true, language }
    | .macro_ => self.flush
    | .heading level title => self.flush.onBuilder fun b => b.heading level (stripInline title).1 (stripInline title).2
    | .tableRow cells => { self.flushList with tableRows := self.flushList.tableRows ++ [cells] }
    | .item text => { self.flushTable with listBuffer := self.flushTable.listBuffer ++ [text] }
    | .blank => self.flush.onBuilder fun b => b.paragraph "" []
    | .paragraph line =>
      let (text, links) := stripInline line
      if text = "" then self.flush else self.flush.onBuilder fun b => b.paragraph text links

/-- After the last line. -/
def close : XWikiWalk :=
  let closed := if self.inCode then self.onBuilder fun b => b.codeBlock self.language (joinLines self.codeLines) else self
  closed.flush.onBuilder DocumentBuilder.finish

end XWikiWalk

/-- The parser after the lines of a text. -/
def XWikiWalk.ofLines (lines : List String) (nextUuid : Nat) : XWikiWalk :=
  (lines.foldl turn { builder := { nextUuid } }).close

/-- `_derive_title` of the XWiki parser. -/
def deriveXWikiTitle (body : String) : Option String :=
  ((splitlines body).findSome? headingMatch).map fun heading => strip heading.2

/-- `XWikiSyntaxParser.parse` of a decoded text. -/
def xwikiParse (sourceUri : String) (metadata : RawDict) (text : String) (nextUuid : Nat) : ParserDocument × Nat :=
  let nodes := (XWikiWalk.ofLines (splitlines text) nextUuid).builder.nodes
  let last := String.ofList (lastSegment '/' (stripRight (· = '/') sourceUri.toList))
  let title := (deriveXWikiTitle text).or (if last ≠ "" && last ≠ "WebHome" then some last else none)
  let syntaxName := match metadata.lookup "syntax" with
    | some value => if value.truthy then value.text else "xwiki/2.1"
    | none => "xwiki/2.1"
  ({ title, frontMatter := [("syntax", .str syntaxName)], nodes }, nodes.length)

end Brain
