import Brain.Application.StructuredParsers
import Brain.Lib.Checked
import Brain.Parsing.Sections

namespace Brain

/-! ### Parsers and builder calls -/

/-- A builder comes from another one by calls. -/
def DocumentBuilder.Follows (b b' : DocumentBuilder) : Prop := ∃ calls : List BuilderCall, b' = calls.foldl handle b

namespace DocumentBuilder.Follows

theorem refl (b : DocumentBuilder) : b.Follows b := ⟨[], rfl⟩

theorem trans {b b' b'' : DocumentBuilder} (first : b.Follows b') (second : b'.Follows b'') : b.Follows b'' := by
  obtain ⟨calls, rfl⟩ := first
  obtain ⟨more, rfl⟩ := second
  exact ⟨calls ++ more, List.foldl_append.symm⟩

theorem call (b : DocumentBuilder) (made : BuilderCall) : b.Follows (b.handle made) := ⟨[made], rfl⟩

end DocumentBuilder.Follows

open DocumentBuilder (Follows)

namespace MarkdownWalk

theorem flushList_follows (self : MarkdownWalk) : self.builder.Follows self.flushList.builder := by
  unfold flushList
  split
  · exact Follows.refl _
  · exact Follows.call _ (.addList _)

theorem turn_follows {self next : MarkdownWalk} {tok : Token} {rest : List Token} {skip : Nat}
    (turned : self.turn tok rest = .ok (next, skip)) : self.builder.Follows next.builder := by
  have coded : ∀ language, self.builder.Follows (self.flushList.builder.codeBlock language tok.content) :=
    fun language => self.flushList_follows.trans (Follows.call _ (.codeBlock language tok.content))
  -- the turns that cannot fail
  have made : ∀ {walk : MarkdownWalk} {more : Nat}, (Except.ok (walk, more) : Except PyException _) = .ok (next, skip) →
      self.builder.Follows walk.builder → self.builder.Follows next.builder := by
    intro walk more same follows
    obtain ⟨rfl, _⟩ := Prod.mk.inj (Except.ok.inj same)
    exact follows
  unfold turn at turned
  split at turned
  · obtain ⟨inline, _, turned⟩ := Checked.bind_eq_ok.mp turned
    exact made turned (Follows.call _ (.heading tok.level (inlineText inline.children).1 (inlineText inline.children).2))
  · obtain ⟨inline, _, turned⟩ := Checked.bind_eq_ok.mp turned
    exact made turned (Follows.call _ (.paragraph (inlineText inline.children).1 (inlineText inline.children).2))
  · obtain ⟨info, _, turned⟩ := Checked.bind_eq_ok.mp turned
    exact made turned (coded _)
  · exact made turned (coded none)
  · obtain ⟨⟨rows, taken⟩, _, turned⟩ := Checked.bind_eq_ok.mp turned
    exact made turned (self.flushList_follows.trans (Follows.call _ (.table (tableFromTokens rows))))
  · exact made turned self.flushList_follows
  · exact made turned self.flushList_follows
  · exact made turned (Follows.refl _)
  · exact made turned (Follows.refl _)
  · exact made turned self.flushList_follows
  · exact made turned self.flushList_follows
  · exact made turned self.flushList_follows
  · exact made turned (Follows.refl _)

theorem walk_follows {self last : MarkdownWalk} {skip : Nat} {tokens : List Token}
    (walked : walk skip tokens self = .ok last) : self.builder.Follows last.builder := by
  induction tokens generalizing self skip with
  | nil =>
    cases skip <;> (cases walked; exact Follows.refl _)
  | cons tok rest ih =>
    cases skip with
    | succ skip => exact ih walked
    | zero =>
      obtain ⟨⟨next, more⟩, turned, onward⟩ := Checked.bind_eq_ok.mp walked
      exact (turn_follows turned).trans (ih onward)

end MarkdownWalk

theorem markdownParse_nodes {mdParse : String → List Token} {text : String} {nextUuid drawn : Nat} {document : ParserDocument}
    (parsed : markdownParse mdParse text nextUuid = .ok (document, drawn)) :
    ∃ calls, document.nodes = withFrontMatter document.frontMatter (DocumentBuilder.built calls nextUuid) ∧
      drawn = document.nodes.length := by
  obtain ⟨walked, run, made⟩ := Checked.bind_eq_ok.mp parsed
  cases made
  have follows := ((MarkdownWalk.walk_follows run).trans walked.flushList_follows).trans (Follows.call _ .finish)
  obtain ⟨calls, built⟩ := follows
  refine ⟨calls, ?_, rfl⟩
  have builder : walked.flushList.builder.finish = DocumentBuilder.built calls nextUuid := built
  rw [builder]
  rfl

namespace XWikiWalk
variable (self : XWikiWalk)

def flushListCalls : List BuilderCall := if self.listBuffer.isEmpty then [] else [.addList (joinLines self.listBuffer)]

def flushTableCalls : List BuilderCall :=
  match self.tableRows with
  | headers :: row :: rows => [.table { headers, rows := row :: rows }]
  | _ => []

def flushCalls : List BuilderCall := self.flushListCalls ++ self.flushTableCalls

def turnCalls (line : String) : List BuilderCall :=
  if self.inCode then
    if isCodeEnd line then [.codeBlock self.language (joinLines self.codeLines)] else []
  else match xwikiLine line with
    | .codeStart _ => self.flushCalls
    | .macro_ => self.flushCalls
    | .heading level title => self.flushCalls ++ [.heading level (stripInline title).1 (stripInline title).2]
    | .tableRow _ => self.flushListCalls
    | .item _ => self.flushTableCalls
    | .blank => self.flushCalls ++ [.paragraph "" []]
    | .paragraph line =>
      self.flushCalls ++ if (stripInline line).1 = "" then [] else [.paragraph (stripInline line).1 (stripInline line).2]

def runCalls (self : XWikiWalk) : List String → List BuilderCall
  | [] => []
  | line :: lines => self.turnCalls line ++ (self.turn line).runCalls lines

def closeCalls : List BuilderCall :=
  (if self.inCode then [.codeBlock self.language (joinLines self.codeLines)] else []) ++ self.flushCalls ++ [.finish]

theorem builder_flushList : self.flushList.builder = self.flushListCalls.foldl DocumentBuilder.handle self.builder := by
  unfold flushList flushListCalls
  split
  · rfl
  · rfl

theorem builder_flushTable : self.flushTable.builder = self.flushTableCalls.foldl DocumentBuilder.handle self.builder := by
  unfold flushTable flushTableCalls
  cases self.tableRows with
  | nil => rfl
  | cons headers rows =>
    cases rows with
    | nil => rfl
    | cons row rows => rfl

theorem tableRows_flushList : self.flushList.tableRows = self.tableRows := by
  unfold flushList
  split
  · rfl
  · rfl

theorem builder_flush : self.flush.builder = self.flushCalls.foldl DocumentBuilder.handle self.builder := by
  have tables : self.flushList.flushTableCalls = self.flushTableCalls := by
    unfold flushTableCalls
    rw [tableRows_flushList]
  rw [flush, builder_flushTable, builder_flushList, tables, flushCalls, List.foldl_append]

theorem builder_onBuilder (call : BuilderCall) :
    (self.flush.onBuilder fun b => b.handle call).builder = (self.flushCalls ++ [call]).foldl DocumentBuilder.handle self.builder := by
  rw [List.foldl_append, ← builder_flush]
  rfl

theorem builder_turn (line : String) : (self.turn line).builder = (self.turnCalls line).foldl DocumentBuilder.handle self.builder := by
  unfold turn turnCalls
  split
  · split
    · rfl
    · rfl
  · cases xwikiLine line with
    | codeStart language => exact self.builder_flush
    | macro_ => exact self.builder_flush
    | heading level title =>
      dsimp only
      generalize stripInline title = stripped
      exact self.builder_onBuilder (.heading level stripped.1 stripped.2)
    | tableRow cells => exact self.builder_flushList
    | item text => exact self.builder_flushTable
    | blank => exact self.builder_onBuilder (.paragraph "" [])
    | paragraph line =>
      dsimp only
      generalize stripInline line = stripped
      obtain ⟨text, links⟩ := stripped
      dsimp only
      split
      · rw [List.append_nil]
        exact self.builder_flush
      · exact self.builder_onBuilder (.paragraph text links)

theorem builder_foldl (lines : List String) (self : XWikiWalk) :
    (lines.foldl turn self).builder = (self.runCalls lines).foldl DocumentBuilder.handle self.builder := by
  induction lines generalizing self with
  | nil => rfl
  | cons line lines ih => rw [List.foldl_cons, ih, builder_turn, runCalls, List.foldl_append]

theorem flushCalls_onBuilder (f : DocumentBuilder → DocumentBuilder) : (self.onBuilder f).flushCalls = self.flushCalls := rfl

theorem builder_close : self.close.builder = self.closeCalls.foldl DocumentBuilder.handle self.builder := by
  unfold close closeCalls
  dsimp only
  split
  · have ends := (self.onBuilder fun b => b.codeBlock self.language (joinLines self.codeLines)).builder_onBuilder .finish
    rw [flushCalls_onBuilder] at ends
    rw [List.append_assoc, List.foldl_append]
    exact ends
  · exact self.builder_onBuilder .finish

def pageCalls (lines : List String) (nextUuid : Nat) : List BuilderCall :=
  let start : XWikiWalk := { builder := { nextUuid } }
  start.runCalls lines ++ (lines.foldl turn start).closeCalls

theorem ofLines_built (lines : List String) (nextUuid : Nat) :
    (ofLines lines nextUuid).builder = DocumentBuilder.built (pageCalls lines nextUuid) nextUuid := by
  rw [ofLines, builder_close, builder_foldl, ← List.foldl_append]
  rfl

end XWikiWalk

theorem xwikiParse_nodes (sourceUri : String) (metadata : RawDict) (text : String) (nextUuid : Nat) :
    (xwikiParse sourceUri metadata text nextUuid).1.nodes =
        (DocumentBuilder.built (XWikiWalk.pageCalls (splitlines text) nextUuid) nextUuid).nodes ∧
      (xwikiParse sourceUri metadata text nextUuid).2 = (xwikiParse sourceUri metadata text nextUuid).1.nodes.length := by
  refine ⟨?_, ?_⟩
  · rw [← XWikiWalk.ofLines_built, xwikiParse]
  · rw [xwikiParse]

end Brain
