import Brain.Adapters.MarkdownParser

namespace Brain

/-! ### Block trees -/

mutual
/-- The blocks that markdown-it finds in a text, one after the other. -/
inductive Blocks
  | nil
  | paragraph (inline : List InlineToken) (rest : Blocks)
  | heading (level : Nat) (inline : List InlineToken) (rest : Blocks)
  | fence (info content : String) (rest : Blocks)
  | codeBlock (content : String) (rest : Blocks)
  | htmlBlock (content : String) (rest : Blocks)
  | hr (rest : Blocks)
  | blockquote (inside rest : Blocks)
  | list (ordered : Bool) (items : Items) (rest : Blocks)
  | table (header : List (List InlineToken)) (rows : List (List (List InlineToken))) (rest : Blocks)

inductive Items
  | nil
  | item (inside : Blocks) (rest : Items)
end

def inlineTok (children : List InlineToken) : Token := { type := .inline, children }

def cellTokens (start finish : TokenType) (cells : List (List InlineToken)) : List Token :=
  cells.flatMap fun cell => [{ type := start }, inlineTok cell, { type := finish }]

def rowTokens (start finish : TokenType) (cells : List (List InlineToken)) : List Token :=
  { type := .trOpen } :: cellTokens start finish cells ++ [{ type := .trClose }]

def bodyTokens (rows : List (List (List InlineToken))) : List Token :=
  if rows.isEmpty then []
  else { type := .tbodyOpen } :: rows.flatMap (rowTokens .tdOpen .tdClose) ++ [{ type := .tbodyClose }]

def tableTokens (header : List (List InlineToken)) (rows : List (List (List InlineToken))) : List Token :=
  { type := .theadOpen } :: rowTokens .thOpen .thClose header ++ { type := .theadClose } :: bodyTokens rows

mutual
def Blocks.tokens : Blocks → List Token
  | .nil => []
  | .paragraph inline rest => { type := .paragraphOpen } :: inlineTok inline :: { type := .paragraphClose } :: rest.tokens
  | .heading level inline rest =>
    { type := .headingOpen, level } :: inlineTok inline :: { type := .headingClose, level } :: rest.tokens
  | .fence info content rest => { type := .fence, info, content } :: rest.tokens
  | .codeBlock content rest => { type := .codeBlock, content } :: rest.tokens
  | .htmlBlock content rest => { type := .htmlBlock, content } :: rest.tokens
  | .hr rest => { type := .hr } :: rest.tokens
  | .blockquote inside rest => { type := .blockquoteOpen } :: inside.tokens ++ { type := .blockquoteClose } :: rest.tokens
  | .list ordered items rest =>
    { type := if ordered then .orderedListOpen else .bulletListOpen } :: items.tokens ++
      { type := if ordered then .orderedListClose else .bulletListClose } :: rest.tokens
  | .table header rows rest => { type := .tableOpen } :: tableTokens header rows ++ { type := .tableClose } :: rest.tokens

def Items.tokens : Items → List Token
  | .nil => []
  | .item inside rest => { type := .listItemOpen } :: inside.tokens ++ { type := .listItemClose } :: rest.tokens
end

/-! ### What the walk makes of them -/

def Blocks.first : Blocks → Option (List InlineToken)
  | .paragraph inline _ | .heading _ inline _ => some inline
  | _ => none

/-- The inline tokens that stand among the first tokens of an item: those of its
first block, or of the one that comes after the first token of a block without. -/
def Blocks.lead : Blocks → Option (List InlineToken)
  | .paragraph inline _ | .heading _ inline _ => some inline
  | .fence _ _ next | .codeBlock _ next | .htmlBlock _ next | .hr next | .blockquote next _ => next.first
  | _ => none

def Blocks.leadText (inside : Blocks) : String := inside.lead.elim "" fun inline => (inlineText inline).1

def tableOf (header : List (List InlineToken)) (rows : List (List (List InlineToken))) : ParsedTable :=
  tableFromTokens ((header :: rows).map fun cells => cells.map inlineTok)

namespace MarkdownWalk
variable (self : MarkdownWalk)

def addParagraph (inline : List InlineToken) : MarkdownWalk :=
  { self with builder := self.builder.paragraph (inlineText inline).1 (inlineText inline).2 }

def addHeading (level : Nat) (inline : List InlineToken) : MarkdownWalk :=
  { self with builder := self.builder.heading level (inlineText inline).1 (inlineText inline).2 }

def addCode (language : Option String) (content : String) : MarkdownWalk :=
  { self.flushList with builder := self.flushList.builder.codeBlock language content }

def addTable (table : ParsedTable) : MarkdownWalk :=
  { self.flushList with builder := self.flushList.builder.table table }

end MarkdownWalk

mutual
def Blocks.walk : Blocks → MarkdownWalk → Except PyException MarkdownWalk
  | .nil, s => .ok s
  | .paragraph inline rest, s => rest.walk (s.addParagraph inline)
  | .heading level inline rest, s => rest.walk (s.addHeading level inline)
  | .fence info content rest, s => do
    let language ← firstItem (words (strip info))
    rest.walk (s.addCode (given (some language)) content)
  | .codeBlock content rest, s => rest.walk (s.addCode none content)
  | .htmlBlock _ rest, s => rest.walk s
  | .hr rest, s => rest.walk s
  | .blockquote inside rest, s => do
    let s ← inside.walk s
    rest.walk s
  | .list _ items rest, s => do
    let s ← items.walk s.flushList
    rest.walk s.flushList
  | .table header rows rest, s => rest.walk (s.addTable (tableOf header rows))

/-- The blocks of an item, of which the first token is gone past. -/
def Blocks.walkInside : Blocks → MarkdownWalk → Except PyException MarkdownWalk
  | .nil, s => .ok s
  | .paragraph _ rest, s => rest.walk s
  | .heading _ _ rest, s => rest.walk s
  | .fence _ _ rest, s => rest.walk s
  | .codeBlock _ rest, s => rest.walk s
  | .htmlBlock _ rest, s => rest.walk s
  | .hr rest, s => rest.walk s
  | .blockquote inside rest, s => do
    let s ← inside.walk s
    rest.walk s
  | .list _ items rest, s => do
    let s ← items.walk s
    rest.walk s.flushList
  | .table _ _ rest, s => rest.walk s

def Items.walk : Items → MarkdownWalk → Except PyException MarkdownWalk
  | .nil, s => .ok s
  | .item inside rest, s => do
    let s ← inside.walkInside (s.addItem inside.leadText)
    rest.walk s
end

/-- The tokens do not start with the inline tokens of a block. -/
def Begins (tokens : List Token) : Prop := ∀ tok ∈ tokens.head?, tok.type ≠ .inline

theorem Blocks.begins (b : Blocks) {rest : List Token} (begins : Begins rest) : Begins (b.tokens ++ rest) := by
  cases b with
  | nil => exact begins
  | list ordered items next => cases ordered <;> simp [Begins, Blocks.tokens]
  | _ => simp [Begins, Blocks.tokens]

theorem Items.begins (items : Items) {rest : List Token} (begins : Begins rest) : Begins (items.tokens ++ rest) := by
  cases items with
  | nil => exact begins
  | item inside next => simp [Begins, Items.tokens]

/-- Nor does such a token come second. -/
def BeginsTwice (tokens : List Token) : Prop := ∀ tok ∈ tokens.take 2, tok.type ≠ .inline

theorem beginsTwice_cons {first : Token} {later : List Token} (isOther : first.type ≠ .inline) (begins : Begins later) :
    BeginsTwice (first :: later) := by
  intro tok member
  rw [List.take_succ_cons, List.take_one] at member
  rcases List.mem_cons.mp member with rfl | second
  · exact isOther
  · exact begins tok (Option.mem_toList.mp second)

theorem Items.beginsTwice (items : Items) {close : Token} {rest : List Token} (closes : close.type ≠ .inline)
    (begins : Begins rest) : BeginsTwice (items.tokens ++ close :: rest) := by
  cases items with
  | nil => exact beginsTwice_cons closes begins
  | item inside next =>
    have later : Begins (inside.tokens ++ { type := .listItemClose } :: (next.tokens ++ close :: rest)) :=
      inside.begins (by simp [Begins])
    have tokens : (Items.item inside next).tokens ++ close :: rest =
        { type := .listItemOpen } :: (inside.tokens ++ { type := .listItemClose } :: (next.tokens ++ close :: rest)) := by
      simp [Items.tokens]
    rw [tokens]
    exact beginsTwice_cons (by decide) later

theorem BeginsTwice.find {tokens : List Token} (begins : BeginsTwice tokens) :
    (tokens.take 2).find? (fun candidate => candidate.type = .inline) = none :=
  List.find?_eq_none.mpr fun tok member => by simpa using begins tok member

theorem BeginsTwice.once {tokens : List Token} (begins : BeginsTwice tokens) : Begins tokens := by
  cases tokens with
  | nil => simp [Begins]
  | cons tok tokens =>
    intro first isFirst
    exact begins first (by simpa using Or.inl (Option.some.inj isFirst).symm)

theorem Blocks.find_first (b : Blocks) {rest : List Token} (twice : BeginsTwice rest) :
    ((b.tokens ++ rest).take 2).find? (fun candidate => candidate.type = .inline) = b.first.map inlineTok := by
  have two : ∀ {tok : Token} {later : List Token}, tok.type ≠ .inline → Begins later →
      ((tok :: later).take 2).find? (fun candidate => candidate.type = .inline) = none := fun isOther later =>
    (beginsTwice_cons isOther later).find
  have begins := twice.once
  cases b with
  | nil => exact twice.find
  | paragraph inline next => rfl
  | heading level inline next => rfl
  | fence info content next => exact two (by simp) (next.begins begins)
  | codeBlock content next => exact two (by simp) (next.begins begins)
  | htmlBlock content next => exact two (by simp) (next.begins begins)
  | hr next => exact two (by simp) (next.begins begins)
  | blockquote inside next =>
    rw [Blocks.tokens, List.append_assoc]
    exact two (by simp) (inside.begins (by simp [Begins]))
  | list ordered items next =>
    rw [Blocks.tokens, List.append_assoc]
    exact two (by cases ordered <;> simp) (items.begins (by cases ordered <;> simp [Begins]))
  | table header rows next => exact two (by simp) (by simp [Begins, tableTokens])

theorem Blocks.find_lead (inside : Blocks) {rest : List Token} (begins : BeginsTwice rest) :
    (((inside.tokens ++ { type := .listItemClose } :: rest).take 3).find? fun candidate => candidate.type = .inline) =
      inside.lead.map inlineTok := by
  have closes : BeginsTwice ({ type := .listItemClose } :: rest) := beginsTwice_cons (by decide) begins.once
  cases inside with
  | nil => exact begins.find
  | paragraph inline next => rfl
  | heading level inline next => rfl
  | fence info content next => exact next.find_first closes
  | codeBlock content next => exact next.find_first closes
  | htmlBlock content next => exact next.find_first closes
  | hr next => exact next.find_first closes
  | blockquote inside next =>
    rw [Blocks.tokens, List.cons_append, List.cons_append, List.append_assoc]
    exact inside.find_first (beginsTwice_cons (by decide) (next.begins closes.once))
  | list ordered items next =>
    rw [Blocks.tokens, List.cons_append, List.cons_append, List.append_assoc]
    have later := @Items.beginsTwice items { type := if ordered then .orderedListClose else .bulletListClose }
      (next.tokens ++ { type := .listItemClose } :: rest) (by cases ordered <;> simp) (next.begins closes.once)
    have opens : (({ type := if ordered then .orderedListOpen else .bulletListOpen } : Token).type = .inline) = False := by
      cases ordered <;> simp
    rw [List.take_succ_cons, List.find?_cons_of_neg (by simp [opens])]
    exact later.find
  | table header rows next => rfl

/-! ### Tables -/

theorem rowCells_append (start finish : TokenType) (opens : start = .thOpen ∨ start = .tdOpen)
    (closes : finish = .thClose ∨ finish = .tdClose) (cells : List (List InlineToken)) (rest : List Token) :
    rowCells (cellTokens start finish cells ++ { type := .trClose } :: rest) = .ok (cells.map inlineTok) := by
  induction cells with
  | nil => rfl
  | cons cell cells ih =>
    show rowCells ({ type := start } :: inlineTok cell :: { type := finish } :: (cellTokens start finish cells ++ _)) = _
    have notEnd : start ≠ .trClose := by rcases opens with rfl | rfl <;> decide
    have onward : rowCells (inlineTok cell :: { type := finish } :: (cellTokens start finish cells ++
        { type := .trClose } :: rest)) = .ok (cells.map inlineTok) := by
      rw [← ih]
      rcases closes with rfl | rfl <;> rfl
    rw [rowCells, if_neg notEnd, if_pos opens, onward]
    rfl

theorem length_row (start finish : TokenType) (opens : start = .thOpen ∨ start = .tdOpen)
    (closes : finish = .thClose ∨ finish = .tdClose) (cells : List (List InlineToken)) (rest : List Token) :
    ((cellTokens start finish cells ++ { type := .trClose } :: rest).takeWhile fun tok => tok.type ≠ .trClose) =
      cellTokens start finish cells := by
  induction cells with
  | nil => rfl
  | cons cell cells ih =>
    show List.takeWhile _ ({ type := start } :: inlineTok cell :: { type := finish } :: (cellTokens start finish cells ++ _)) = _
    rcases opens with rfl | rfl
    · rcases closes with rfl | rfl <;> simpa [cellTokens, inlineTok] using ih
    · rcases closes with rfl | rfl <;> simpa [cellTokens, inlineTok] using ih

theorem tableRows_skip (before rest : List Token) :
    tableRows before.length (before ++ rest) = (tableRows 0 rest).map fun r => (r.1, r.2 + before.length) := by
  induction before with
  | nil =>
    show tableRows 0 rest = _
    cases tableRows 0 rest <;> rfl
  | cons tok before ih =>
    rw [List.length_cons, List.cons_append, tableRows, ih]
    cases tableRows 0 rest <;> rfl

theorem tableRows_other {tok : Token} (notEnd : tok.type ≠ .tableClose) (noRow : tok.type ≠ .trOpen) (rest : List Token) :
    tableRows 0 (tok :: rest) = (tableRows 0 rest).map fun r => (r.1, r.2 + 1) := by
  rw [tableRows, if_neg notEnd, if_neg noRow]
  cases tableRows 0 rest <;> rfl

theorem tableRows_row (start finish : TokenType) (opens : start = .thOpen ∨ start = .tdOpen)
    (closes : finish = .thClose ∨ finish = .tdClose) (cells : List (List InlineToken)) (rest : List Token) :
    tableRows 0 (rowTokens start finish cells ++ rest) =
      (tableRows 0 rest).map fun r => (cells.map inlineTok :: r.1, r.2 + (rowTokens start finish cells).length) := by
  have tokens : rowTokens start finish cells ++ rest =
      { type := .trOpen } :: (cellTokens start finish cells ++ { type := .trClose } :: rest) := by
    simp [rowTokens]
  have onward : tableRows 0 ({ type := .trClose } :: rest) = _ := tableRows_other (by decide) (by decide) rest
  rw [tokens, tableRows, if_neg (by decide), if_pos rfl, rowCells_append start finish opens closes,
    length_row start finish opens closes, tableRows_skip, onward]
  cases tableRows 0 rest with
  | error e => rfl
  | ok r =>
    have length : (rowTokens start finish cells).length = (cellTokens start finish cells).length + 2 := by simp [rowTokens]
    rw [length]
    show Except.ok (_ :: r.1, r.2 + 1 + _ + 1) = Except.ok (_ :: r.1, r.2 + (_ + 2))
    rw [show r.2 + 1 + (cellTokens start finish cells).length + 1 = r.2 + ((cellTokens start finish cells).length + 2) by omega]

theorem tableRows_rows (rows : List (List (List InlineToken))) (rest : List Token) :
    tableRows 0 (rows.flatMap (rowTokens .tdOpen .tdClose) ++ rest) =
      (tableRows 0 rest).map fun r =>
        ((rows.map fun cells => cells.map inlineTok) ++ r.1, r.2 + (rows.flatMap (rowTokens .tdOpen .tdClose)).length) := by
  induction rows with
  | nil => 
    show tableRows 0 rest = _
    cases tableRows 0 rest <;> rfl
  | cons row rows ih =>
    rw [List.flatMap_cons, List.append_assoc, tableRows_row .tdOpen .tdClose (Or.inr rfl) (Or.inr rfl), ih]
    cases tableRows 0 rest with
    | error e => rfl
    | ok r =>
      simp only [Except.map, List.map_cons, List.cons_append, List.length_append]
      rw [Nat.add_assoc, Nat.add_comm (rows.flatMap _).length]

theorem tableRows_table (header : List (List InlineToken)) (rows : List (List (List InlineToken))) (rest : List Token) :
    tableRows 0 (tableTokens header rows ++ { type := .tableClose } :: rest) =
      .ok ((header :: rows).map fun cells => cells.map inlineTok, (tableTokens header rows).length) := by
  have ending : ∀ tok : Token, tok.type = .tableClose → tableRows 0 (tok :: rest) = .ok ([], 0) := by
    intro tok isEnd
    rw [tableRows, if_pos isEnd]
  have body : tableRows 0 (bodyTokens rows ++ { type := .tableClose } :: rest) =
      .ok (rows.map fun cells => cells.map inlineTok, (bodyTokens rows).length) := by
    cases rows with
    | nil => exact ending _ rfl
    | cons row rows =>
      have tokens : bodyTokens (row :: rows) ++ { type := .tableClose } :: rest =
          { type := .tbodyOpen } :: ((row :: rows).flatMap (rowTokens .tdOpen .tdClose) ++
            { type := .tbodyClose } :: { type := .tableClose } :: rest) := by simp [bodyTokens]
      have length : (bodyTokens (row :: rows)).length = ((row :: rows).flatMap (rowTokens .tdOpen .tdClose)).length + 2 := by
        rw [bodyTokens, if_neg (by simp), List.cons_append, List.length_cons, List.length_append, List.length_singleton]
      rw [tokens, length, tableRows_other (by decide) (by decide), tableRows_rows, tableRows_other (by decide) (by decide),
        ending _ rfl]
      simp only [Except.map, List.append_nil]
      rw [show 0 + 1 + ((row :: rows).flatMap (rowTokens .tdOpen .tdClose)).length + 1 =
        ((row :: rows).flatMap (rowTokens .tdOpen .tdClose)).length + 2 by omega]
  have tokens : tableTokens header rows ++ { type := .tableClose } :: rest =
      { type := .theadOpen } :: (rowTokens .thOpen .thClose header ++
        { type := .theadClose } :: (bodyTokens rows ++ { type := .tableClose } :: rest)) := by simp [tableTokens]
  have length : (tableTokens header rows).length =
      (rowTokens .thOpen .thClose header).length + (bodyTokens rows).length + 2 := by
    simp only [tableTokens, List.length_append, List.length_cons]
    omega
  rw [tokens, length, tableRows_other (by decide) (by decide), tableRows_row .thOpen .thClose (Or.inl rfl) (Or.inl rfl),
    tableRows_other (by decide) (by decide), body]
  simp only [Except.map, List.map_cons]
  rw [show (bodyTokens rows).length + 1 + (rowTokens .thOpen .thClose header).length + 1 =
    (rowTokens .thOpen .thClose header).length + (bodyTokens rows).length + 2 by omega]

/-! ### The loop over the tokens goes through the tree -/

theorem walk_skip (tokens rest : List Token) (s : MarkdownWalk) :
    MarkdownWalk.walk tokens.length (tokens ++ rest) s = MarkdownWalk.walk 0 rest s := by
  induction tokens with
  | nil => rfl
  | cons tok tokens ih => exact ih

theorem walk_turn {tok : Token} {rest : List Token} {s : MarkdownWalk} {r : Except PyException (MarkdownWalk × Nat)}
    (turn : s.turn tok rest = r) :
    MarkdownWalk.walk 0 (tok :: rest) s = r.bind fun next => MarkdownWalk.walk next.2 rest next.1 := by
  rw [MarkdownWalk.walk, turn]
  rfl

def TokenType.idle : TokenType → Bool
  | .headingOpen | .paragraphOpen | .fence | .codeBlock | .tableOpen | .bulletListOpen | .orderedListOpen
  | .listItemOpen | .listClose | .bulletListClose | .orderedListClose => false
  | _ => true

theorem turn_idle {tok : Token} (idle : tok.type.idle = true) (rest : List Token) (s : MarkdownWalk) :
    s.turn tok rest = .ok (s, 0) := by
  obtain ⟨type, level, content, info, children⟩ := tok
  replace idle : type.idle = true := idle
  cases type <;> first | exact absurd idle (by decide) | rfl

theorem walk_idle {tokens : List Token} (idle : ∀ tok ∈ tokens, tok.type.idle = true) (rest : List Token)
    (s : MarkdownWalk) : MarkdownWalk.walk 0 (tokens ++ rest) s = MarkdownWalk.walk 0 rest s := by
  induction tokens with
  | nil => rfl
  | cons tok tokens ih =>
    rw [List.cons_append, walk_turn (turn_idle (idle tok (List.mem_cons_self ..)) _ s)]
    exact ih fun other later => idle other (List.mem_cons_of_mem _ later)

theorem turn_paragraph (inline : List InlineToken) (rest : List Token) (s : MarkdownWalk) :
    s.turn { type := .paragraphOpen } (inlineTok inline :: rest) = .ok (s.addParagraph inline, 2) := rfl

theorem turn_heading (level : Nat) (inline : List InlineToken) (rest : List Token) (s : MarkdownWalk) :
    s.turn { type := .headingOpen, level } (inlineTok inline :: rest) = .ok (s.addHeading level inline, 2) := rfl

theorem turn_fence (info content : String) (rest : List Token) (s : MarkdownWalk) :
    s.turn { type := .fence, info, content } rest =
      (firstItem (words (strip info))).bind fun language => .ok (s.addCode (given (some language)) content, 0) := rfl

theorem turn_codeBlock (content : String) (rest : List Token) (s : MarkdownWalk) :
    s.turn { type := .codeBlock, content } rest = .ok (s.addCode none content, 0) := rfl

theorem turn_listOpen (ordered : Bool) (rest : List Token) (s : MarkdownWalk) :
    s.turn { type := if ordered then .orderedListOpen else .bulletListOpen } rest = .ok (s.flushList, 0) := by
  cases ordered <;> rfl

theorem turn_listClose (ordered : Bool) (rest : List Token) (s : MarkdownWalk) :
    s.turn { type := if ordered then .orderedListClose else .bulletListClose } rest = .ok (s.flushList, 0) := by
  cases ordered <;> rfl

theorem turn_item (inside : Blocks) {rest : List Token} (begins : BeginsTwice rest) (s : MarkdownWalk) :
    s.turn { type := .listItemOpen } (inside.tokens ++ { type := .listItemClose } :: rest) =
      .ok (s.addItem inside.leadText, 1) := by
  show Except.ok (s.addItem (Option.elim (List.find? _ (List.take 3 _)) "" _), 1) = _
  rw [inside.find_lead begins]
  unfold Blocks.leadText
  cases inside.lead <;> rfl

theorem turn_table (header : List (List InlineToken)) (rows : List (List (List InlineToken))) (rest : List Token)
    (s : MarkdownWalk) :
    s.turn { type := .tableOpen } (tableTokens header rows ++ { type := .tableClose } :: rest) =
      .ok (s.addTable (tableOf header rows), (tableTokens header rows).length + 1) := by
  show (tableRows 0 (tableTokens header rows ++ { type := .tableClose } :: rest)).bind _ = _
  rw [tableRows_table]
  rfl

theorem idle_tableTokens (header : List (List InlineToken)) (rows : List (List (List InlineToken))) :
    ∀ tok ∈ tableTokens header rows, tok.type.idle = true := by
  have row : ∀ start finish cells, start.idle = true → finish.idle = true →
      ∀ tok ∈ rowTokens start finish cells, tok.type.idle = true := by
    intro start finish cells first last tok member
    simp only [rowTokens, cellTokens, List.cons_append, List.mem_cons, List.mem_append, List.mem_flatMap,
      List.not_mem_nil, or_false] at member
    rcases member with rfl | ⟨cell, _, rfl | rfl | rfl⟩ | rfl
    · rfl
    · exact first
    · rfl
    · exact last
    · rfl
  intro tok member
  simp only [tableTokens, bodyTokens, List.cons_append, List.mem_cons, List.mem_append] at member
  rcases member with rfl | inHeader | rfl | inBody
  · rfl
  · exact row _ _ _ rfl rfl tok inHeader
  · rfl
  · split at inBody
    · cases inBody
    · simp only [List.mem_cons, List.mem_append, List.mem_flatMap, List.not_mem_nil, or_false] at inBody
      rcases inBody with rfl | ⟨cells, _, inRow⟩ | rfl
      · rfl
      · exact row _ _ _ rfl rfl tok inRow
      · rfl

theorem except_bind_bind {ε α β γ : Type} (x : Except ε α) (f : α → Except ε β) (g : β → Except ε γ) :
    (x.bind f).bind g = x.bind fun a => (f a).bind g := by
  cases x <;> rfl

mutual
theorem Blocks.walk_tokens (b : Blocks) {rest : List Token} (begins : Begins rest) (s : MarkdownWalk) :
    MarkdownWalk.walk 0 (b.tokens ++ rest) s = (b.walk s).bind (MarkdownWalk.walk 0 rest) := by
  cases b with
  | nil => rfl
  | paragraph inline next =>
    rw [Blocks.tokens, List.cons_append, List.cons_append, walk_turn (turn_paragraph inline _ s), Blocks.walk]
    exact next.walk_tokens begins (s.addParagraph inline)
  | heading level inline next =>
    rw [Blocks.tokens, List.cons_append, List.cons_append, walk_turn (turn_heading level inline _ s), Blocks.walk]
    exact next.walk_tokens begins (s.addHeading level inline)
  | fence info content next =>
    rw [Blocks.tokens, List.cons_append, walk_turn (turn_fence info content _ s), Blocks.walk]
    cases firstItem (words (strip info)) with
    | error e => rfl
    | ok language => exact next.walk_tokens begins (s.addCode (given (some language)) content)
  | codeBlock content next =>
    rw [Blocks.tokens, List.cons_append, walk_turn (turn_codeBlock content _ s), Blocks.walk]
    exact next.walk_tokens begins (s.addCode none content)
  | htmlBlock content next =>
    rw [Blocks.tokens, List.cons_append, walk_turn (turn_idle rfl _ s), Blocks.walk]
    exact next.walk_tokens begins s
  | hr next =>
    rw [Blocks.tokens, List.cons_append, walk_turn (turn_idle rfl _ s), Blocks.walk]
    exact next.walk_tokens begins s
  | blockquote inside next =>
    rw [Blocks.tokens, List.cons_append, List.cons_append, List.append_assoc, walk_turn (turn_idle rfl _ s), Blocks.walk]
    show MarkdownWalk.walk 0 (inside.tokens ++ _ :: (next.tokens ++ rest)) s = ((inside.walk s).bind next.walk).bind _
    rw [inside.walk_tokens (by simp [Begins]) s, except_bind_bind]
    congr 1
    funext t
    rw [walk_turn (turn_idle rfl _ t)]
    exact next.walk_tokens begins t
  | list ordered items next =>
    rw [Blocks.tokens, List.cons_append, List.cons_append, List.append_assoc, walk_turn (turn_listOpen ordered _ s), Blocks.walk]
    show MarkdownWalk.walk 0 (items.tokens ++ _ :: (next.tokens ++ rest)) s.flushList =
      ((items.walk s.flushList).bind fun t => next.walk t.flushList).bind _
    rw [items.walk_tokens (by cases ordered <;> simp) (next.begins begins) s.flushList, except_bind_bind]
    congr 1
    funext t
    rw [walk_turn (turn_listClose ordered _ t)]
    exact next.walk_tokens begins t.flushList
  | table header rows next =>
    rw [Blocks.tokens, List.cons_append, List.cons_append, List.append_assoc, List.cons_append,
      walk_turn (turn_table header rows _ s), Blocks.walk]
    have past := walk_skip (tableTokens header rows ++ [{ type := .tableClose }]) (next.tokens ++ rest)
      (s.addTable (tableOf header rows))
    rw [List.append_assoc, List.length_append] at past
    exact past.trans (next.walk_tokens begins _)

theorem Blocks.walk_closed (b : Blocks) (rest : List Token) (s : MarkdownWalk) :
    MarkdownWalk.walk 0 (b.tokens ++ { type := .listItemClose } :: rest) s = (b.walk s).bind (MarkdownWalk.walk 0 rest) := by
  rw [b.walk_tokens (by simp [Begins]) s]
  congr 1

theorem Blocks.walkInside_tokens (b : Blocks) (rest : List Token) (s : MarkdownWalk) :
    MarkdownWalk.walk 1 (b.tokens ++ { type := .listItemClose } :: rest) s =
      (b.walkInside s).bind (MarkdownWalk.walk 0 rest) := by
  cases b with
  | nil => rfl
  | paragraph inline next => exact next.walk_closed rest s
  | heading level inline next => exact next.walk_closed rest s
  | fence info content next => exact next.walk_closed rest s
  | codeBlock content next => exact next.walk_closed rest s
  | htmlBlock content next => exact next.walk_closed rest s
  | hr next => exact next.walk_closed rest s
  | blockquote inside next =>
    rw [Blocks.tokens, List.cons_append, List.cons_append, List.append_assoc, MarkdownWalk.walk, Blocks.walkInside]
    show MarkdownWalk.walk 0 (inside.tokens ++ _ :: (next.tokens ++ _)) s = ((inside.walk s).bind next.walk).bind _
    rw [inside.walk_tokens (by simp [Begins]) s, except_bind_bind]
    congr 1
    funext t
    rw [walk_turn (turn_idle rfl _ t)]
    exact next.walk_closed rest t
  | list ordered items next =>
    rw [Blocks.tokens, List.cons_append, List.cons_append, List.append_assoc, MarkdownWalk.walk, Blocks.walkInside]
    show MarkdownWalk.walk 0 (items.tokens ++ _ :: (next.tokens ++ _)) s =
      ((items.walk s).bind fun t => next.walk t.flushList).bind _
    rw [items.walk_tokens (by cases ordered <;> simp) (next.begins (by simp [Begins])) s, except_bind_bind]
    congr 1
    funext t
    rw [walk_turn (turn_listClose ordered _ t)]
    exact next.walk_closed rest t.flushList
  | table header rows next =>
    rw [Blocks.tokens, List.cons_append, List.cons_append, List.append_assoc, List.cons_append, MarkdownWalk.walk,
      walk_idle (idle_tableTokens header rows), walk_turn (turn_idle rfl _ s)]
    exact next.walk_closed rest s

theorem Items.walk_tokens (items : Items) {close : Token} {rest : List Token} (closes : close.type ≠ .inline)
    (begins : Begins rest) (s : MarkdownWalk) :
    MarkdownWalk.walk 0 (items.tokens ++ close :: rest) s = (items.walk s).bind (MarkdownWalk.walk 0 (close :: rest)) := by
  cases items with
  | nil => rfl
  | item inside next =>
    have twice := next.beginsTwice closes begins
    rw [Items.tokens, List.cons_append, List.cons_append, List.append_assoc, List.cons_append, walk_turn (turn_item inside twice s),
      Items.walk]
    show MarkdownWalk.walk 1 (inside.tokens ++ _ :: (next.tokens ++ close :: rest)) (s.addItem inside.leadText) =
      ((inside.walkInside (s.addItem inside.leadText)).bind next.walk).bind _
    rw [inside.walkInside_tokens, except_bind_bind]
    congr 1
    funext t
    exact next.walk_tokens closes begins t
end

end Brain
