import Brain.Application.OpenProjectParser
import Brain.Lib.Rankings
import Brain.Lib.Writers
import Mathlib.Algebra.Order.BigOperators.Group.List
import Mathlib.Data.List.TakeWhile
import Mathlib.Data.Prod.Lex
import Mathlib.Data.String.Basic

namespace Brain

def unescapeSolr : List Char → List Char
  | '\\' :: '.' :: cs => '.' :: unescapeSolr cs
  | c :: cs => c :: unescapeSolr cs
  | [] => []

/-- A page as `_normalize_query_page` returns it. -/
structure QueryPage where
  id : String
  space : String
  title : String
  version : String
  modified : String
  deriving DecidableEq

/-- The dates of the standard library: the text of a timestamp in milliseconds, and
what `fromisoformat` makes of a text, in UTC where it names no zone. -/
structure DateFormats (τ : Type) where
  isoformat : PyValue → String
  fromisoformat : String → Option τ

namespace DateFormats
variable {τ : Type} (dates : DateFormats τ)

def toIso : PyValue → String
  | .int n => dates.isoformat (.int n)
  | .float text => dates.isoformat (.float text)
  | .bool b => dates.isoformat (.bool b)
  | .dict entries => textOrEmpty (pyGet entries "value")
  | modified => textOrEmpty modified

def parseModified (value : String) : Option τ := if value = "" then none else dates.fromisoformat value

def normalizeQueryPage (element : RawDict) : QueryPage where
  id := .ofList (unescapeSolr (textOrEmpty ((pyGet element "pageFullName").or (pyGet element "id"))).toList)
  space := .ofList (unescapeSolr (textOrEmpty (pyGet element "space")).toList)
  title := textOrEmpty (pyGet element "title")
  version := textOrEmpty (pyGet element "version")
  modified := dates.toIso (pyGet element "modified")

end DateFormats

/-- The transport, by the `searchResults` its query endpoint answers with to a
query, a start and a number. -/
structure XWikiHTTPTransport (τ : Type) extends DateFormats τ where
  request : String → Nat → Nat → List RawDict

namespace XWikiHTTPTransport
variable {τ : Type} [LinearOrder τ] (transport : XWikiHTTPTransport τ) (since : Option τ)

def older (page : QueryPage) : Bool :=
  match since, transport.parseModified page.modified with
  | some since, some modified => decide (modified < since)
  | _, _ => false

/-- The pages of a slice up to the first older one, and whether there was one. -/
def takeNew : List RawDict → List QueryPage × Bool
  | [] => ([], false)
  | element :: elements =>
    let normalized := transport.normalizeQueryPage element
    if transport.older since normalized then ([], true)
    else
      let (pages, stop) := takeNew elements
      (normalized :: pages, stop)

/-- The loop over the slices of a query, with the starts it requests. `none` when
`turns` slices did not suffice. -/
def pagesOf (pageSize : Nat) (query : String) : Nat → Nat → Option (List QueryPage × List Nat)
  | 0, _ => none
  | turns + 1, start =>
    let elements := transport.request query start pageSize
    if elements.isEmpty then some ([], [start])
    else
      let (pages, stop) := transport.takeNew since elements
      if stop || decide (elements.length < pageSize) then some (pages, [start])
      else (pagesOf pageSize query turns (start + pageSize)).map fun rest => (pages ++ rest.1, start :: rest.2)

def queries (spaces : List String) : List String := spaces.flatMap fun space => ["space:" ++ space, "space:" ++ space ++ ".*"]

/-- `sorted` by this key puts the smallest pair first. -/
def pageKey (page : QueryPage) : (Lex (String × String))ᵒᵈ := OrderDual.toDual (toLex (page.space, page.id))

/-- `list_changed_pages`, with the requests it makes. -/
def listChangedPages (turns : Nat) (spaces : List String) (pageSize : Nat) :
    Option (List QueryPage × List (String × List Nat)) :=
  ((queries spaces).mapM fun query => (transport.pagesOf since pageSize query turns 0).map fun found => (query, found)).map
    fun found => (FirstWriter.firsts QueryPage.id (Rankings.byScore pageKey (found.flatMap fun f => f.2.1)),
      found.map fun f => (f.1, f.2.2))

/-- The endpoint answers with slices of a list per query, newest first and with
dates that can be read. -/
structure Serves (lists : String → List RawDict) : Prop where
  slices : ∀ query start number, transport.request query start number = ((lists query).drop start).take number
  newestFirst : ∀ query, (lists query).Pairwise fun a b => ∀ s t,
    transport.parseModified (transport.normalizeQueryPage a).modified = some s →
      transport.parseModified (transport.normalizeQueryPage b).modified = some t → t ≤ s
  parseable : ∀ query, ∀ element ∈ lists query, (transport.parseModified (transport.normalizeQueryPage element).modified).isSome

/-- The element was modified at or after `since`. -/
def Changed (element : RawDict) : Prop :=
  ∀ t ∈ since, ∃ modified, transport.parseModified (transport.normalizeQueryPage element).modified = some modified ∧ t ≤ modified

/-- The pages are those of the lists modified at or after `since`, each id once and
in the order of space and id; of each list the slices up to the first older element,
behind `newer` others, were requested. -/
structure ListsExactly (lists : String → List RawDict) (spaces : List String) (pageSize : Nat)
    (r : List QueryPage × List (String × List Nat)) : Prop where
  listed : ∀ page ∈ r.1, ∃ query ∈ queries spaces, ∃ element ∈ lists query,
    transport.Changed since element ∧ page = transport.normalizeQueryPage element
  all : ∀ query ∈ queries spaces, ∀ element ∈ lists query, transport.Changed since element →
    ∃ page ∈ r.1, page.id = (transport.normalizeQueryPage element).id
  once : (r.1.map QueryPage.id).Nodup
  ordered : r.1.Pairwise fun a b => toLex (a.space, a.id) ≤ toLex (b.space, b.id)
  requested : ∃ newer : String → Nat, r.2 = (queries spaces).map (fun query =>
      (query, (List.range (newer query / pageSize + 1)).map (· * pageSize))) ∧
    ∀ query, (∀ element ∈ (lists query).take (newer query), transport.Changed since element) ∧
      ∀ element ∈ (lists query)[newer query]?, ¬ transport.Changed since element

/-- The element does not end its query's loop. -/
def isNew (element : RawDict) : Bool := !transport.older since (transport.normalizeQueryPage element)

section Exact
variable {transport} {since} {lists : String → List RawDict} {pageSize : Nat}

theorem isNew_iff {element : RawDict} (dated : (transport.parseModified (transport.normalizeQueryPage element).modified).isSome) :
    transport.isNew since element = true ↔ transport.Changed since element := by
  obtain ⟨modified, parsed⟩ := Option.isSome_iff_exists.mp dated
  unfold isNew older Changed
  cases since with
  | none => simp
  | some t => simp [parsed]

theorem takeNew_eq (elements : List RawDict) : transport.takeNew since elements =
    ((elements.takeWhile (transport.isNew since)).map transport.normalizeQueryPage, !elements.all (transport.isNew since)) := by
  induction elements with
  | nil => rfl
  | cons e elements ih =>
    rw [takeNew, List.takeWhile_cons, List.all_cons, ih, isNew]
    cases transport.older since (transport.normalizeQueryPage e) <;> rfl

theorem takeWhile_of_take {α : Type} {p : α → Bool} {rest : List α} {n : Nat} (all : (rest.take n).all p = true) :
    rest.takeWhile p = rest.take n ++ (rest.drop n).takeWhile p := by
  conv_lhs => rw [← List.take_append_drop n rest]
  exact List.takeWhile_append_of_pos (List.all_eq_true.mp all)

theorem takeWhile_take {α : Type} {p : α → Bool} {rest : List α} {n : Nat} (fails : (rest.take n).all p = false) :
    (rest.take n).takeWhile p = rest.takeWhile p ∧ (rest.takeWhile p).length < n := by
  induction n generalizing rest with
  | zero => cases fails
  | succ n ih =>
    cases rest with
    | nil => cases fails
    | cons a rest =>
      rw [List.take_succ_cons, List.all_cons] at fails
      rw [List.take_succ_cons, List.takeWhile_cons, List.takeWhile_cons]
      cases holds : p a with
      | false => exact ⟨rfl, Nat.succ_pos n⟩
      | true =>
        rw [holds, Bool.true_and] at fails
        obtain ⟨same, short⟩ := ih fails
        rw [if_pos rfl, if_pos rfl, same, List.length_cons]
        exact ⟨rfl, Nat.succ_lt_succ short⟩

theorem not_of_getElem?_takeWhile {α : Type} {p : α → Bool} {l : List α} {a : α}
    (found : l[(l.takeWhile p).length]? = some a) : p a = false := by
  induction l with
  | nil => cases found
  | cons b l ih =>
    rw [List.takeWhile_cons] at found
    cases holds : p b with
    | false =>
      rw [holds] at found
      cases found
      exact holds
    | true =>
      rw [holds] at found
      exact ih found

theorem pagesOf_eq (serves : transport.Serves lists) (positive : 1 ≤ pageSize) (query : String) {turns start : Nat}
    (enough : ((lists query).drop start).length < turns * pageSize) :
    transport.pagesOf since pageSize query turns start =
      let newer := ((lists query).drop start).takeWhile (transport.isNew since)
      some (newer.map transport.normalizeQueryPage, (List.range (newer.length / pageSize + 1)).map fun k => start + k * pageSize) := by
  induction turns generalizing start with
  | zero => omega
  | succ turns ih =>
    have slice := serves.slices query start pageSize
    have next := @ih (start + pageSize)
    rw [← List.drop_drop] at next
    generalize (lists query).drop start = rest at enough slice next ⊢
    rw [pagesOf, slice, takeNew_eq]
    dsimp only
    by_cases ended : rest = []
    · subst ended
      simp
    · have left : (rest.take pageSize).isEmpty ≠ true := by
        rw [ne_eq, List.isEmpty_iff, List.take_eq_nil_iff]
        exact fun either => either.elim (fun zero => by omega) ended
      rw [if_neg left]
      cases all : (rest.take pageSize).all (transport.isNew since) with
      | false =>
        -- the first older element is in this slice
        obtain ⟨same, short⟩ := takeWhile_take all
        rw [Bool.not_false, Bool.true_or, if_pos rfl, same, Nat.div_eq_of_lt short]
        simp
      | true =>
        have whole : (rest.take pageSize).takeWhile (transport.isNew since) = rest.take pageSize :=
          List.takeWhile_eq_self_iff.mpr (List.all_eq_true.mp all)
        rw [Bool.not_true, Bool.false_or, whole, takeWhile_of_take all, List.length_take]
        by_cases last : rest.length < pageSize
        · have short : min pageSize rest.length < pageSize := by omega
          rw [if_pos (decide_eq_true short), List.drop_of_length_le (Nat.le_of_lt last), List.takeWhile_nil, List.append_nil,
            List.length_take, Nat.div_eq_of_lt short]
          simp
        · have full : min pageSize rest.length = pageSize := by omega
          have left : (rest.drop pageSize).length < turns * pageSize := by
            rw [List.length_drop]
            rw [Nat.succ_mul] at enough
            omega
          rw [if_neg (by simp [full]), next left, List.length_append, List.length_take, full, Nat.add_div_left _ (by omega),
            List.range_succ_eq_map]
          simp [Function.comp_def, Nat.succ_mul, Nat.add_assoc, Nat.add_comm pageSize]

theorem mem_newer (serves : transport.Serves lists) {query : String} {element : RawDict} :
    element ∈ (lists query).takeWhile (transport.isNew since) ↔
      element ∈ lists query ∧ transport.Changed since element := by
  have dated := serves.parseable query
  have sorted := serves.newestFirst query
  generalize lists query = elements at dated sorted
  induction elements with
  | nil => simp
  | cons first elements ih =>
    rw [List.pairwise_cons] at sorted
    rw [List.takeWhile_cons, List.mem_cons]
    have inRest := ih (fun e member => dated e (List.mem_cons_of_mem _ member)) sorted.2
    have here := @isNew_iff _ _ transport since _ (dated first List.mem_cons_self)
    cases new : transport.isNew since first with
    | true =>
      have changed := here.mp new
      simp only [if_true, List.mem_cons, inRest]
      constructor
      · rintro (rfl | both)
        · exact ⟨Or.inl rfl, changed⟩
        · exact ⟨Or.inr both.1, both.2⟩
      · rintro ⟨rfl | later, changed⟩
        · exact Or.inl rfl
        · exact Or.inr ⟨later, changed⟩
    | false =>
      have unchanged : ¬ transport.Changed since first := fun changed => by
        rw [here.mpr changed] at new
        cases new
      simp only [Bool.false_eq_true, if_false, List.not_mem_nil, false_iff]
      rintro ⟨rfl | later, changed⟩
      · exact unchanged changed
      · refine unchanged fun t given => ?_
        obtain ⟨modified, parsed, recent⟩ := changed t given
        obtain ⟨newest, parsedFirst⟩ := Option.isSome_iff_exists.mp (dated first List.mem_cons_self)
        exact ⟨newest, parsedFirst, recent.trans (sorted.1 element later newest modified parsedFirst parsed)⟩

theorem mapM_pagesOf (serves : transport.Serves lists) (positive : 1 ≤ pageSize) {turns : Nat} (names : List String)
    (enough : ∀ query ∈ names, (lists query).length < turns) :
    (names.mapM fun query => (transport.pagesOf since pageSize query turns 0).map fun found => (query, found)) =
      some (names.map fun query =>
        let newer := (lists query).takeWhile (transport.isNew since)
        (query, newer.map transport.normalizeQueryPage, (List.range (newer.length / pageSize + 1)).map (· * pageSize))) := by
  induction names with
  | nil => rfl
  | cons query names ih =>
    have short := enough query List.mem_cons_self
    have ends := @pagesOf_eq _ _ transport since lists pageSize serves positive query turns 0
      (lt_of_lt_of_le short (Nat.le_mul_of_pos_right turns positive))
    rw [List.mapM_cons, ends, ih fun q member => enough q (List.mem_cons_of_mem _ member)]
    simp

theorem listsExactly_of_newer (serves : transport.Serves lists) (spaces : List String) {newer : String → List RawDict}
    (isNewer : ∀ query, newer query = (lists query).takeWhile (transport.isNew since)) :
    transport.ListsExactly since lists spaces pageSize
      (FirstWriter.firsts QueryPage.id (Rankings.byScore pageKey
        ((queries spaces).flatMap fun query => (newer query).map transport.normalizeQueryPage)),
        (queries spaces).map fun query => (query, (List.range ((newer query).length / pageSize + 1)).map (· * pageSize))) := by
  have mem_found : ∀ {page}, page ∈ Rankings.byScore pageKey
      ((queries spaces).flatMap fun query => (newer query).map transport.normalizeQueryPage) ↔
      ∃ query ∈ queries spaces, ∃ element ∈ lists query, transport.Changed since element ∧ page = transport.normalizeQueryPage element := by
    intro page
    simp only [Rankings.mem_byScore, List.mem_flatMap, List.mem_map, isNewer, mem_newer serves, and_assoc, eq_comm]
  refine ⟨fun page member => mem_found.mp (FirstWriter.mem_of_mem_firsts member), ?_, FirstWriter.nodup_firsts _, ?_, ?_⟩
  · intro query asked element member changed
    have found := mem_found.mpr ⟨query, asked, element, member, changed, rfl⟩
    obtain ⟨page, isFirst⟩ := FirstWriter.exists_first (List.mem_map_of_mem (f := QueryPage.id) found)
    rw [← FirstWriter.first_firsts] at isFirst
    exact ⟨page, (FirstWriter.first_eq_some isFirst).1, (FirstWriter.first_eq_some isFirst).2⟩
  · obtain ⟨added, whole, sublist, -, -⟩ := @FirstWriter.foldl_added _ _ _ QueryPage.id []
      (Rankings.byScore pageKey ((queries spaces).flatMap fun query => (newer query).map transport.normalizeQueryPage))
    rw [FirstWriter.firsts, whole, List.nil_append]
    exact (Rankings.byScore_pairwise pageKey _).sublist sublist
  · refine ⟨fun query => (newer query).length, rfl, fun query => ⟨fun element member => ?_, fun element found => ?_⟩⟩
    · have same : (lists query).take (newer query).length = newer query := by
        rw [isNewer]
        exact (List.prefix_iff_eq_take.mp (List.takeWhile_prefix _)).symm
      rw [same, isNewer] at member
      exact ((mem_newer serves).mp member).2
    · dsimp only at found
      rw [isNewer] at found
      intro changed
      have new := (isNew_iff (serves.parseable query element (List.mem_of_getElem? found))).mpr changed
      exact absurd (not_of_getElem?_takeWhile found) (by rw [new]; decide)

end Exact

def onePage (query : String) : List RawDict :=
  if query = "space:Main" then [[("pageFullName", .str "Main.WebHome"), ("space", .str "Main"), ("modified", .int 0)]] else []

def onePageTransport : XWikiHTTPTransport Nat where
  isoformat _ := "1970-01-01T00:00:00+00:00"
  fromisoformat text := if text = "1970-01-01T00:00:00+00:00" then some 0 else none
  request query start number := ((onePage query).drop start).take number

end XWikiHTTPTransport

end Brain
