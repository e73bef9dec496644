import Mathlib.Data.List.Basic

namespace Brain

/-- A Python value as provider payloads hold it. A float is kept by its text. -/
inductive PyValue
  | none
  | bool (b : Bool)
  | int (n : Int)
  | float (text : String)
  | str (s : String)
  | list (items : List PyValue)
  | dict (entries : List (String × PyValue))
  deriving Inhabited

/-- A `dict[str, object]`, in insertion order. -/
abbrev RawDict := List (String × PyValue)

/-- `raw.get(name)`: a missing key reads as `None`. -/
def pyGet (raw : RawDict) (name : String) : PyValue := (raw.lookup name).getD .none

namespace PyValue

def isNone : PyValue → Bool
  | none => true
  | _ => false

def truthy : PyValue → Bool
  | none => false
  | bool b => b
  | int n => n != 0
  | float text => text != "0.0" && text != "-0.0"
  | str s => s != ""
  | list items => !items.isEmpty
  | dict entries => !entries.isEmpty

/-- The Python `left or right`. -/
def or (left right : PyValue) : PyValue := if left.truthy then left else right

/-- How `repr` writes one character of a string quoted by `quote`. Characters
above U+00FF count as printable. -/
def reprChar (quote c : Char) : List Char :=
  if c = '\\' then ['\\', '\\']
  else if c = quote then ['\\', c]
  else if c = '\n' then ['\\', 'n']
  else if c = '\r' then ['\\', 'r']
  else if c = '\t' then ['\\', 't']
  else if c.toNat < 0x20 || (0x7f ≤ c.toNat && c.toNat ≤ 0xa0) || c.toNat = 0xad then
    ['\\', 'x', Nat.digitChar (c.toNat / 16), Nat.digitChar (c.toNat % 16)]
  else [c]

def reprString (s : String) : String :=
  let quote := if s.toList.contains '\'' && !s.toList.contains '"' then '"' else '\''
  String.ofList (quote :: s.toList.flatMap (reprChar quote) ++ [quote])

mutual
def repr : PyValue → String
  | none => "None"
  | bool true => "True"
  | bool false => "False"
  | int n => toString n
  | float text => text
  | str s => reprString s
  | list items => "[" ++ ", ".intercalate (reprItems items) ++ "]"
  | dict entries => "\x7b" ++ ", ".intercalate (reprEntries entries) ++ "\x7d"

def reprItems : List PyValue → List String
  | [] => []
  | item :: items => item.repr :: reprItems items

def reprEntries : List (String × PyValue) → List String
  | [] => []
  | (name, value) :: entries => (reprString name ++ ": " ++ value.repr) :: reprEntries entries
end

/-- The Python `str(value)`. -/
def text : PyValue → String
  | str s => s
  | value => value.repr

/-- `bool` is a kind of `int`: `True == 1`. -/
def asInt? : PyValue → Option Int
  | bool b => some (if b then 1 else 0)
  | int n => some n
  | _ => Option.none

mutual
/-- The Python `left == right`. -/
def eq : PyValue → PyValue → Bool
  | none, none => true
  | bool a, right => right.asInt? == some (if a then 1 else 0)
  | int a, float b => toString a ++ ".0" == b
  | int a, right => right.asInt? == some a
  | float a, float b => a == b
  | float a, right => right.asInt?.any (fun n => toString n ++ ".0" == a)
  | str a, str b => a == b
  | list as, list bs => eqItems as bs
  | dict as, dict bs => as.length == bs.length && eqEntries as bs
  | _, _ => false

def eqItems : List PyValue → List PyValue → Bool
  | [], [] => true
  | a :: as, b :: bs => eq a b && eqItems as bs
  | _, _ => false

/-- Every entry on the left has an equal one under its key on the right. -/
def eqEntries : List (String × PyValue) → List (String × PyValue) → Bool
  | [], _ => true
  | (name, value) :: entries, right =>
    (match right.lookup name with
      | some other => eq value other
      | Option.none => false) && eqEntries entries right
end

end PyValue

/-- The truth value of an optional string: an empty one counts as missing. -/
def given (s : Option String) : Option String := s.filter (· ≠ "")

/-- The Python `left or right` on strings. -/
def strOr (left right : String) : String := if left = "" then right else left

@[simp] theorem given_none : given none = none := rfl

theorem given_eq_some {s : Option String} {t : String} : given s = some t ↔ s = some t ∧ t ≠ "" := by
  simp [given, Option.filter_eq_some_iff]

/-- The characters that `str.isspace` accepts. -/
def isSpace (c : Char) : Bool :=
  (0x9 ≤ c.toNat && c.toNat ≤ 0xd) || (0x1c ≤ c.toNat && c.toNat ≤ 0x20) ||
    (0x2000 ≤ c.toNat && c.toNat ≤ 0x200a) ||
    [0x85, 0xa0, 0x1680, 0x2028, 0x2029, 0x202f, 0x205f, 0x3000].contains c.toNat

def stripLeft (p : Char → Bool) (cs : List Char) : List Char := cs.dropWhile p

def stripRight (p : Char → Bool) (cs : List Char) : List Char := (cs.reverse.dropWhile p).reverse

/-- `s.strip()`. -/
def strip (s : String) : String := String.ofList (stripRight isSpace (stripLeft isSpace s.toList))

/-- `str.lower` as far as ASCII tables can tell: besides the ASCII letters only
the Kelvin sign has an ASCII lower case. -/
def lowerChar (c : Char) : Char := if c.toNat = 0x212a then 'k' else c.toLower

def lower (s : String) : String := String.ofList (s.toList.map lowerChar)

/-- `str.lower` of a text that is searched: the lower case of the dotted capital
I is an i under a combining dot. -/
def lowered (s : String) : String :=
  String.ofList (s.toList.flatMap fun c => if c.toNat = 0x130 then ['i', Char.ofNat 0x307] else [lowerChar c])

/-- `part in whole`. -/
def textContains (whole part : String) : Bool := whole.toList.tails.any part.toList.isPrefixOf

/-- The part of `cs` after its last `separator`: `s.split(separator)[-1]`. -/
def lastSegment (separator : Char) (cs : List Char) : List Char :=
  (cs.reverse.takeWhile (· ≠ separator)).reverse

theorem mem_lastSegment {separator c : Char} {cs : List Char} (member : c ∈ lastSegment separator cs) : c ∈ cs := by
  unfold lastSegment at member
  have inside := List.mem_reverse.mp member
  exact List.mem_reverse.mp ((List.takeWhile_sublist _).subset inside)

/-- The zeros of the decimal digit blocks that `int` reads. -/
def decimalZeros : List Nat :=
  [0x30, 0x660, 0x6f0, 0x7c0, 0x966, 0x9e6, 0xa66, 0xae6, 0xb66, 0xbe6, 0xc66, 0xce6, 0xd66, 0xde6,
    0xe50, 0xed0, 0xf20, 0x1040, 0x1090, 0x17e0, 0x1810, 0x1946, 0x19d0, 0x1a80, 0x1a90, 0x1b50,
    0x1bb0, 0x1c40, 0x1c50, 0xa620, 0xa8d0, 0xa900, 0xa9d0, 0xa9f0, 0xaa50, 0xabf0, 0xff10, 0x104a0,
    0x10d30, 0x11066, 0x110f0, 0x11136, 0x111d0, 0x112f0, 0x11450, 0x114d0, 0x11650, 0x116c0,
    0x11730, 0x118e0, 0x11950, 0x11c50, 0x11d50, 0x11da0, 0x16a60, 0x16ac0, 0x16b50, 0x1d7ce,
    0x1d7d8, 0x1d7e2, 0x1d7ec, 0x1d7f6, 0x1e140, 0x1e2f0, 0x1e950, 0x1fbf0]

def digitValue (c : Char) : Option Nat :=
  decimalZeros.findSome? (fun first => if first ≤ c.toNat ∧ c.toNat < first + 10 then some (c.toNat - first) else none)

/-- Decimal digits with single underscores between them. -/
def parseDigits (afterDigit : Bool) (value : Nat) : List Char → Option Nat
  | [] => if afterDigit then some value else none
  | c :: cs =>
    if c = '_' then (if afterDigit then parseDigits false value cs else none)
    else match digitValue c with
      | some digit => parseDigits true (value * 10 + digit) cs
      | none => none

/-- `int(s)`, `none` where it raises `ValueError`. -/
def parseInt (s : String) : Option Int :=
  match (strip s).toList with
  | '-' :: cs => (parseDigits false 0 cs).map (fun n => -(n : Int))
  | '+' :: cs => (parseDigits false 0 cs).map Int.ofNat
  | cs => (parseDigits false 0 cs).map Int.ofNat

example : parseInt " -1_0" = some (-10) := by decide

end Brain
