import MockRedirect.Text.Blank
import MockRedirect.Text.Pieces
/-! Scanning annotated JSON text without reading it: block comments, object fields and commas are
found outside string literals only. -/
namespace MockRedirect.Template

/-- What a scanner still does without looking: copy or pass over so many characters. -/
inductive Run where
  | copy (n : Nat)
  | skip (n : Nat)
  deriving DecidableEq, Repr

/-- The length of a string literal after its opening quote, with the closing one. A literal that
is never closed reaches to the end of the text. -/
def literalLength : List Char → Nat
  | [] => 0
  | ['\\'] => 1
  | '\\' :: _ :: cs => literalLength cs + 2
  | c :: cs => if c = '"' then 1 else literalLength cs + 1

/-- The length of the text before the first end of a comment. -/
def innerLength? : List Char → Option Nat
  | [] => none
  | c :: cs => if c = '*' ∧ cs.head? = some '/' then some 0 else (innerLength? cs).map (· + 1)

/-- The inside of a block comment that starts here. -/
def comment? (s : List Char) : Option (List Char) :=
  match s with
  | '/' :: '*' :: cs => (innerLength? cs).map cs.take
  | _ => none

def opensComment (s : List Char) : Bool := Text.startsWith ['/', '*'] s

/-- The text with every block comment replaced by `f` of its inside. Where a comment is never
closed, it and all that follows stay as they are. -/
def replaceComments (f : List Char → List Char) (s : List Char) : List Char := go s (.copy 0)
where
  go : List Char → Run → List Char
    | [], _ => []
    | _ :: cs, .skip (n + 1) => go cs (.skip n)
    | c :: cs, .copy (n + 1) => c :: go cs (.copy n)
    | c :: cs, _ =>
      if c = '"' then c :: go cs (.copy (literalLength cs))
      else if opensComment (c :: cs) then
        match comment? (c :: cs) with
        | some inner => f inner ++ go cs (.skip (inner.length + 3))
        | none => c :: cs
      else c :: go cs (.copy 0)

/-- Every block comment with the text before it. -/
def comments (s : List Char) : List (List Char × List Char) := go s (.copy 0) []
where
  /-- `before` is the text already passed, last character first. -/
  go : List Char → Run → List Char → List (List Char × List Char)
    | [], _, _ => []
    | c :: cs, .skip (n + 1), before => go cs (.skip n) (c :: before)
    | c :: cs, .copy (n + 1), before => go cs (.copy n) (c :: before)
    | c :: cs, _, before =>
      if c = '"' then go cs (.copy (literalLength cs)) (c :: before)
      else if opensComment (c :: cs) then
        match comment? (c :: cs) with
        | some inner => (before.reverse, inner) :: go cs (.skip (inner.length + 3)) (c :: before)
        | none => []
      else go cs (.copy 0) (c :: before)

/-- The length of the blanks at the front. -/
def blankLength (s : List Char) : Nat := (s.takeWhile Text.isAsciiBlank).length

/-- The length of an array or object that starts here, inside `depth` others; `n` characters are
part of a string literal. -/
def containerLength : List Char → Nat → Nat → Nat
  | [], _, _ => 0
  | _ :: cs, depth, n + 1 => containerLength cs depth n + 1
  | c :: cs, depth, 0 =>
    if c = '"' then containerLength cs depth (literalLength cs) + 1
    else if c = '\x7b' ∨ c = '[' then containerLength cs (depth + 1) 0 + 1
    else if c = '\x7d' ∨ c = ']' then if depth ≤ 1 then 1 else containerLength cs (depth - 1) 0 + 1
    else containerLength cs depth 0 + 1

/-- The length of the value that starts here. A scalar, or a value that is missing, ends before
the next comma or closing bracket. -/
def valueLength (s : List Char) : Nat :=
  match s with
  | '"' :: cs => literalLength cs + 1
  | '\x7b' :: _ => containerLength s 0 0
  | '[' :: _ => containerLength s 0 0
  | _ => (s.takeWhile fun c => c ≠ ',' && c ≠ '\x7d' && c ≠ ']').length

/-- A field that starts here with its opening quote already read: its key as written, and the
length up to what follows the blanks after the value. -/
def field? (s : List Char) : Option (List Char × Nat) :=
  let key := literalLength s
  let colon := key + blankLength (s.drop key)
  match s.drop colon with
  | ':' :: cs =>
    let value := blankLength cs
    let stop := value + valueLength (cs.drop value)
    some (s.take (key - 1), colon + 1 + stop + blankLength (cs.drop stop))
  | _ => none

/-- A reversed text without the blanks at its end and the comma before them. -/
def dropComma (out : List Char) : List Char :=
  match out.dropWhile Text.isBlank with
  | ',' :: out => out
  | out => out

/-- The text without the fields whose key satisfies `drop`. Each takes the comma after it along,
or, where none follows, the comma before it. -/
def stripFields (drop : List Char → Bool) (s : List Char) : List Char := go s (.copy 0) []
where
  /-- `out` is the text kept so far, last character first. -/
  go : List Char → Run → List Char → List Char
    | [], _, out => out.reverse
    | _ :: cs, .skip (n + 1), out => go cs (.skip n) out
    | c :: cs, .copy (n + 1), out => go cs (.copy n) (c :: out)
    | c :: cs, _, out =>
      if c = '"' then
        match field? cs with
        | some (key, n) =>
          if drop key then
            if (cs.drop n).head? = some ',' then go cs (.skip (n + 1)) out
            else go cs (.skip n) (dropComma out)
          else go cs (.copy (literalLength cs)) (c :: out)
        | none => go cs (.copy (literalLength cs)) (c :: out)
      else go cs (.copy 0) (c :: out)

/-- The text without the commas that stand right before a closing bracket. -/
def dropTrailingCommas (s : List Char) : List Char := go s 0
where
  go : List Char → Nat → List Char
    | [], _ => []
    | c :: cs, n + 1 => c :: go cs n
    | c :: cs, 0 =>
      if c = '"' then c :: go cs (literalLength cs)
      else
        let next := (cs.dropWhile Text.isAsciiBlank).head?
        if c = ',' ∧ (next = some '\x7d' ∨ next = some ']') then go cs 0
        else c :: go cs 0

example : replaceComments (fun _ => []) "a/*x*/b\"/*y*/\"/*".toList = "ab\"/*y*/\"/*".toList := by
  decide
example : stripFields (fun k => k.head? = some '@') "\x7b\"a\":1, \"@b\": [\"]\"] , \"@c\":\x7d".toList =
    "\x7b\"a\":1\x7d".toList := by decide
example : dropTrailingCommas "[1, ]".toList = "[1 ]".toList := by decide

end MockRedirect.Template
