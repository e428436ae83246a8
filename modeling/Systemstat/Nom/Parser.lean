import Mathlib.Data.List.Basic

/-! # Complete string parsers

The parsers and combinators of nom 7 that a `&str` program is written with, in
their `complete` variants. A parser returns the rest of the input and a value,
or an error; only `Err.error` is recoverable, so the repetitions and `opt`
treat it differently from the other two. Every error records the input it
arose at, as nom's default error type does.
-/

namespace Systemstat.Nom

/-- A Rust `str`: its Unicode scalar values in order. -/
abbrev Str := List Char

inductive ErrorKind
  | tag | mapRes | digit | space | many0 | many1 | takeUntil | verify | complete
  deriving DecidableEq, Repr

structure Error where
  input : Str
  code : ErrorKind
  deriving DecidableEq, Repr

inductive Err
  | incomplete
  | error (e : Error)
  | failure (e : Error)
  deriving DecidableEq, Repr

abbrev IResult (α : Type) := Except Err (Str × α)

def Parser (α : Type) := Str → IResult α

variable {α β : Type}

/-- `tuple` and the sequencing combinators are written with `do`. -/
instance : Monad Parser where
  pure a := fun i => .ok (i, a)
  bind p f := fun i =>
    match p i with
    | .error e => .error e
    | .ok (rest, a) => f a rest

/-- `result.map(|(_, res)| res)` with the error forgotten. -/
def IResult.value? : IResult α → Option α
  | .ok (_, a) => some a
  | .error _ => none

/-! ## Characters -/

def isMultispace (c : Char) : Bool := c == ' ' || c == '\t' || c == '\r' || c == '\n'

def isLineEnd (c : Char) : Bool := c == '\r' || c == '\n'

/-- `nom::character::is_space`, a test on one byte. -/
def isSpace (chr : UInt8) : Bool := chr == 32 || chr == 9

/-! ## Primitive parsers -/

def takeWhile0 (p : Char → Bool) : Parser Str := fun i =>
  .ok (i.dropWhile p, i.takeWhile p)

def takeWhile1 (code : ErrorKind) (p : Char → Bool) : Parser Str := fun i =>
  if i.takeWhile p = [] then .error (.error ⟨i, code⟩)
  else .ok (i.dropWhile p, i.takeWhile p)

def multispace0 : Parser Str := takeWhile0 isMultispace

def digit1 : Parser Str := takeWhile1 .digit Char.isDigit

def space1 : Parser Str := takeWhile1 .space (fun c => c == ' ' || c == '\t')

def takeTill (p : Char → Bool) : Parser Str := takeWhile0 (fun c => !p c)

/-- A carriage return ends the line only as part of `"\r\n"`; a lone one is an
error, not a character of the line. -/
def notLineEnding : Parser Str := fun i =>
  match i.dropWhile (fun c => !isLineEnd c) with
  | '\r' :: rest =>
      if rest.head? = some '\n' then
        .ok ('\r' :: rest, i.takeWhile (fun c => !isLineEnd c))
      else .error (.error ⟨i, .tag⟩)
  | rest => .ok (rest, i.takeWhile (fun c => !isLineEnd c))

def tag (t : Str) : Parser Str := fun i =>
  if t.isPrefixOf i then .ok (i.drop t.length, t) else .error (.error ⟨i, .tag⟩)

def findSubstring (t : Str) : Str → Option (Str × Str)
  | [] => if t = [] then some ([], []) else none
  | c :: cs =>
      if t.isPrefixOf (c :: cs) then some ([], c :: cs)
      else (findSubstring t cs).map fun (before, rest) => (c :: before, rest)

def takeUntil (t : Str) : Parser Str := fun i =>
  match findSubstring t i with
  | none => .error (.error ⟨i, .takeUntil⟩)
  | some (before, rest) => .ok (rest, before)

/-! ## Combinators -/

def map (p : Parser α) (f : α → β) : Parser β := do
  let a ← p
  return f a

/-- The error value of `f` is dropped by nom's default error type, so a fallible
`f` is an `Option`. -/
def mapRes (p : Parser α) (f : α → Option β) : Parser β := fun i =>
  match p i with
  | .error e => .error e
  | .ok (rest, a) =>
      match f a with
      | none => .error (.error ⟨i, .mapRes⟩)
      | some b => .ok (rest, b)

def verify (p : Parser α) (test : α → Bool) : Parser α := fun i =>
  match p i with
  | .error e => .error e
  | .ok (rest, a) => if test a then .ok (rest, a) else .error (.error ⟨i, .verify⟩)

def opt (p : Parser α) : Parser (Option α) := fun i =>
  match p i with
  | .error (.error _) => .ok (i, none)
  | .error e => .error e
  | .ok (rest, a) => .ok (rest, some a)

def complete (p : Parser α) : Parser α := fun i =>
  match p i with
  | .error .incomplete => .error (.error ⟨i, .complete⟩)
  | r => r

def pair (first : Parser α) (second : Parser β) : Parser (α × β) := do
  let a ← first
  let b ← second
  return (a, b)

def preceded {γ : Type} (first : Parser γ) (second : Parser α) : Parser α := do
  let _ ← first
  second

def delimited {γ δ : Type} (first : Parser γ) (second : Parser α) (third : Parser δ) :
    Parser α := do
  let _ ← first
  let a ← second
  let _ ← third
  return a

/-! ## Repetition -/

/-- The loop shared by `many0`, `many1` and `fold_many0`. A recoverable error
ends it with success; an item that consumes nothing is the error `code`. The
fuel bounds the number of iterations. -/
def manyLoop (code : ErrorKind) (p : Parser α) (g : β → α → β) : Nat → Str → β → IResult β
  | 0, i, _ => .error (.error ⟨i, code⟩)
  | fuel + 1, i, acc =>
      match p i with
      | .error (.error _) => .ok (i, acc)
      | .error e => .error e
      | .ok (rest, a) =>
          if rest.length = i.length then .error (.error ⟨i, code⟩)
          else manyLoop code p g fuel rest (g acc a)

def push (acc : List α) (a : α) : List α := acc ++ [a]

def foldMany0 (p : Parser α) (init : β) (g : β → α → β) : Parser β := fun i =>
  manyLoop .many0 p g (i.length + 1) i init

def many0 (p : Parser α) : Parser (List α) := foldMany0 p [] push

/-- The first item is required and is not subject to the progress test. -/
def many1 (p : Parser α) : Parser (List α) := fun i =>
  match p i with
  | .error e => .error e
  | .ok (rest, a) => manyLoop .many1 p push (rest.length + 1) rest [a]

end Systemstat.Nom
