import ApiTypes.Text.Escape
import ApiTypes.Unicode.Word

/-!
# Tokens of the filter language

A filter's text is cut into tokens.  Brackets of all kinds must match, and what
stands between two of them is one token; so is a string, which may hold further
tokens in places where a value is put in.
-/

namespace ApiTypes.Filter
open Text (hexNumber? shortEscape?)

mutual

inductive Token where
  | word (name : String)
  /-- A name behind a dollar sign. -/
  | variable (name : String)
  /-- A name behind an at sign. -/
  | format (name : String)
  | number (digits : String)
  | text (pieces : List Piece)
  /-- A name behind a point. -/
  | field (name : String)
  /-- A point, two points, punctuation or an operator. -/
  | symbol (s : String)
  /-- What stands between the bracket `opening` and the one that closes it. -/
  | block (opening : Char) (inner : List Token)

/-- A piece of a string. -/
inductive Piece where
  | plain (s : String)
  | value (inner : List Token)

end

namespace Token

def beginsName (c : Char) : Bool := c.isAlpha || c == '_'

def continuesName (c : Char) : Bool := c.isAlphanum || c == '_'

def isOperator (c : Char) : Bool := "|=!<>+-*/%".toList.contains c

def closing : Char → Char
  | '(' => ')'
  | '[' => ']'
  | _ => '\x7d'

/-- Splits a simple name from a text. -/
def takeName (cs : List Char) : List Char × List Char :=
  (cs.takeWhile continuesName, cs.dropWhile continuesName)

/-- Splits a name from a text, which may consist of simple names with two colons
between them. -/
def takeQualified : Nat → List Char → Option (List Char × List Char)
  | 0, _ => none
  | fuel + 1, cs =>
    if cs.head?.any beginsName then
      let (name, rest) := takeName cs
      match rest with
      | ':' :: ':' :: more =>
        (takeQualified fuel more).map fun (tail, rest) => (name ++ [':', ':'] ++ tail, rest)
      | _ => some (name, rest)
    else none

/-- Splits digits from a text; there must be one. -/
def takeDigits (cs : List Char) : Option (List Char × List Char) :=
  let digits := cs.takeWhile Char.isDigit
  if digits.isEmpty then none else some (digits, cs.dropWhile Char.isDigit)

def takeNumber (cs : List Char) : Option (List Char × List Char) := do
  let (whole, cs) ← takeDigits cs
  let (fraction, cs) ← match cs with
    | '.' :: rest => (takeDigits rest).map fun (ds, rest) => ('.' :: ds, rest)
    | _ => some ([], cs)
  let (exponent, cs) ← match cs with
    | e :: rest =>
      if e = 'e' ∨ e = 'E' then
        match rest with
        | '+' :: rest => (takeDigits rest).map fun (ds, rest) => (e :: '+' :: ds, rest)
        | '-' :: rest => (takeDigits rest).map fun (ds, rest) => (e :: '-' :: ds, rest)
        | _ => (takeDigits rest).map fun (ds, rest) => (e :: ds, rest)
      else some ([], cs)
    | [] => some ([], cs)
  pure (whole ++ fraction ++ exponent, cs)

def hexChar? (digits : List Char) : Option Char :=
  if digits.length = 4 then
    (hexNumber? digits).bind fun n =>
      if h : n.isValidChar then some (Char.ofNatAux n h) else none
  else none

mutual

/-- Reads tokens up to a closing bracket or the end of the text. -/
def readTokens : Nat → List Char → Option (List Token × List Char)
  | 0, _ => none
  | fuel + 1, cs =>
    match cs with
    | [] => some ([], [])
    | c :: rest =>
      if Unicode.isBlank c then readTokens fuel rest
      else if c = '#' then readTokens fuel (rest.dropWhile (· ≠ '\n'))
      else if c = ')' ∨ c = ']' ∨ c = '\x7d' then some ([], cs)
      else do
        let (t, rest) ← readToken fuel c rest
        let (ts, rest) ← readTokens fuel rest
        pure (t :: ts, rest)

def readToken : Nat → Char → List Char → Option (Token × List Char)
  | 0, _, _ => none
  | fuel + 1, c, rest =>
    if beginsName c then
      (takeQualified (fuel + 1) (c :: rest)).map fun (name, rest) =>
        (.word (String.ofList name), rest)
    else if c.isDigit then
      (takeNumber (c :: rest)).map fun (digits, rest) => (.number (String.ofList digits), rest)
    else if isOperator c then
      some (.symbol (String.ofList (c :: rest.takeWhile isOperator)), rest.dropWhile isOperator)
    else
      match c with
      | '$' =>
        (takeQualified (fuel + 1) rest).map fun (name, rest) =>
          (.variable (String.ofList name), rest)
      | '@' =>
        if rest.head?.any continuesName then
          let (name, rest) := takeName rest
          some (.format (String.ofList name), rest)
        else none
      | '.' =>
        match rest with
        | '.' :: rest => some (.symbol "..", rest)
        | d :: _ =>
          if beginsName d then
            let (name, rest) := takeName rest
            some (.field (String.ofList name), rest)
          else some (.symbol ".", rest)
        | [] => some (.symbol ".", rest)
      | ':' | ';' | ',' | '?' => some (.symbol (String.singleton c), rest)
      | '"' => do
        let (pieces, rest) ← readPieces fuel [] rest
        pure (.text pieces, rest)
      | '(' | '[' | '\x7b' => do
        let (inner, rest) ← readBlock fuel c rest
        pure (.block c inner, rest)
      | _ => none

/-- Reads what follows an opening bracket, and the closing one. -/
def readBlock : Nat → Char → List Char → Option (List Token × List Char)
  | 0, _, _ => none
  | fuel + 1, opening, cs =>
    match readTokens fuel cs with
    | some (inner, c :: rest) => if c = closing opening then some (inner, rest) else none
    | _ => none

/-- Reads the pieces of a string and its quote; `acc` are the characters that
precede, the last one first. -/
def readPieces : Nat → List Char → List Char → Option (List Piece × List Char)
  | 0, _, _ => none
  | fuel + 1, acc, cs =>
    match cs with
    | [] => none
    | '"' :: rest => some ([.plain (String.ofList acc.reverse)], rest)
    | '\\' :: '(' :: rest => do
      let (inner, rest) ← readBlock fuel '(' rest
      let (pieces, rest) ← readPieces fuel [] rest
      pure (.plain (String.ofList acc.reverse) :: .value inner :: pieces, rest)
    | '\\' :: 'u' :: rest => do
      let c ← hexChar? (rest.take 4)
      readPieces fuel (c :: acc) (rest.drop 4)
    | '\\' :: c :: rest => do
      let c ← shortEscape? c
      readPieces fuel (c :: acc) rest
    | c :: rest => readPieces fuel (c :: acc) rest

end

/-- The tokens of a text; nothing if it is not well formed. -/
def ofText? (text : String) : Option (List Token) :=
  let cs := text.toList
  match readTokens (4 * cs.length + 4) cs with
  | some (tokens, []) => some tokens
  | _ => none

mutual

def size : Token → Nat
  | .text pieces => 1 + sizePieces pieces
  | .block _ inner => 1 + sizeAll inner
  | _ => 1

/-- The number of tokens in the pieces of a string. -/
def sizePieces : List Piece → Nat
  | [] => 0
  | .plain _ :: rest => 1 + sizePieces rest
  | .value inner :: rest => 1 + sizeAll inner + sizePieces rest

def sizeAll : List Token → Nat
  | [] => 0
  | t :: rest => size t + sizeAll rest

end

end Token

end ApiTypes.Filter
