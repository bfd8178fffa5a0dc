import ApiTypes.Yaml.Scalar

/-!
# Reading YAML anchors, tags and directives
-/

namespace ApiTypes.Yaml

/-- Reads the name of an anchor or an alias, from its indicator. -/
def readAnchor (s : Spot) : Option (String × Spot) :=
  let s := s.next
  let name := s.rest.takeWhile isWordChar
  let s := s.skip name.length
  let ends := match s.rest with
    | [] => true
    | c :: _ => isBlank c || isBreak c || "?:,]\x7d%@`".toList.contains c
  if name.isEmpty || !ends then none else some (String.ofList name, s)

def isTagChar (verbatim : Bool) (c : Char) : Bool :=
  isWordChar c || ";/?:@&=+$.%!~*'()".toList.contains c || (verbatim && ",[]".toList.contains c)

/-- Reads the characters of a tag; `acc` holds their bytes, last first. -/
def readTagBytes (verbatim : Bool) : Nat → List UInt8 → Spot → Option (List UInt8 × Spot)
  | 0, acc, s => some (acc, s)
  | fuel + 1, acc, s =>
    match s.rest with
    | '%' :: rest => do
      let digits := rest.take 2
      if digits.length < 2 then none
      else
        let n ← Text.hexNumber? digits
        readTagBytes verbatim fuel (n.toUInt8 :: acc) (s.skip 3)
    | c :: _ =>
      if isTagChar verbatim c then
        readTagBytes verbatim fuel (c.toNat.toUInt8 :: acc) s.next
      else some (acc, s)
    | [] => some (acc, s)

/-- Reads the rest of a tag behind `head`; together they must not be empty. -/
def readTagText (verbatim : Bool) (head : List Char) (s : Spot) : Option (String × Spot) := do
  let (bytes, after) ← readTagBytes verbatim (s.rest.length + 1) [] s
  let text ← String.fromUTF8? ⟨bytes.reverse.toArray⟩
  if head.isEmpty && text.isEmpty then none
  else some (String.ofList (head.drop 1) ++ text, after)

/-- Reads the handle of a tag, from its exclamation mark. -/
def readTagHandle (s : Spot) : List Char × Spot :=
  let s := s.next
  let word := s.rest.takeWhile isWordChar
  let s := s.skip word.length
  match s.rest with
  | '!' :: _ => ('!' :: word ++ ['!'], s.next)
  | _ => ('!' :: word, s)

def readTag (flow : Bool) (s : Spot) : Option (String × String × Spot) := do
  let (handle, rest, s) ← match s.rest with
    | '!' :: '<' :: _ => do
      let (text, s) ← readTagText true [] (s.skip 2)
      match s.rest with
      | '>' :: _ => some ("", text, s.next)
      | _ => none
    | _ => do
      let (handle, s) := readTagHandle s
      if 1 < handle.length ∧ handle.getLast? = some '!' then
        let (text, s) ← readTagText false [] s
        some (String.ofList handle, text, s)
      else
        let (text, s) ← readTagText false handle s
        some (if text.isEmpty then ("", "!", s) else ("!", text, s))
  if startsBlank s.rest || (flow && s.rest.head? = some ',') then some (handle, rest, s) else none

/-! ### Directives -/

/-- Reads a number of at most nine digits. -/
def readSmallNumber (s : Spot) : Option (Nat × Spot) :=
  let digits := s.rest.takeWhile Char.isDigit
  if digits.isEmpty ∨ 9 < digits.length then none
  else some (digits.foldl (fun n c => n * 10 + (c.toNat - 48)) 0, s.skip digits.length)

/-- What a directive says. -/
inductive Directive where
  | version (major minor : Nat)
  | handle (name value : String)

/-- Reads a directive, from its percent sign, and the rest of its line. -/
def readDirective (s : Spot) : Option (Directive × Spot) := do
  let s := s.next
  let name := s.rest.takeWhile isWordChar
  let s := s.skip name.length
  if name.isEmpty ∨ ¬ startsBlank s.rest then none
  else
    let s := s.skipWhile isBlank
    let (directive, s) ← match String.ofList name with
      | "YAML" => do
        let (major, s) ← readSmallNumber s
        if s.rest.head? = some '.' then
          let (minor, s) ← readSmallNumber s.next
          some (Directive.version major minor, s)
        else none
      | "TAG" => do
        if s.rest.head? = some '!' then
          let (handle, s) := readTagHandle s
          if handle ≠ ['!'] ∧ handle.getLast? ≠ some '!' then none
          else if (s.rest.head?.any isBlank) = false then none
          else
            let (value, s) ← readTagText true [] (s.skipWhile isBlank)
            if startsBlank s.rest then some (Directive.handle (String.ofList handle) value, s)
            else none
        else none
      | _ => none
    let s := s.skipWhile isBlank
    let s := if s.rest.head? = some '#' then s.skipWhile (fun c => !isBreak c) else s
    if startsBreak s.rest then some (directive, s.readBreak.2) else none

end ApiTypes.Yaml
