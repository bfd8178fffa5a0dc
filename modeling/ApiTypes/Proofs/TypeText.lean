import ApiTypes.Proofs.Identifier
import ApiTypes.Proofs.TypeReader

/-!
# How written types are read

A text is read back piece by piece: `Operand` says that a text is one operand
wherever it stands, and `Separated` joins texts by a character.  A union is then
operands joined by `&` into intersections, and these joined by `|`.
-/

namespace ApiTypes.Dialect
open Name (isIdentifierChar IsIdentifier Stops Follows follows_nil follows_cons)

variable {d : Dialect} {α β : Type} {sep : Char} {R : List Char → α → Prop}

/-- A text that is `R`-texts with `sep` between neighbours. -/
inductive Separated (sep : Char) (R : List Char → α → Prop) : List Char → List α → Prop where
  | one {text : List Char} {a : α} : R text a → Separated sep R text [a]
  | cons {text rest : List Char} {a : α} {as : List α} :
    R text a → Separated sep R rest as → Separated sep R (text ++ sep :: rest) (a :: as)

theorem Separated.append {x y : List Char} {as bs : List α} (h : Separated sep R x as)
    (h' : Separated sep R y bs) : Separated sep R (x ++ sep :: y) (as ++ bs) := by
  induction h with
  | one ha => exact .cons ha h'
  | cons ha _ ih =>
    rw [List.append_assoc]
    exact .cons ha ih

theorem Separated.map {S : List Char → β → Prop} {f : α → β} {text : List Char} {as : List α}
    (hRS : ∀ text a, R text a → S text (f a)) (h : Separated sep R text as) :
    Separated sep S text (as.map f) := by
  induction h with
  | one ha => exact .one (hRS _ _ ha)
  | cons ha _ ih => exact .cons (hRS _ _ ha) ih

/-- The characters that may stand behind a union. -/
def closers : List Char := [')', '>', ',', '\x7d']

/-- A text that is read as one operand wherever it stands. -/
structure Operand (d : Dialect) (text : List Char) (t : TypeTree) : Prop where
  ne_nil : text ≠ []
  read : ∀ fuel rest, 3 * text.length ≤ fuel → Follows ('&' :: '|' :: closers) rest →
    readOperand d fuel (text ++ rest) = some (t, rest)

abbrev Parts (d : Dialect) : List Char → List TypeTree → Prop := Separated '&' (Operand d)

abbrev Members (d : Dialect) : List Char → List (List TypeTree) → Prop := Separated '|' (Parts d)

theorem readIntersection_parts {text : List Char} {parts : List TypeTree}
    (h : Parts d text parts) (fuel : Nat) (rest : List Char) (hfuel : 3 * text.length + 1 ≤ fuel)
    (hrest : Follows ('|' :: closers) rest) :
    readIntersection d fuel (text ++ rest) = some (parts, rest) := by
  induction h generalizing fuel with
  | one ho =>
    obtain ⟨n, rfl⟩ : ∃ n, fuel = n + 1 := ⟨fuel - 1, by omega⟩
    have hread := ho.read n rest (by omega) hrest.weaken
    cases rest with
    | nil => simp only [readIntersection, hread]
    | cons c rest =>
      have hc : c ≠ '&' := hrest.ne (by decide)
      simp [readIntersection, hread, hc]
  | cons ho hparts ih =>
    obtain ⟨n, rfl⟩ : ∃ n, fuel = n + 1 := ⟨fuel - 1, by omega⟩
    rw [List.append_assoc, List.cons_append] at *
    simp only [List.length_append, List.length_cons] at hfuel
    rw [readIntersection, ho.read n _ (by omega) (follows_cons (by simp))]
    simp only [ih n (by omega), Option.map_some]

theorem readUnion_members {text : List Char} {members : List (List TypeTree)}
    (h : Members d text members) (fuel : Nat) (rest : List Char)
    (hfuel : 3 * text.length + 2 ≤ fuel) (hrest : Follows closers rest) :
    readUnion d fuel (text ++ rest) = some (members.map intersectionOf, rest) := by
  induction h generalizing fuel with
  | one hparts =>
    obtain ⟨n, rfl⟩ : ∃ n, fuel = n + 1 := ⟨fuel - 1, by omega⟩
    have hread := readIntersection_parts hparts n rest (by omega) hrest.weaken
    cases rest with
    | nil => simp only [readUnion, hread, List.map_cons, List.map_nil]
    | cons c rest =>
      have hc : c ≠ '|' := hrest.ne (by decide)
      simp [readUnion, hread, hc]
  | cons hparts _ ih =>
    obtain ⟨n, rfl⟩ : ∃ n, fuel = n + 1 := ⟨fuel - 1, by omega⟩
    rw [List.append_assoc, List.cons_append]
    simp only [List.length_append, List.length_cons] at hfuel
    rw [readUnion, readIntersection_parts hparts n _ (by omega) (follows_cons (by simp))]
    simp only [ih n (by omega), Option.map_some, List.map_cons]

def groupTree (members : List (List TypeTree)) : TypeTree := unionOf (members.map intersectionOf)

/-! ### Operands -/

theorem operand_word {word : List Char} (h : IsIdentifier word) :
    Operand d word (d.wordTree (String.ofList word)) := by
  refine ⟨h.ne_nil, ?_⟩
  intro fuel rest hfuel hrest
  have hstops : Stops isIdentifierChar rest := hrest.stops (by decide)
  have htake := Name.takeWhile_append_stops h.chars hstops
  have hdrop := Name.dropWhile_append_stops h.chars hstops
  cases word with
  | nil => exact absurd rfl h.ne_nil
  | cons c cs =>
    obtain ⟨n, rfl⟩ : ∃ n, fuel = n + 1 := ⟨fuel - 1, by simp at hfuel; omega⟩
    have hchar := h.chars c List.mem_cons_self
    have hnot : ∀ x, isIdentifierChar x = false → c ≠ x := by
      rintro x hx rfl
      rw [hx] at hchar
      cases hchar
    have hdigit : startsWord (c :: cs) = true := by
      simp [startsWord, h.start c rfl]
    rw [List.cons_append] at htake hdrop ⊢
    rw [readOperand]
    · simp only [htake, hdrop, hdigit]
      cases rest with
      | nil => rfl
      | cons x rest =>
        have hx : x ≠ '<' := hrest.ne (by decide)
        simp [hx]
    · exact fun _ he => hnot '?' (by decide) (List.cons.inj he).1
    · exact fun _ he => hnot '(' (by decide) (List.cons.inj he).1
    · exact fun _ he => hnot '\'' (by decide) (List.cons.inj he).1
    · exact fun _ he => hnot '\x7b' (by decide) (List.cons.inj he).1
    · exact fun _ he => hnot '\x7b' (by decide) (List.cons.inj he).1

theorem operand_literal (value : String) :
    Operand d (Text.literal value).toList (.literal value) := by
  have htext : (Text.literal value).toList =
      '\'' :: (value.toList.flatMap Text.escapeLiteral ++ ['\'']) := by
    rw [Text.literal, String.toList_ofList, List.cons_append]
  refine ⟨by simp [htext], ?_⟩
  intro fuel rest hfuel _
  obtain ⟨n, rfl⟩ : ∃ n, fuel = n + 1 := ⟨fuel - 1, by simp [htext] at hfuel; omega⟩
  have hread := Text.readLiteral_literal value.toList rest
  rw [htext, List.cons_append, List.append_assoc, readOperand, List.cons_append, List.nil_append,
    hread]
  simp

theorem operand_group {text : List Char} {members : List (List TypeTree)}
    (h : Members d text members) : Operand d ('(' :: (text ++ [')'])) (groupTree members) := by
  refine ⟨by simp, ?_⟩
  intro fuel rest hfuel _
  simp only [List.length_cons, List.length_append, List.length_nil] at hfuel
  obtain ⟨n, rfl⟩ : ∃ n, fuel = n + 1 := ⟨fuel - 1, by omega⟩
  have hread := readUnion_members h n (')' :: rest) (by omega) (follows_cons (by decide))
  rw [List.cons_append, List.append_assoc, readOperand, List.cons_append, List.nil_append, hread]
  rfl

theorem operand_maybe {text : List Char} {t : TypeTree} (h : Operand flow text t) :
    Operand flow ('?' :: text) (flow.nullable t) := by
  refine ⟨by simp, ?_⟩
  intro fuel rest hfuel hrest
  simp only [List.length_cons] at hfuel
  obtain ⟨n, rfl⟩ : ∃ n, fuel = n + 1 := ⟨fuel - 1, by omega⟩
  rw [List.cons_append, readOperand, if_pos rfl, h.read n rest (by omega) hrest]
  rfl

theorem operand_array {text : List Char} {members : List (List TypeTree)}
    (h : Members d text members) :
    Operand d ("Array<".toList ++ (text ++ ['>'])) (.array (groupTree members)) := by
  refine ⟨by simp, ?_⟩
  intro fuel rest hfuel _
  have hlen : "Array<".toList.length = 6 := rfl
  simp only [List.length_append, List.length_cons, List.length_nil, hlen] at hfuel
  obtain ⟨n, rfl⟩ : ∃ n, fuel = n + 1 := ⟨fuel - 1, by omega⟩
  have hread := readUnion_members h n ('>' :: rest) (by omega) (follows_cons (by decide))
  have hword : ∀ cs, ("Array<".toList ++ cs).takeWhile isIdentifierChar = "Array".toList :=
    fun _ => rfl
  have hrest : ∀ cs, ("Array<".toList ++ cs).dropWhile isIdentifierChar = '<' :: cs :=
    fun _ => rfl
  have hstart : startsWord "Array".toList = true := rfl
  rw [List.append_assoc, List.append_assoc, List.cons_append, List.nil_append]
  rw [readOperand]
  · simp only [hword, hrest, hstart, hread]
    rfl
  all_goals
    intro _ he
    exact absurd (List.cons.inj he).1 (by decide)

/-! ### Records -/

/-- What stands before the type of a field: its quoted name, a question mark
where the field is optional, and a colon. -/
def keyText (name : String) (required : Bool) : List Char :=
  '"' :: (name.toList.flatMap Text.escape ++ '"' :: if required then [':'] else ['?', ':'])

inductive FieldText (d : Dialect) : List Char → Slot → Prop where
  | mk (name : String) (required : Bool) (type : List Char) (members : List (List TypeTree)) :
    Members d type members →
    FieldText d (keyText name required ++ type) (.mk name required (groupTree members))

theorem toList_recordField (name : String) (required : Bool) (type : String) :
    (Target.recordField name required type).toList = keyText name required ++ type.toList := by
  cases required <;> simp [Target.recordField, keyText, Text.quote]

theorem readKey_keyText (name : String) (required : Bool) (cs : List Char) :
    readKey (keyText name required ++ cs) = some ((name, required), cs) := by
  cases required with
  | true =>
    obtain ⟨stop, hread⟩ := Json.readString_quote name (':' :: cs) 0
    simp [readKey, keyText, hread]
  | false =>
    obtain ⟨stop, hread⟩ := Json.readString_quote name ('?' :: ':' :: cs) 0
    simp [readKey, keyText, hread]

theorem two_le_length_keyText (name : String) (required : Bool) :
    2 ≤ (keyText name required).length := by
  simp only [keyText, List.length_cons, List.length_append]
  omega

theorem readFields_separated {text : List Char} {slots : List Slot}
    (h : Separated ',' (FieldText d) text slots) (fuel : Nat) (rest : List Char)
    (hfuel : 3 * text.length ≤ fuel) :
    readFields d fuel (text ++ '\x7d' :: rest) = some (slots, rest) := by
  induction h generalizing fuel with
  | one hfield =>
    obtain ⟨name, required, type, members, hmembers⟩ := hfield
    have hkey := two_le_length_keyText name required
    simp only [List.length_append] at hfuel
    obtain ⟨n, rfl⟩ : ∃ n, fuel = n + 1 := ⟨fuel - 1, by omega⟩
    have hread := readUnion_members hmembers n ('\x7d' :: rest) (by omega)
      (follows_cons (by decide))
    rw [List.append_assoc, readFields, readKey_keyText]
    simp only [hread]
    rfl
  | @cons _ others _ _ hfield _ ih =>
    obtain ⟨name, required, type, members, hmembers⟩ := hfield
    have hkey := two_le_length_keyText name required
    simp only [List.length_append, List.length_cons] at hfuel
    obtain ⟨n, rfl⟩ : ∃ n, fuel = n + 1 := ⟨fuel - 1, by omega⟩
    have hread := readUnion_members hmembers n (',' :: (others ++ '\x7d' :: rest)) (by omega)
      (follows_cons (by decide))
    rw [List.append_assoc, List.append_assoc, List.cons_append, readFields, readKey_keyText]
    simp only [hread, ih n (by omega), Option.map_some]
    rfl

theorem operand_emptyRecord : Operand d ['\x7b', '\x7d'] (.record []) := by
  refine ⟨by simp, ?_⟩
  intro fuel rest hfuel _
  obtain ⟨n, rfl⟩ : ∃ n, fuel = n + 1 := ⟨fuel - 1, by simp at hfuel; omega⟩
  rfl

theorem operand_record {text : List Char} {slots : List Slot}
    (h : Separated ',' (FieldText d) text slots) :
    Operand d ('\x7b' :: (text ++ ['\x7d'])) (.record slots) := by
  refine ⟨by simp, ?_⟩
  intro fuel rest hfuel _
  simp only [List.length_cons, List.length_append, List.length_nil] at hfuel
  obtain ⟨n, rfl⟩ : ∃ n, fuel = n + 1 := ⟨fuel - 1, by omega⟩
  have hread := readFields_separated h n rest (by omega)
  -- a field begins with its quote, so the braces are not those of an empty record
  have hquote : ∃ cs, text = '"' :: cs := by
    cases h with
    | one hfield =>
      obtain ⟨name, required, type, members, -⟩ := hfield
      exact ⟨_, rfl⟩
    | cons hfield _ =>
      obtain ⟨name, required, type, members, -⟩ := hfield
      exact ⟨_, rfl⟩
  obtain ⟨cs, hcs⟩ := hquote
  rw [List.cons_append, List.append_assoc, List.cons_append, List.nil_append, readOperand, hread]
  · rfl
  · rw [hcs]
    intro _ he
    exact absurd (List.cons.inj he).1 (by decide)

end ApiTypes.Dialect
