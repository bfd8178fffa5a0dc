import ApiTypes.Proofs.CodecExpression
import ApiTypes.Proofs.Writing
import ApiTypes.Target.Codec

/-!
# Canonical forms of codecs

Shapes that differ only in what codecs do not tell apart have the same canonical
form: a reference is the identifier it is written as, an integer is a number,
both kinds of union are one, a single member stands for itself, and `null` is
admitted by a union.  The codec of a shape is the text of its canonical form, and
no two forms have the same text.
-/

namespace ApiTypes.Codec
open Name (Identifier isIdentifierChar)

inductive Constant where
  | number
  | string
  | boolean
  | null
  | unknown
  | never
deriving DecidableEq

mutual

inductive Form where
  | reference (name : Identifier)
  | intersection (members : List Form)
  | union (members : List Form)
  | array (item : Form)
  | object (fields : List FormField)
  | enum (values : List String)
  | constant (c : Constant)

inductive FormField where
  | mk (name : String) (required : Bool) (form : Form)

end

def intersectionOf : List Form → Form
  | [] => .constant .unknown
  | [member] => member
  | members => .intersection members

def unionOf : List Form → Form
  | [] => .constant .never
  | [member] => member
  | members => .union members

def enumOf : List String → Form
  | [] => .constant .never
  | values => .enum values

mutual

/-- The canonical form of a shape.  A shape with several composite keywords has
no codec; it counts as unknown. -/
def canonical : Shape → Form
  | .mk k nullable =>
    if nullable then .union [canonicalKind k, .constant .null] else canonicalKind k

def canonicalKind : Kind → Form
  | .reference path => .reference (Name.identifier path)
  | .allOf members => intersectionOf (canonicalList members)
  | .anyOf members => unionOf (canonicalList members)
  | .oneOf members => unionOf (canonicalList members)
  | .array item => .array (canonical item)
  | .object fields => .object (canonicalFields fields)
  | .enum values => enumOf values
  | .number => .constant .number
  | .string => .constant .string
  | .boolean => .constant .boolean
  | .integer => .constant .number
  | .null => .constant .null
  | .unrecognized _ => .constant .unknown
  | .conflicting _ _ => .constant .unknown

def canonicalList : List Shape → List Form
  | [] => []
  | s :: rest => canonical s :: canonicalList rest

def canonicalFields : List Field → List FormField
  | [] => []
  | .mk name required s :: rest => .mk name required (canonical s) :: canonicalFields rest

end

/-! ### Forms as expressions -/

def Constant.text : Constant → String
  | number => "t.number"
  | string => "t.string"
  | boolean => "t.boolean"
  | null => "t.null"
  | unknown => "t.unknown"
  | never => "t.never"

def Constant.word (c : Constant) : Word := ⟨c.text, by cases c <;> decide⟩

theorem isWordChar_of_isIdentifierChar {c : Char} (h : isIdentifierChar c = true) :
    isWordChar c = true := by
  rw [isWordChar, h]
  rfl

def nameWord (name : Identifier) : Word :=
  ⟨name.text, name.valid.ne_nil, List.all_eq_true.mpr fun c hc =>
    isWordChar_of_isIdentifierChar (name.valid.chars c hc)⟩

/-- The expression of a field: an optional one may be undefined. -/
def fieldExpression (required : Bool) (e : Expression) : Expression :=
  if required then e
  else .list ⟨"t.union", by decide⟩ [e, .word ⟨"t.undefined", by decide⟩]

def literalEntry (value : String) : Entry := .mk value (.word ⟨"null", by decide⟩)

mutual

def Form.expression : Form → Expression
  | .reference name => .word (nameWord name)
  | .intersection members => .list ⟨"t.intersection", by decide⟩ (listExpressions members)
  | .union members => .list ⟨"t.union", by decide⟩ (listExpressions members)
  | .array item => .call ⟨"t.array", by decide⟩ item.expression
  | .object fields => .record ⟨"t.type", by decide⟩ (fieldEntries fields)
  | .enum values => .record ⟨"t.keyof", by decide⟩ (values.map literalEntry)
  | .constant c => .word c.word

def listExpressions : List Form → List Expression
  | [] => []
  | f :: rest => f.expression :: listExpressions rest

def fieldEntries : List FormField → List Entry
  | [] => []
  | .mk name required f :: rest =>
    .mk name (fieldExpression required f.expression) :: fieldEntries rest

end

/-! ### The codec of a shape -/

theorem text_literalEntry (value : String) :
    (literalEntry value).text = Text.quote value ++ ":null" := by
  rw [literalEntry, Entry.text, Expression.text, String.append_assoc]
  rfl

theorem text_enumOf (values : List String) :
    (enumOf values).expression.text = Target.keyOf values := by
  cases values with
  | nil => rfl
  | cons value values =>
    have htexts : entryTexts ((value :: values).map literalEntry) =
        (value :: values).map fun v => Text.quote v ++ ":null" := by
      rw [entryTexts_eq_map, List.map_map]
      exact List.map_congr_left fun v _ => text_literalEntry v
    have henum : enumOf (value :: values) = .enum (value :: values) := rfl
    rw [henum, Form.expression, Expression.text, htexts]
    rfl

theorem text_unionOf (members : List Form) :
    (unionOf members).expression.text =
      Target.combinator "union" "t.never" (listTexts (listExpressions members)) := by
  match members with
  | [] => rfl
  | [f] => rfl
  | f :: g :: rest => rfl

theorem text_intersectionOf (members : List Form) :
    (intersectionOf members).expression.text =
      Target.combinator "intersection" "t.unknown" (listTexts (listExpressions members)) := by
  match members with
  | [] => rfl
  | [f] => rfl
  | f :: g :: rest => rfl

theorem text_nullable (f : Form) :
    (Form.union [f, .constant .null]).expression.text =
      Target.codec.nullable f.expression.text := by
  apply String.toList_injective
  simp [Form.expression, listExpressions, Expression.text, listTexts, Text.joinWith, Target.codec,
    Constant.word, Constant.text]

theorem text_field (name : String) (required : Bool) (e : Expression) :
    (Entry.mk name (fieldExpression required e)).text =
      Target.codecField name required e.text := by
  apply String.toList_injective
  cases required <;>
    simp [fieldExpression, Entry.text, Expression.text, listTexts, Text.joinWith, Target.codecField]

mutual

theorem text_canonical : ∀ s : Shape,
    (canonical s).expression.text = Target.codec.written s
  | .mk k false => text_canonicalKind k
  | .mk k true => by
    have hk := text_canonicalKind k
    have hnull := text_nullable (canonicalKind k)
    rw [hk] at hnull
    exact hnull

theorem text_canonicalKind : ∀ k : Kind,
    (canonicalKind k).expression.text = Target.codec.writtenKind k
  | .reference path => rfl
  | .allOf members => by
    rw [canonicalKind, text_intersectionOf, text_canonicalList members]
    rfl
  | .anyOf members => by
    rw [canonicalKind, text_unionOf, text_canonicalList members]
    rfl
  | .oneOf members => by
    rw [canonicalKind, text_unionOf, text_canonicalList members]
    rfl
  | .array item => by
    rw [canonicalKind, Form.expression, Expression.text, text_canonical item]
    rfl
  | .object fields => by
    rw [canonicalKind, Form.expression, Expression.text, text_canonicalFields fields]
    rfl
  | .enum values => text_enumOf values
  | .number => rfl
  | .string => rfl
  | .boolean => rfl
  | .integer => rfl
  | .null => rfl
  | .unrecognized _ => rfl
  | .conflicting _ _ => rfl

theorem text_canonicalList : ∀ members : List Shape,
    listTexts (listExpressions (canonicalList members)) = Target.codec.writtenList members
  | [] => rfl
  | s :: rest => by
    rw [canonicalList, listExpressions, listTexts, text_canonical s, text_canonicalList rest]
    rfl

theorem text_canonicalFields : ∀ fields : List Field,
    entryTexts (fieldEntries (canonicalFields fields)) = Target.codec.writtenFields fields
  | [] => rfl
  | .mk name required s :: rest => by
    rw [canonicalFields, fieldEntries, entryTexts, text_field, text_canonical s,
      text_canonicalFields rest]
    rfl

end

/-! ### Forms are told apart -/

theorem nameWord_ne (name : Identifier) (w : Word) (h : '.' ∈ w.text.toList) :
    nameWord name ≠ w := by
  rintro rfl
  have hdot : isIdentifierChar '.' = true := name.valid.chars '.' h
  revert hdot
  decide

theorem nameWord_inj {name name' : Identifier} (h : nameWord name = nameWord name') :
    name = name' := by
  obtain ⟨text, valid⟩ := name
  obtain ⟨text', valid'⟩ := name'
  obtain rfl : text = text' := Word.mk.inj h
  rfl

theorem Constant.word_inj {c c' : Constant} (h : c.word = c'.word) : c = c' := by
  have htext : c.text = c'.text := congrArg Word.text h
  revert htext
  cases c <;> cases c' <;> decide

theorem nameWord_ne_constant (name : Identifier) (c : Constant) : nameWord name ≠ c.word :=
  nameWord_ne name c.word (by cases c <;> decide)

theorem Form.expression_ne_undefined (f : Form) (w : Word) (hw : w.text = "t.undefined") :
    f.expression ≠ .word w := by
  intro h
  cases f with
  | reference name => exact nameWord_ne name w (by rw [hw]; decide) (Expression.word.inj h)
  | constant c =>
    have htext : c.text = w.text := congrArg Word.text (Expression.word.inj h)
    rw [hw] at htext
    revert htext
    cases c <;> decide
  | _ => cases h

/-- No form is written as the value of an optional field. -/
theorem Form.expression_ne_optional (f : Form) (e : Expression) :
    f.expression ≠ fieldExpression false e := by
  intro h
  cases f with
  | union members =>
    have hmembers := (Expression.list.inj h).2
    match members with
    | [] => cases hmembers
    | [_] => cases hmembers
    | _ :: g :: _ =>
      have hg := (List.cons.inj (List.cons.inj hmembers).2).1
      exact g.expression_ne_undefined _ rfl hg
  | intersection => exact absurd (congrArg Word.text (Expression.list.inj h).1) (by decide)
  | _ => cases h

theorem literalEntry_inj (value value' : String) (h : literalEntry value = literalEntry value') :
    value = value' :=
  (Entry.mk.inj h).1

theorem fieldExpression_inj {required required' : Bool} {f f' : Form}
    (h : fieldExpression required f.expression = fieldExpression required' f'.expression) :
    required = required' ∧ f.expression = f'.expression := by
  cases required with
  | true =>
    cases required' with
    | true => exact ⟨rfl, h⟩
    | false => exact absurd h (f.expression_ne_optional _)
  | false =>
    cases required' with
    | true => exact absurd h.symm (f'.expression_ne_optional _)
    | false => exact ⟨rfl, (List.cons.inj (Expression.list.inj h).2).1⟩

mutual

theorem Form.expression_inj : ∀ f f' : Form, f.expression = f'.expression → f = f'
  | .reference name, f', h => by
    cases f' with
    | reference name' => rw [nameWord_inj (Expression.word.inj h)]
    | constant c => exact absurd (Expression.word.inj h) (nameWord_ne_constant name c)
    | _ => cases h
  | .intersection members, f', h => by
    cases f' with
    | intersection members' => rw [listExpressions_inj members members' (Expression.list.inj h).2]
    | union => exact absurd (congrArg Word.text (Expression.list.inj h).1) (by decide)
    | _ => cases h
  | .union members, f', h => by
    cases f' with
    | intersection => exact absurd (congrArg Word.text (Expression.list.inj h).1) (by decide)
    | union members' => rw [listExpressions_inj members members' (Expression.list.inj h).2]
    | _ => cases h
  | .array item, f', h => by
    cases f' with
    | array item' => rw [Form.expression_inj item item' (Expression.call.inj h).2]
    | _ => cases h
  | .object fields, f', h => by
    cases f' with
    | object fields' => rw [fieldEntries_inj fields fields' (Expression.record.inj h).2]
    | enum => exact absurd (congrArg Word.text (Expression.record.inj h).1) (by decide)
    | _ => cases h
  | .enum values, f', h => by
    cases f' with
    | object => exact absurd (congrArg Word.text (Expression.record.inj h).1) (by decide)
    | enum values' =>
      have hvalues := (Expression.record.inj h).2
      rw [(List.map_inj_right literalEntry_inj).mp hvalues]
    | _ => cases h
  | .constant c, f', h => by
    cases f' with
    | reference name => exact absurd (Expression.word.inj h).symm (nameWord_ne_constant name c)
    | constant c' => rw [Constant.word_inj (Expression.word.inj h)]
    | _ => cases h

theorem listExpressions_inj : ∀ members members' : List Form,
    listExpressions members = listExpressions members' → members = members'
  | [], [], _ => rfl
  | [], _ :: _, h => by cases h
  | _ :: _, [], h => by cases h
  | f :: rest, f' :: rest', h => by
    obtain ⟨hf, hrest⟩ := List.cons.inj h
    rw [Form.expression_inj f f' hf, listExpressions_inj rest rest' hrest]

theorem fieldEntries_inj : ∀ fields fields' : List FormField,
    fieldEntries fields = fieldEntries fields' → fields = fields'
  | [], [], _ => rfl
  | [], .mk _ _ _ :: _, h => by cases h
  | .mk _ _ _ :: _, [], h => by cases h
  | .mk name required f :: rest, .mk name' required' f' :: rest', h => by
    obtain ⟨hfield, hrest⟩ := List.cons.inj h
    obtain ⟨hname, hvalue⟩ := Entry.mk.inj hfield
    obtain ⟨hrequired, hf⟩ := fieldExpression_inj hvalue
    rw [hname, hrequired, Form.expression_inj f f' hf, fieldEntries_inj rest rest' hrest]

end

/-- The codecs of two shapes are the same text exactly where their canonical
forms are the same. -/
theorem codec_eq_iff_canonical_eq (p q : Shape) (text text' : String)
    (hp : (TypeWriter.mk Target.codec false).shape p = .ok text)
    (hq : (TypeWriter.mk Target.codec false).shape q = .ok text') :
    text = text' ↔ canonical p = canonical q := by
  rw [TypeWriter.shape_eq, unlessFault_eq_ok_iff] at hp hq
  obtain ⟨-, rfl⟩ := hp
  obtain ⟨-, rfl⟩ := hq
  constructor
  · intro h
    have htexts : (canonical p).expression.text = (canonical q).expression.text := by
      rw [text_canonical, text_canonical]
      exact h
    exact Form.expression_inj _ _ (Expression.text_injective htexts)
  · intro h
    have htexts := text_canonical q
    rw [← h, text_canonical p] at htexts
    exact htexts

theorem codec_optional_and_nullable :
    let p : Shape := .mk (.object [.mk "],\"" false (.mk .integer false)]) false
    let q : Shape := .mk (.object [.mk "],\"" true (.mk .number true)]) false
    let text := "t.type(\x7b\"],\\\"\":t.union([t.number,t.undefined])\x7d)"
    let text' := "t.type(\x7b\"],\\\"\":t.union([t.number,t.null])\x7d)"
    (TypeWriter.mk Target.codec false).shape p = .ok text ∧
      (TypeWriter.mk Target.codec false).shape q = .ok text' ∧
      (text = text' ↔ canonical p = canonical q) := by
  intro p q text text'
  have hp : (TypeWriter.mk Target.codec false).shape p = .ok text := rfl
  have hq : (TypeWriter.mk Target.codec false).shape q = .ok text' := rfl
  exact ⟨hp, hq, codec_eq_iff_canonical_eq p q text text' hp hq⟩

end ApiTypes.Codec
