import ApiTypes.Proofs.TypeText
import ApiTypes.Proofs.Writing

/-!
# What the text of a shape reads as

`Dialect.alternatives` are the operands that stand between the outermost bars
of the text of a shape.  Only an enumeration leaves bars that nothing encloses;
in an intersection, such bars part the neighbours that `&` joins
(`Dialect.interleave`).
-/

namespace ApiTypes.Dialect

/-- The members of two unions whose texts are joined by `&`: the last member of
the one and the first of the other become one intersection. -/
def joinMembers : List (List TypeTree) → List (List TypeTree) → List (List TypeTree)
  | [], others => others
  | [parts], [] => [parts]
  | [parts], first :: others => (parts ++ first) :: others
  | parts :: more :: rest, others => parts :: joinMembers (more :: rest) others

def interleave : List (List TypeTree) → List (List TypeTree)
  | [] => []
  | [alternatives] => alternatives.map fun t => [t]
  | alternatives :: more :: rest =>
    joinMembers (alternatives.map fun t => [t]) (interleave (more :: rest))

/-- The operands between the outermost bars after `null` is admitted. -/
def admitNull : Dialect → List TypeTree → List TypeTree
  | typeScript, alternatives => [unionOf (alternatives ++ [.builtin "null"])]
  | flow, [] => []
  | flow, first :: others => flow.nullable first :: others

mutual

/-- The operands between the outermost bars of the text of a shape. -/
def alternatives (d : Dialect) : Shape → List TypeTree
  | .mk k nullable =>
    if nullable then d.admitNull (d.kindAlternatives k) else d.kindAlternatives k

def kindAlternatives (d : Dialect) : Kind → List TypeTree
  | .reference path => [.named (Name.referenceName path)]
  | .allOf [] => [.builtin d.top]
  | .allOf (s :: rest) => [groupTree (interleave (d.listAlternatives (s :: rest)))]
  | .anyOf [] => [.builtin d.bottom]
  | .anyOf (s :: rest) => [unionOf (d.listAlternatives (s :: rest)).flatten]
  | .oneOf [] => [.builtin d.bottom]
  | .oneOf (s :: rest) => [unionOf (d.listAlternatives (s :: rest)).flatten]
  | .array item => [.array (unionOf (d.alternatives item))]
  | .object fields => [.record (d.slots fields)]
  | .enum [] => [.builtin d.bottom]
  | .enum (value :: values) => (value :: values).map .literal
  | .number => [.builtin "number"]
  | .string => [.builtin "string"]
  | .boolean => [.builtin "boolean"]
  | .integer => [.builtin "number"]
  | .null => [.builtin "null"]
  | .unrecognized _ => [.builtin d.top]
  | .conflicting _ _ => [.builtin d.top]

def listAlternatives (d : Dialect) : List Shape → List (List TypeTree)
  | [] => []
  | s :: rest => d.alternatives s :: d.listAlternatives rest

def slots (d : Dialect) : List Field → List Slot
  | [] => []
  | .mk name required s :: rest => .mk name required (unionOf (d.alternatives s)) :: d.slots rest

end

def reading (d : Dialect) (s : Shape) : TypeTree := unionOf (d.alternatives s)

/-- Whether no reference among some nodes is written as a word of the notation. -/
def Avoids (d : Dialect) (nodes : List Kind) : Prop :=
  ∀ path, .reference path ∈ nodes → Name.referenceName path ∉ d.builtins

/-! ### Joined texts -/

variable {d : Dialect} {α : Type} {sep : Char} {R : List Char → α → Prop}

theorem separated_joinWith {separator : String} (hsep : separator.toList = [sep])
    {texts : List String} {as : List α} (h : List.Forall₂ (fun text a => R text.toList a) texts as)
    (hne : texts ≠ []) : Separated sep R (Text.joinWith separator texts).toList as := by
  induction h with
  | nil => exact absurd rfl hne
  | @cons text a texts as ha has ih =>
    cases has with
    | nil => exact .one ha
    | cons hb hbs =>
      have htail := ih (by simp)
      rw [Text.joinWith, String.toList_append, String.toList_append, hsep, List.append_assoc,
        List.singleton_append]
      exact .cons ha htail

theorem separated_flatten {separator : String} (hsep : separator.toList = [sep])
    {texts : List String} {ass : List (List α)}
    (h : List.Forall₂ (fun text as => Separated sep R text.toList as) texts ass)
    (hne : texts ≠ []) : Separated sep R (Text.joinWith separator texts).toList ass.flatten := by
  induction h with
  | nil => exact absurd rfl hne
  | @cons text as texts ass ha has ih =>
    cases has with
    | nil => simpa [Text.joinWith] using ha
    | cons hb hbs =>
      have htail := ih (by simp)
      rw [Text.joinWith, String.toList_append, String.toList_append, hsep, List.append_assoc,
        List.singleton_append, List.flatten_cons]
      exact ha.append htail

theorem members_singletons {text : List Char} {ts : List TypeTree}
    (h : Separated '|' (Operand d) text ts) : Members d text (ts.map fun t => [t]) :=
  h.map fun _ _ ho => .one ho

theorem groupTree_singletons (ts : List TypeTree) :
    groupTree (ts.map fun t => [t]) = unionOf ts := by
  simp [groupTree, intersectionOf, Function.comp_def]

theorem members_joinMembers {x y : List Char} {ms ns : List (List TypeTree)}
    (h : Members d x ms) (h' : Members d y ns) : Members d (x ++ '&' :: y) (joinMembers ms ns) := by
  induction h with
  | one hparts =>
    cases h' with
    | one hparts' => exact .one (hparts.append hparts')
    | cons hparts' hrest =>
      rw [← List.cons_append, ← List.append_assoc]
      exact .cons (hparts.append hparts') hrest
  | @cons text rest a as hparts hrest ih =>
    rw [List.append_assoc, List.cons_append]
    cases as with
    | nil => cases hrest
    | cons => exact .cons hparts ih

theorem members_interleave {texts : List String} {altss : List (List TypeTree)}
    (h : List.Forall₂ (fun text alts => Separated '|' (Operand d) text.toList alts) texts altss)
    (hne : texts ≠ []) : Members d (Text.joinWith "&" texts).toList (interleave altss) := by
  induction h with
  | nil => exact absurd rfl hne
  | @cons text alts texts altss ha has ih =>
    cases has with
    | nil => exact members_singletons ha
    | cons hb hbs =>
      have htail := ih (by simp)
      rw [Text.joinWith, String.toList_append, String.toList_append, List.append_assoc]
      exact members_joinMembers (members_singletons ha) htail

/-! ### Words and wrappers -/

theorem operand_builtin {word : String} (hmem : word ∈ d.builtins)
    (hword : Name.IsIdentifier word.toList) : Operand d word.toList (.builtin word) := by
  have h := operand_word (d := d) hword
  rwa [String.ofList_toList, wordTree, if_pos hmem] at h

theorem isIdentifier_of_mem_builtins {word : String} (h : word ∈ d.builtins) :
    Name.IsIdentifier word.toList := by
  have key : ∀ word ∈ typeScript.builtins ++ flow.builtins,
      word.toList ≠ [] ∧ word.toList.all Name.isIdentifierChar = true ∧
        word.toList.head?.all (fun c => !c.isDigit) = true := by decide
  have hmem : word ∈ typeScript.builtins ++ flow.builtins := by
    cases d with
    | typeScript => exact List.mem_append_left _ h
    | flow => exact List.mem_append_right _ h
  obtain ⟨hne, hchars, hstart⟩ := key word hmem
  refine ⟨hne, List.all_eq_true.mp hchars, ?_⟩
  intro c hc
  simpa using (Option.all_eq_true _ _).mp hstart c hc

theorem separated_builtin (word : String) (h : word ∈ d.builtins) :
    Separated '|' (Operand d) word.toList [.builtin word] :=
  .one (operand_builtin h (isIdentifier_of_mem_builtins h))

theorem separated_reference {path : String} (h : Name.referenceName path ∉ d.builtins) :
    Separated '|' (Operand d) (Name.referenceName path).toList
      [.named (Name.referenceName path)] := by
  have hread := operand_word (d := d) (Name.isIdentifier_referenceName path)
  rw [String.ofList_toList, wordTree, if_neg h] at hread
  exact .one hread

theorem separated_nullable {text : String} {alts : List TypeTree}
    (h : Separated '|' (Operand d) text.toList alts) :
    Separated '|' (Operand d) (d.target.nullable text).toList (d.admitNull alts) := by
  cases d with
  | typeScript =>
    have hnull := separated_builtin (d := typeScript) "null" (by decide)
    have hgroup := operand_group (members_singletons (h.append hnull))
    rw [groupTree_singletons] at hgroup
    have htext : (Dialect.typeScript.target.nullable text).toList =
        '(' :: (text.toList ++ '|' :: "null".toList ++ [')']) := by
      simp [target, Target.typeScript, Target.static]
    rw [htext]
    exact .one hgroup
  | flow =>
    have htext : (Dialect.flow.target.nullable text).toList = '?' :: text.toList := by
      simp [target, Target.flow, Target.static]
    rw [htext]
    -- the question mark belongs to the first operand alone
    generalize text.toList = cs at h
    cases h with
    | one ho => exact .one (operand_maybe ho)
    | cons ho hrest => exact .cons (operand_maybe ho) hrest

theorem target_array (type : String) :
    (d.target.array type).toList = "Array<".toList ++ (type.toList ++ ['>']) := by
  cases d <;> simp [target, Target.typeScript, Target.flow, Target.static]

theorem target_union {texts : List String} (h : texts ≠ []) :
    (d.target.union texts).toList = '(' :: ((Text.joinWith "|" texts).toList ++ [')']) := by
  cases texts with
  | nil => exact absurd rfl h
  | cons text texts =>
    cases d <;> simp [target, Target.typeScript, Target.flow, Target.static, Target.grouped]

theorem target_intersection {texts : List String} (h : texts ≠ []) :
    (d.target.intersection texts).toList = '(' :: ((Text.joinWith "&" texts).toList ++ [')']) := by
  cases texts with
  | nil => exact absurd rfl h
  | cons text texts =>
    cases d <;> simp [target, Target.typeScript, Target.flow, Target.static, Target.grouped]

theorem target_object (fields : List String) :
    (d.target.object fields).toList =
      '\x7b' :: ((Text.joinWith "," fields).toList ++ ['\x7d']) := by
  cases d <;> simp [target, Target.typeScript, Target.flow, Target.static, Target.record]

theorem separated_enum (values : List String) :
    Separated '|' (Operand d) (d.target.enum values).toList
      (d.kindAlternatives (.enum values)) := by
  cases values with
  | nil =>
    cases d with
    | typeScript => exact separated_builtin "never" (by decide)
    | flow => exact separated_builtin "empty" (by decide)
  | cons value values =>
    have htext : d.target.enum (value :: values) =
        Text.joinWith "|" ((value :: values).map Text.literal) := by
      cases d <;> rfl
    rw [htext]
    apply separated_joinWith rfl _ (by simp)
    rw [kindAlternatives, List.forall₂_map_left_iff, List.forall₂_map_right_iff,
      List.forall₂_same]
    exact fun value _ => operand_literal value

theorem separated_object {texts : List String} {slots : List Slot}
    (h : List.Forall₂ (fun text slot => FieldText d text.toList slot) texts slots) :
    Separated '|' (Operand d) (d.target.object texts).toList [.record slots] := by
  rw [target_object]
  cases h with
  | nil => exact .one operand_emptyRecord
  | cons hfield hrest =>
    exact .one (operand_record (separated_joinWith rfl (.cons hfield hrest) (by simp)))

theorem separated_union {texts : List String} {altss : List (List TypeTree)}
    (h : List.Forall₂ (fun text alts => Separated '|' (Operand d) text.toList alts) texts altss)
    (hne : texts ≠ []) :
    Separated '|' (Operand d) (d.target.union texts).toList [unionOf altss.flatten] := by
  have hjoin : Separated '|' (Operand d) (Text.joinWith "|" texts).toList altss.flatten :=
    separated_flatten rfl h hne
  have hgroup := operand_group (members_singletons hjoin)
  rw [groupTree_singletons] at hgroup
  rw [target_union hne]
  exact .one hgroup

theorem separated_intersection {texts : List String} {altss : List (List TypeTree)}
    (h : List.Forall₂ (fun text alts => Separated '|' (Operand d) text.toList alts) texts altss)
    (hne : texts ≠ []) :
    Separated '|' (Operand d) (d.target.intersection texts).toList
      [groupTree (interleave altss)] := by
  rw [target_intersection hne]
  exact .one (operand_group (members_interleave h hne))

/-! ### The text of a shape -/

theorem Avoids.append {a b : List Kind} (h : d.Avoids (a ++ b)) : d.Avoids a ∧ d.Avoids b :=
  ⟨fun path hp => h path (List.mem_append_left _ hp),
    fun path hp => h path (List.mem_append_right _ hp)⟩

theorem Avoids.tail {k : Kind} {nodes : List Kind} (h : d.Avoids (k :: nodes)) : d.Avoids nodes :=
  fun path hp => h path (List.mem_cons_of_mem _ hp)

mutual

theorem separated_written : ∀ s : Shape, d.Avoids s.nodes →
    Separated '|' (Operand d) (d.target.written s).toList (d.alternatives s)
  | .mk k nullable, h => by
    rw [Shape.nodes] at h
    have hk := separated_writtenKind k h
    cases nullable with
    | false => exact hk
    | true => exact separated_nullable hk

theorem separated_writtenKind : ∀ k : Kind, d.Avoids (k :: k.inner) →
    Separated '|' (Operand d) (d.target.writtenKind k).toList (d.kindAlternatives k)
  | .reference path, h => by
    have href := separated_reference (h path List.mem_cons_self)
    cases d <;> exact href
  | .allOf [], _ => by
    cases d with
    | typeScript => exact separated_builtin "unknown" (by decide)
    | flow => exact separated_builtin "mixed" (by decide)
  | .allOf (s :: rest), h =>
    separated_intersection (forall₂_writtenList (s :: rest) h.tail) (by simp [Target.writtenList])
  | .anyOf [], _ => by
    cases d with
    | typeScript => exact separated_builtin "never" (by decide)
    | flow => exact separated_builtin "empty" (by decide)
  | .anyOf (s :: rest), h =>
    separated_union (forall₂_writtenList (s :: rest) h.tail) (by simp [Target.writtenList])
  | .oneOf [], _ => by
    cases d with
    | typeScript => exact separated_builtin "never" (by decide)
    | flow => exact separated_builtin "empty" (by decide)
  | .oneOf (s :: rest), h =>
    separated_union (forall₂_writtenList (s :: rest) h.tail) (by simp [Target.writtenList])
  | .array item, h => by
    have hitem := operand_array (members_singletons (separated_written item h.tail))
    rw [groupTree_singletons] at hitem
    rw [Target.writtenKind, target_array]
    exact .one hitem
  | .object fields, h => separated_object (forall₂_writtenFields fields h.tail)
  | .enum values, _ => separated_enum values
  | .number, _ => by
    cases d <;> exact separated_builtin "number" (by decide)
  | .string, _ => by
    cases d <;> exact separated_builtin "string" (by decide)
  | .boolean, _ => by
    cases d <;> exact separated_builtin "boolean" (by decide)
  | .integer, _ => by
    cases d <;> exact separated_builtin "number" (by decide)
  | .null, _ => by
    cases d <;> exact separated_builtin "null" (by decide)
  | .unrecognized _, _ => by
    cases d with
    | typeScript => exact separated_builtin "unknown" (by decide)
    | flow => exact separated_builtin "mixed" (by decide)
  | .conflicting _ _, _ => by
    cases d with
    | typeScript => exact separated_builtin "unknown" (by decide)
    | flow => exact separated_builtin "mixed" (by decide)

theorem forall₂_writtenList : ∀ members : List Shape, d.Avoids (Shape.listNodes members) →
    List.Forall₂ (fun text alts => Separated '|' (Operand d) text.toList alts)
      (d.target.writtenList members) (d.listAlternatives members)
  | [], _ => .nil
  | s :: rest, h => by
    rw [Shape.listNodes] at h
    exact .cons (separated_written s h.append.1) (forall₂_writtenList rest h.append.2)

theorem forall₂_writtenFields : ∀ fields : List Field, d.Avoids (Field.listNodes fields) →
    List.Forall₂ (fun text slot => FieldText d text.toList slot)
      (d.target.writtenFields fields) (d.slots fields)
  | [], _ => .nil
  | .mk name required s :: rest, h => by
    rw [Field.listNodes] at h
    have htype := members_singletons (separated_written s h.append.1)
    have hfield := FieldText.mk name required _ _ htype
    rw [groupTree_singletons, ← toList_recordField] at hfield
    have hrest := forall₂_writtenFields rest h.append.2
    cases d <;> exact .cons hfield hrest

end

theorem read_written (s : Shape) (h : d.Avoids s.nodes) :
    d.read (d.target.written s) = some (d.reading s) := by
  have hread := readUnion_members (members_singletons (separated_written s h))
    (3 * (d.target.written s).length + 3) [] (by rw [String.length_toList]; omega) Name.follows_nil
  rw [List.append_nil] at hread
  simp only [read, hread]
  exact congrArg some (groupTree_singletons _)

end ApiTypes.Dialect
