import ApiTypes.Schema.Basic
import Mathlib.Data.List.Lex

/-!
# The nodes of a schema

A node of a schema is found at an address: the branches that lead to it from the
root, each a keyword and a position among the schemas under that keyword.  The
order of addresses is the order in which the nodes are written: a node before its
children, and these by keyword and position.
-/

namespace ApiTypes.Schema

/-- A way from a node to a child: the keyword the child stands under, and its
position there. -/
structure Branch where
  keyword : Keyword
  position : Nat
deriving DecidableEq, Repr

abbrev Address := List Branch

/-- The schemas under a keyword, in order. -/
def children (s : Schema) : Keyword → List Schema
  | .allOf => s.allOf.getD []
  | .anyOf => s.anyOf.getD []
  | .oneOf => s.oneOf.getD []
  | .items => s.items.toList
  | .properties => (s.properties.getD []).map Prod.snd
  | .reference | .type | .required | .enum | .nullable => []

def child? (s : Schema) (b : Branch) : Option Schema := (s.children b.keyword)[b.position]?

/-- The node at an address, if there is one. -/
def at? (s : Schema) : Address → Option Schema
  | [] => some s
  | b :: rest => (s.child? b).bind fun c => c.at? rest

def IsNode (s : Schema) (a : Address) : Prop := ∃ n, s.at? a = some n

def Branch.Before (b c : Branch) : Prop :=
  Keyword.all.idxOf b.keyword < Keyword.all.idxOf c.keyword ∨
    b.keyword = c.keyword ∧ b.position < c.position

/-- The order in which nodes are written. -/
abbrev Address.Before : Address → Address → Prop := List.Lex Branch.Before

theorem at?_append (s : Schema) (a b : Address) :
    s.at? (a ++ b) = (s.at? a).bind fun n => n.at? b := by
  induction a generalizing s with
  | nil => rfl
  | cons x rest ih =>
    rw [List.cons_append, at?, at?]
    cases s.child? x with
    | none => rfl
    | some c => exact ih c

theorem at?_branch (s : Schema) (b : Branch) : s.at? [b] = s.child? b := by
  rw [at?]
  cases s.child? b <;> rfl

theorem at?_cons_eq_some_iff {s n : Schema} {b : Branch} {rest : Address} :
    s.at? (b :: rest) = some n ↔ ∃ c, s.child? b = some c ∧ c.at? rest = some n :=
  Option.bind_eq_some_iff

theorem child?_eq_some_iff {s c : Schema} {b : Branch} :
    s.child? b = some c ↔ ∃ h : b.position < (s.children b.keyword).length,
      (s.children b.keyword)[b.position] = c :=
  List.getElem?_eq_some_iff

theorem mem_children_of_child? {s c : Schema} {b : Branch} (h : s.child? b = some c) :
    c ∈ s.children b.keyword :=
  List.mem_of_getElem? h

/-! ### Induction over nodes -/

theorem sizeOf_lt_of_mem_children {s c : Schema} {k : Keyword} (h : c ∈ s.children k) :
    sizeOf c < sizeOf s := by
  have hlist : ∀ o : Option (List Schema), c ∈ o.getD [] → sizeOf c < sizeOf o := by
    rintro (_ | members) hc
    · cases hc
    · have hmem : c ∈ members := hc
      have hlt := List.sizeOf_lt_of_mem hmem
      simp only [Option.some.sizeOf_spec]
      omega
  obtain ⟨r, allOf, anyOf, oneOf, t, items, properties, q, e, n, x⟩ := s
  simp only [mk.sizeOf_spec]
  cases k with
  | allOf =>
    have hlt := hlist allOf h
    omega
  | anyOf =>
    have hlt := hlist anyOf h
    omega
  | oneOf =>
    have hlt := hlist oneOf h
    omega
  | items =>
    cases items with
    | none => cases h
    | some item =>
      obtain rfl : c = item := by simpa [children] using h
      simp only [Option.some.sizeOf_spec]
      omega
  | properties =>
    cases properties with
    | none => cases h
    | some properties =>
      obtain ⟨⟨name, value⟩, hmem, rfl⟩ := List.mem_map.mp h
      have hlt := List.sizeOf_lt_of_mem hmem
      simp only [Prod.mk.sizeOf_spec] at hlt
      simp only [Option.some.sizeOf_spec, Option.getD_some] at hlt ⊢
      omega
  | reference | type | required | enum | nullable => cases h

/-- What holds of a schema whenever it holds of its children holds of every schema. -/
theorem induction_children {P : Schema → Prop}
    (step : ∀ s, (∀ k, ∀ c ∈ s.children k, P c) → P s) (s : Schema) : P s :=
  step s fun _ c h =>
    have := sizeOf_lt_of_mem_children h
    induction_children step c
termination_by sizeOf s

end ApiTypes.Schema
