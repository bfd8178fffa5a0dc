import Mathlib.Algebra.BigOperators.Group.List.Basic
import Mathlib.Algebra.GroupWithZero.Nat
import Mathlib.Data.List.Perm.Basic

/-!
# Type trees

What a static type expression means, with all grouping explicit.  Two trees
mean the same when they differ by the nesting and the order of unions and by
unions and intersections of a single part (`TypeTree.Same`).  Two weights tell
trees apart that do not mean the same: the number of bars, and the number of
intersections around the bars.
-/

namespace ApiTypes

mutual

inductive TypeTree where
  /-- A type the notation has a word for. -/
  | builtin (word : String)
  | named (identifier : String)
  | literal (value : String)
  | array (item : TypeTree)
  | record (slots : List Slot)
  | union (members : List TypeTree)
  | intersection (parts : List TypeTree)

inductive Slot where
  | mk (name : String) (required : Bool) (type : TypeTree)

end

namespace TypeTree

/-- Sameness up to the nesting and order of unions and up to single parts. -/
inductive Same : TypeTree → TypeTree → Prop where
  | refl (t : TypeTree) : Same t t
  | symm {s t : TypeTree} : Same s t → Same t s
  | trans {s t u : TypeTree} : Same s t → Same t u → Same s u
  | array {s t : TypeTree} : Same s t → Same (.array s) (.array t)
  | slot {s t : TypeTree} (before after : List Slot) (name : String) (required : Bool) :
    Same s t → Same (.record (before ++ .mk name required s :: after))
      (.record (before ++ .mk name required t :: after))
  | member {s t : TypeTree} (before after : List TypeTree) :
    Same s t → Same (.union (before ++ s :: after)) (.union (before ++ t :: after))
  | part {s t : TypeTree} (before after : List TypeTree) :
    Same s t → Same (.intersection (before ++ s :: after)) (.intersection (before ++ t :: after))
  | reorder {members others : List TypeTree} :
    members.Perm others → Same (.union members) (.union others)
  | flatten (before : List TypeTree) (first : TypeTree) (others after : List TypeTree) :
    Same (.union (before ++ .union (first :: others) :: after))
      (.union (before ++ (first :: others ++ after)))
  | soleMember (t : TypeTree) : Same (.union [t]) t
  | solePart (t : TypeTree) : Same (.intersection [t]) t

/-! ### Weights -/

mutual

def bars : TypeTree → Nat
  | .builtin _ => 0
  | .named _ => 0
  | .literal _ => 0
  | .array item => bars item
  | .record slots => slotBars slots
  | .union members => listBars members + (members.length - 1)
  | .intersection parts => listBars parts

def listBars : List TypeTree → Nat
  | [] => 0
  | t :: rest => bars t + listBars rest

def slotBars : List Slot → Nat
  | [] => 0
  | .mk _ _ t :: rest => bars t + slotBars rest

end

mutual

/-- The number of pairs of a bar and an intersection of several parts around it. -/
def load : TypeTree → Nat
  | .builtin _ => 0
  | .named _ => 0
  | .literal _ => 0
  | .array item => load item
  | .record slots => slotLoad slots
  | .union members => listLoad members
  | .intersection parts =>
    listLoad parts + if 2 ≤ parts.length then (parts.map bars).sum else 0

def listLoad : List TypeTree → Nat
  | [] => 0
  | t :: rest => load t + listLoad rest

def slotLoad : List Slot → Nat
  | [] => 0
  | .mk _ _ t :: rest => load t + slotLoad rest

end

@[simp] theorem listBars_eq (ts : List TypeTree) : listBars ts = (ts.map bars).sum := by
  induction ts with
  | nil => rfl
  | cons t ts ih => simp [listBars, ih]

@[simp] theorem listLoad_eq (ts : List TypeTree) : listLoad ts = (ts.map load).sum := by
  induction ts with
  | nil => rfl
  | cons t ts ih => simp [listLoad, ih]

@[simp] theorem slotBars_append (a b : List Slot) :
    slotBars (a ++ b) = slotBars a + slotBars b := by
  induction a with
  | nil => simp [slotBars]
  | cons s a ih =>
    cases s with
    | mk name required t => simp [slotBars, ih, Nat.add_assoc]

@[simp] theorem slotLoad_append (a b : List Slot) :
    slotLoad (a ++ b) = slotLoad a + slotLoad b := by
  induction a with
  | nil => simp [slotLoad]
  | cons s a ih =>
    cases s with
    | mk name required t => simp [slotLoad, ih, Nat.add_assoc]

namespace Same

theorem bars_eq {s t : TypeTree} (h : Same s t) : s.bars = t.bars := by
  induction h with
  | refl t => rfl
  | symm _ ih => exact ih.symm
  | trans _ _ ih₁ ih₂ => exact ih₁.trans ih₂
  | array _ ih => simpa only [bars] using ih
  | slot before after name required _ ih => simp [bars, slotBars, ih]
  | member before after _ ih => simp [bars, ih]
  | part before after _ ih => simp [bars, ih]
  | reorder h =>
    have hsum := (h.map bars).sum_eq
    simp [bars, hsum, h.length_eq]
  | flatten before first others after =>
    simp only [bars, listBars_eq, List.map_append, List.map_cons, List.sum_append, List.sum_cons,
      List.length_append, List.length_cons]
    omega
  | soleMember t => simp [bars]
  | solePart t => simp [bars]

theorem load_eq {s t : TypeTree} (h : Same s t) : s.load = t.load := by
  induction h with
  | refl t => rfl
  | symm _ ih => exact ih.symm
  | trans _ _ ih₁ ih₂ => exact ih₁.trans ih₂
  | array _ ih => simpa only [load] using ih
  | slot before after name required _ ih => simp [load, slotLoad, ih]
  | member before after _ ih => simp [load, ih]
  | part before after h ih => simp [load, ih, h.bars_eq]
  | reorder h => simp [load, (h.map load).sum_eq]
  | flatten before first others after => simp [load, Nat.add_assoc]
  | soleMember t => simp [load]
  | solePart t => simp [load]

end Same

end TypeTree

end ApiTypes
