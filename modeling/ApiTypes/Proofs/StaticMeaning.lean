import ApiTypes.Proofs.StaticReading
import ApiTypes.Proofs.TypeComparison
import Mathlib.Algebra.Order.BigOperators.Group.List
import Mathlib.Algebra.Order.Group.Nat

/-!
# What the text of a shape means

`Dialect.meaning` is the type that a shape describes.  The text of a shape is
read as a tree that means the same, unless bars that nothing encloses are
joined by `&`: `Dialect.Encloses` is the condition on the nodes of a shape.
Where it fails, the tree that is read has fewer bars inside intersections than
the meaning has, so the two differ.
-/

namespace ApiTypes.Dialect
open TypeTree (Same Compared ComparedList ComparedSlots)

/-! ### Meanings -/

/-- The union of trees; the type of no values where there are none. -/
def unionTree (d : Dialect) : List TypeTree → TypeTree
  | [] => .builtin d.bottom
  | members => .union members

def intersectionTree (d : Dialect) : List TypeTree → TypeTree
  | [] => .builtin d.top
  | parts => .intersection parts

mutual

/-- The type that a shape describes. -/
def meaning (d : Dialect) : Shape → TypeTree
  | .mk k nullable => if nullable then d.nullable (d.kindMeaning k) else d.kindMeaning k

def kindMeaning (d : Dialect) : Kind → TypeTree
  | .reference path => .named (Name.referenceName path)
  | .allOf members => d.intersectionTree (d.listMeanings members)
  | .anyOf members => d.unionTree (d.listMeanings members)
  | .oneOf members => d.unionTree (d.listMeanings members)
  | .array item => .array (d.meaning item)
  | .object fields => .record (d.fieldMeanings fields)
  | .enum values => d.unionTree (values.map .literal)
  | .number => .builtin "number"
  | .string => .builtin "string"
  | .boolean => .builtin "boolean"
  | .integer => .builtin "number"
  | .null => .builtin "null"
  | .unrecognized _ => .builtin d.top
  | .conflicting _ _ => .builtin d.top

def listMeanings (d : Dialect) : List Shape → List TypeTree
  | [] => []
  | s :: rest => d.meaning s :: d.listMeanings rest

def fieldMeanings (d : Dialect) : List Field → List Slot
  | [] => []
  | .mk name required s :: rest => .mk name required (d.meaning s) :: d.fieldMeanings rest

end

/-! ### Enclosed bars -/

/-- Whether the text of a shape has bars that nothing encloses: it is an
enumeration of several values, and no parentheses are put around it. -/
def leavesBars (d : Dialect) : Shape → Bool
  | .mk (.enum (_ :: _ :: _)) nullable => d == flow || !nullable
  | _ => false

/-- Whether no bars are left open beside `&`. -/
def Encloses (d : Dialect) : Kind → Prop
  | .allOf members => members.length ≤ 1 ∨ ∀ s ∈ members, d.leavesBars s = false
  | _ => True

def EnclosesAll (d : Dialect) (nodes : List Kind) : Prop := ∀ k ∈ nodes, d.Encloses k

theorem enclosesAll_append {d : Dialect} (a b : List Kind) :
    d.EnclosesAll (a ++ b) ↔ d.EnclosesAll a ∧ d.EnclosesAll b := by
  simp only [EnclosesAll, List.mem_append, or_imp, forall_and]

theorem enclosesAll_cons {d : Dialect} (k : Kind) (nodes : List Kind) :
    d.EnclosesAll (k :: nodes) ↔ d.Encloses k ∧ d.EnclosesAll nodes := by
  simp only [EnclosesAll, List.mem_cons, forall_eq_or_imp]

variable {d : Dialect}

/-! ### Alternatives -/

theorem admitNull_ne_nil {ts : List TypeTree} (h : ts ≠ []) : d.admitNull ts ≠ [] := by
  cases ts with
  | nil => exact absurd rfl h
  | cons t ts => cases d <;> simp [admitNull]

theorem kindAlternatives_ne_nil (k : Kind) : d.kindAlternatives k ≠ [] := by
  cases k with
  | allOf members => cases members <;> simp [kindAlternatives]
  | anyOf members => cases members <;> simp [kindAlternatives]
  | oneOf members => cases members <;> simp [kindAlternatives]
  | enum values => cases values <;> simp [kindAlternatives]
  | _ => simp [kindAlternatives]

theorem alternatives_ne_nil (s : Shape) : d.alternatives s ≠ [] := by
  obtain ⟨k, nullable⟩ := s
  cases nullable with
  | false => exact kindAlternatives_ne_nil k
  | true => exact admitNull_ne_nil (kindAlternatives_ne_nil k)

theorem length_kindAlternatives {k : Kind} (h : ∀ a b values, k ≠ .enum (a :: b :: values)) :
    (d.kindAlternatives k).length = 1 := by
  cases k with
  | allOf members => cases members <;> rfl
  | anyOf members => cases members <;> rfl
  | oneOf members => cases members <;> rfl
  | enum values =>
    match values, h with
    | [], _ => rfl
    | [_], _ => rfl
    | a :: b :: values, h => exact absurd rfl (h a b values)
  | _ => rfl

theorem length_alternatives (s : Shape) :
    d.leavesBars s = false ↔ (d.alternatives s).length = 1 := by
  obtain ⟨k, nullable⟩ := s
  by_cases hk : ∃ a b values, k = .enum (a :: b :: values)
  · obtain ⟨a, b, values, rfl⟩ := hk
    cases d <;> cases nullable <;>
      simp [leavesBars, alternatives, kindAlternatives, admitNull]
  · push Not at hk
    have hopen : d.leavesBars (.mk k nullable) = false := by
      unfold leavesBars
      split
      · rename_i a b values _ he
        exact absurd (Shape.mk.inj he).1 (hk a b values)
      · rfl
    have hone := length_kindAlternatives (d := d) hk
    obtain ⟨t, ht⟩ := List.length_eq_one_iff.mp hone
    simp only [hopen, true_iff]
    cases d <;> cases nullable <;> simp [alternatives, ht, admitNull]

/-! ### Nullable types -/

theorem same_unionOf (ts : List TypeTree) : Same (unionOf ts) (.union ts) := by
  unfold unionOf
  split
  · exact (Same.soleMember _).symm
  · exact .refl _

theorem same_intersectionOf (ts : List TypeTree) : Same (intersectionOf ts) (.intersection ts) := by
  unfold intersectionOf
  split
  · exact (Same.solePart _).symm
  · exact .refl _

theorem same_union_append (before : List TypeTree) {ts : List TypeTree} (h : ts ≠ [])
    (after : List TypeTree) :
    Same (.union (before ++ unionOf ts :: after)) (.union (before ++ (ts ++ after))) := by
  cases ts with
  | nil => exact absurd rfl h
  | cons t ts =>
    exact (Same.member before after (same_unionOf (t :: ts))).trans (.flatten before t ts after)

theorem same_admitNull {ts : List TypeTree} (h : ts ≠ []) :
    Same (unionOf (d.admitNull ts)) (d.nullable (unionOf ts)) := by
  have hflat := same_union_append [] h d.absence
  cases d with
  | typeScript => exact (same_unionOf (ts ++ typeScript.absence)).trans hflat.symm
  | flow =>
    cases ts with
    | nil => exact absurd rfl h
    | cons t ts =>
      -- `?t|ts` has the words for absence in the middle of its members
      have hread : Same (unionOf (flow.admitNull (t :: ts)))
          (.union (t :: (flow.absence ++ ts))) :=
        (same_unionOf _).trans (.flatten [] t flow.absence ts)
      have hperm : (t :: (flow.absence ++ ts)).Perm (t :: (ts ++ flow.absence)) :=
        List.perm_append_comm.cons t
      exact (hread.trans (.reorder hperm)).trans hflat.symm

/-! ### Unions -/

theorem same_union_flatten (before : List TypeTree) {altss : List (List TypeTree)}
    (h : ∀ ts ∈ altss, ts ≠ []) :
    Same (.union (before ++ altss.map unionOf)) (.union (before ++ altss.flatten)) := by
  induction altss generalizing before with
  | nil => exact .refl _
  | cons ts altss ih =>
    have hts := same_union_append before (h ts List.mem_cons_self) (altss.map unionOf)
    have hrest := ih (before ++ ts) fun us hus => h us (List.mem_cons_of_mem _ hus)
    rw [List.append_assoc, List.append_assoc] at hrest
    exact hts.trans hrest

theorem listAlternatives_ne_nil (members : List Shape) :
    ∀ ts ∈ d.listAlternatives members, ts ≠ [] := by
  induction members with
  | nil => simp [listAlternatives]
  | cons s rest ih =>
    intro ts hts
    rcases List.mem_cons.mp hts with rfl | hts
    · exact alternatives_ne_nil s
    · exact ih ts hts

/-! ### Intersections -/

/-- The number of bars that are left open beside `&`. -/
def openBars (altss : List (List TypeTree)) : Nat := (altss.map fun ts => ts.length - 1).sum

theorem flatten_joinMembers (ms ns : List (List TypeTree)) :
    (joinMembers ms ns).flatten = ms.flatten ++ ns.flatten := by
  fun_induction joinMembers ms ns with
  | case1 => simp
  | case2 => simp
  | case3 => simp
  | case4 parts more rest ns ih => simp [ih]

theorem length_joinMembers (ms ns : List (List TypeTree)) (hm : ms ≠ []) (hn : ns ≠ []) :
    (joinMembers ms ns).length + 1 = ms.length + ns.length := by
  fun_induction joinMembers ms ns with
  | case1 => exact absurd rfl hm
  | case2 => exact absurd rfl hn
  | case3 => simp [Nat.add_comm]
  | case4 parts more rest ns ih =>
    have htail := ih (by simp) hn
    simp only [List.length_cons] at htail ⊢
    omega

theorem flatten_interleave (altss : List (List TypeTree)) :
    (interleave altss).flatten = altss.flatten := by
  fun_induction interleave altss with
  | case1 => rfl
  | case2 ts => simp [← List.flatMap_def, List.flatMap_singleton']
  | case3 ts more rest ih =>
    simp [flatten_joinMembers, ← List.flatMap_def, List.flatMap_singleton', ih]

theorem length_interleave {altss : List (List TypeTree)} (hne : altss ≠ [])
    (h : ∀ ts ∈ altss, ts ≠ []) : (interleave altss).length = openBars altss + 1 := by
  fun_induction interleave altss with
  | case1 => exact absurd rfl hne
  | case2 ts =>
    have hpos := List.length_pos_iff.mpr (h ts List.mem_cons_self)
    simp [openBars]
    omega
  | case3 ts more rest ih =>
    have hts := h ts List.mem_cons_self
    have hrest := ih (by simp) fun us hus => h us (List.mem_cons_of_mem _ hus)
    have hpos := List.length_pos_iff.mpr hts
    have hjoin := length_joinMembers (ts.map fun t => [t]) (interleave (more :: rest))
      (by simpa using hts) (List.length_pos_iff.mp (by omega))
    simp only [List.length_map] at hjoin
    simp only [openBars, List.map_cons, List.sum_cons] at hrest ⊢
    omega

theorem bars_unionOf (ts : List TypeTree) :
    (unionOf ts).bars = (ts.map TypeTree.bars).sum + (ts.length - 1) := by
  rw [(same_unionOf ts).bars_eq, TypeTree.bars, TypeTree.listBars_eq]

theorem load_unionOf (ts : List TypeTree) : (unionOf ts).load = (ts.map TypeTree.load).sum := by
  rw [(same_unionOf ts).load_eq, TypeTree.load, TypeTree.listLoad_eq]

theorem bars_groupTree (members : List (List TypeTree)) :
    (groupTree members).bars = (members.flatten.map TypeTree.bars).sum + (members.length - 1) := by
  have hpart : ∀ parts : List TypeTree,
      (intersectionOf parts).bars = (parts.map TypeTree.bars).sum := by
    intro parts
    rw [(same_intersectionOf parts).bars_eq, TypeTree.bars, TypeTree.listBars_eq]
  rw [groupTree, bars_unionOf, List.length_map, List.map_map, List.map_flatten, List.sum_flatten,
    List.map_map]
  simp only [Function.comp_def, hpart]

/-- In a union of intersections every bar of a part counts once at most. -/
theorem load_groupTree_le (members : List (List TypeTree)) :
    (groupTree members).load ≤
      (members.flatten.map TypeTree.load).sum + (members.flatten.map TypeTree.bars).sum := by
  have hpart : ∀ parts : List TypeTree, (intersectionOf parts).load ≤
      (parts.map TypeTree.load).sum + (parts.map TypeTree.bars).sum := by
    intro parts
    rw [(same_intersectionOf parts).load_eq, TypeTree.load, TypeTree.listLoad_eq]
    split
    · exact Nat.le_refl _
    · exact Nat.le_add_right _ _
  rw [groupTree, load_unionOf]
  induction members with
  | nil => simp
  | cons parts members ih =>
    have hparts := hpart parts
    simp only [List.map_cons, List.sum_cons, List.flatten_cons, List.map_append,
      List.sum_append] at ih ⊢
    omega

theorem sum_bars_unionOf {altss : List (List TypeTree)} :
    ((altss.map unionOf).map TypeTree.bars).sum =
      (altss.flatten.map TypeTree.bars).sum + openBars altss := by
  induction altss with
  | nil => rfl
  | cons ts altss ih =>
    simp only [openBars, List.map_cons, List.sum_cons, List.flatten_cons, List.map_append,
      List.sum_append, bars_unionOf] at ih ⊢
    omega

theorem sum_load_unionOf {altss : List (List TypeTree)} :
    ((altss.map unionOf).map TypeTree.load).sum = (altss.flatten.map TypeTree.load).sum := by
  induction altss with
  | nil => rfl
  | cons ts altss ih =>
    simp only [List.map_cons, List.sum_cons, List.flatten_cons, List.map_append, List.sum_append,
      load_unionOf, ih]

/-- The text of an intersection of several members has, inside intersections,
the open bars of its members fewer than what is meant. -/
theorem load_interleave_le {altss : List (List TypeTree)} {ms : List TypeTree} {ok : Prop}
    (h : ComparedList (altss.map unionOf) ms ok) (htwo : 2 ≤ ms.length) :
    (groupTree (interleave altss)).load + openBars altss +
      (ms.map TypeTree.load).sum ≤
      (TypeTree.intersection ms).load + ((altss.map unionOf).map TypeTree.load).sum := by
  have hload := load_groupTree_le (interleave altss)
  have hbars := h.bars_eq
  rw [sum_bars_unionOf] at hbars
  rw [flatten_interleave] at hload
  rw [TypeTree.load, TypeTree.listLoad_eq, if_pos htwo, sum_load_unionOf]
  omega

theorem interleave_singles {altss : List (List TypeTree)} (hne : altss ≠ [])
    (h : ∀ ts ∈ altss, ts.length = 1) : interleave altss = [altss.flatten] := by
  fun_induction interleave altss with
  | case1 => exact absurd rfl hne
  | case2 ts =>
    obtain ⟨t, rfl⟩ := List.length_eq_one_iff.mp (h ts List.mem_cons_self)
    rfl
  | case3 ts more rest ih =>
    obtain ⟨t, rfl⟩ := List.length_eq_one_iff.mp (h ts List.mem_cons_self)
    rw [ih (by simp) fun us hus => h us (List.mem_cons_of_mem _ hus)]
    rfl

theorem flatten_singles {altss : List (List TypeTree)} (h : ∀ ts ∈ altss, ts.length = 1) :
    altss.flatten = altss.map unionOf := by
  induction altss with
  | nil => rfl
  | cons ts altss ih =>
    obtain ⟨t, rfl⟩ := List.length_eq_one_iff.mp (h ts List.mem_cons_self)
    rw [List.flatten_cons, List.map_cons, ih fun us hus => h us (List.mem_cons_of_mem _ hus)]
    rfl

theorem openBars_pos {altss : List (List TypeTree)} (hne : ∀ ts ∈ altss, ts ≠ [])
    (h : ¬ ∀ ts ∈ altss, ts.length = 1) : 0 < openBars altss := by
  push Not at h
  obtain ⟨ts, hts, hlen⟩ := h
  have hpos := List.length_pos_iff.mpr (hne ts hts)
  have hle : ts.length - 1 ≤ openBars altss :=
    List.le_sum_of_mem (List.mem_map.mpr ⟨ts, hts, rfl⟩)
  omega

theorem compared_interleave {altss : List (List TypeTree)} {ms : List TypeTree} {ok : Prop}
    (hne : ∀ ts ∈ altss, ts ≠ []) (h : ComparedList (altss.map unionOf) ms ok)
    (htwo : 2 ≤ ms.length) :
    Compared (groupTree (interleave altss)) (.intersection ms)
      ((∀ ts ∈ altss, ts.length = 1) ∧ ok) := by
  have hlen : altss.length = ms.length := by simpa using h.length_eq
  have hsome : altss ≠ [] := by
    rintro rfl
    simp at hlen
    omega
  have hload := load_interleave_le h htwo
  have hle := h.load_le
  refine ⟨?_, by omega, ?_, ?_⟩
  · have hbars := h.bars_eq
    rw [sum_bars_unionOf] at hbars
    rw [bars_groupTree, flatten_interleave, length_interleave hsome hne, TypeTree.bars,
      TypeTree.listBars_eq]
    omega
  · rintro ⟨hone, hok⟩
    rw [interleave_singles hsome hone, flatten_singles hone]
    exact (same_intersectionOf _).trans (Same.intersection_of_forall₂ [] (h.same hok))
  · intro hn
    by_cases hone : ∀ ts ∈ altss, ts.length = 1
    · have hlt := h.apart fun hok => hn ⟨hone, hok⟩
      omega
    · have hpos := openBars_pos hne hone
      omega

/-! ### Readings and meanings -/

theorem listAlternatives_map_unionOf (members : List Shape) :
    (d.listAlternatives members).map unionOf = members.map d.reading := by
  induction members with
  | nil => rfl
  | cons s rest ih =>
    rw [listAlternatives, List.map_cons, ih]
    rfl

theorem forall_length_listAlternatives (members : List Shape) :
    (∀ ts ∈ d.listAlternatives members, ts.length = 1) ↔
      ∀ s ∈ members, d.leavesBars s = false := by
  induction members with
  | nil => simp [listAlternatives]
  | cons s rest ih =>
    simp only [listAlternatives, List.forall_mem_cons, ih, length_alternatives]

theorem compared_union {members : List Shape} {ok : Prop} (hne : members ≠ [])
    (h : ComparedList (members.map d.reading) (d.listMeanings members) ok) :
    Compared (unionOf (d.listAlternatives members).flatten)
      (d.unionTree (d.listMeanings members)) ok := by
  cases members with
  | nil => exact absurd rfl hne
  | cons s rest =>
    have hflat := same_union_flatten [] (listAlternatives_ne_nil (d := d) (s :: rest))
    rw [listAlternatives_map_unionOf] at hflat
    exact h.union.of_same_left ((same_unionOf _).trans hflat.symm)

theorem compared_intersection {members : List Shape} {ok : Prop} (hne : members ≠ [])
    (h : ComparedList (members.map d.reading) (d.listMeanings members) ok) :
    Compared (groupTree (interleave (d.listAlternatives members)))
      (d.intersectionTree (d.listMeanings members)) (d.Encloses (.allOf members) ∧ ok) := by
  match members, hne with
  | [s], _ =>
    -- a single member is only put in parentheses
    have hread : groupTree (interleave (d.listAlternatives [s])) = d.reading s :=
      groupTree_singletons _
    have hmember : Compared (d.reading s) (d.meaning s) ok := by
      have hunion := h.union
      exact (hunion.of_same_left (Same.soleMember _).symm).of_same_right (.soleMember _)
    rw [hread]
    exact (hmember.of_same_right (Same.solePart _).symm).congr_ok (by simp [Encloses])
  | s :: t :: rest, _ =>
    have htwo : 2 ≤ (d.listMeanings (s :: t :: rest)).length := by simp [listMeanings]
    rw [← listAlternatives_map_unionOf] at h
    refine (compared_interleave (listAlternatives_ne_nil _) h htwo).congr_ok ?_
    rw [forall_length_listAlternatives]
    simp [Encloses]

mutual

theorem compared_shape : ∀ s : Shape,
    Compared (d.reading s) (d.meaning s) (d.EnclosesAll s.nodes)
  | .mk k false => compared_kind k
  | .mk k true => by
    have hread : Same (d.reading (.mk k true)) (d.nullable (unionOf (d.kindAlternatives k))) :=
      same_admitNull (kindAlternatives_ne_nil k)
    exact ((compared_kind k).member d.absence).of_same_left hread

theorem compared_kind : ∀ k : Kind,
    Compared (unionOf (d.kindAlternatives k)) (d.kindMeaning k) (d.EnclosesAll (k :: k.inner))
  | .allOf [] => .of_same (.refl _) (by simp [EnclosesAll, Encloses, Kind.inner, Shape.listNodes])
  | .allOf (s :: rest) =>
    (compared_intersection (by simp) (compared_list (s :: rest))).congr_ok
      (enclosesAll_cons _ _).symm
  | .anyOf [] => .of_same (.refl _) (by simp [EnclosesAll, Encloses, Kind.inner, Shape.listNodes])
  | .anyOf (s :: rest) =>
    (compared_union (by simp) (compared_list (s :: rest))).congr_ok
      (by simp [enclosesAll_cons, Encloses, Kind.inner])
  | .oneOf [] => .of_same (.refl _) (by simp [EnclosesAll, Encloses, Kind.inner, Shape.listNodes])
  | .oneOf (s :: rest) =>
    (compared_union (by simp) (compared_list (s :: rest))).congr_ok
      (by simp [enclosesAll_cons, Encloses, Kind.inner])
  | .array item =>
    (compared_shape item).array.congr_ok (by simp [enclosesAll_cons, Encloses, Kind.inner])
  | .object fields =>
    (compared_fields fields).record.congr_ok (by simp [enclosesAll_cons, Encloses, Kind.inner])
  | .enum [] => .of_same (.refl _) (by simp [EnclosesAll, Encloses, Kind.inner])
  | .enum (value :: values) =>
    .of_same (same_unionOf _) (by simp [EnclosesAll, Encloses, Kind.inner])
  | .reference _ => .of_same (.refl _) (by simp [EnclosesAll, Encloses, Kind.inner])
  | .number => .of_same (.refl _) (by simp [EnclosesAll, Encloses, Kind.inner])
  | .string => .of_same (.refl _) (by simp [EnclosesAll, Encloses, Kind.inner])
  | .boolean => .of_same (.refl _) (by simp [EnclosesAll, Encloses, Kind.inner])
  | .integer => .of_same (.refl _) (by simp [EnclosesAll, Encloses, Kind.inner])
  | .null => .of_same (.refl _) (by simp [EnclosesAll, Encloses, Kind.inner])
  | .unrecognized _ => .of_same (.refl _) (by simp [EnclosesAll, Encloses, Kind.inner])
  | .conflicting _ _ => .of_same (.refl _) (by simp [EnclosesAll, Encloses, Kind.inner])

theorem compared_list : ∀ members : List Shape,
    ComparedList (members.map d.reading) (d.listMeanings members)
      (d.EnclosesAll (Shape.listNodes members))
  | [] => ComparedList.nil.congr_ok (by simp [EnclosesAll, Shape.listNodes])
  | s :: rest =>
    ((compared_shape s).cons (compared_list rest)).congr_ok (enclosesAll_append _ _).symm

theorem compared_fields : ∀ fields : List Field,
    ComparedSlots (d.slots fields) (d.fieldMeanings fields)
      (d.EnclosesAll (Field.listNodes fields))
  | [] => ComparedSlots.nil.congr_ok (by simp [EnclosesAll, Field.listNodes])
  | .mk name required s :: rest =>
    (ComparedSlots.cons name required (compared_shape s) (compared_fields rest)).congr_ok
      (enclosesAll_append _ _).symm

end

/-- The type that is written for a shape is read back as a type expression, and
it means what the shape describes exactly where no enumeration of several
values stands unenclosed beside `&`. -/
theorem read_shape_means_iff (d : Dialect) (strict : Bool) (s : Shape) (text : String)
    (hwrite : (TypeWriter.mk d.target strict).shape s = .ok text) (hwords : d.Avoids s.nodes) :
    ∃ t, d.read text = some t ∧ (t.Same (d.meaning s) ↔ d.EnclosesAll s.nodes) := by
  rw [TypeWriter.shape_eq, unlessFault_eq_ok_iff] at hwrite
  obtain ⟨-, rfl⟩ := hwrite
  exact ⟨d.reading s, read_written s hwords, (compared_shape s).same_iff⟩

theorem read_maybe_in_intersection :
    let s : Shape := .mk (.allOf [
      .mk (.array (.mk (.reference "#/components/schemas/Pet") true)) true,
      .mk (.enum ["it's"]) false]) true
    (TypeWriter.mk flow.target true).shape s = .ok "?(?Array<?Pet>&'it\\'s')" ∧
      flow.Avoids s.nodes ∧
      ∃ t, flow.read "?(?Array<?Pet>&'it\\'s')" = some t ∧
        (t.Same (flow.meaning s) ↔ flow.EnclosesAll s.nodes) := by
  intro s
  have hwrite : (TypeWriter.mk flow.target true).shape s = .ok "?(?Array<?Pet>&'it\\'s')" := rfl
  have hwords : flow.Avoids s.nodes := by
    intro path hpath
    obtain rfl : path = "#/components/schemas/Pet" := by
      simpa [s, Shape.nodes, Kind.inner, Shape.listNodes] using hpath
    decide
  exact ⟨hwrite, hwords, read_shape_means_iff flow true s _ hwrite hwords⟩

/-- Beside `&` the bars of an enumeration come apart: the last value alone is
intersected with the type that follows. -/
theorem enumeration_beside_ampersand :
    let s : Shape := .mk (.allOf [
      .mk (.enum ["a", "b"]) false,
      .mk (.reference "#/components/schemas/X") false]) false
    let t : TypeTree := .union [.literal "a", .intersection [.literal "b", .named "X"]]
    (TypeWriter.mk typeScript.target false).shape s = .ok "('a'|'b'&X)" ∧
      typeScript.Avoids s.nodes ∧
      typeScript.read "('a'|'b'&X)" = some t ∧ ¬ t.Same (typeScript.meaning s) := by
  intro s t
  refine ⟨rfl, ?_, rfl, ?_⟩
  · intro path hpath
    obtain rfl : path = "#/components/schemas/X" := by
      simpa [s, Shape.nodes, Kind.inner, Shape.listNodes] using hpath
    decide
  · intro hsame
    have hload := hsame.load_eq
    revert hload
    decide

end ApiTypes.Dialect
