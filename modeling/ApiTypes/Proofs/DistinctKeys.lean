import ApiTypes.Json.Reader
import Mathlib.Data.List.Nodup

/-!
# Values whose objects have distinct keys

An object of a JSON value has every key once.  Members that are set one after the
other are then the members as they stand, and a value comes back unchanged from
the node that is made of it.
-/

namespace ApiTypes

namespace Members
variable {α : Type}

theorem insert_of_notMem {key : String} {value : α} {members : List (String × α)}
    (h : key ∉ members.map Prod.fst) :
    insert key value members = members ++ [(key, value)] := by
  induction members with
  | nil => rfl
  | cons member rest ih =>
    rw [List.map_cons, List.mem_cons, not_or] at h
    rw [insert, if_neg (Ne.symm h.1), ih h.2, List.cons_append]

theorem ofList_of_nodup {members : List (String × α)} (h : (members.map Prod.fst).Nodup) :
    ofList members = members := by
  -- what has been set is a part in front of the whole, and every further key is new
  have key : ∀ rest set : List (String × α), ((set ++ rest).map Prod.fst).Nodup →
      rest.foldl (fun members m => insert m.1 m.2 members) set = set ++ rest := by
    intro rest
    induction rest with
    | nil => exact fun set _ => (List.append_nil set).symm
    | cons member rest ih =>
      intro set hset
      have hnew : member.1 ∉ set.map Prod.fst := by
        intro hmem
        rw [List.map_append, List.map_cons] at hset
        exact (List.disjoint_of_nodup_append hset) hmem List.mem_cons_self
      have hnext : set ++ member :: rest = (set ++ [member]) ++ rest := by simp
      rw [List.foldl_cons, insert_of_notMem hnew, hnext]
      exact ih (set ++ [member]) (hnext ▸ hset)
  exact key members [] h

theorem keys_insert (key : String) (value : α) (members : List (String × α)) :
    (insert key value members).map Prod.fst =
      if key ∈ members.map Prod.fst then members.map Prod.fst
      else members.map Prod.fst ++ [key] := by
  induction members with
  | nil => rfl
  | cons member rest ih =>
    obtain ⟨k, v⟩ := member
    rw [insert]
    by_cases hk : k = key
    · rw [if_pos hk]
      simp [hk]
    · rw [if_neg hk, List.map_cons, ih]
      by_cases hmem : key ∈ rest.map Prod.fst
      · simp [hmem]
      · simp [hmem, Ne.symm hk]

theorem nodup_keys_ofList (pairs : List (String × α)) : ((ofList pairs).map Prod.fst).Nodup := by
  have key : ∀ (pairs members : List (String × α)), (members.map Prod.fst).Nodup →
      ((pairs.foldl (fun members m => insert m.1 m.2 members) members).map Prod.fst).Nodup := by
    intro pairs
    induction pairs with
    | nil => exact fun _ h => h
    | cons pair pairs ih =>
      intro members h
      apply ih
      rw [keys_insert]
      split_ifs with hmem
      · exact h
      · rw [← List.concat_eq_append]
        exact h.concat hmem
  exact key pairs [] List.nodup_nil

theorem mem_of_mem_ofList {pairs : List (String × α)} {member : String × α}
    (h : member ∈ ofList pairs) : member ∈ pairs := by
  have hinsert : ∀ (key : String) (value : α) (members : List (String × α)),
      member ∈ insert key value members → member ∈ members ∨ member = (key, value) := by
    intro key value members
    induction members with
    | nil => simp [insert]
    | cons m rest ih =>
      obtain ⟨k, v⟩ := m
      rw [insert]
      split
      · rename_i hk
        subst hk
        intro hmem
        rcases List.mem_cons.mp hmem with rfl | hmem
        · exact .inr rfl
        · exact .inl (List.mem_cons_of_mem _ hmem)
      · intro hmem
        rcases List.mem_cons.mp hmem with rfl | hmem
        · exact .inl List.mem_cons_self
        · exact (ih hmem).imp_left (List.mem_cons_of_mem _)
  have key : ∀ pairs members : List (String × α),
      member ∈ pairs.foldl (fun members m => insert m.1 m.2 members) members →
        member ∈ members ∨ member ∈ pairs := by
    intro pairs
    induction pairs with
    | nil => exact fun _ hmem => .inl hmem
    | cons pair rest ih =>
      intro members hmem
      rcases ih _ hmem with hmem | hmem
      · rcases hinsert _ _ _ hmem with hmem | rfl
        · exact .inl hmem
        · exact .inr List.mem_cons_self
      · exact .inr (List.mem_cons_of_mem pair hmem)
  exact (key pairs [] h).resolve_left List.not_mem_nil

theorem find?_eq_some_iff_mem {members : List (String × α)} (h : (members.map Prod.fst).Nodup)
    {key : String} {value : α} : find? members key = some value ↔ (key, value) ∈ members := by
  rw [find?]
  induction members with
  | nil => simp
  | cons member rest ih =>
    obtain ⟨k, v⟩ := member
    rw [List.map_cons, List.nodup_cons] at h
    rw [List.lookup_cons, List.mem_cons]
    by_cases hk : key = k
    · have hmem : (key, value) ∉ rest := by
        intro hmem
        exact h.1 (List.mem_map.mpr ⟨(key, value), hmem, hk⟩)
      simp [hk, hk ▸ hmem, eq_comm]
    · have hne : (key == k) = false := beq_eq_false_iff_ne.mpr hk
      rw [hne, ih h.2]
      simp [hk]

theorem find?_eq_none_iff {members : List (String × α)} {key : String} :
    find? members key = none ↔ key ∉ members.map Prod.fst := by
  rw [find?, List.lookup_eq_none_iff, List.mem_map]
  constructor
  · rintro h ⟨member, hmem, rfl⟩
    simpa using h member hmem
  · intro h member hmem
    have hne : key ≠ member.1 := fun he => h ⟨member, hmem, he.symm⟩
    simpa using hne

/-! ### Values under keys -/

theorem mem_of_find? {members : List (String × α)} {key : String} {value : α}
    (h : find? members key = some value) : (key, value) ∈ members := by
  obtain ⟨front, rest, rfl, -⟩ := List.lookup_eq_some_iff.mp h
  exact List.mem_append_right front List.mem_cons_self

theorem find?_cons (name : String) (value : α) (rest : List (String × α)) (key : String) :
    find? ((name, value) :: rest) key = if key = name then some value else find? rest key := by
  rw [find?, List.lookup_cons]
  by_cases h : key = name
  · simp [h]
  · have hne : (key == name) = false := beq_eq_false_iff_ne.mpr h
    rw [hne, if_neg h]
    rfl

theorem find?_insert (key : String) (value : α) (members : List (String × α)) (k : String) :
    find? (insert key value members) k = if k = key then some value else find? members k := by
  induction members with
  | nil => rw [insert, find?_cons]
  | cons member rest ih =>
    obtain ⟨name, old⟩ := member
    rw [insert]
    by_cases hname : name = key
    · rw [if_pos hname, hname, find?_cons, find?_cons]
      by_cases hk : k = key
      · simp [hk]
      · simp [hk]
    · rw [if_neg hname, find?_cons, find?_cons, ih]
      by_cases hk : k = name
      · simp [hk, hname]
      · simp [hk]

theorem find?_erase (key : String) (members : List (String × α)) (k : String) :
    find? (erase key members) k = if k = key then none else find? members k := by
  rw [erase]
  induction members with
  | nil => simp [find?]
  | cons member rest ih =>
    obtain ⟨name, old⟩ := member
    rw [find?_cons]
    by_cases hname : name = key
    · rw [List.filter_cons_of_neg (by simp [hname]), ih]
      by_cases hk : k = key
      · simp [hk]
      · simp [hk, hname]
    · rw [List.filter_cons_of_pos (by simp [hname]), find?_cons, ih]
      by_cases hk : k = name
      · simp [hk, hname]
      · simp [hk]

theorem insert_of_find? {key : String} {value : α} {members : List (String × α)}
    (h : find? members key = some value) : insert key value members = members := by
  induction members with
  | nil => cases h
  | cons member rest ih =>
    obtain ⟨name, old⟩ := member
    rw [find?_cons] at h
    rw [insert]
    by_cases hname : name = key
    · rw [if_pos hname.symm] at h
      rw [if_pos hname, Option.some.inj h]
    · rw [if_neg (Ne.symm hname)] at h
      rw [if_neg hname, ih h]

theorem erase_of_notMem {key : String} {members : List (String × α)}
    (h : key ∉ members.map Prod.fst) : erase key members = members := by
  rw [erase, List.filter_eq_self]
  intro member hmember
  have hne : member.1 ≠ key := fun he => h (List.mem_map.mpr ⟨member, hmember, he⟩)
  simpa using hne

end Members

namespace Json

mutual

/-- No object of the value has a key twice. -/
def Distinct : Json → Prop
  | .null | .bool _ | .number _ | .string _ => True
  | .array items => DistinctItems items
  | .object members => (members.map Prod.fst).Nodup ∧ DistinctMembers members

def DistinctItems : List Json → Prop
  | [] => True
  | item :: rest => item.Distinct ∧ DistinctItems rest

def DistinctMembers : List (String × Json) → Prop
  | [] => True
  | (_, value) :: rest => value.Distinct ∧ DistinctMembers rest

end

mutual

def decDistinct : (value : Json) → Decidable value.Distinct
  | .null | .bool _ | .number _ | .string _ => isTrue trivial
  | .array items => decDistinctItems items
  | .object members =>
    have := decDistinctMembers members
    inferInstanceAs (Decidable (_ ∧ _))

def decDistinctItems : (items : List Json) → Decidable (DistinctItems items)
  | [] => isTrue trivial
  | item :: rest =>
    have := decDistinct item
    have := decDistinctItems rest
    inferInstanceAs (Decidable (_ ∧ _))

def decDistinctMembers : (members : List (String × Json)) → Decidable (DistinctMembers members)
  | [] => isTrue trivial
  | (_, value) :: rest =>
    have := decDistinct value
    have := decDistinctMembers rest
    inferInstanceAs (Decidable (_ ∧ _))

end

instance (value : Json) : Decidable value.Distinct := decDistinct value

theorem distinctItems_iff {items : List Json} :
    DistinctItems items ↔ ∀ item ∈ items, item.Distinct := by
  induction items with
  | nil => simp [DistinctItems]
  | cons item rest ih => simp [DistinctItems, ih]

theorem distinctMembers_iff {members : List (String × Json)} :
    DistinctMembers members ↔ ∀ member ∈ members, member.2.Distinct := by
  induction members with
  | nil => simp [DistinctMembers]
  | cons member rest ih => simp [DistinctMembers, ih]

/-- A property that passes from a value to its items and members. -/
structure Hereditary (P : Json → Prop) : Prop where
  item : ∀ items, P (.array items) → ∀ item ∈ items, P item
  member : ∀ members, P (.object members) → ∀ member ∈ members, P member.2

theorem hereditary_distinct : Hereditary Distinct :=
  ⟨fun _ h => distinctItems_iff.mp h, fun _ h => distinctMembers_iff.mp h.2⟩

namespace Node

theorem membersToJson_eq_map (members : List (Label × Node)) :
    membersToJson members = members.map fun member => (member.1.key, member.2.toJson) := by
  induction members with
  | nil => rfl
  | cons member rest ih => rw [membersToJson, ih, List.map_cons]

mutual

theorem toJson_ofJson : ∀ value : Json, value.Distinct → (ofJson value).toJson = value
  | .null, _ | .bool _, _ | .number _, _ | .string _, _ => rfl
  | .array items, h => by
    rw [ofJson, toJson, itemsToJson_itemsOfJson items h]
  | .object members, h => by
    rw [ofJson, toJson, membersToJson_membersOfJson members h.2, Members.ofList_of_nodup h.1]

theorem itemsToJson_itemsOfJson : ∀ items : List Json, DistinctItems items →
    itemsToJson (itemsOfJson items) = items
  | [], _ => rfl
  | item :: rest, h => by
    rw [itemsOfJson, itemsToJson, toJson_ofJson item h.1, itemsToJson_itemsOfJson rest h.2]

theorem membersToJson_membersOfJson : ∀ members : List (String × Json),
    DistinctMembers members → membersToJson (membersOfJson members) = members
  | [], _ => rfl
  | (key, value) :: rest, h => by
    rw [membersOfJson, membersToJson, toJson_ofJson value h.1,
      membersToJson_membersOfJson rest h.2]

end

mutual

/-- A value that is read off a node has no key twice, whatever the node repeats. -/
theorem distinct_toJson : ∀ n : Node, n.toJson.Distinct
  | .scalar value _ => by cases value <;> trivial
  | .array _ items _ => distinctItems_iff.mpr (distinct_itemsToJson items)
  | .object _ members _ => by
    refine ⟨Members.nodup_keys_ofList _, distinctMembers_iff.mpr fun member hmember => ?_⟩
    exact distinct_membersToJson members member (Members.mem_of_mem_ofList hmember)
  | .broken _ => trivial

theorem distinct_itemsToJson : ∀ items : List Node, ∀ item ∈ itemsToJson items, item.Distinct
  | [], _, h => absurd h List.not_mem_nil
  | item :: rest, value, h => by
    rcases List.mem_cons.mp h with rfl | h
    · exact distinct_toJson item
    · exact distinct_itemsToJson rest value h

theorem distinct_membersToJson : ∀ members : List (Label × Node),
    ∀ member ∈ membersToJson members, member.2.Distinct
  | [], _, h => absurd h List.not_mem_nil
  | (_, value) :: rest, member, h => by
    rcases List.mem_cons.mp h with rfl | h
    · exact distinct_toJson value
    · exact distinct_membersToJson rest member h

end

end Node

theorem node_of_parse {text : String} {value : Json} (h : parse text = .ok value) :
    (readNode nestingLimit (Cursor.ofString text)).1.fault? = none ∧
      (readNode nestingLimit (Cursor.ofString text)).1.toJson = value := by
  rw [parse] at h
  generalize readNode nestingLimit (Cursor.ofString text) = reading at h
  obtain ⟨node, _ | c⟩ := reading
  · cases h
  · simp only at h
    split at h
    · cases h
    · rename_i hfault
      split at h
      · exact ⟨hfault, Except.ok.inj h⟩
      · cases h

theorem distinct_of_parse {text : String} {value : Json} (h : parse text = .ok value) :
    value.Distinct := by
  rw [← (node_of_parse h).2]
  exact Node.distinct_toJson _

end Json

end ApiTypes
