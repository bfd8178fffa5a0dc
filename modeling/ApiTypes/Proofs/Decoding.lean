import ApiTypes.Proofs.Outcome
import ApiTypes.Schema.Decode
import Mathlib.Data.List.Forall2
import Mathlib.Data.Option.Basic
import Mathlib.Tactic.SplitIfs

/-!
# What decoding accepts

A map of values decodes where its value is an object and every member decodes
by itself, and its entries are the members in their order.
-/

namespace ApiTypes
open Json (Node Label Finish)

/-- The members of an object beside what they decode to, in order. -/
def DecodesTo {α : Type} (decoder : Decoder α) :
    List (String × Json) → List (String × α) → Prop :=
  List.Forall₂ fun member entry =>
    entry.1 = member.1 ∧ decoder.onValue member.2 = .ok entry.2

section
variable {α : Type} {decoder : Decoder α}

theorem within_eq_ok_iff {step : Step} {x : Except Failure α} {a : α} :
    within step x = .ok a ↔ x = .ok a := by
  cases x <;> simp [within]

theorem members_eq_ok_iff {members : List (String × Json)} {entries : List (String × α)} :
    Decoder.members decoder (Node.membersOfJson members) = .ok entries ↔
      DecodesTo decoder members entries := by
  induction members generalizing entries with
  | nil => simp [Node.membersOfJson, Decoder.members, DecodesTo, eq_comm]
  | cons member rest ih =>
    obtain ⟨key, value⟩ := member
    rw [Node.membersOfJson, Decoder.members, DecodesTo, List.forall₂_cons_left_iff]
    simp only [bind_eq_ok_iff, within_eq_ok_iff, pure_eq_ok_iff, ih]
    constructor
    · rintro ⟨a, ha, as, has, rfl⟩
      exact ⟨(key, a), as, ⟨rfl, ha⟩, has, rfl⟩
    · rintro ⟨⟨_, a⟩, as, ⟨rfl, ha⟩, has, rfl⟩
      exact ⟨a, ha, as, has, rfl⟩

theorem exists_forall₂_iff {β : Type} {R : β → α → Prop} {bs : List β} :
    (∃ as, List.Forall₂ R bs as) ↔ ∀ b ∈ bs, ∃ a, R b a := by
  induction bs with
  | nil => exact iff_of_true ⟨[], .nil⟩ (by simp)
  | cons b rest ih =>
    rw [List.forall_mem_cons, ← ih]
    constructor
    · rintro ⟨_, h⟩
      cases h with
      | cons ha has => exact ⟨⟨_, ha⟩, _, has⟩
    · rintro ⟨⟨a, ha⟩, as, has⟩
      exact ⟨a :: as, .cons ha has⟩

theorem exists_of_forall₂_of_mem {β : Type} {R : α → β → Prop} {as : List α} {bs : List β}
    (h : List.Forall₂ R as bs) {b : β} (hb : b ∈ bs) : ∃ a ∈ as, R a b := by
  induction h with
  | nil => cases hb
  | cons hhead _ ih =>
    rcases List.mem_cons.mp hb with rfl | hb
    · exact ⟨_, List.mem_cons_self, hhead⟩
    · obtain ⟨a, ha, hab⟩ := ih hb
      exact ⟨a, List.mem_cons_of_mem _ ha, hab⟩

theorem exists_decodesTo_iff {members : List (String × Json)} :
    (∃ entries, DecodesTo decoder members entries) ↔
      ∀ member ∈ members, ∃ a, decoder.onValue member.2 = .ok a := by
  unfold DecodesTo
  rw [exists_forall₂_iff]
  refine forall₂_congr fun member _ => ?_
  constructor
  · rintro ⟨⟨_, a⟩, -, ha⟩
    exact ⟨a, ha⟩
  · rintro ⟨a, ha⟩
    exact ⟨(member.1, a), rfl, ha⟩

theorem map_onValue_object (members : List (String × Json)) :
    (Decoder.map decoder).onValue (.object members) =
      (Decoder.members decoder (Node.membersOfJson members)).map Members.ofList := by
  rw [Decoder.onValue, Node.ofJson, Decoder.map]
  cases Decoder.members decoder (Node.membersOfJson members) <;> rfl

theorem map_onValue_eq_ok_iff {value : Json} {result : List (String × α)} :
    (Decoder.map decoder).onValue value = .ok result ↔
      ∃ members entries, value = .object members ∧ DecodesTo decoder members entries ∧
        result = Members.ofList entries := by
  cases value with
  | object members =>
    rw [map_onValue_object]
    constructor
    · intro h
      cases hentries : Decoder.members decoder (Node.membersOfJson members) with
      | error failure =>
        rw [hentries] at h
        cases h
      | ok entries =>
        rw [hentries] at h
        exact ⟨members, entries, rfl, members_eq_ok_iff.mp hentries, (Except.ok.inj h).symm⟩
    · rintro ⟨_, entries, he, hentries, rfl⟩
      obtain rfl := Json.object.inj he
      rw [members_eq_ok_iff.mpr hentries]
      rfl
  | _ =>
    constructor
    · intro h
      cases h
    · rintro ⟨_, _, he, -⟩
      cases he

theorem optional_onValue (value : Json) :
    (Decoder.optional d).onValue value =
      if value = .null then .ok none else (d.onValue value).map some := by
  cases value <;> rfl

/-! ### Repeated keys -/

theorem DecodesTo.insert {members : List (String × Json)} {entries : List (String × α)}
    {key : String} {value : Json} {a : α} (h : DecodesTo decoder members entries)
    (ha : decoder.onValue value = .ok a) :
    DecodesTo decoder (Members.insert key value members) (Members.insert key a entries) := by
  induction h with
  | nil => exact .cons ⟨rfl, ha⟩ .nil
  | @cons member entry members entries hhead htail ih =>
    obtain ⟨k, v⟩ := member
    obtain ⟨_, b⟩ := entry
    obtain ⟨rfl, hb⟩ := hhead
    rw [Members.insert, Members.insert]
    split_ifs with hk
    · exact .cons ⟨rfl, ha⟩ htail
    · exact .cons ⟨rfl, hb⟩ ih

/-- Setting the members of an object one by one commutes with decoding them. -/
theorem DecodesTo.ofList {members : List (String × Json)} {entries : List (String × α)}
    (h : DecodesTo decoder members entries) :
    DecodesTo decoder (Members.ofList members) (Members.ofList entries) := by
  have key : ∀ {set : List (String × Json)} {setEntries : List (String × α)},
      DecodesTo decoder set setEntries →
      DecodesTo decoder (members.foldl (fun set m => Members.insert m.1 m.2 set) set)
        (entries.foldl (fun set m => Members.insert m.1 m.2 set) setEntries) := by
    induction h with
    | nil => exact id
    | @cons member entry members entries hhead htail ih =>
      obtain ⟨k, v⟩ := member
      obtain ⟨_, b⟩ := entry
      obtain ⟨rfl, hb⟩ := hhead
      intro set setEntries hset
      exact ih (hset.insert hb)
  exact key .nil

end

/-! ### Nodes without faults -/

namespace Json.Node

theorem finish_of_fault?_eq_none {finish : Finish} (h : finish.fault? = none) :
    ∃ stop, finish = .closed stop := by
  cases finish with
  | closed stop => exact ⟨stop, rfl⟩
  | atEntry fault => cases h
  | atColon label fault => cases h
  | atOpening fault => cases h

end Json.Node

mutual

theorem check_eq_ok : ∀ n : Node, n.fault? = none → Decoder.check n = .ok ()
  | .scalar _ _, _ => rfl
  | .array _ items finish, h => by
    have hfault := (Option.orElse_eq_none _ _).mp h
    obtain ⟨stop, rfl⟩ := Node.finish_of_fault?_eq_none hfault.2
    rw [Decoder.check, checkItems_eq_ok 0 items hfault.1]
    rfl
  | .object _ members finish, h => by
    have hfault := (Option.orElse_eq_none _ _).mp h
    obtain ⟨stop, rfl⟩ := Node.finish_of_fault?_eq_none hfault.2
    rw [Decoder.check, checkMembers_eq_ok members hfault.1]
    rfl
  | .broken _, h => by cases h

theorem checkItems_eq_ok : ∀ (i : Nat) (items : List Node), Node.itemsFault? items = none →
    Decoder.checkItems i items = .ok ()
  | _, [], _ => rfl
  | i, item :: rest, h => by
    have hfault := (Option.orElse_eq_none _ _).mp h
    rw [Decoder.checkItems, check_eq_ok item hfault.1, within]
    exact checkItems_eq_ok (i + 1) rest hfault.2

theorem checkMembers_eq_ok : ∀ members : List (Label × Node), Node.membersFault? members = none →
    Decoder.checkMembers members = .ok ()
  | [], _ => rfl
  | (label, value) :: rest, h => by
    have hfault := (Option.orElse_eq_none _ _).mp h
    rw [Decoder.checkMembers, check_eq_ok value hfault.1, within]
    exact checkMembers_eq_ok rest hfault.2

end

mutual

theorem fault?_ofJson : ∀ value : Json, (Node.ofJson value).fault? = none
  | .null | .bool _ | .number _ | .string _ => rfl
  | .array items => (Option.orElse_eq_none _ _).mpr ⟨itemsFault?_ofJson items, rfl⟩
  | .object members => (Option.orElse_eq_none _ _).mpr ⟨membersFault?_ofJson members, rfl⟩

theorem itemsFault?_ofJson : ∀ items : List Json,
    Node.itemsFault? (Node.itemsOfJson items) = none
  | [] => rfl
  | item :: rest => (Option.orElse_eq_none _ _).mpr ⟨fault?_ofJson item, itemsFault?_ofJson rest⟩

theorem membersFault?_ofJson : ∀ members : List (String × Json),
    Node.membersFault? (Node.membersOfJson members) = none
  | [] => rfl
  | (_, value) :: rest =>
    (Option.orElse_eq_none _ _).mpr ⟨fault?_ofJson value, membersFault?_ofJson rest⟩

end

theorem json_eq_ok {n : Node} (h : n.fault? = none) : Decoder.json n = .ok n.toJson := by
  rw [Decoder.json, check_eq_ok n h]
  rfl

end ApiTypes
