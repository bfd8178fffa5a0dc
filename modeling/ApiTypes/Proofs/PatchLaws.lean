import ApiTypes.Proofs.PatchedMembers
import ApiTypes.Proofs.Paths

/-!
# Laws of patches

A patch that is applied twice does what it does once, and brings in no `null` outside
arrays.  Two patches that agree wherever they meet may be applied in either order: the
results differ at most in the order of members.
-/

namespace ApiTypes

namespace Json

/-- Whether no member of an object outside arrays is `null`. -/
def NullFree (value : Json) : Prop := ∀ keys, value.under? keys = some .null → keys = []

theorem nullFree_iff {value : Json} :
    value.NullFree ↔
      ∀ key part, value.member? key = some part → part ≠ .null ∧ part.NullFree := by
  constructor
  · intro h key part hpart
    have hbelow : ∀ keys, part.under? keys ≠ some .null := by
      intro keys hnull
      have hkeys := h (key :: keys) (by rw [under?_cons, hpart, Option.bind_some, hnull])
      cases hkeys
    have hne : part ≠ .null := fun hnull => hbelow [] (congrArg some hnull)
    exact ⟨hne, fun keys hnull => absurd hnull (hbelow keys)⟩
  · intro h keys hnull
    cases keys with
    | nil => rfl
    | cons key rest =>
      rw [under?_cons] at hnull
      obtain ⟨part, hpart, hrest⟩ := Option.bind_eq_some_iff.mp hnull
      obtain ⟨hne, hfree⟩ := h key part hpart
      have hnil := hfree rest hrest
      subst hnil
      exact absurd (Option.some.inj hrest) hne

theorem nullFree_of_not_object {value : Json} (h : ∀ members, value ≠ .object members) :
    value.NullFree := by
  rw [nullFree_iff]
  intro key part hpart
  rw [member?_of_not_object h] at hpart
  cases hpart

/-- Equality of values up to the order of members, in objects at every level. -/
inductive Reordered : Json → Json → Prop
  | refl (a : Json) : Reordered a a
  | array {as bs : List Json} (length : as.length = bs.length)
    (items : ∀ (i : Nat) (a b : Json), as[i]? = some a → bs[i]? = some b → Reordered a b) :
    Reordered (.array as) (.array bs)
  | object {as bs : List (String × Json)} (keys : (as.map Prod.fst).Perm (bs.map Prod.fst))
    (values : ∀ (key : String) (a b : Json), (key, a) ∈ as → (key, b) ∈ bs → Reordered a b) :
    Reordered (.object as) (.object bs)

theorem Reordered.symm {a b : Json} (h : Reordered a b) : Reordered b a := by
  induction h with
  | refl a => exact .refl a
  | array length items ih => exact .array length.symm fun i a b ha hb => ih i b a hb ha
  | object keys values ih => exact .object keys.symm fun key a b ha hb => ih key b a hb ha

theorem Reordered.isObject_iff {a b : Json} (h : Reordered a b) :
    (∃ members, a = .object members) ↔ ∃ members, b = .object members := by
  cases h with
  | refl a => exact Iff.rfl
  | array length items => simp
  | object keys values => simp

/-- Objects are equal up to order where they have equal values up to order under every key. -/
theorem reordered_object {as bs : List (String × Json)} (has : (as.map Prod.fst).Nodup)
    (hbs : (bs.map Prod.fst).Nodup)
    (h : ∀ key, Option.Rel Reordered (Members.find? as key) (Members.find? bs key)) :
    Reordered (.object as) (.object bs) := by
  refine .object ((List.perm_ext_iff_of_nodup has hbs).mpr fun key => ?_) ?_
  · have hkey := h key
    have hsame : Members.find? as key = none ↔ Members.find? bs key = none := by
      generalize Members.find? as key = a, Members.find? bs key = b at hkey
      cases hkey <;> simp
    rw [Members.find?_eq_none_iff, Members.find?_eq_none_iff] at hsame
    exact not_iff_not.mp hsame
  · intro key a b ha hb
    have hkey := h key
    rw [(Members.find?_eq_some_iff_mem has).mpr ha, (Members.find?_eq_some_iff_mem hbs).mpr hb]
      at hkey
    cases hkey with
    | some hab => exact hab

end Json

namespace Patch
open Json (Reordered)

/-! ### A patch applied twice -/

theorem mergeMembers_eq_self {members patch : List (String × Json)}
    (h : ∀ m ∈ patch, applyMember members m = members) : mergeMembers members patch = members := by
  induction patch with
  | nil => rw [mergeMembers]
  | cons m rest ih =>
    rw [List.forall_mem_cons] at h
    rw [mergeMembers_cons, h.1, ih h.2]

theorem merge_merge (patch : Json) (h : patch.Distinct) (target : Json) :
    merge (merge target patch) patch = merge target patch := by
  induction patch using Json.induction_members generalizing target with
  | other patch hpatch => rw [merge_of_not_object _ hpatch, merge_of_not_object _ hpatch]
  | object patch ih =>
    rw [merge_merge_object, merge_object]
    generalize hmerged : mergeMembers (targetMembers target) patch = merged
    refine congrArg Json.object (mergeMembers_eq_self fun m hm => ?_)
    obtain ⟨key, value⟩ := m
    have hvalue : value.Distinct := Json.distinctMembers_iff.mp h.2 _ hm
    have hfind := find?_mergeMembers h.1 (targetMembers target) key
    rw [(Members.find?_eq_some_iff_mem h.1).mpr hm, hmerged] at hfind
    by_cases hnull : value = .null
    · subst hnull
      rw [applyMember_null, Members.erase_of_notMem (Members.find?_eq_none_iff.mp hfind)]
    · rw [patchedValue_of_ne_null _ hnull] at hfind
      rw [applyMember_of_ne_null _ key hnull, hfind, Option.getD_some, ih _ hm hvalue,
        Members.insert_of_find? hfind]

theorem nullFree_merge (patch : Json) (hdistinct : patch.Distinct) (hnull : patch ≠ .null)
    {target : Json} (h : target.NullFree) :
    merge target patch ≠ .null ∧ (merge target patch).NullFree := by
  induction patch using Json.induction_members generalizing target with
  | other patch hpatch =>
    rw [merge_of_not_object _ hpatch]
    exact ⟨hnull, Json.nullFree_of_not_object hpatch⟩
  | object patch ih =>
    refine ⟨by simp [merge_object], Json.nullFree_iff.mpr fun key part hpart => ?_⟩
    rw [member?_merge_object hdistinct.1] at hpart
    cases hvalue : Members.find? patch key with
    | none =>
      rw [hvalue] at hpart
      exact Json.nullFree_iff.mp h key part hpart
    | some value =>
      have hmem := Members.mem_of_find? hvalue
      rw [hvalue] at hpart
      by_cases hne : value = .null
      · subst hne
        cases hpart
      · rw [patchedValue_of_ne_null _ hne] at hpart
        obtain rfl := Option.some.inj hpart
        have hold : ((target.member? key).getD .null).NullFree := by
          cases hold : target.member? key with
          | none => exact Json.nullFree_of_not_object (by simp)
          | some old => exact (Json.nullFree_iff.mp h key old hold).2
        exact ih _ hmem (Json.distinctMembers_iff.mp hdistinct.2 _ hmem) hne hold

/-- Applying a patch twice is applying it once, order included; and a patch that is an
object leaves no `null` outside arrays where there was none. -/
theorem merge_twice {patch : Json} (h : patch.Distinct) (target : Json) :
    merge (merge target patch) patch = merge target patch ∧
      ((∃ members, patch = .object members) → target.NullFree →
        (merge target patch).NullFree) := by
  refine ⟨merge_merge patch h target, ?_⟩
  rintro ⟨members, rfl⟩ htarget
  have hnull : Json.object members ≠ .null := by simp
  exact (nullFree_merge _ h hnull htarget).2

/-- A removal, an object in place of a string and one in place of nothing. -/
def removal : Json :=
  .object [("a", .object [("b", .null)]), ("c", .object [("d", .array [.null])]), ("e", .null)]

theorem merge_twice_of_removal :
    removal.Distinct ∧ (Json.object [("e", .bool true), ("a", .string "x")]).NullFree ∧
    let result := merge (.object [("e", .bool true), ("a", .string "x")]) removal
    merge result removal = result ∧ result.NullFree ∧
      result = .object [("a", .object []), ("c", .object [("d", .array [.null])])] := by
  have hdistinct : removal.Distinct := by decide +kernel
  have hfree : (Json.object [("e", .bool true), ("a", .string "x")]).NullFree := by
    refine Json.nullFree_iff.mpr fun key part hpart => ?_
    have hmem := Members.mem_of_find? hpart
    simp only [List.mem_cons, Prod.mk.injEq, List.not_mem_nil, or_false] at hmem
    rcases hmem with ⟨-, rfl⟩ | ⟨-, rfl⟩
    · exact ⟨by simp, Json.nullFree_of_not_object (by simp)⟩
    · exact ⟨by simp, Json.nullFree_of_not_object (by simp)⟩
  obtain ⟨htwice, hresult⟩ :=
    merge_twice hdistinct (.object [("e", .bool true), ("a", .string "x")])
  exact ⟨hdistinct, hfree, htwice, hresult ⟨_, rfl⟩ hfree, by decide +kernel⟩

/-! ### Two patches -/

/-- Whether two patches agree where they meet: they are equal up to the order of members, or
objects that agree at every key they share. -/
inductive Compatible : Json → Json → Prop
  | equal {a b : Json} (same : Reordered a b) : Compatible a b
  | objects {p q : List (String × Json)}
    (shared : ∀ (key : String) (a b : Json), (key, a) ∈ p → (key, b) ∈ q → Compatible a b) :
    Compatible (.object p) (.object q)

theorem Compatible.shared {p q : List (String × Json)} (hp : (p.map Prod.fst).Nodup)
    (h : Compatible (.object p) (.object q)) {key : String} {a b : Json} (ha : (key, a) ∈ p)
    (hb : (key, b) ∈ q) : Compatible a b := by
  cases h with
  | objects shared => exact shared key a b ha hb
  | equal same =>
    cases same with
    | refl _ =>
      have hab : some a = some b := by
        rw [← (Members.find?_eq_some_iff_mem hp).mpr ha, (Members.find?_eq_some_iff_mem hp).mpr hb]
      rw [Option.some.inj hab]
      exact .equal (.refl b)
    | object keys values => exact .equal (values key a b ha hb)

theorem Compatible.isObject_iff {a b : Json} (h : Compatible a b) :
    (∃ members, a = .object members) ↔ ∃ members, b = .object members := by
  cases h with
  | equal same => exact same.isObject_iff
  | objects shared => simp

theorem Compatible.null_iff {a b : Json} (h : Compatible a b) : a = .null ↔ b = .null := by
  cases h with
  | objects shared => simp
  | equal same => cases same <;> simp

theorem distinct_getD {target : Json} (h : target.Distinct) (key : String) :
    ((target.member? key).getD .null).Distinct := by
  cases hold : target.member? key with
  | none => trivial
  | some old => exact Json.hereditary_distinct.member? h hold

theorem nodup_targetMembers {target : Json} (h : target.Distinct) :
    ((targetMembers target).map Prod.fst).Nodup := by
  cases target with
  | object members => exact h.1
  | _ => exact List.nodup_nil

/-- Under a key that only one of two patches has, their order does not matter; under one
that both have, it is a matter of their values. -/
theorem reordered_patchedValue {old a b : Option Json}
    (h : ∀ x y, a = some x → b = some y → (x = .null ↔ y = .null) ∧
      Reordered (merge (merge (old.getD .null) x) y) (merge (merge (old.getD .null) y) x)) :
    Option.Rel Reordered (patchedValue (patchedValue old a) b)
      (patchedValue (patchedValue old b) a) := by
  have hsame : ∀ value : Option Json, Option.Rel Reordered value value := by
    intro value
    cases value with
    | none => exact .none
    | some value => exact .some (.refl value)
  cases a with
  | none => exact hsame _
  | some x =>
    cases b with
    | none => exact hsame _
    | some y =>
      obtain ⟨hnull, hmerge⟩ := h x y rfl rfl
      by_cases hx : x = .null
      · rw [hx, hnull.mp hx]
        exact hsame _
      · have hy : y ≠ .null := fun hy => hx (hnull.mpr hy)
        rw [patchedValue_of_ne_null _ hx, patchedValue_of_ne_null _ hy,
          patchedValue_of_ne_null _ hx, patchedValue_of_ne_null _ hy]
        exact .some hmerge

/-- Two patches that agree where they meet can be applied in either order. -/
theorem patches_commute (p : Json) (hp : p.Distinct) {q : Json} (hq : q.Distinct)
    (h : Compatible p q) {target : Json} (htarget : target.Distinct) :
    Reordered (merge (merge target p) q) (merge (merge target q) p) := by
  induction p using Json.induction_members generalizing q target with
  | other p hobject =>
    have hother : ∀ members, q ≠ .object members := by
      intro members hmembers
      obtain ⟨members', hp⟩ := h.isObject_iff.mpr ⟨members, hmembers⟩
      exact hobject members' hp
    rw [merge_of_not_object _ hobject, merge_of_not_object _ hother, merge_of_not_object _ hobject]
    cases h with
    | equal same => exact same.symm
    | objects shared => exact absurd rfl (hobject _)
  | object p ih =>
    obtain ⟨q, rfl⟩ := h.isObject_iff.mp ⟨p, rfl⟩
    rw [merge_merge_object, merge_merge_object]
    have hkeys := nodup_targetMembers htarget
    refine Json.reordered_object
      (nodup_keys_mergeMembers (nodup_keys_mergeMembers hkeys hp.1) hq.1)
      (nodup_keys_mergeMembers (nodup_keys_mergeMembers hkeys hq.1) hp.1) fun key => ?_
    rw [find?_mergeMembers hq.1, find?_mergeMembers hp.1, find?_mergeMembers hp.1,
      find?_mergeMembers hq.1, find?_targetMembers]
    refine reordered_patchedValue fun a b ha hb => ?_
    have hmem := Members.mem_of_find? ha
    have hab := h.shared hp.1 hmem (Members.mem_of_find? hb)
    have hda := Json.distinctMembers_iff.mp hp.2 _ hmem
    have hdb := Json.distinctMembers_iff.mp hq.2 _ (Members.mem_of_find? hb)
    exact ⟨hab.null_iff, ih _ hmem hda hdb hab (distinct_getD htarget key)⟩

def leftPatch : Json :=
  .object [("a", .object [("b", .number (.integer 1))]), ("x", .null), ("y", .string "s")]

def rightPatch : Json :=
  .object [("y", .string "s"), ("x", .null), ("a", .object [("c", .object [("d", .null)])])]

/-- Both patches put an object where the target has a number, and remove one key. -/
theorem patches_commute_over_number :
    leftPatch.Distinct ∧ rightPatch.Distinct ∧ Compatible leftPatch rightPatch ∧
    let target : Json := .object [("x", .bool true), ("a", .number (.integer 0))]
    target.Distinct ∧
      Reordered (merge (merge target leftPatch) rightPatch)
        (merge (merge target rightPatch) leftPatch) ∧
      merge (merge target leftPatch) rightPatch ≠ merge (merge target rightPatch) leftPatch := by
  have hleft : leftPatch.Distinct := by decide +kernel
  have hright : rightPatch.Distinct := by decide +kernel
  have htarget : (Json.object [("x", .bool true), ("a", .number (.integer 0))]).Distinct := by
    decide +kernel
  have hcompatible : Compatible leftPatch rightPatch := by
    refine .objects fun key a b ha hb => ?_
    simp only [List.mem_cons, Prod.mk.injEq, List.not_mem_nil, or_false] at ha hb
    rcases ha with ⟨rfl, rfl⟩ | ⟨rfl, rfl⟩ | ⟨rfl, rfl⟩
    · obtain rfl : b = .object [("c", .object [("d", .null)])] := by simpa using hb
      refine .objects fun key a b ha hb => ?_
      rw [List.mem_singleton, Prod.mk.injEq] at ha hb
      exact absurd (ha.1.symm.trans hb.1) (by decide)
    · obtain rfl : b = .null := by simpa using hb
      exact .equal (.refl .null)
    · obtain rfl : b = .string "s" := by simpa using hb
      exact .equal (.refl _)
  exact ⟨hleft, hright, hcompatible, htarget,
    patches_commute leftPatch hleft hright hcompatible htarget, by decide +kernel⟩

end Patch

end ApiTypes
