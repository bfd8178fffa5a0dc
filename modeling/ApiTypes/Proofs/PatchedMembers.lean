import ApiTypes.Patch
import ApiTypes.Proofs.DistinctKeys

/-!
# Members under a patch

A patch is applied member by member: `null` takes its key out, any other value is put in
the place of its key, or at the end where the key is new.  So the keys after a patch are
the former ones without those removed, and behind them the new ones in the order of the
patch; the value under a key is settled by what stood there and what the patch has there;
and members that no member of the patch names are left alone.
-/

namespace ApiTypes.Patch

/-- The members after one member of a patch. -/
def applyMember (members : List (String × Json)) : String × Json → List (String × Json)
  | (key, .null) => Members.erase key members
  | (key, value) =>
    Members.insert key (merge ((Members.find? members key).getD .null) value) members

theorem applyMember_null (members : List (String × Json)) (key : String) :
    applyMember members (key, .null) = Members.erase key members := rfl

theorem applyMember_of_ne_null (members : List (String × Json)) (key : String) {value : Json}
    (h : value ≠ .null) : applyMember members (key, value) =
      Members.insert key (merge ((Members.find? members key).getD .null) value) members := by
  cases value with
  | null => exact absurd rfl h
  | _ => rfl

theorem mergeMembers_cons (members : List (String × Json)) (m : String × Json)
    (rest : List (String × Json)) :
    mergeMembers members (m :: rest) = mergeMembers (applyMember members m) rest := by
  obtain ⟨key, value⟩ := m
  cases value with
  | null => rw [mergeMembers, applyMember]
  | _ =>
    rw [mergeMembers, applyMember]
    · intro h
      cases h
    · intro h
      cases h

/-! ### Keys -/

theorem keys_erase (key : String) (members : List (String × Json)) :
    (Members.erase key members).map Prod.fst =
      (members.map Prod.fst).filter fun k => k ≠ key := by
  rw [Members.erase, List.filter_map]
  rfl

/-- Removed keys go, the others stay in order, and new keys follow in the order of the patch. -/
theorem keys_mergeMembers {patch : List (String × Json)} (h : (patch.map Prod.fst).Nodup)
    (members : List (String × Json)) :
    (mergeMembers members patch).map Prod.fst =
      (members.map Prod.fst).filter (fun key => (key, Json.null) ∉ patch) ++
        (patch.filter fun m => m.2 ≠ .null ∧ m.1 ∉ members.map Prod.fst).map Prod.fst := by
  induction patch generalizing members with
  | nil => simp [mergeMembers]
  | cons m rest ih =>
    obtain ⟨key, value⟩ := m
    rw [List.map_cons, List.nodup_cons] at h
    have hother : ∀ m ∈ rest, m.1 ≠ key := by
      intro m hm he
      exact h.1 (List.mem_map.mpr ⟨m, hm, he⟩)
    rw [mergeMembers_cons, ih h.2]
    by_cases hnull : value = .null
    · subst hnull
      rw [applyMember_null, keys_erase, List.filter_filter]
      congr 1
      · refine List.filter_congr fun k _ => ?_
        simp [Bool.and_comm]
      · rw [List.filter_cons_of_neg (by simp)]
        congr 1
        refine List.filter_congr fun m hm => decide_eq_decide.mpr ?_
        rw [List.mem_filter, decide_eq_true (hother m hm)]
        simp
    · rw [applyMember_of_ne_null members key hnull, Members.keys_insert]
      have hkept : ∀ k : String, (k, Json.null) ∉ (key, value) :: rest ↔ (k, Json.null) ∉ rest := by
        intro k
        rw [List.mem_cons, not_or, and_iff_right]
        intro he
        exact hnull (congrArg Prod.snd he).symm
      simp only [hkept]
      by_cases hkey : key ∈ members.map Prod.fst
      · rw [if_pos hkey, List.filter_cons_of_neg (by simp [hkey])]
      · have hlast : (key, Json.null) ∉ rest := fun hmem => hother _ hmem rfl
        rw [if_neg hkey, List.filter_cons_of_pos (by simp [hkey, hnull]), List.filter_append,
          List.filter_cons_of_pos (by simpa using hlast), List.filter_nil, List.append_assoc,
          List.map_cons, List.singleton_append]
        congr 3
        refine List.filter_congr fun m hm => decide_eq_decide.mpr ?_
        rw [List.mem_append, List.mem_singleton, or_iff_left (hother m hm)]

theorem nodup_keys_mergeMembers {members patch : List (String × Json)}
    (hmembers : (members.map Prod.fst).Nodup) (hpatch : (patch.map Prod.fst).Nodup) :
    ((mergeMembers members patch).map Prod.fst).Nodup := by
  rw [keys_mergeMembers hpatch, List.nodup_append]
  refine ⟨hmembers.filter _, hpatch.sublist (List.filter_sublist.map _), ?_⟩
  rintro key hold _ hnew rfl
  obtain ⟨m, hm, rfl⟩ := List.mem_map.mp hnew
  have hfresh := (List.mem_filter.mp hm).2
  simp only [decide_eq_true_eq] at hfresh
  exact hfresh.2 (List.mem_of_mem_filter hold)

/-! ### Values -/

/-- What comes to stand under a key, by what stood there and what a patch has there. -/
def patchedValue (old : Option Json) : Option Json → Option Json
  | none => old
  | some .null => none
  | some value => some (merge (old.getD .null) value)

theorem patchedValue_of_ne_null (old : Option Json) {value : Json} (h : value ≠ .null) :
    patchedValue old (some value) = some (merge (old.getD .null) value) := by
  cases value with
  | null => exact absurd rfl h
  | _ => rfl

theorem find?_applyMember (members : List (String × Json)) (key : String) (value : Json)
    (k : String) : Members.find? (applyMember members (key, value)) k =
      if k = key then patchedValue (Members.find? members key) (some value)
      else Members.find? members k := by
  by_cases hnull : value = .null
  · rw [hnull, applyMember_null, Members.find?_erase]
    rfl
  · rw [applyMember_of_ne_null members key hnull, Members.find?_insert,
      patchedValue_of_ne_null _ hnull]

theorem find?_mergeMembers {patch : List (String × Json)} (h : (patch.map Prod.fst).Nodup)
    (members : List (String × Json)) (key : String) :
    Members.find? (mergeMembers members patch) key =
      patchedValue (Members.find? members key) (Members.find? patch key) := by
  induction patch generalizing members with
  | nil =>
    rw [mergeMembers]
    rfl
  | cons m rest ih =>
    obtain ⟨name, value⟩ := m
    rw [List.map_cons, List.nodup_cons] at h
    rw [mergeMembers_cons, ih h.2, find?_applyMember, Members.find?_cons]
    by_cases hkey : key = name
    · have hrest : Members.find? rest name = none := Members.find?_eq_none_iff.mpr h.1
      rw [if_pos hkey, if_pos hkey, hkey, hrest]
      rfl
    · rw [if_neg hkey, if_neg hkey]

theorem find?_targetMembers (target : Json) (key : String) :
    Members.find? (targetMembers target) key = target.member? key := by
  cases target <;> rfl

theorem merge_object (target : Json) (patch : List (String × Json)) :
    merge target (.object patch) = .object (mergeMembers (targetMembers target) patch) := by
  rw [merge]

theorem merge_merge_object (target : Json) (p q : List (String × Json)) :
    merge (merge target (.object p)) (.object q) =
      .object (mergeMembers (mergeMembers (targetMembers target) p) q) := by
  rw [merge_object, merge_object, targetMembers]

theorem member?_merge_object {patch : List (String × Json)} (h : (patch.map Prod.fst).Nodup)
    (target : Json) (key : String) :
    (merge target (.object patch)).member? key =
      patchedValue (target.member? key) (Members.find? patch key) := by
  rw [merge_object, ← find?_targetMembers target]
  exact find?_mergeMembers h _ key

theorem merge_of_not_object (target : Json) {patch : Json}
    (h : ∀ members, patch ≠ .object members) : merge target patch = patch := by
  cases patch with
  | object members => exact absurd rfl (h members)
  | _ => rfl

/-! ### Members that are not named -/

theorem filter_applyMember {p : String × Json → Bool} {m : String × Json}
    (h : ∀ value, p (m.1, value) = false) (members : List (String × Json)) :
    (applyMember members m).filter p = members.filter p := by
  obtain ⟨key, value⟩ := m
  by_cases hnull : value = .null
  · subst hnull
    rw [applyMember_null, Members.erase, List.filter_filter]
    refine List.filter_congr fun m _ => ?_
    by_cases hm : m.1 = key
    · have hout : p m = false := by rw [← h m.2, ← hm]
      simp [hout]
    · simp [hm]
  · rw [applyMember_of_ne_null members key hnull]
    generalize merge ((Members.find? members key).getD .null) value = merged
    induction members with
    | nil => simp [Members.insert, h]
    | cons member rest ih =>
      obtain ⟨k, v⟩ := member
      rw [Members.insert]
      by_cases hk : k = key
      · subst hk
        rw [if_pos rfl, List.filter_cons_of_neg (by simp [h]),
          List.filter_cons_of_neg (by simp [h])]
      · rw [if_neg hk, List.filter_cons, List.filter_cons, ih]

/-- What holds of no member with a key of the patch singles out the same members before
and after it, in the same order. -/
theorem filter_mergeMembers {p : String × Json → Bool} {patch : List (String × Json)}
    (h : ∀ key ∈ patch.map Prod.fst, ∀ value, p (key, value) = false)
    (members : List (String × Json)) :
    (mergeMembers members patch).filter p = members.filter p := by
  induction patch generalizing members with
  | nil => rw [mergeMembers]
  | cons m rest ih =>
    rw [List.map_cons, List.forall_mem_cons] at h
    rw [mergeMembers_cons, ih h.2, filter_applyMember h.1]

end ApiTypes.Patch
