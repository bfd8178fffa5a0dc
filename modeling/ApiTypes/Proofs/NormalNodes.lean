import ApiTypes.Proofs.NormalForm

/-!
# What becomes of the nodes of a schema

Every node of a schema has its place in the normal form, and the order of nodes is
kept.  A node keeps everything but its type keywords; these stay too, unless it is
mixed: then they stand on one more member at the end of its composite, with the
children they have.  Apart from these members nothing is added.
-/

namespace ApiTypes.Schema

def propertyNames (s : Schema) : Option (List String) :=
  s.properties.map fun properties => properties.map Prod.fst

/-- What does not describe a type by itself is the same on `m` as on `n`. -/
structure SameFrame (n m : Schema) : Prop where
  nullable : m.nullable = n.nullable
  extra : m.extra = n.extra
  composites : ∀ k ∈ compositeKeywords, m.has k = n.has k

/-- The type keywords are the same on `m` as on `n`, apart from the items and the
properties themselves. -/
structure SameTypePart (n m : Schema) : Prop where
  reference : m.reference = n.reference
  type : m.type = n.type
  item : m.items.isSome = n.items.isSome
  names : m.propertyNames = n.propertyNames
  required : m.required = n.required
  enum : m.enum = n.enum

/-- Nothing but type keywords is present. -/
structure Bare (m : Schema) : Prop where
  nullable : m.nullable = none
  extra : m.extra = []
  composites : ∀ k ∈ compositeKeywords, m.has k = false

/-- The branch behind all members that `n` has under `k`. -/
def behind (n : Schema) (k : Keyword) : Branch := ⟨k, (n.children k).length⟩

/-- Every node of `s` is found in `t` at its place, and `t` has no other nodes but
one member for each mixed node of `s`, which holds its type keywords. -/
structure Correspondence (s t : Schema) (place : Address → Address) : Prop where
  ordered : ∀ a b, s.IsNode a → s.IsNode b → Address.Before a b →
    Address.Before (place a) (place b)
  kept : ∀ a n, s.at? a = some n → ∃ m, t.at? (place a) = some m ∧ SameFrame n m
  members : ∀ a n, s.at? a = some n → ∀ k ∈ compositeKeywords, ∀ i < (n.children k).length,
    place (a ++ [⟨k, i⟩]) = place a ++ [⟨k, i⟩]
  unmixed : ∀ a n, s.at? a = some n → ¬ n.Mixed →
    ∃ m, t.at? (place a) = some m ∧ SameTypePart n m ∧
      (∀ k ∈ compositeKeywords, (m.children k).length = (n.children k).length) ∧
      ∀ k ∈ typeKeywords, ∀ i < (n.children k).length,
        place (a ++ [⟨k, i⟩]) = place a ++ [⟨k, i⟩]
  mixed : ∀ a n k, s.at? a = some n → n.MixesAt k →
    ∃ m, t.at? (place a) = some m ∧ (∀ word ∈ typeKeywords, m.has word = false) ∧
      (m.children k).length = (n.children k).length + 1 ∧
      ∃ member, t.at? (place a ++ [n.behind k]) = some member ∧ SameTypePart n member ∧
        Bare member ∧ ∀ word ∈ typeKeywords, ∀ i < (n.children word).length,
          place (a ++ [⟨word, i⟩]) = place a ++ [n.behind k, ⟨word, i⟩]
  added : ∀ b, t.IsNode b → ((∀ a, s.IsNode a → place a ≠ b) ↔
    ∃! a, ∃ n k, s.at? a = some n ∧ n.MixesAt k ∧ place a ++ [n.behind k] = b)

/-! ### Places -/

/-- Where the type keywords of a node stand, seen from its place. -/
def host (s : Schema) : Address :=
  match s.composites with
  | [k] => if s.hasTypeKeyword then [s.behind k] else []
  | _ => []

/-- Where a child of a node stands, seen from the place of the node. -/
def trail (s : Schema) (b : Branch) : Address :=
  if b.keyword ∈ compositeKeywords then [b] else s.host ++ [b]

/-- Where the node at an address stands in the normal form. -/
def place (s : Schema) : Address → Address
  | [] => []
  | b :: rest => s.trail b ++ ((s.child? b).elim rest fun c => c.place rest)

variable {s n c : Schema} {k : Keyword} {b b' : Branch} {a a' : Address}

theorem host_of_mixesAt (h : s.MixesAt k) : s.host = [s.behind k] := by
  obtain ⟨hone, htype⟩ := mixesAt_iff.mp h
  simp only [host, hone, htype, if_true]

theorem host_of_not_mixed (h : ¬ s.Mixed) : s.host = [] := by
  unfold host
  split
  · rename_i k hone
    rw [if_neg]
    exact fun htype => h ⟨k, mixesAt_iff.mpr ⟨hone, htype⟩⟩
  · rfl

theorem host_cases (s : Schema) :
    ¬ s.Mixed ∧ s.host = [] ∨ ∃ k, s.MixesAt k ∧ s.host = [s.behind k] := by
  by_cases h : s.Mixed
  · obtain ⟨k, hk⟩ := h
    exact .inr ⟨k, hk, host_of_mixesAt hk⟩
  · exact .inl ⟨h, host_of_not_mixed h⟩

theorem trail_of_mem (h : b.keyword ∈ compositeKeywords) : s.trail b = [b] := if_pos h

theorem trail_of_notMem (h : b.keyword ∉ compositeKeywords) : s.trail b = s.host ++ [b] := if_neg h

theorem trail_of_not_mixed (h : ¬ s.Mixed) (b : Branch) : s.trail b = [b] := by
  rw [trail, host_of_not_mixed h]
  exact ite_self [b]

theorem place_cons (h : s.child? b = some c) (rest : Address) :
    s.place (b :: rest) = s.trail b ++ c.place rest := by
  rw [place, h]
  rfl

theorem place_append (h : s.at? a = some n) (rest : Address) :
    s.place (a ++ rest) = s.place a ++ n.place rest := by
  induction a generalizing s with
  | nil =>
    obtain rfl := Option.some.inj h
    rfl
  | cons b a ih =>
    obtain ⟨c, hc, ha⟩ := at?_cons_eq_some_iff.mp h
    rw [List.cons_append, place_cons hc, place_cons hc, ih ha, List.append_assoc]

theorem place_branch (h : s.at? a = some n) (b : Branch) :
    s.place (a ++ [b]) = s.place a ++ n.trail b := by
  rw [place_append h, place]
  cases n.child? b with
  | none => rw [Option.elim_none, List.append_nil]
  | some c => rw [Option.elim_some, place, List.append_nil]

/-! ### Children -/

theorem has_of_child? (h : s.child? b = some c) : s.has b.keyword = true := by
  cases hk : s.has b.keyword with
  | true => rfl
  | false =>
    have hmem := mem_children_of_child? h
    rw [children_eq_nil_of_has_eq_false hk] at hmem
    cases hmem

theorem MixesAt.keyword_eq (h : s.MixesAt k) (hb : b.keyword ∈ compositeKeywords)
    (hc : s.child? b = some c) : b.keyword = k := by
  have hmem : b.keyword ∈ compositeKeywords.filter s.has :=
    List.mem_filter.mpr ⟨hb, has_of_child? hc⟩
  rw [h.only] at hmem
  exact List.mem_singleton.mp hmem

theorem MixesAt.mem (h : s.MixesAt k) : k ∈ compositeKeywords :=
  mem_compositeKeywords (mixesAt_iff.mp h).1

theorem behind_ne_of_child? (hc : s.child? b = some c) (k : Keyword) : s.behind k ≠ b := by
  rintro rfl
  obtain ⟨hlt, -⟩ := child?_eq_some_iff.mp hc
  exact Nat.lt_irrefl _ hlt

theorem keyword_of_child? (h : s.child? b = some c) (hb : b.keyword ∉ compositeKeywords) :
    b.keyword = .items ∨ b.keyword = .properties := by
  have hmem := mem_children_of_child? h
  revert hb hmem
  cases b.keyword <;> simp [compositeKeywords, children]

theorem not_mixed_typePart (s : Schema) : ¬ s.typePart.Mixed := by
  rw [mixed_iff]
  exact fun h => Nat.zero_ne_one h.1

theorem children_typePart (s : Schema) (k : Keyword) :
    s.typePart.children k = if k ∈ compositeKeywords then [] else s.children k := by
  cases k <;> rfl

theorem child?_typePart_eq_some_iff :
    s.typePart.child? b = some c ↔ b.keyword ∉ compositeKeywords ∧ s.child? b = some c := by
  rw [child?, children_typePart, child?]
  by_cases hb : b.keyword ∈ compositeKeywords <;> simp [hb]

theorem child?_normalize_of_not_mixed (h : ¬ s.Mixed) (b : Branch) :
    s.normalize.child? b = (s.child? b).map normalize := by
  rw [child?, normalize_of_not_mixed h, children_withNormalChildren, List.getElem?_map, child?]

theorem child?_normalize_behind (h : s.MixesAt k) :
    s.normalize.child? (s.behind k) = some s.typePart.normalize := by
  rw [child?, children_normalize_of_mixesAt h, behind, if_pos rfl]
  simp

theorem child?_normalize_of_mem (hb : b.keyword ∈ compositeKeywords) (hc : s.child? b = some c) :
    s.normalize.child? b = some c.normalize := by
  by_cases hm : s.Mixed
  · obtain ⟨k, hk⟩ := hm
    obtain ⟨hlt, hget⟩ := child?_eq_some_iff.mp hc
    obtain rfl := hk.keyword_eq hb hc
    rw [child?, children_normalize_of_mixesAt hk, if_pos rfl,
      List.getElem?_append_left (by rwa [List.length_map])]
    simp [hlt, hget]
  · rw [child?_normalize_of_not_mixed hm, hc]
    rfl

theorem exists_child?_of_normalize (h : s.MixesAt k) (hc : s.normalize.child? b = some c)
    (hb : s.behind k ≠ b) :
    ∃ c' : Schema, b.keyword = k ∧ s.child? b = some c' ∧ c'.normalize = c := by
  rw [child?, children_normalize_of_mixesAt h] at hc
  split at hc
  · rename_i hkey
    subst hkey
    obtain hlt | hge := Nat.lt_or_ge b.position (s.children b.keyword).length
    · rw [List.getElem?_append_left (by rwa [List.length_map]), List.getElem?_map] at hc
      obtain ⟨c', hc', rfl⟩ := Option.map_eq_some_iff.mp hc
      exact ⟨c', rfl, hc', rfl⟩
    · -- behind the members there is one position, and that is not where `b` leads
      have hne : b.position ≠ (s.children b.keyword).length := by
        intro he
        exact hb (by rw [behind, ← he])
      obtain ⟨hlt, -⟩ := List.getElem?_eq_some_iff.mp hc
      simp only [List.length_append, List.length_map, List.length_singleton] at hlt
      omega
  · cases hc

theorem at?_trail (hc : s.child? b = some c) :
    s.normalize.at? (s.trail b) = some c.normalize := by
  by_cases hb : b.keyword ∈ compositeKeywords
  · rw [trail_of_mem hb, at?_branch]
    exact child?_normalize_of_mem hb hc
  · obtain ⟨hm, hhost⟩ | ⟨k, hk, hhost⟩ := host_cases s
    · rw [trail_of_not_mixed hm, at?_branch, child?_normalize_of_not_mixed hm, hc]
      rfl
    · have htype : s.typePart.child? b = some c := child?_typePart_eq_some_iff.mpr ⟨hb, hc⟩
      rw [trail_of_notMem hb, hhost, List.singleton_append, at?, child?_normalize_behind hk,
        Option.bind_some, at?_branch, child?_normalize_of_not_mixed (not_mixed_typePart s), htype]
      rfl

/-- What stands at the place of a node is its normal form. -/
theorem at?_place (h : s.at? a = some n) : s.normalize.at? (s.place a) = some n.normalize := by
  induction a generalizing s with
  | nil =>
    obtain rfl := Option.some.inj h
    rfl
  | cons b a ih =>
    obtain ⟨c, hc, ha⟩ := at?_cons_eq_some_iff.mp h
    rw [place_cons hc, at?_append, at?_trail hc, Option.bind_some, ih ha]

/-! ### Places are distinct and in order -/

theorem trail_append_inj (hc : s.child? b = some c) (hc' : s.child? b' = some n)
    {rest rest' : Address} (h : s.trail b ++ rest = s.trail b' ++ rest') :
    b = b' ∧ rest = rest' := by
  by_cases hb : b.keyword ∈ compositeKeywords <;> by_cases hb' : b'.keyword ∈ compositeKeywords
  · rw [trail_of_mem hb, trail_of_mem hb'] at h
    exact List.cons_eq_cons.mp h
  · rw [trail_of_mem hb, trail_of_notMem hb'] at h
    obtain ⟨-, hhost⟩ | ⟨k, -, hhost⟩ := host_cases s
    · rw [hhost] at h
      obtain rfl := (List.cons_eq_cons.mp h).1
      exact absurd hb hb'
    · rw [hhost] at h
      exact absurd (List.cons_eq_cons.mp h).1.symm (behind_ne_of_child? hc k)
  · rw [trail_of_notMem hb, trail_of_mem hb'] at h
    obtain ⟨-, hhost⟩ | ⟨k, -, hhost⟩ := host_cases s
    · rw [hhost] at h
      obtain rfl := (List.cons_eq_cons.mp h).1
      exact absurd hb' hb
    · rw [hhost] at h
      exact absurd (List.cons_eq_cons.mp h).1 (behind_ne_of_child? hc' k)
  · rw [trail_of_notMem hb, trail_of_notMem hb', List.append_assoc, List.append_assoc] at h
    exact List.cons_eq_cons.mp (List.append_cancel_left h)

theorem trail_ne_nil (s : Schema) (b : Branch) : s.trail b ≠ [] := by
  unfold trail
  split <;> simp

theorem place_inj (ha : s.IsNode a) (ha' : s.IsNode a') (h : s.place a = s.place a') : a = a' := by
  induction a generalizing s a' with
  | nil =>
    cases a' with
    | nil => rfl
    | cons b' a' =>
      rw [place, place] at h
      exact absurd (List.append_eq_nil_iff.mp h.symm).1 (trail_ne_nil s b')
  | cons b a ih =>
    cases a' with
    | nil =>
      rw [place, place] at h
      exact absurd (List.append_eq_nil_iff.mp h).1 (trail_ne_nil s b)
    | cons b' a' =>
      obtain ⟨_, hn⟩ := ha
      obtain ⟨_, hn'⟩ := ha'
      obtain ⟨c, hc, hrest⟩ := at?_cons_eq_some_iff.mp hn
      obtain ⟨c', hc', hrest'⟩ := at?_cons_eq_some_iff.mp hn'
      rw [place_cons hc, place_cons hc'] at h
      obtain ⟨rfl, hplace⟩ := trail_append_inj hc hc' h
      obtain rfl := Option.some.inj (hc.symm.trans hc')
      rw [ih ⟨_, hrest⟩ ⟨_, hrest'⟩ hplace]

/-- No node has its place where the type keywords of a mixed node went. -/
theorem place_ne_behind (ha : s.IsNode a) (ha' : s.at? a' = some n) (k : Keyword)
    (hk : n.MixesAt k) : s.place a ≠ s.place a' ++ [n.behind k] := by
  induction a' generalizing s a with
  | nil =>
    obtain rfl := Option.some.inj ha'
    intro h
    cases a with
    | nil => cases h
    | cons b a =>
      obtain ⟨_, hn⟩ := ha
      obtain ⟨c, hc, -⟩ := at?_cons_eq_some_iff.mp hn
      rw [place_cons hc, place, List.nil_append] at h
      by_cases hb : b.keyword ∈ compositeKeywords
      · rw [trail_of_mem hb] at h
        exact absurd (List.cons_eq_cons.mp h).1.symm (behind_ne_of_child? hc k)
      · rw [trail_of_notMem hb, host_of_mixesAt hk] at h
        cases (List.cons_eq_cons.mp h).2
  | cons b' a' ih =>
    obtain ⟨c', hc', hrest'⟩ := at?_cons_eq_some_iff.mp ha'
    intro h
    rw [place_cons hc', List.append_assoc] at h
    cases a with
    | nil => exact absurd (List.append_eq_nil_iff.mp h.symm).1 (trail_ne_nil s b')
    | cons b a =>
      obtain ⟨_, hn⟩ := ha
      obtain ⟨c, hc, hrest⟩ := at?_cons_eq_some_iff.mp hn
      rw [place_cons hc] at h
      obtain ⟨rfl, hplace⟩ := trail_append_inj hc hc' h
      obtain rfl := Option.some.inj (hc.symm.trans hc')
      exact ih ⟨_, hrest⟩ hrest' hplace

theorem before_behind (hc : s.child? b = some c) (h : b.keyword = k) :
    Branch.Before b (s.behind k) := by
  subst h
  obtain ⟨hlt, -⟩ := child?_eq_some_iff.mp hc
  exact .inr ⟨rfl, hlt⟩

theorem not_before_of_mem (hb : b.keyword = .items ∨ b.keyword = .properties)
    (hb' : b'.keyword ∈ compositeKeywords) : ¬ Branch.Before b b' := by
  have key : ∀ x ∈ [Keyword.items, .properties], ∀ y ∈ compositeKeywords,
      ¬ Keyword.all.idxOf x < Keyword.all.idxOf y ∧ x ≠ y := by decide
  obtain ⟨hlt, hne⟩ := key b.keyword (by simpa using hb) b'.keyword hb'
  rintro (h | ⟨h, -⟩)
  · exact hlt h
  · exact hne h

theorem trail_before (hc : s.child? b = some c) (h : Branch.Before b b') (rest rest' : Address) :
    Address.Before (s.trail b ++ rest) (s.trail b' ++ rest') := by
  by_cases hb' : b'.keyword ∈ compositeKeywords
  · -- composite keywords stand before all others that have children
    have hb : b.keyword ∈ compositeKeywords := by
      by_contra hb
      exact not_before_of_mem (keyword_of_child? hc hb) hb' h
    rw [trail_of_mem hb, trail_of_mem hb']
    exact .rel h
  · rw [trail_of_notMem hb']
    by_cases hb : b.keyword ∈ compositeKeywords
    · rw [trail_of_mem hb]
      obtain ⟨-, hhost⟩ | ⟨k, hk, hhost⟩ := host_cases s
      · rw [hhost]
        exact .rel h
      · rw [hhost]
        exact .rel (before_behind hc (hk.keyword_eq hb hc))
    · rw [trail_of_notMem hb, List.append_assoc, List.append_assoc]
      exact List.Lex.append_left _ (.rel h) _

theorem place_before (ha : s.IsNode a) (ha' : s.IsNode a') (h : Address.Before a a') :
    Address.Before (s.place a) (s.place a') := by
  induction h generalizing s with
  | nil =>
    obtain ⟨x, xs, hx⟩ := List.exists_cons_of_ne_nil (trail_ne_nil s _)
    rw [place, place, hx]
    exact .nil
  | cons _ ih =>
    obtain ⟨_, hn⟩ := ha
    obtain ⟨_, hn'⟩ := ha'
    obtain ⟨c, hc, hrest⟩ := at?_cons_eq_some_iff.mp hn
    obtain ⟨c', hc', hrest'⟩ := at?_cons_eq_some_iff.mp hn'
    obtain rfl := Option.some.inj (hc.symm.trans hc')
    rw [place_cons hc, place_cons hc]
    exact List.Lex.append_left _ (ih ⟨_, hrest⟩ ⟨_, hrest'⟩) _
  | rel hbranch =>
    obtain ⟨_, hn⟩ := ha
    obtain ⟨_, hn'⟩ := ha'
    obtain ⟨c, hc, -⟩ := at?_cons_eq_some_iff.mp hn
    obtain ⟨c', hc', -⟩ := at?_cons_eq_some_iff.mp hn'
    rw [place_cons hc, place_cons hc']
    exact trail_before hc hbranch _ _

/-! ### No other nodes -/

/-- Whether an address of the normal form is the place of a node or that of a member
added for a mixed node. -/
def Accounted (s : Schema) (b : Address) : Prop :=
  (∃ a, s.IsNode a ∧ s.place a = b) ∨
    ∃ a n k, s.at? a = some n ∧ n.MixesAt k ∧ s.place a ++ [n.behind k] = b

theorem Accounted.below {rest : Address} (hc : s.child? b = some c) (h : c.Accounted rest) :
    s.Accounted (s.trail b ++ rest) := by
  obtain ⟨a, ⟨n, hn⟩, rfl⟩ | ⟨a, n, k, hn, hk, rfl⟩ := h
  · exact .inl ⟨b :: a, ⟨n, at?_cons_eq_some_iff.mpr ⟨c, hc, hn⟩⟩, place_cons hc a⟩
  · refine .inr ⟨b :: a, n, k, at?_cons_eq_some_iff.mpr ⟨c, hc, hn⟩, hk, ?_⟩
    rw [place_cons hc, List.append_assoc]

theorem accounted_of_isNode (s : Schema) : ∀ b, s.normalize.IsNode b → s.Accounted b := by
  induction s using induction_children with
  | step s ih =>
    rintro b ⟨m, hm⟩
    cases b with
    | nil => exact .inl ⟨[], ⟨s, rfl⟩, rfl⟩
    | cons x rest =>
      obtain ⟨d, hd, hrest⟩ := at?_cons_eq_some_iff.mp hm
      obtain ⟨hmixed, -⟩ | ⟨k, hk, hhost⟩ := host_cases s
      · rw [child?_normalize_of_not_mixed hmixed] at hd
        obtain ⟨c, hc, rfl⟩ := Option.map_eq_some_iff.mp hd
        have hbelow := (ih _ c (mem_children_of_child? hc) rest ⟨m, hrest⟩).below hc
        rwa [trail_of_not_mixed hmixed] at hbelow
      · obtain rfl | hx := eq_or_ne (s.behind k) x
        · -- the added member, or one of the children that moved with it
          obtain rfl := Option.some.inj (hd.symm.trans (child?_normalize_behind hk))
          cases rest with
          | nil => exact .inr ⟨[], s, k, rfl, hk, rfl⟩
          | cons y rest =>
            obtain ⟨d', hd', hrest'⟩ := at?_cons_eq_some_iff.mp hrest
            rw [child?_normalize_of_not_mixed (not_mixed_typePart s)] at hd'
            obtain ⟨c, htype, rfl⟩ := Option.map_eq_some_iff.mp hd'
            obtain ⟨hy, hc⟩ := child?_typePart_eq_some_iff.mp htype
            have hbelow := (ih _ c (mem_children_of_child? hc) rest ⟨m, hrest'⟩).below hc
            rwa [trail_of_notMem hy, hhost] at hbelow
        · obtain ⟨c, hkey, hc, rfl⟩ := exists_child?_of_normalize hk hd hx
          have hmem : x.keyword ∈ compositeKeywords := hkey ▸ hk.mem
          have hbelow := (ih _ c (mem_children_of_child? hc) rest ⟨m, hrest⟩).below hc
          rwa [trail_of_mem hmem] at hbelow

/-! ### What a node keeps -/

theorem has_withNormalChildren (s : Schema) (k : Keyword) :
    s.withNormalChildren.has k = s.has k := by
  have hlist : ∀ o : Option (List Schema), (normalizeOptionList o).isSome = o.isSome := by
    rintro (_ | members) <;> rfl
  cases k with
  | allOf => exact hlist s.allOf
  | anyOf => exact hlist s.anyOf
  | oneOf => exact hlist s.oneOf
  | items =>
    simp only [has, withNormalChildren]
    cases s.items <;> rfl
  | properties =>
    simp only [has, withNormalChildren]
    cases s.properties <;> rfl
  | reference | type | required | enum | nullable => rfl

theorem has_appendMember (s member : Schema) (k : Keyword) :
    (s.appendMember member).has k = s.has k := by
  unfold appendMember
  split <;> cases k <;> simp_all [has]

theorem sameFrame_normalize (s : Schema) : SameFrame s s.normalize := by
  by_cases h : s.Mixed
  · rw [normalize_of_mixed h]
    refine ⟨?_, ?_, ?_⟩
    · unfold appendMember
      split <;> rfl
    · unfold appendMember
      split <;> rfl
    · intro k hk
      rw [has_appendMember, ← has_withNormalChildren s]
      revert hk
      cases k <;> simp [compositeKeywords, has, withoutTypePart]
  · rw [normalize_of_not_mixed h]
    exact ⟨rfl, rfl, fun k _ => has_withNormalChildren s k⟩

theorem propertyNames_withNormalChildren (s : Schema) :
    s.withNormalChildren.propertyNames = s.propertyNames := by
  simp only [propertyNames, withNormalChildren]
  cases s.properties with
  | none => rfl
  | some properties =>
    simp only [normalizeOptionProperties, normalizeProperties_eq_map, Option.map_some,
      List.map_map]
    rfl

theorem sameTypePart_withNormalChildren (s : Schema) : SameTypePart s s.withNormalChildren :=
  ⟨rfl, rfl, has_withNormalChildren s .items, propertyNames_withNormalChildren s, rfl, rfl⟩

theorem sameTypePart_typePart (s : Schema) : SameTypePart s s.typePart.normalize := by
  rw [← typePart_withNormalChildren]
  exact ⟨rfl, rfl, has_withNormalChildren s .items, propertyNames_withNormalChildren s, rfl, rfl⟩

theorem bare_typePart (s : Schema) : Bare s.typePart.normalize := by
  rw [← typePart_withNormalChildren]
  refine ⟨rfl, rfl, ?_⟩
  intro k hk
  revert hk
  cases k <;> simp [compositeKeywords, has, typePart]

/-! ### The correspondence -/

theorem notMem_compositeKeywords (h : k ∈ typeKeywords) : k ∉ compositeKeywords := by
  revert h
  cases k <;> decide

/-- Normalizing keeps every node and its order, moves what is mixed as one whole,
and adds nothing but the members this takes. -/
theorem normalize_correspondence (s : Schema) :
    ∃ place, Correspondence s s.normalize place := by
  refine ⟨s.place, ?_, ?_, ?_, ?_, ?_, ?_⟩
  · exact fun a b ha hb h => place_before ha hb h
  · exact fun a n hn => ⟨n.normalize, at?_place hn, sameFrame_normalize n⟩
  · intro a n hn k hk i _
    rw [place_branch hn, trail_of_mem hk]
  · intro a n hn hm
    refine ⟨n.normalize, at?_place hn, ?_, ?_, ?_⟩
    · rw [normalize_of_not_mixed hm]
      exact sameTypePart_withNormalChildren n
    · intro k _
      rw [normalize_of_not_mixed hm, children_withNormalChildren, List.length_map]
    · intro k _ i _
      rw [place_branch hn, trail_of_not_mixed hm]
  · intro a n k hn hk
    refine ⟨n.normalize, at?_place hn, ?_, ?_, n.typePart.normalize, ?_,
      sameTypePart_typePart n, bare_typePart n, ?_⟩
    · intro word hword
      by_contra hhas
      have htype := (hasTypeKeyword_iff n.normalize).mpr ⟨word, hword, by simpa using hhas⟩
      rw [hasTypeKeyword_normalize_of_mixed ⟨k, hk⟩] at htype
      cases htype
    · rw [children_normalize_of_mixesAt hk, if_pos rfl, List.length_append, List.length_map,
        List.length_singleton]
    · rw [at?_append, at?_place hn, Option.bind_some, at?_branch, child?_normalize_behind hk]
    · intro word hword i _
      rw [place_branch hn, trail_of_notMem (notMem_compositeKeywords hword), host_of_mixesAt hk]
      rfl
  · intro b hb
    constructor
    · intro hnone
      obtain ⟨a, ha, hplace⟩ | ⟨a, n, k, hn, hk, hplace⟩ := accounted_of_isNode s b hb
      · exact absurd hplace (hnone a ha)
      · refine ⟨a, ⟨n, k, hn, hk, hplace⟩, ?_⟩
        rintro a' ⟨n', k', hn', -, hplace'⟩
        have hsame := List.append_inj' (hplace'.trans hplace.symm) rfl
        exact place_inj ⟨n', hn'⟩ ⟨n, hn⟩ hsame.1
    · rintro ⟨a, ⟨n, k, hn, hk, rfl⟩, -⟩ a' ha'
      exact place_ne_behind ha' hn k hk

/-- A property beside one member of `allOf` is found below a second member. -/
example : place { allOf := some [{}], properties := some [("x", {})] } [⟨.properties, 0⟩] =
    [⟨.allOf, 1⟩, ⟨.properties, 0⟩] := by decide

end ApiTypes.Schema
