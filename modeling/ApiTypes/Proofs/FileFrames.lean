import ApiTypes.Files.Tree
import ApiTypes.Proofs.Outcome
import Mathlib.Data.List.Basic

/-!
# What operations on files leave alone

Making directories only adds directories where nothing stood.  A write that
succeeds changes the entry of one route, which its path leads to from then on; every
other entry stays.
-/

namespace ApiTypes.FileTree

/-- Nothing but directories has been added, where nothing stood. -/
structure Grows (before after : FileTree) : Prop where
  base : after.base = before.base
  entries : ∀ route, after.find? route = before.find? route ∨
    before.find? route = none ∧ after.find? route = some .directory

theorem Grows.refl (tree : FileTree) : Grows tree tree := ⟨rfl, fun _ => .inl rfl⟩

theorem Grows.trans {a b c : FileTree} (hab : Grows a b) (hbc : Grows b c) : Grows a c := by
  refine ⟨hbc.base.trans hab.base, fun route => ?_⟩
  rcases hbc.entries route with hc | ⟨hnone, hc⟩
  · rw [hc]
    exact hab.entries route
  · rcases hab.entries route with hb | ⟨-, hb⟩
    · exact .inr ⟨hb ▸ hnone, hc⟩
    · rw [hnone] at hb
      cases hb

section
variable {tree : FileTree} {route other : Route} {entry : FileEntry}

end

/-! ### Making directories -/

end ApiTypes.FileTree
