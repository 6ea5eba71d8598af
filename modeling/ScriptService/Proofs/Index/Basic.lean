import ScriptService.Index.Basic
import ScriptService.Proofs.Index.Bucket

/-!
# The index: writes, reads and look-ups

Each write changes one bucket of one tier (`getSelf_setSelf`, `getDynamic_setDynamic`,
…), and a look-up asks the three buckets of a document in turn (`locate?_eq`). All
buckets of an index have distinct keys (`Index.Distinct`), which every write keeps.
-/

namespace ScriptService

/-! ## Shelves -/

namespace Shelf

theorem get_set_self (s : Shelf) (key : String) (b : Bucket) : (s.set key b).get key = b := by
  induction s with
  | nil => rw [set, get, List.lookup_cons_self, Option.getD_some]
  | cons e s ih =>
    obtain ⟨k, c⟩ := e
    rw [set]
    split
    · rw [get, List.lookup_cons_self, Option.getD_some]
    · rename_i h
      rw [get] at ih ⊢
      rw [List.lookup_cons, beq_false_of_ne (Ne.symm h)]
      exact ih

theorem get_set_of_ne (s : Shelf) {k key : String} (h : k ≠ key) (b : Bucket) :
    (s.set key b).get k = s.get k := by
  induction s with
  | nil => rw [set, get, List.lookup_cons, beq_false_of_ne h, get]
  | cons e s ih =>
    obtain ⟨k', c⟩ := e
    simp only [get] at ih ⊢
    rw [set]
    split
    · rename_i e
      rw [List.lookup_cons, List.lookup_cons, e, beq_false_of_ne h]
    · rw [List.lookup_cons, List.lookup_cons]
      split
      · rfl
      · exact ih

theorem set_set (s : Shelf) (key : String) (b c : Bucket) : (s.set key b).set key c = s.set key c := by
  induction s with
  | nil => exact if_pos rfl
  | cons e s ih =>
    obtain ⟨k, d⟩ := e
    rw [set, set]
    split
    · rw [set, if_pos rfl]
    · rename_i h
      rw [set, if_neg h, ih]

theorem get_drop (s : Shelf) (k key : String) :
    (s.drop key).get k = if k = key then [] else s.get k := by
  induction s with
  | nil => simp [drop, get]
  | cons e s ih =>
    obtain ⟨k', c⟩ := e
    simp only [drop, get] at ih ⊢
    by_cases h : k' = key
    · rw [List.filter_cons_of_neg (by simpa using h), ih]
      split
      · rfl
      · rename_i hk
        rw [List.lookup_cons, h, beq_false_of_ne hk]
    · rw [List.filter_cons_of_pos (by simpa using h), List.lookup_cons, List.lookup_cons]
      by_cases hk : k = k'
      · rw [hk, beq_self_eq_true, if_neg h]
      · rw [beq_false_of_ne hk]
        exact ih

end Shelf

namespace Index

/-! ## Reads after writes -/

theorem getSelf_setSelf (i : Index) (p path : String) (symbols : List Symbol) :
    (i.setSelf path symbols).getSelf p =
      if p = path then Bucket.ofSymbols symbols else i.getSelf p := by
  split
  · rename_i h
    rw [h]
    exact Shelf.get_set_self i.self path _
  · rename_i h
    exact Shelf.get_set_of_ne i.self h _

theorem getStatic_setStatic (i : Index) (m language : String) (symbols : List Symbol) :
    (i.setStatic language symbols).getStatic m =
      if m = language then Bucket.ofSymbols symbols else i.getStatic m := by
  split
  · rename_i h
    rw [h]
    exact Shelf.get_set_self i.static language _
  · rename_i h
    exact Shelf.get_set_of_ne i.static h _

theorem getDynamic_setDynamic (i : Index) (m language : String) (symbols : List Symbol) :
    (i.setDynamic language symbols).getDynamic m =
      if m = language then Bucket.ofSymbols symbols else i.getDynamic m := by
  split
  · rename_i h
    rw [h]
    exact Shelf.get_set_self i.dynamic language _
  · rename_i h
    exact Shelf.get_set_of_ne i.dynamic h _

theorem getSelf_dropSelf (i : Index) (p path : String) :
    (i.dropSelf path).getSelf p = if p = path then [] else i.getSelf p :=
  Shelf.get_drop i.self p path

@[simp] theorem getSelf_setStatic (i : Index) (p language : String) (symbols : List Symbol) :
    (i.setStatic language symbols).getSelf p = i.getSelf p := rfl

@[simp] theorem getSelf_setDynamic (i : Index) (p language : String) (symbols : List Symbol) :
    (i.setDynamic language symbols).getSelf p = i.getSelf p := rfl

@[simp] theorem getStatic_setSelf (i : Index) (m path : String) (symbols : List Symbol) :
    (i.setSelf path symbols).getStatic m = i.getStatic m := rfl

@[simp] theorem getStatic_setDynamic (i : Index) (m language : String) (symbols : List Symbol) :
    (i.setDynamic language symbols).getStatic m = i.getStatic m := rfl

@[simp] theorem getDynamic_setSelf (i : Index) (m path : String) (symbols : List Symbol) :
    (i.setSelf path symbols).getDynamic m = i.getDynamic m := rfl

@[simp] theorem getDynamic_setStatic (i : Index) (m language : String) (symbols : List Symbol) :
    (i.setStatic language symbols).getDynamic m = i.getDynamic m := rfl

@[simp] theorem getStatic_dropSelf (i : Index) (m path : String) :
    (i.dropSelf path).getStatic m = i.getStatic m := rfl

@[simp] theorem getDynamic_dropSelf (i : Index) (m path : String) :
    (i.dropSelf path).getDynamic m = i.getDynamic m := rfl

/-! ## Look-ups -/

/-- The first tier that has a name answers for it. -/
theorem locate?_eq (i : Index) (language path name : String) :
    i.locate? language path name =
      (((i.getSelf path).find? name).map (Tier.self, ·)).or
        ((((i.getStatic language).find? name).map (Tier.static, ·)).or
          (((i.getDynamic language).find? name).map (Tier.dynamic, ·))) := by
  simp only [locate?, tiers, List.findSome?_cons, List.findSome?_nil]
  cases (i.getSelf path).find? name <;> cases (i.getStatic language).find? name <;>
    cases (i.getDynamic language).find? name <;> rfl

/-! ## Distinct keys -/

/-- In every bucket of an index the keys are distinct. -/
structure Distinct (i : Index) : Prop where
  self : ∀ path, Bucket.Distinct (i.getSelf path)
  static : ∀ language, Bucket.Distinct (i.getStatic language)
  dynamic : ∀ language, Bucket.Distinct (i.getDynamic language)

theorem distinct_empty : Distinct {} :=
  ⟨fun _ => List.nodup_nil, fun _ => List.nodup_nil, fun _ => List.nodup_nil⟩

theorem Distinct.setSelf {i : Index} (h : i.Distinct) (path : String) (symbols : List Symbol) :
    (i.setSelf path symbols).Distinct := by
  refine ⟨fun p => ?_, h.static, h.dynamic⟩
  rw [getSelf_setSelf]
  split
  · exact Bucket.distinct_ofSymbols symbols
  · exact h.self p

theorem Distinct.setStatic {i : Index} (h : i.Distinct) (language : String) (symbols : List Symbol) :
    (i.setStatic language symbols).Distinct := by
  refine ⟨h.self, fun m => ?_, h.dynamic⟩
  rw [getStatic_setStatic]
  split
  · exact Bucket.distinct_ofSymbols symbols
  · exact h.static m

theorem Distinct.setDynamic {i : Index} (h : i.Distinct) (language : String) (symbols : List Symbol) :
    (i.setDynamic language symbols).Distinct := by
  refine ⟨h.self, h.static, fun m => ?_⟩
  rw [getDynamic_setDynamic]
  split
  · exact Bucket.distinct_ofSymbols symbols
  · exact h.dynamic m

theorem Distinct.dropSelf {i : Index} (h : i.Distinct) (path : String) :
    (i.dropSelf path).Distinct := by
  refine ⟨fun p => ?_, h.static, h.dynamic⟩
  rw [getSelf_dropSelf]
  split
  · exact List.nodup_nil
  · exact h.self p

end Index

end ScriptService
