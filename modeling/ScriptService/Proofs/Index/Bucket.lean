import Mathlib.Data.List.Find
import Mathlib.Data.List.Induction
import Mathlib.Data.List.Nodup
import ScriptService.Index.Bucket

/-!
# Buckets: keys, entries and reloads

A bucket holds one symbol for each key, a name and a file (`Distinct`). What the
operations do is told by the order of the keys and the entry of each of them:

* `map_key_put`, `withKey?_put`: putting a symbol keeps the order of the keys and
  changes only the entry of its own;
* `distinct_ofSymbols`, `withKey?_ofSymbols`: of symbols with one key the last is
  kept;
* `ofSymbols_append`: lists that share no key are cut down apart, so the bucket
  of several files is made of theirs;
* `reload_eq_append`: a reload leaves the symbols of other files and adds those
  of the new text;
* `find?_eq_some_iff`: the last symbol of a name answers for it (`IsLast`);
* `find?_ofSymbols`: in one file, that is the last declaration of the name.
-/

namespace ScriptService

/-- What tells the symbols of a bucket apart. -/
def Symbol.key (s : Symbol) : String × String := (s.name, s.source)

theorem Symbol.sameKey_iff (a b : Symbol) : a.sameKey b = true ↔ a.key = b.key := by
  simp [sameKey, key]

namespace Bucket

/-- No two symbols have the same key. -/
def Distinct (b : List Symbol) : Prop := (b.map Symbol.key).Nodup

/-- The symbol with a key. -/
def withKey? (b : List Symbol) (k : String × String) : Option Symbol :=
  b.find? (·.key = k)

theorem Distinct.filter {b : List Symbol} (h : Distinct b) (p : Symbol → Bool) :
    Distinct (b.filter p) :=
  (List.filter_sublist.map Symbol.key).nodup h

/-! ## Putting a symbol -/

theorem put_cons_of_key {s t : Symbol} (h : t.key = s.key) (b : Bucket) :
    put s (t :: b) = s :: b := by
  rw [put, if_pos ((Symbol.sameKey_iff t s).mpr h)]

theorem put_cons_of_ne {s t : Symbol} (h : t.key ≠ s.key) (b : Bucket) :
    put s (t :: b) = t :: put s b := by
  rw [put, if_neg fun e => h ((Symbol.sameKey_iff t s).mp e)]

/-- A symbol with a new key is added at the end. -/
theorem put_append {s : Symbol} {a : List Symbol} (h : s.key ∉ a.map Symbol.key) (b : List Symbol) :
    put s (a ++ b) = a ++ put s b := by
  induction a with
  | nil => rfl
  | cons t a ih =>
    simp only [List.map_cons, List.mem_cons, not_or] at h
    rw [List.cons_append, put_cons_of_ne (Ne.symm h.1), ih h.2, List.cons_append]

theorem map_key_put (s : Symbol) (b : Bucket) :
    (put s b).map Symbol.key =
      if s.key ∈ b.map Symbol.key then b.map Symbol.key else b.map Symbol.key ++ [s.key] := by
  induction b with
  | nil => rfl
  | cons t b ih =>
    by_cases h : t.key = s.key
    · rw [put_cons_of_key h, if_pos (by simp [h])]
      simp [h]
    · rw [put_cons_of_ne h, List.map_cons, ih, List.map_cons]
      simp only [List.mem_cons, Ne.symm h, false_or]
      split <;> rfl

theorem withKey?_put (s : Symbol) (b : Bucket) (k : String × String) :
    withKey? (put s b) k = if s.key = k then some s else withKey? b k := by
  induction b with
  | nil => by_cases hk : s.key = k <;> simp [put, withKey?, hk]
  | cons t b ih =>
    simp only [withKey?] at ih ⊢
    by_cases h : t.key = s.key
    · rw [put_cons_of_key h, List.find?_cons, List.find?_cons, h]
      by_cases hk : s.key = k <;> simp [hk]
    · rw [put_cons_of_ne h, List.find?_cons, List.find?_cons, ih]
      by_cases hk : t.key = k
      · simp [hk, show s.key ≠ k from fun e => h (hk.trans e.symm)]
      · simp [hk]

theorem Distinct.put {b : Bucket} (h : Distinct b) (s : Symbol) : Distinct (put s b) := by
  rw [Distinct, map_key_put]
  split
  · exact h
  · rename_i hs
    rw [← List.concat_eq_append]
    exact List.Nodup.concat hs h

theorem mem_put {s x : Symbol} {b : Bucket} (h : x ∈ put s b) : x = s ∨ x ∈ b := by
  induction b with
  | nil => exact .inl (List.mem_singleton.mp h)
  | cons t b ih =>
    rw [put] at h
    split at h <;> rcases List.mem_cons.mp h with rfl | h
    · exact .inl rfl
    · exact .inr (List.mem_cons_of_mem _ h)
    · exact .inr List.mem_cons_self
    · exact (ih h).imp id (List.mem_cons_of_mem _)

/-! ## The bucket of some symbols -/

/-- A bucket once some symbols are put into it, one after the other. -/
def putAll (b : Bucket) (xs : List Symbol) : Bucket :=
  xs.foldl (fun b s => put s b) b

theorem putAll_cons (b : Bucket) (x : Symbol) (xs : List Symbol) :
    putAll b (x :: xs) = putAll (put x b) xs := rfl

theorem putAll_append (b : Bucket) (xs ys : List Symbol) :
    putAll b (xs ++ ys) = putAll (putAll b xs) ys :=
  List.foldl_append

theorem ofSymbols_append_eq_putAll (xs ys : List Symbol) :
    ofSymbols (xs ++ ys) = putAll (ofSymbols xs) ys :=
  putAll_append [] xs ys

theorem Distinct.putAll {b : Bucket} (h : Distinct b) (xs : List Symbol) : Distinct (putAll b xs) := by
  induction xs generalizing b with
  | nil => exact h
  | cons x xs ih => exact ih (h.put x)

theorem distinct_ofSymbols (xs : List Symbol) : Distinct (ofSymbols xs) :=
  Distinct.putAll (b := []) List.nodup_nil xs

theorem mem_putAll {b : Bucket} {xs : List Symbol} {x : Symbol} (h : x ∈ putAll b xs) :
    x ∈ b ∨ x ∈ xs := by
  induction xs generalizing b with
  | nil => exact .inl h
  | cons y xs ih =>
    rcases ih h with h | h
    · exact (mem_put h).elim (fun e => .inr (e ▸ List.mem_cons_self)) .inl
    · exact .inr (List.mem_cons_of_mem _ h)

theorem mem_of_mem_ofSymbols {xs : List Symbol} {x : Symbol} (h : x ∈ ofSymbols xs) : x ∈ xs :=
  (mem_putAll (b := []) h).resolve_left List.not_mem_nil

/-- Symbols whose keys are all new are added at the end. -/
theorem putAll_append_left {a : List Symbol} {xs : List Symbol}
    (h : ∀ x ∈ xs, x.key ∉ a.map Symbol.key) (b : List Symbol) :
    putAll (a ++ b) xs = a ++ putAll b xs := by
  induction xs generalizing b with
  | nil => rfl
  | cons x xs ih =>
    rw [putAll_cons, put_append (h x List.mem_cons_self),
      ih (fun y hy => h y (List.mem_cons_of_mem _ hy)), putAll_cons]

/-- Lists that share no key are cut down apart. -/
theorem ofSymbols_append {xs ys : List Symbol} (h : ∀ x ∈ xs, ∀ y ∈ ys, x.key ≠ y.key) :
    ofSymbols (xs ++ ys) = ofSymbols xs ++ ofSymbols ys := by
  have hd : ∀ y ∈ ys, y.key ∉ (ofSymbols xs).map Symbol.key := fun y hy hm => by
    obtain ⟨x, hx, hk⟩ := List.mem_map.mp hm
    exact h x (mem_of_mem_ofSymbols hx) y hy hk
  have := putAll_append_left hd []
  rwa [List.append_nil, ← ofSymbols_append_eq_putAll] at this

/-- Symbols with distinct keys are a bucket as they are. -/
theorem ofSymbols_of_distinct {xs : List Symbol} (h : Distinct xs) : ofSymbols xs = xs := by
  induction xs using List.reverseRecOn with
  | nil => rfl
  | append_singleton xs x ih =>
    have hx : ∀ y ∈ xs, ∀ z ∈ [x], y.key ≠ z.key := fun y hy z hz e => by
      obtain rfl := List.mem_singleton.mp hz
      rw [Distinct, List.map_append, List.nodup_append] at h
      exact h.2.2 _ (List.mem_map_of_mem hy) _ (List.mem_map_of_mem List.mem_cons_self) e
    have hxs : Distinct xs := (List.sublist_append_left xs [x]).map Symbol.key |>.nodup h
    rw [ofSymbols_append hx, ih hxs]
    rfl

theorem withKey?_putAll (b : Bucket) (xs : List Symbol) (k : String × String) :
    withKey? (putAll b xs) k = (withKey? xs.reverse k).or (withKey? b k) := by
  induction xs generalizing b with
  | nil => rfl
  | cons x xs ih =>
    rw [putAll_cons, ih, withKey?_put]
    simp only [withKey?, List.reverse_cons, List.find?_append, List.find?_singleton, Option.or_assoc]
    by_cases hk : x.key = k <;> simp [hk]

/-- Of symbols with one key the last is kept. -/
theorem withKey?_ofSymbols (xs : List Symbol) (k : String × String) :
    withKey? (ofSymbols xs) k = withKey? xs.reverse k := by
  have := withKey?_putAll [] xs k
  rwa [show withKey? [] k = none from rfl, Option.or_none] at this

/-- A symbol is the last one with its key. -/
def IsLastOfKey (xs : List Symbol) (x : Symbol) : Prop :=
  ∃ earlier later, xs = earlier ++ x :: later ∧ ∀ y ∈ later, y.key ≠ x.key

theorem withKey?_reverse_eq_some_iff {xs : List Symbol} {x : Symbol} :
    withKey? xs.reverse x.key = some x ↔ IsLastOfKey xs x := by
  rw [withKey?, List.find?_eq_some_iff_append]
  constructor
  · rintro ⟨-, later, earlier, hxs, hlater⟩
    refine ⟨earlier.reverse, later.reverse, ?_, fun y hy => ?_⟩
    · rw [← List.reverse_reverse xs, hxs]
      simp
    · simpa using hlater y (List.mem_reverse.mp hy)
  · rintro ⟨earlier, later, rfl, hlater⟩
    refine ⟨decide_eq_true rfl, later.reverse, earlier.reverse, by simp, fun y hy => ?_⟩
    simpa using hlater y (List.mem_reverse.mp hy)

theorem withKey?_eq_none {b : List Symbol} {k : String × String} :
    withKey? b k = none ↔ k ∉ b.map Symbol.key := by
  simp [withKey?, List.find?_eq_none]

theorem Distinct.withKey?_of_mem {b : Bucket} (h : Distinct b) {x : Symbol} (hx : x ∈ b) :
    withKey? b x.key = some x := by
  induction b with
  | nil => cases hx
  | cons y b ih =>
    obtain ⟨hy, hb⟩ := List.nodup_cons.mp h
    rw [withKey?, List.find?_cons]
    rcases List.mem_cons.mp hx with rfl | hx
    · rw [decide_eq_true rfl]
    · have hne : y.key ≠ x.key := fun e => hy (e ▸ List.mem_map_of_mem hx)
      rw [decide_eq_false hne]
      exact ih hb hx

/-- What is kept of two lists comes from the second, or from the first if the second has none with its
key. -/
theorem mem_ofSymbols_append {xs ys : List Symbol} {x : Symbol} (h : x ∈ ofSymbols (xs ++ ys)) :
    x ∈ ys ∨ x ∈ ofSymbols xs ∧ ∀ y ∈ ys, y.key ≠ x.key := by
  have hx := (distinct_ofSymbols (xs ++ ys)).withKey?_of_mem h
  rw [ofSymbols_append_eq_putAll, withKey?_putAll] at hx
  cases hy : withKey? ys.reverse x.key with
  | some y =>
    rw [hy, Option.some_or, Option.some.injEq] at hx
    rw [hx] at hy
    exact .inl (List.mem_reverse.mp (List.mem_of_find?_eq_some hy))
  | none =>
    rw [hy, Option.none_or] at hx
    refine .inr ⟨List.mem_of_find?_eq_some hx, fun y hmem e => ?_⟩
    rw [withKey?_eq_none] at hy
    exact hy (e ▸ List.mem_map_of_mem (List.mem_reverse.mpr hmem))

/-- Buckets with the same keys in the same order and the same entries are equal. -/
theorem ext_of_withKey? {b c : Bucket} (hb : Distinct b) (hk : b.map Symbol.key = c.map Symbol.key)
    (h : ∀ k ∈ b.map Symbol.key, withKey? b k = withKey? c k) : b = c := by
  induction b generalizing c with
  | nil => exact (List.map_eq_nil_iff.mp hk.symm).symm
  | cons x b ih =>
    obtain _ | ⟨y, c⟩ := c
    · cases hk
    · simp only [List.map_cons, List.cons.injEq] at hk
      obtain ⟨hx, hb⟩ := List.nodup_cons.mp hb
      have hxy := h x.key (by simp)
      simp only [withKey?, List.find?_cons, hk.1, decide_true, Option.some.injEq] at hxy
      subst hxy
      rw [ih hb hk.2 fun k hm => ?_]
      have hne : x.key ≠ k := fun e => hx (e ▸ hm)
      have := h k (by simp [hm])
      simpa [withKey?, List.find?_cons, hne] using this

/-- Putting symbols whose last ones are already there changes nothing. -/
theorem putAll_of_withKey? {b : Bucket} (hb : Distinct b) {xs : List Symbol}
    (h : ∀ x ∈ xs, withKey? b x.key = withKey? xs.reverse x.key) : putAll b xs = b := by
  have hkeys : ∀ (ys : List Symbol) (c : Bucket), (∀ y ∈ ys, y.key ∈ c.map Symbol.key) →
      (putAll c ys).map Symbol.key = c.map Symbol.key := fun ys => by
    induction ys with
    | nil => exact fun _ _ => rfl
    | cons y ys ih =>
      intro c hc
      have hp : (put y c).map Symbol.key = c.map Symbol.key := by
        rw [map_key_put, if_pos (hc y List.mem_cons_self)]
      rw [putAll_cons, ih _ fun z hz => ?_, hp]
      rw [hp]
      exact hc z (List.mem_cons_of_mem _ hz)
  have hin : ∀ x ∈ xs, x.key ∈ b.map Symbol.key := fun x hx => by
    by_contra hn
    rw [← withKey?_eq_none, h x hx, withKey?_eq_none] at hn
    exact hn (List.mem_map_of_mem (List.mem_reverse.mpr hx))
  refine ext_of_withKey? (hb.putAll xs) (hkeys xs b hin) fun k _ => ?_
  rw [withKey?_putAll]
  by_cases hk : k ∈ xs.map Symbol.key
  · obtain ⟨x, hx, rfl⟩ := List.mem_map.mp hk
    rw [← h x hx, Option.or_self]
  · rw [withKey?_eq_none.mpr (by simpa using hk), Option.none_or]

/-- Symbols that were added to a bucket are not added once more. -/
theorem ofSymbols_append_again (xs ys : List Symbol) :
    ofSymbols (ofSymbols (xs ++ ys) ++ ys) = ofSymbols (xs ++ ys) := by
  have hd := distinct_ofSymbols (xs ++ ys)
  rw [ofSymbols_append_eq_putAll, ofSymbols_of_distinct hd]
  refine putAll_of_withKey? hd fun y hy => ?_
  rw [ofSymbols_append_eq_putAll, withKey?_putAll]
  cases hlast : withKey? ys.reverse y.key with
  | some z => rfl
  | none =>
    rw [withKey?_eq_none] at hlast
    exact absurd (List.mem_map_of_mem (List.mem_reverse.mpr hy)) hlast

/-! ## The symbol that answers for a name -/

theorem find?_append (b c : List Symbol) (name : String) :
    find? (b ++ c) name = (find? c name).or (find? b name) := by
  simp [find?, List.find?_append]

theorem find?_eq_none {b : List Symbol} {name : String} :
    find? b name = none ↔ ∀ x ∈ b, x.name ≠ name := by
  simp [find?]

/-- Some symbol has a name. -/
def Declares (b : List Symbol) (name : String) : Prop := ∃ x ∈ b, x.name = name

theorem find?_eq_none_iff {b : List Symbol} {name : String} : find? b name = none ↔ ¬ Declares b name := by
  simp [find?_eq_none, Declares]

/-- A symbol is the last one of a name. -/
def IsLast (b : List Symbol) (name : String) (x : Symbol) : Prop :=
  ∃ earlier later, b = earlier ++ x :: later ∧ x.name = name ∧ ¬ Declares later name

theorem find?_eq_some_iff {b : List Symbol} {name : String} {x : Symbol} :
    find? b name = some x ↔ IsLast b name x := by
  rw [find?, List.find?_eq_some_iff_append]
  constructor
  · rintro ⟨hname, later, earlier, hb, hlater⟩
    refine ⟨earlier.reverse, later.reverse, ?_, by simpa using hname, ?_⟩
    · rw [← List.reverse_reverse b, hb]
      simp
    · rintro ⟨y, hy, rfl⟩
      simpa using hlater y (List.mem_reverse.mp hy)
  · rintro ⟨earlier, later, rfl, hname, hlater⟩
    refine ⟨by simpa using hname, later.reverse, earlier.reverse, by simp, fun y hy => ?_⟩
    have hne : y.name ≠ name := fun e => hlater ⟨y, List.mem_reverse.mp hy, e⟩
    simpa using hne

theorem find?_concat (b : List Symbol) (x : Symbol) (name : String) :
    find? (b ++ [x]) name = if x.name = name then some x else find? b name := by
  rw [find?_append]
  by_cases h : x.name = name <;> simp [find?, h]

/-- Symbols of other names do not matter. -/
theorem find?_filter {b : List Symbol} {name : String} {p : Symbol → Bool}
    (h : ∀ x ∈ b, x.name = name → p x = true) : find? (b.filter p) name = find? b name := by
  induction b using List.reverseRecOn with
  | nil => rfl
  | append_singleton b x ih =>
    have ih := ih fun y hy => h y (List.mem_append_left _ hy)
    rw [List.filter_append, find?_concat, find?_append, ih]
    by_cases hx : x.name = name
    · rw [List.filter_singleton, h x (by simp) hx]
      simp [find?, hx]
    · rw [if_neg hx, find?_eq_none.mpr fun y hy => ?_, Option.none_or]
      obtain rfl := List.mem_singleton.mp (List.mem_filter.mp hy).1
      exact hx

/-- Among symbols of one file a name is a key. -/
theorem find?_eq_withKey? {xs : List Symbol} {source : String} (hs : ∀ x ∈ xs, x.source = source)
    (name : String) : find? xs name = withKey? xs.reverse (name, source) :=
  List.find?_congr fun x hx => by simp [Symbol.key, hs x (List.mem_reverse.mp hx)]

theorem Distinct.withKey?_reverse {b : Bucket} (h : Distinct b) (k : String × String) :
    withKey? b.reverse k = withKey? b k := by
  rw [← withKey?_ofSymbols, ofSymbols_of_distinct h]

/-- In one file, the last declaration of a name answers. -/
theorem find?_ofSymbols {xs : List Symbol} {source : String} (hs : ∀ x ∈ xs, x.source = source)
    (name : String) : find? (ofSymbols xs) name = find? xs name := by
  rw [find?_eq_withKey? (fun x hx => hs x (mem_of_mem_ofSymbols hx)), find?_eq_withKey? hs,
    (distinct_ofSymbols xs).withKey?_reverse, withKey?_ofSymbols]

/-! ## Reloads -/

theorem source_of_mem_withSource {xs : List Symbol} {path : String} {x : Symbol}
    (h : x ∈ xs.map (·.withSource path)) : x.source = path := by
  obtain ⟨y, -, rfl⟩ := List.mem_map.mp h
  rfl

/-- A reload leaves the symbols of other files and adds those of the new text. -/
theorem reload_eq_append (b : List Symbol) (path text : String) (extract : Extractor) :
    reload b path text extract =
      ofSymbols (b.filter (·.source ≠ path)) ++
        ofSymbols ((extract text path).symbols.map (·.withSource path)) := by
  refine ofSymbols_append fun x hx y hy e => ?_
  have hx : x.source ≠ path := by simpa using (List.mem_filter.mp hx).2
  have hy : y.source = path := source_of_mem_withSource hy
  exact hx ((congrArg Prod.snd e).trans hy)

theorem distinct_reload (b : List Symbol) (path text : String) (extract : Extractor) :
    Distinct (reload b path text extract) :=
  distinct_ofSymbols _

/-- A reload does not change what answers for a name that the file declares neither before nor
after it. -/
theorem find?_reload {b : Bucket} (hb : Distinct b) {path text name : String} {extract : Extractor}
    (hold : ∀ x ∈ b, x.source = path → x.name ≠ name)
    (hnew : ∀ x ∈ (extract text path).symbols, x.name ≠ name) :
    find? (reload b path text extract) name = find? b name := by
  have hfresh : find? (ofSymbols ((extract text path).symbols.map (·.withSource path))) name = none :=
    find?_eq_none.mpr fun x hx => by
      obtain ⟨y, hy, rfl⟩ := List.mem_map.mp (mem_of_mem_ofSymbols hx)
      exact hnew y hy
  rw [reload_eq_append, find?_append, hfresh, Option.none_or, ofSymbols_of_distinct (hb.filter _)]
  exact find?_filter fun x hx hn => by simpa using fun e => hold x hx e hn

end Bucket

end ScriptService
