import ScriptService.Proofs.Index.Basic
import ScriptService.Service.Query

/-!
# What an index answers after any writes

A history is a list of updates, each of one bucket (`Update.address`). A bucket is
that of the symbols it was last given (`get_ofHistory`); updates of other buckets
do not matter. All reads go by the three buckets of a document:

* `locate?_eq_some_iff`: the first tier that declares a name answers for it, with
  its last symbol of that name;
* `locate?_eq_none_iff`: nothing answers for the names that no visible symbol has;
* `hasData_eq_false_iff`: there is no data where no symbol is visible, so that a
  hover need not ask any further (`hoverAt_of_ok`, `hoverAt_of_error`).

Main statement: `reads_agree`.
-/

namespace ScriptService

/-! ## Histories -/

/-- The key of a document's bucket in a tier. -/
def Tier.key (language path : String) : Tier → String
  | .self => path
  | .static => language
  | .dynamic => language

/-- The tiers that are asked before a tier. -/
def Tier.before : Tier → List Tier
  | .self => []
  | .static => [.self]
  | .dynamic => [.self, .static]

namespace Index

/-- A write that replaces a bucket, or forgets one. -/
inductive Update where
  | setSelf (path : String) (symbols : List Symbol)
  | setStatic (language : String) (symbols : List Symbol)
  | setDynamic (language : String) (symbols : List Symbol)
  | dropSelf (path : String)

/-- The bucket that an update writes, by its tier and its key there. -/
def Update.address : Update → Tier × String
  | setSelf path _ => (.self, path)
  | setStatic language _ => (.static, language)
  | setDynamic language _ => (.dynamic, language)
  | dropSelf path => (.self, path)

/-- The symbols that an update gives its bucket. -/
def Update.symbols : Update → List Symbol
  | setSelf _ symbols => symbols
  | setStatic _ symbols => symbols
  | setDynamic _ symbols => symbols
  | dropSelf _ => []

/-- The index after an update. -/
def update (i : Index) : Update → Index
  | .setSelf path symbols => i.setSelf path symbols
  | .setStatic language symbols => i.setStatic language symbols
  | .setDynamic language symbols => i.setDynamic language symbols
  | .dropSelf path => i.dropSelf path

/-- The index after some updates, from the empty one on. -/
def ofHistory (history : List Update) : Index :=
  history.foldl update {}

/-- The bucket of a tier at a key. -/
def get (i : Index) : Tier → String → Bucket
  | .self, path => i.getSelf path
  | .static, language => i.getStatic language
  | .dynamic, language => i.getDynamic language

/-- The symbols that a bucket was last given; there are none if it never was given any. -/
def lastGiven (history : List Update) (tier : Tier) (key : String) : List Symbol :=
  (history.filter (·.address = (tier, key))).getLast?.elim [] Update.symbols

theorem get_update (i : Index) (u : Update) (tier : Tier) (key : String) :
    (i.update u).get tier key =
      if u.address = (tier, key) then Bucket.ofSymbols u.symbols else i.get tier key := by
  cases u with
  | setSelf path symbols =>
    cases tier <;> simp [update, Update.address, Update.symbols, get, getSelf_setSelf, @eq_comm _ key]
  | setStatic language symbols =>
    cases tier <;> simp [update, Update.address, Update.symbols, get, getStatic_setStatic, @eq_comm _ key]
  | setDynamic language symbols =>
    cases tier <;> simp [update, Update.address, Update.symbols, get, getDynamic_setDynamic, @eq_comm _ key]
  | dropSelf path =>
    cases tier <;> simp [update, Update.address, Update.symbols, get, getSelf_dropSelf, Bucket.ofSymbols,
      @eq_comm _ key]

/-- A bucket holds what it was last given. -/
theorem get_ofHistory (history : List Update) (tier : Tier) (key : String) :
    (ofHistory history).get tier key = Bucket.ofSymbols (lastGiven history tier key) := by
  induction history using List.reverseRecOn with
  | nil => cases tier <;> rfl
  | append_singleton history u ih =>
    have hstep : ofHistory (history ++ [u]) = (ofHistory history).update u := List.foldl_append
    rw [hstep, get_update, lastGiven, List.filter_append, List.filter_singleton]
    split
    · rename_i h
      rw [decide_eq_true h]
      simp
    · rename_i h
      rw [decide_eq_false h, ih, lastGiven]
      simp

/-- Updates of other buckets do not matter. -/
theorem get_ofHistory_filter (history : List Update) (tier : Tier) (key : String) :
    (ofHistory (history.filter (·.address = (tier, key)))).get tier key =
      (ofHistory history).get tier key := by
  rw [get_ofHistory, get_ofHistory, lastGiven, List.filter_filter]
  simp only [Bool.and_self]
  rfl

/-! ## Reads -/

/-- The first tier that declares a name answers for it, with its last symbol of that name. -/
theorem locate?_eq_some_iff {i : Index} {language path name : String} {tier : Tier} {x : Symbol} :
    i.locate? language path name = some (tier, x) ↔
      (∀ t ∈ tier.before, ¬ Bucket.Declares (i.get t (t.key language path)) name) ∧
        Bucket.IsLast (i.get tier (tier.key language path)) name x := by
  rw [locate?_eq, ← Bucket.find?_eq_some_iff]
  simp only [← Bucket.find?_eq_none_iff]
  cases tier <;>
    simp only [Tier.before, Tier.key, get, List.forall_mem_cons, List.not_mem_nil, false_implies,
      implies_true, and_true, true_and]
  · cases (i.getSelf path).find? name <;> simp
  · cases (i.getSelf path).find? name <;> cases (i.getStatic language).find? name <;> simp
  · cases (i.getSelf path).find? name <;> cases (i.getStatic language).find? name <;> simp

/-- Nothing answers for the names that no visible symbol has. -/
theorem locate?_eq_none_iff {i : Index} {language path name : String} :
    i.locate? language path name = none ↔ name ∉ (i.visible language path).map Symbol.name := by
  rw [locate?_eq, Option.or_eq_none_iff, Option.or_eq_none_iff, Option.map_eq_none_iff,
    Option.map_eq_none_iff, Option.map_eq_none_iff, Bucket.find?_eq_none_iff, Bucket.find?_eq_none_iff,
    Bucket.find?_eq_none_iff]
  simp only [visible, tiers, List.flatMap_cons, List.flatMap_nil, List.append_nil, List.map_append,
    List.mem_append, List.mem_map, not_or, Bucket.Declares]

/-- There is no data where no symbol is visible. -/
theorem hasData_eq_false_iff {i : Index} {language path : String} :
    i.hasData language path = false ↔ i.visible language path = [] := by
  simp [hasData, visible, tiers]

end Index

namespace Service

/-- To ask first whether there is any data changes no answer of a hover that knows its word. -/
theorem hoverAt_of_ok (s : Service) (language path : String) {text : String} {line character : Int}
    {word : Option String} (h : symbolAt? text line character = .ok word) :
    s.hoverAt language path text line character = .ok (word.bind (s.hover language path)) := by
  rw [hoverAt, h]
  split
  · rfl
  · rename_i hdata
    have hnone : s.hover language path = fun _ => none := funext fun word => by
      have hvisible := Index.hasData_eq_false_iff.mp (Bool.eq_false_iff.mpr hdata)
      rw [hover, Index.query?, Index.locate?_eq_none_iff.mpr (by simp [hvisible])]
      rfl
    rw [hnone, Option.bind_fun_none]

/-- A hover fails with the search for its word, unless there is no data to be asked for. -/
theorem hoverAt_of_error (s : Service) (language path : String) {text : String} {line character : Int}
    {e : CursorError} (h : symbolAt? text line character = .error e) :
    s.hoverAt language path text line character =
      if s.index.hasData (dataId language) path then .error (.cursor e) else .ok none := by
  rw [hoverAt, h]
  rfl

/-- After any history of updates, each bucket is that of the symbols it was last given, whatever was
written elsewhere. The first tier that declares a name answers for it, with its last symbol of that
name; nothing answers exactly for the names that no visible symbol has. There is data exactly where some
symbol is visible. The hover at a cursor is that of the word at the cursor, where the cursor can be
searched from; where it cannot, the hover fails just if there is data. -/
theorem reads_agree (history : List Index.Update) :
    let i := Index.ofHistory history
    (∀ tier key, i.get tier key = Bucket.ofSymbols (Index.lastGiven history tier key) ∧
        (Index.ofHistory (history.filter (·.address = (tier, key)))).get tier key = i.get tier key) ∧
      (∀ language path name tier x, i.locate? language path name = some (tier, x) ↔
        (∀ t ∈ tier.before, ¬ Bucket.Declares (i.get t (t.key language path)) name) ∧
          Bucket.IsLast (i.get tier (tier.key language path)) name x) ∧
      (∀ language path name,
        (i.locate? language path name = none ↔ name ∉ (i.visible language path).map Symbol.name) ∧
        (i.query? language path name = none ↔ name ∉ (i.visible language path).map Symbol.name)) ∧
      (∀ language path, i.hasData language path = false ↔ i.visible language path = []) ∧
      ∀ (s : Service) (language path text : String) (line character : Int),
        (∀ word, symbolAt? text line character = .ok word →
          { s with index := i }.hoverAt language path text line character =
            .ok (word.bind ({ s with index := i }.hover language path))) ∧
        ∀ e, symbolAt? text line character = .error e →
          { s with index := i }.hoverAt language path text line character =
            if i.hasData (dataId language) path then .error (.cursor e) else .ok none := by
  intro i
  refine ⟨fun tier key => ⟨Index.get_ofHistory history tier key, Index.get_ofHistory_filter history tier key⟩,
    fun _ _ _ _ _ => Index.locate?_eq_some_iff, fun language path name => ⟨Index.locate?_eq_none_iff, ?_⟩,
    fun _ _ => Index.hasData_eq_false_iff, fun s language path _ _ _ =>
      ⟨fun _ => hoverAt_of_ok { s with index := i } language path,
        fun _ => hoverAt_of_error { s with index := i } language path⟩⟩
  rw [Index.query?, Option.map_eq_none_iff]
  exact Index.locate?_eq_none_iff

/-- A cursor at which no word can be searched for: without any data a hover is answered there, and with a
declaration of the word of the line it fails. -/
theorem hoverAt_far_behind :
    (∀ word, symbolAt? "abc" 0 9223372036854775808 ≠ .ok word) ∧
      let s : Service := { root := ⟨.root, []⟩ }
      let t := s.reloadFile "a.ssl" "fallout-ssl" "#define abc 1\n"
      s.hoverAt "fallout-ssl" "a.ssl" "abc" 0 9223372036854775808 = .ok none ∧
        t.hoverAt "fallout-ssl" "a.ssl" "abc" 0 9223372036854775808 = .error (.cursor .columnTooLarge) ∧
        (t.hover "fallout-ssl" "a.ssl" "abc").isSome := by
  have hfar : symbolAt? "abc" 0 9223372036854775808 = .error .columnTooLarge := by decide +kernel
  refine ⟨fun word => ?_, ?_, ?_, ?_⟩
  · rw [hfar]
    nofun
  · rw [hoverAt_of_error _ _ _ hfar]
    rfl
  · rw [hoverAt_of_error _ _ _ hfar, if_pos (by decide +kernel)]
  · decide +kernel

end Service

end ScriptService
