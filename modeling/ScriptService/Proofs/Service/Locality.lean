import ScriptService.Proofs.Service.Reachable
import ScriptService.Yaml.Format

/-!
# What an edit can change

A reload of a file can change what a word of a document stands for in two ways
only (`Affects`). The file is the document itself, or it is a header whose old or
new text declares the word, and no bucket that goes before the headers of the
workspace does.

* `Bucket.find?_reload`: a header moves to the end of its bucket, where it goes
  before others, but only for names that it declares;
* `Index.locate?_congr`: a bucket matters only where those before it lack the name;
* `reloadFile_changes_only_affected`: so all other answers stay.
-/

namespace ScriptService

theorem Index.locate?_congr {i j : Index} {language path name : String}
    (hself : i.getSelf path = j.getSelf path) (hstatic : i.getStatic language = j.getStatic language)
    (hdynamic : ¬ Bucket.Declares (j.getSelf path) name →
      ¬ Bucket.Declares (j.getStatic language) name →
      (i.getDynamic language).find? name = (j.getDynamic language).find? name) :
    i.locate? language path name = j.locate? language path name := by
  rw [locate?_eq, locate?_eq, hself, hstatic]
  cases hs : (j.getSelf path).find? name with
  | some x => rfl
  | none =>
    cases ht : (j.getStatic language).find? name with
    | some x => rfl
    | none => rw [hdynamic (Bucket.find?_eq_none_iff.mp hs) (Bucket.find?_eq_none_iff.mp ht)]

namespace Service

/-- Reloading a file with a text can change what a word of a document stands for: the file is the
document and no header, or it is a header of the document's data language, its old or new text
declares the word, and neither the document nor a header outside the workspace does. -/
def Affects (s : Service) (path language text : String) (document p word : String) : Prop :=
  ∃ l, Language.serving? language = some l ∧
    (l.isHeader (Path.ofString path) = false ∧ p = path ∨
      l.isHeader (Path.ofString path) = true ∧ dataId document = l.id ∧
      (Bucket.Declares ((s.index.getDynamic l.id).filter (·.source = path)) word ∨
        Bucket.Declares (l.extractor text path).symbols word) ∧
      ¬ Bucket.Declares (s.index.getSelf p) word ∧ ¬ Bucket.Declares (s.index.getStatic l.id) word)

theorem reloadFile_frame (s : Service) (path language text : String) :
    s.reloadFile path language text = { s with index := (s.reloadFile path language text).index } := by
  unfold reloadFile
  split
  · rfl
  · dsimp only
    split <;> rfl

theorem locate?_reloadFile {s : Service} (hd : s.index.Distinct)
    {path language text document p word : String} (h : ¬ s.Affects path language text document p word) :
    (s.reloadFile path language text).index.locate? (dataId document) p word =
      s.index.locate? (dataId document) p word := by
  unfold reloadFile
  split
  · rfl
  · rename_i l hl
    dsimp only
    split
    · rename_i hh
      refine Index.locate?_congr rfl rfl fun hself hstatic => ?_
      rw [Index.getDynamic_setDynamic]
      split
      · -- the header's own language: the word is none of the header's, before or after
        rename_i hm
        rw [hm] at hstatic ⊢
        have hw := fun hw => h ⟨l, hl, .inr ⟨hh, hm, hw, hself, hstatic⟩⟩
        rw [Bucket.ofSymbols_of_distinct (Bucket.distinct_reload _ _ _ _)]
        refine Bucket.find?_reload (hd.dynamic l.id) (fun x hx hs e => hw (.inl ⟨x, ?_, e⟩))
          fun x hx e => hw (.inr ⟨x, hx, e⟩)
        exact List.mem_filter.mpr ⟨hx, decide_eq_true hs⟩
      · rfl
    · rename_i hh
      have hp : p ≠ path := fun e => h ⟨l, hl, .inl ⟨Bool.eq_false_iff.mpr hh, e⟩⟩
      refine Index.locate?_congr ?_ rfl fun _ _ => rfl
      rw [Index.getSelf_setSelf, if_neg hp]

/-- What a word stands for and where it is declared depend on the index only through the look-up of
the word. -/
theorem answers_congr {s t : Service} (hroot : s.root = t.root) (hconfig : s.config = t.config)
    {document p word : String}
    (h : s.index.locate? (dataId document) p word = t.index.locate? (dataId document) p word) :
    s.hover document p word = t.hover document p word ∧
      ∀ cwd, s.definition cwd document p word = t.definition cwd document p word := by
  refine ⟨by rw [hover, hover, Index.query?, Index.query?, h], fun cwd => ?_⟩
  rw [definition, definition, h]
  split
  · rfl
  · rename_i tier symbol _
    have hf : s.declaringFile p tier symbol = t.declaringFile p tier symbol := by
      cases tier <;> simp only [declaringFile, hroot, hconfig]
    rw [hf]

/-- The answers about a word of a document stay when a file is reloaded that does not affect them. -/
theorem reloadFile_changes_only_affected {s : Service} (hs : s.Reachable)
    (path language text document p word : String)
    (h : ¬ s.Affects path language text document p word) :
    (s.reloadFile path language text).index.locate? (dataId document) p word =
        s.index.locate? (dataId document) p word ∧
      (s.reloadFile path language text).hover document p word = s.hover document p word ∧
      ∀ cwd, (s.reloadFile path language text).definition cwd document p word =
        s.definition cwd document p word := by
  have hl := locate?_reloadFile hs.distinct h
  have hf := reloadFile_frame s path language text
  have hroot : (s.reloadFile path language text).root = s.root := by rw [hf]
  have hconfig : (s.reloadFile path language text).config = s.config := by rw [hf]
  exact ⟨hl, answers_congr hroot hconfig hl⟩

/-- No files at all. -/
def emptyFiles : Environment where
  files := ⟨.directory [], ⟨.root, []⟩, 900⟩
  home := ⟨.root, []⟩
  configFile := ""
  yaml := Yaml.format
  room := 900

/-- A service that knows two headers. -/
def twoHeaders : Service :=
  let s : Service := { root := ⟨.root, []⟩ }
  (s.reloadFile "a.h" "fallout-ssl" "#define A 1\n").reloadFile "b.h" "fallout-ssl" "#define B 2\n"

theorem reachable_twoHeaders : twoHeaders.Reachable := by
  have h : Reachable { root := ⟨.root, []⟩ } := by
    refine .start emptyFiles "/" (some {}) ?_
    rw [start_with (by decide)]
    rfl
  rw [twoHeaders]
  exact (h.step (.reloadFile _ _ _ _)).step (.reloadFile _ _ _ _)

theorem twoHeaders_keeps_other_header :
    ¬ twoHeaders.Affects "a.h" "fallout-ssl" "#define A 3\n" "fallout-ssl" "x.ssl" "B" ∧
      (twoHeaders.reloadFile "a.h" "fallout-ssl" "#define A 3\n").index.locate? "fallout-ssl"
        "x.ssl" "B" =
        some (.dynamic, { name := "B", kind := .constant, detail := "2", source := "b.h", value := "2" }) := by
  have hn : ¬ twoHeaders.Affects "a.h" "fallout-ssl" "#define A 3\n" "fallout-ssl" "x.ssl" "B" := by
    rintro ⟨l, hl, hw⟩
    obtain rfl : Language.falloutSsl = l := Option.some.inj hl
    rcases hw with ⟨hh, -⟩ | ⟨-, -, hw, -⟩
    · exact absurd hh (by decide +kernel)
    · revert hw
      unfold Bucket.Declares
      decide +kernel
  have h := reloadFile_changes_only_affected reachable_twoHeaders _ _ _ _ _ _ hn
  refine ⟨hn, h.1.trans ?_⟩
  decide +kernel

end Service

end ScriptService
