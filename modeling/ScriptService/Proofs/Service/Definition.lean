import ScriptService.Proofs.Cursor.Token
import ScriptService.Proofs.Declaration.Name
import ScriptService.Proofs.Failure
import ScriptService.Proofs.Index.Basic
import ScriptService.Proofs.Path.Uri
import ScriptService.Proofs.Text.Lines
import ScriptService.Service.Query

/-!
# Where a declaration is found again

The line of a symbol holds its name as a word of its own, and a cursor in that word
finds the name again (`Symbol.StandsIn`, `standsIn_of_mem_extract`). Once a document
was read, a word that it declares is declared in the document itself, whatever the
headers say, and at the last line that declares it (`find?_greatest`,
`locate?_reloadFile_self`).

Main statement: `definition_lands_on_declaration`.
-/

namespace ScriptService

open Text

/-! ## The line of a symbol -/

/-- The line of a symbol holds its name as a word of its own, and every cursor in that word finds the
name, unless it is a number. -/
def Symbol.StandsIn (x : Symbol) (text : String) : Prop :=
  ∃ u v, lineAt? text.toList x.line = some (u ++ (x.name.toList ++ v)) ∧
    IsRun isWord u x.name.toList v ∧
    (x.name.toList.all isDecimal = false → ∀ c : Nat, u.length ≤ c →
      c < u.length + x.name.toList.length → symbolAt? text x.line c = .ok (some x.name))

theorem standsIn_of_mem_extract {language text path : String} {x : Symbol}
    (h : x ∈ (extract language text path).symbols) : x.StandsIn text := by
  obtain ⟨l, -, hl⟩ := serving?_of_mem_extract h
  rw [hl] at h
  obtain ⟨a, b, htext, hrun, hline⟩ := Language.exists_name_of_mem_symbols h
  obtain ⟨u, v, hdoc, hu, hv⟩ := exists_documentLine hrun.ne_nil (hrun.not_mem (by decide))
    (hrun.not_mem (by decide)) a b
  have hat : lineAt? text.toList x.line = some (u ++ (x.name.toList ++ v)) := by
    rw [lineAt?, hline, if_neg (by omega), Int.toNat_natCast, htext, hdoc]
  have hword : IsRun isWord u x.name.toList v := hrun.of_infix hu hv
  refine ⟨u, v, hat, hword, fun hd c hlow hhigh => ?_⟩
  rw [symbolAt?, hat]
  dsimp only
  rw [if_neg (by omega), Int.toNat_natCast, tokenAt?_of_isRun hword hd hlow hhigh, Except.map,
    Option.map_some, String.ofList_toList]

/-! ## The declaration that answers -/

/-- Of symbols by line, the one that answers for a name has the greatest line. -/
theorem Bucket.find?_greatest {xs : List Symbol} (hs : xs.Pairwise fun a b => a.line ≤ b.line)
    {name : String} {x : Symbol} (h : find? xs name = some x) :
    ∀ y ∈ xs, y.name = name → y.line ≤ x.line := by
  intro y hy hname
  obtain ⟨earlier, later, rfl, -, hlater⟩ := find?_eq_some_iff.mp h
  rcases List.mem_append.mp hy with hy | hy
  · exact (List.pairwise_append.mp hs).2.2 y hy x List.mem_cons_self
  · rcases List.mem_cons.mp hy with rfl | hy
    · exact Int.le_refl _
    · exact absurd ⟨y, hy, hname⟩ hlater

/-- After a reload, the last declaration of a name in the new text answers for it. -/
theorem Bucket.find?_reload_self {l : Language} {b : List Symbol} {path text name : String} {x : Symbol}
    (h : find? (l.extractor text path).symbols name = some x) :
    find? (reload b path text l.extractor) name = some x := by
  rw [reload_eq_append, l.map_withSource_symbols, find?_append,
    find?_ofSymbols fun y hy => Language.source_of_mem_symbols hy, h, Option.some_or]

namespace Service

/-- A document that was read answers for the names that it declares. -/
theorem locate?_reloadFile_self (s : Service) {l : Language} {path language text name : String} {x : Symbol}
    (hl : Language.serving? language = some l) (hp : l.isHeader (Path.ofString path) = false)
    (h : Bucket.find? (l.extractor text path).symbols name = some x) (m : String) :
    (s.reloadFile path language text).index.locate? m path name = some (.self, x) := by
  have hself : (s.reloadFile path language text).index.getSelf path =
      Bucket.reload (s.index.getSelf path) path text l.extractor := by
    rw [reloadFile, hl]
    simp only [hp, Bool.false_eq_true, if_false]
    rw [Index.getSelf_setSelf, if_pos rfl, Bucket.ofSymbols_of_distinct (Bucket.distinct_reload ..)]
  rw [Index.locate?_eq, hself, Bucket.find?_reload_self h]
  rfl

theorem root_reloadFile (s : Service) (path language text : String) :
    (s.reloadFile path language text).root = s.root := by
  unfold reloadFile
  split
  · rfl
  · dsimp only
    split <;> rfl

/-- A word that the document itself answers for is declared in the document. -/
theorem definition_self {s : Service} {language path word : String} {x : Symbol}
    (h : s.index.locate? (dataId language) path word = some (.self, x)) (cwd : Path) :
    s.definition cwd language path word =
      (asFailure .uri (Uri.ofPath cwd (s.root.join (Path.ofString path)))).map fun uri =>
        some ⟨uri, x.line⟩ := by
  rw [definition, h]
  simp only [declaringFile, ok_bind]
  cases asFailure .uri (Uri.ofPath cwd (s.root.join (Path.ofString path))) <;> rfl

/-- Every symbol of a text stands on its line, where a cursor finds it. After a document that is no
header was read, each name that it declares is declared at the document's place in the workspace, on the
last line that declares the name, whatever the service knew before. -/
theorem definition_lands_on_declaration (language text path : String) :
    let declared := (extract language text path).symbols
    (∀ x ∈ declared, x.StandsIn text) ∧
      ∀ (s : Service) (cwd : Path),
        (∀ l, Language.serving? language = some l → l.isHeader (Path.ofString path) = false) →
        ∀ y ∈ declared, ∃ x ∈ declared, x.name = y.name ∧
          (∀ z ∈ declared, z.name = y.name → z.line ≤ x.line) ∧
          (s.reloadFile path language text).definition cwd language path y.name =
            (asFailure .uri (Uri.ofPath cwd (s.root.join (Path.ofString path)))).map
              (fun uri => some ⟨uri, x.line⟩) ∧
          ('\x00' ∉ (s.root.join (Path.ofString path)).text.toList →
            (s.reloadFile path language text).definition cwd language path y.name =
              .ok (some ⟨Uri.ofText (Path.resolve cwd (s.root.join (Path.ofString path))).text, x.line⟩)) := by
  intro declared
  refine ⟨fun x hx => standsIn_of_mem_extract hx, fun s cwd hp y hy => ?_⟩
  obtain ⟨l, hl, hdeclared⟩ := serving?_of_mem_extract hy
  have hsome : Bucket.find? declared y.name ≠ none := fun hnone =>
    Bucket.find?_eq_none.mp hnone y hy rfl
  obtain ⟨x, hx⟩ := Option.ne_none_iff_exists'.mp hsome
  have hmem : x ∈ declared := List.mem_reverse.mp (List.mem_of_find?_eq_some hx)
  have hname : x.name = y.name := by simpa using List.find?_some hx
  have hfind : Bucket.find? (l.extractor text path).symbols y.name = some x := by
    rw [← hdeclared]
    exact hx
  have hsorted : declared.Pairwise fun a b => a.line ≤ b.line := Extraction.symbols_sorted _
  have hanswer : (s.reloadFile path language text).definition cwd language path y.name =
      (asFailure .uri (Uri.ofPath cwd (s.root.join (Path.ofString path)))).map
        (fun uri => some ⟨uri, x.line⟩) := by
    rw [definition_self (locate?_reloadFile_self s hl (hp l hl) hfind _), root_reloadFile]
  refine ⟨x, hmem, hname, Bucket.find?_greatest hsorted hx, hanswer, fun hnul => ?_⟩
  rw [hanswer, Uri.ofPath_eq, if_neg hnul]
  rfl

/-- A service that knows a header outside the workspace. -/
def shadowedService : Service where
  root := ⟨.root, ["ws"]⟩
  index :=
    { static := [("fallout-ssl", [{ name := "A", kind := .constant, detail := "7", source := "a.h" }])] }

/-- A document that declares one name twice. -/
def redefined : String := "#define A 1\n#define A 2\n"

/-- Its declarations. -/
def redefinedAt (line : Int) (value : String) : Symbol :=
  { name := "A", kind := .constant, detail := value, source := "x.ssl", line, value }

theorem redefined_lands_on_last :
    (shadowedService.reloadFile "x.ssl" "fallout-ssl" redefined).definition ⟨.root, []⟩ "fallout-ssl"
      "x.ssl" "A" = .ok (some ⟨"file:///ws/x.ssl", 1⟩) := by
  have hdeclared : (extract "fallout-ssl" redefined "x.ssl").symbols =
      [redefinedAt 0 "1", redefinedAt 1 "2"] := by
    rw [Extraction.symbols_of_sorted (by decide +kernel)]
    decide +kernel
  obtain ⟨-, hlands⟩ := definition_lands_on_declaration "fallout-ssl" redefined "x.ssl"
  have hplain : ∀ l, Language.serving? "fallout-ssl" = some l →
      l.isHeader (Path.ofString "x.ssl") = false := by
    rintro l hl
    obtain rfl : Language.falloutSsl = l := Option.some.inj hl
    decide +kernel
  obtain ⟨x, hx, -, hlast, -, hanswer⟩ :=
    hlands shadowedService ⟨.root, []⟩ hplain (redefinedAt 1 "2") (by rw [hdeclared]; simp)
  have hline : x.line = 1 := by
    have hlow := hlast (redefinedAt 1 "2") (by rw [hdeclared]; simp) rfl
    rw [hdeclared] at hx
    rcases List.mem_cons.mp hx with rfl | hx
    · exact absurd hlow (by decide)
    · rw [List.mem_singleton.mp hx]
      rfl
  have huri : Uri.ofText (Path.ofString "/ws/x.ssl").text = "file:///ws/x.ssl" := by decide +kernel
  rw [hline] at hanswer
  rw [← huri]
  exact hanswer (by decide)

end Service

end ScriptService
