import Mathlib.Data.List.Basic
import ScriptService.Diagnostic.Weidu
import ScriptService.Proofs.Scan.Lines
import ScriptService.Proofs.Text.Class
import ScriptService.Proofs.Text.Decimal
import ScriptService.Proofs.Text.Lines

/-!
# WeiDU's reports as they are printed

A report is a list of items (`Item`): complaints, each on a line of its own and
perhaps with the text nearby on a second one, and lines between them that say
nothing. Whatever ends the lines, the report is read back (`report_written`).

* `near_entry`: a complaint takes the text nearby from its own second line, even
  if that text looks like a complaint, and never from what follows, since no item
  begins like such a line (`not_near_starts`);
* `complaint_place`: so the pattern matches a complaint to the end of its lines;
* `errors_written`: the scan goes on at the end of a line, item by item.
-/

namespace ScriptService.Weidu

open Text Scan

/-! ## Items -/

/-- A complaint, with the text nearby where it is shown. -/
structure Entry where
  file : List Char
  parseError : Bool
  line : Nat
  columnStart : Nat
  columnEnd : Nat
  near : Option (List Char) := none

/-- A number as it is written. -/
def digits (n : Nat) : List Char := Nat.toDigits 10 n

/-- What a complaint is called. -/
def kind (parseError : Bool) : List Char :=
  if parseError then "PARSE ERROR".toList else "ERROR".toList

/-- The line that says where a complaint is. -/
def Entry.place (e : Entry) : List Char :=
  "[".toList ++ (e.file ++ ("]".toList ++ (" ".toList ++ (kind e.parseError ++ (" at line ".toList ++
    (digits e.line ++ (" column ".toList ++ (digits e.columnStart ++ ("-".toList ++
      digits e.columnEnd)))))))))

/-- The line that shows the text nearby. -/
def nearLine (near : List Char) : List Char := "Near Text:".toList ++ ' ' :: near

/-- An item of a report. -/
inductive Item where
  /-- A line that says nothing. -/
  | noise (line : List Char)
  | entry (e : Entry)

/-- The lines of an item. -/
def Item.lines : Item → List (List Char)
  | noise line => [line]
  | entry e => e.place :: (e.near.map nearLine).toList

/-- A number that is not too long to be read. -/
def IsReadable (n : Nat) : Prop := (digits n).length ≤ maxNumeralDigits

instance : DecidablePred IsReadable := fun n =>
  inferInstanceAs (Decidable ((digits n).length ≤ maxNumeralDigits))

/-- The parts of an item are what the places where they stand allow. -/
def Item.WellFormed : Item → Prop
  | noise line => '[' ∉ line ∧ '\n' ∉ line ∧ ¬ "Near Text:".toList <+: line
  | entry e =>
    (e.file ≠ [] ∧ ']' ∉ e.file ∧ '\n' ∉ e.file) ∧
      (IsReadable e.line ∧ IsReadable e.columnStart ∧ IsReadable e.columnEnd) ∧
      ∀ near ∈ e.near, '\n' ∉ near ∧ trim near = near

instance : DecidablePred Item.WellFormed
  | .noise line =>
    inferInstanceAs (Decidable ('[' ∉ line ∧ '\n' ∉ line ∧ ¬ "Near Text:".toList <+: line))
  | .entry e => inferInstanceAs (Decidable ((e.file ≠ [] ∧ ']' ∉ e.file ∧ '\n' ∉ e.file) ∧
      (IsReadable e.line ∧ IsReadable e.columnStart ∧ IsReadable e.columnEnd) ∧
      ∀ near ∈ e.near, '\n' ∉ near ∧ trim near = near))

/-- What an entry says. -/
def Entry.complaint (e : Entry) : Complaint where
  file := String.ofList e.file
  line := e.line
  columnStart := (e.columnStart : Int) - 1
  columnEnd := e.columnEnd
  message := (if e.parseError then "Parse error" else "Error") ++
    e.near.elim "" fun near => if near = [] then "" else ", near text: " ++ String.ofList near
  severity := .error

/-- What an item says, if it says something. -/
def Item.complaint? : Item → Option Complaint
  | noise _ => none
  | entry e => some e.complaint

/-! ## The pattern on an entry -/

theorem kind?_kind (parseError : Bool) (s : List Char) :
    kind? (kind parseError ++ s) = some (parseError, s) := by
  cases parseError with
  | true =>
    rw [kind?, kind, if_pos rfl, word?_append]
    rfl
  | false =>
    have hne : ¬ "PARSE ERROR".toList <+: "ERROR".toList ++ s := by simp
    rw [kind?, kind, if_neg (by decide), word?_eq_none hne, word?_append]
    rfl

theorem run?_digits (n : Nat) {s : List Char} (hs : s.head?.any isDecimal = false) :
    run? isDecimal (digits n ++ s) = some (digits n, s) :=
  run?_append Nat.toDigits_ne_nil (all_isDecimal_toDigits n) hs

/-- The pattern matches a complaint to the end of its line, and takes the text nearby from the next
line if it is there. -/
theorem complaint_place {e : Entry} (h : (Item.entry e).WellFormed) (before : Option Char)
    {v near rest : List Char} (hv : v.head?.any isDecimal = false)
    (hnear : (near? v).getD ([], v) = (near, rest)) :
    complaint before (e.place ++ v) =
      some (⟨e.file, e.parseError, digits e.line, digits e.columnStart, digits e.columnEnd, near⟩,
        rest) := by
  obtain ⟨⟨hne, hclose, hnewline⟩, -, -⟩ := h
  have hall : e.file.all (fun c => c != ']' && c != '\n') = true := by
    refine List.all_eq_true.mpr fun c hc => ?_
    have hcclose : c ≠ ']' := fun heq => hclose (heq ▸ hc)
    have hcnewline : c ≠ '\n' := fun heq => hnewline (heq ▸ hc)
    simp [hcclose, hcnewline]
  have hfile : ∀ t, run? (fun c => c != ']' && c != '\n') (e.file ++ ("]".toList ++ t)) =
      some (e.file, "]".toList ++ t) := fun t => run?_append hne hall rfl
  have hgap : ∀ t, run? isGap (" ".toList ++ (kind e.parseError ++ t)) =
      some (" ".toList, kind e.parseError ++ t) := fun t =>
    run?_append (by decide) (by decide) (by cases e.parseError <;> exact show isGap _ = false by decide)
  have hline : ∀ t, run? isDecimal (digits e.line ++ (" column ".toList ++ t)) =
      some (digits e.line, " column ".toList ++ t) := fun t =>
    run?_digits _ (show isDecimal ' ' = false by decide)
  have hstart : ∀ t, run? isDecimal (digits e.columnStart ++ ("-".toList ++ t)) =
      some (digits e.columnStart, "-".toList ++ t) := fun t =>
    run?_digits _ (show isDecimal '-' = false by decide)
  have htext : e.place ++ v = "[".toList ++ (e.file ++ ("]".toList ++ (" ".toList ++
      (kind e.parseError ++ (" at line ".toList ++ (digits e.line ++ (" column ".toList ++
        (digits e.columnStart ++ ("-".toList ++ (digits e.columnEnd ++ v)))))))))) := by
    simp only [Entry.place, List.append_assoc]
  rw [htext, complaint]
  simp only [Option.bind_eq_bind, word?_append, Option.bind_some, hfile, hgap, kind?_kind, hline, hstart,
    run?_digits e.columnEnd hv, hnear]

/-! ## The text nearby -/

/-- What a line's end may be made of in front of its `\n`. -/
theorem newline?_cr {cr : List Char} (hcr : cr = [] ∨ cr = ['\r']) (s : List Char) :
    newline? (cr ++ '\n' :: s) = some s := by
  rcases hcr with rfl | rfl <;> rfl

theorem near?_of_not_starts {cr s : List Char} (hcr : cr = [] ∨ cr = ['\r'])
    (h : ¬ "Near Text:".toList <+: s) : near? (cr ++ '\n' :: s) = none := by
  rw [near?, newline?_cr hcr]
  simp only [Option.bind_eq_bind, Option.bind_some, word?_eq_none h, Option.bind_none]

/-- The text nearby goes to the end of its line, with the `\r` that belongs to it. -/
theorem near?_nearLine {cr near cr' rest : List Char} (hcr : cr = [] ∨ cr = ['\r'])
    (hcr' : cr' = [] ∨ cr' = ['\r']) (hnear : '\n' ∉ near) (htrim : trim near = near)
    (hrest : rest.head?.all (· == '\n') = true) :
    near? (cr ++ '\n' :: (nearLine near ++ (cr' ++ rest))) = some (near ++ cr', rest) := by
  have hhead : (near ++ (cr' ++ rest)).head?.any isGap = false := by
    cases near with
    | cons c near =>
      have hblank := head_of_trim htrim
      rw [List.head?_cons, Option.any_some] at hblank
      rw [List.cons_append, List.head?_cons, Option.any_some, isGap_of_isBlank hblank]
    | nil =>
      rcases hcr' with rfl | rfl
      · cases rest with
        | nil => rfl
        | cons c rest =>
          obtain rfl : c = '\n' := beq_iff_eq.mp hrest
          rfl
      · rfl
  have hgap : (' ' :: (near ++ (cr' ++ rest))).dropWhile isGap = near ++ (cr' ++ rest) := by
    rw [List.dropWhile_cons_of_pos (by decide)]
    cases hs : near ++ (cr' ++ rest) with
    | nil => rfl
    | cons c s => exact List.dropWhile_cons_of_neg (Bool.eq_false_iff.mp (by rwa [hs] at hhead))
  have hall : ∀ c ∈ near ++ cr', (c != '\n') = true := by
    intro c hc
    rw [bne_iff_ne]
    rintro rfl
    rcases List.mem_append.mp hc with hc | hc
    · exact hnear hc
    · rcases hcr' with rfl | rfl <;> simp at hc
  have hstop : rest.takeWhile (· != '\n') = [] ∧ rest.dropWhile (· != '\n') = rest := by
    cases rest with
    | nil => exact ⟨rfl, rfl⟩
    | cons c rest =>
      obtain rfl : c = '\n' := beq_iff_eq.mp hrest
      exact ⟨rfl, rfl⟩
  have htext : nearLine near ++ (cr' ++ rest) =
      "Near Text:".toList ++ (' ' :: (near ++ (cr' ++ rest))) :=
    List.append_assoc _ (' ' :: near) (cr' ++ rest)
  rw [htext, near?, newline?_cr hcr]
  simp only [Option.bind_eq_bind, Option.bind_some, word?_append, hgap]
  rw [← List.append_assoc, List.takeWhile_append_of_pos hall, List.dropWhile_append_of_pos hall, hstop.1,
    hstop.2, List.append_nil]

/-- A line end in front of which a text is trimmed makes no difference to it. -/
theorem trim_append_cr {cr near : List Char} (hcr : cr = [] ∨ cr = ['\r']) (h : trim near = near) :
    trim (near ++ cr) = near := by
  rcases hcr with rfl | rfl
  · rwa [List.append_nil]
  · rw [trim_concat_blank (show isBlank '\r' = true by decide), h]

/-! ## Items in a row -/

/-- No item begins with a text nearby. -/
theorem not_near_starts {items : List Item} (h : ∀ i ∈ items, i.WellFormed) {s : List Char}
    (hs : HasLines (items.flatMap Item.lines) s) : ¬ "Near Text:".toList <+: s := by
  cases items with
  | nil =>
    rw [hs.eq_nil]
    decide
  | cons i items =>
    cases i with
    | entry e =>
      intro hword
      have hplace : e.place <+: s := hs.starts
      obtain ⟨t, rfl⟩ := hplace
      obtain ⟨t', ht⟩ := hword
      exact absurd (List.cons.inj ht).1 (by decide)
    | noise line =>
      obtain ⟨-, -, hline⟩ := h _ List.mem_cons_self
      rcases hs.cons_cases with ⟨-, rfl⟩ | ⟨cr, t, rfl | rfl, rfl, -⟩
      · exact hline
      · exact fun hword => hline (prefix_of_prefix_append_cons (by decide) hword)
      · exact fun hword => hline (prefix_of_prefix_append_cons (by decide) hword)

/-- No complaint begins where there is no bracket. -/
theorem complaint_eq_none {c : Char} (hc : c ≠ '[') (before : Option Char) (s : List Char) :
    complaint before (c :: s) = none := by
  have hword : ¬ "[".toList <+: c :: s := fun h => by
    obtain ⟨t, ht⟩ := h
    exact hc (List.cons.inj ht).1.symm
  rw [complaint, word?_eq_none hword]
  rfl

/-- A stretch without brackets is passed over. -/
theorem scanFrom_of_not_mem {u : List Char} (hu : '[' ∉ u) (v : List Char) (before : Option Char)
    (pos : Nat) :
    complaint.scanFrom before pos 0 (u ++ v) =
      complaint.scanFrom (u.getLast?.or before) (pos + u.length) 0 v := by
  refine Pattern.scanFrom_of_none (fun b hb hne before => ?_) before pos
  obtain ⟨c, b, rfl⟩ := List.exists_cons_of_ne_nil hne
  refine complaint_eq_none (fun hc => hu (hb.subset ?_)) before (b ++ v)
  rw [hc]
  exact List.mem_cons_self

/-- What was printed for an entry is what the entry says. -/
theorem error?_entry {e : Entry} (h : (Item.entry e).WellFormed) {near : List Char}
    (hnear : trim near = e.near.getD []) :
    error? ⟨e.file, e.parseError, digits e.line, digits e.columnStart, digits e.columnEnd, near⟩ =
      some e.complaint := by
  obtain ⟨-, ⟨hline, hstart, hend⟩, -⟩ := h
  have hmessage : (if (e.near.getD []).isEmpty then "" else
        ", near text: " ++ String.ofList (e.near.getD [])) =
      e.near.elim "" fun near => if near = [] then "" else ", near text: " ++ String.ofList near := by
    cases e.near with
    | none => rfl
    | some near => simp only [Option.getD_some, Option.elim_some, List.isEmpty_iff]
  rw [error?, hnear, hmessage]
  simp only [digits, Option.bind_eq_bind, numeral?_toDigits hline, numeral?_toDigits hstart,
    numeral?_toDigits hend, Option.bind_some, Entry.complaint]

theorem flatMap_lines_eq_nil {items : List Item} (h : items.flatMap Item.lines = []) : items = [] := by
  cases items with
  | nil => rfl
  | cons i items => cases i <;> cases (List.append_eq_nil_iff.mp h).1

theorem head_lineEnd {cr : List Char} (hcr : cr = [] ∨ cr = ['\r']) (t : List Char) :
    (cr ++ '\n' :: t).head?.any isDecimal = false := by
  rcases hcr with rfl | rfl
  · exact show isDecimal '\n' = false by decide
  · exact show isDecimal '\r' = false by decide

/-- Behind an item with its last line nothing is left, or the items that follow. -/
def Leaves (items : List Item) (rest : List Char) : Prop :=
  items = [] ∧ rest = [] ∨
    ∃ cr t, (cr = [] ∨ cr = ['\r']) ∧ rest = cr ++ '\n' :: t ∧ HasLines (items.flatMap Item.lines) t

/-- Behind the place of a complaint stands the text nearby that belongs to it, and no other. -/
theorem near_entry {e : Entry} {items : List Item} (h : ∀ i ∈ Item.entry e :: items, i.WellFormed)
    {s : List Char} (hs : HasLines ((Item.entry e :: items).flatMap Item.lines) s) :
    ∃ used near rest, s = e.place ++ (used ++ rest) ∧ (used ++ rest).head?.any isDecimal = false ∧
      (near? (used ++ rest)).getD ([], used ++ rest) = (near, rest) ∧ trim near = e.near.getD [] ∧
      Leaves items rest := by
  rw [List.flatMap_cons, Item.lines, List.cons_append] at hs
  cases hnear : e.near with
  | none =>
    rw [hnear, Option.map_none, Option.toList_none, List.nil_append] at hs
    rcases hs.cons_cases with ⟨hnil, rfl⟩ | ⟨cr, t, hcr, rfl, ht⟩
    · exact ⟨[], [], [], (List.append_nil _).symm, rfl, rfl, rfl, .inl ⟨flatMap_lines_eq_nil hnil, rfl⟩⟩
    · have hnone : near? (cr ++ '\n' :: t) = none :=
        near?_of_not_starts hcr (not_near_starts (fun i hi => h i (List.mem_cons_of_mem _ hi)) ht)
      exact ⟨[], [], cr ++ '\n' :: t, rfl, head_lineEnd hcr t, by rw [List.nil_append, hnone]; rfl, rfl,
        .inr ⟨cr, t, hcr, rfl, ht⟩⟩
  | some near =>
    obtain ⟨-, -, hnears⟩ := h _ List.mem_cons_self
    obtain ⟨hline, htrim⟩ := hnears near hnear
    rw [hnear, Option.map_some, Option.toList_some, List.singleton_append] at hs
    rcases hs.cons_cases with ⟨hnil, -⟩ | ⟨cr, t, hcr, rfl, ht⟩
    · cases hnil
    rcases ht.cons_cases with ⟨hnil, rfl⟩ | ⟨cr', t, hcr', rfl, hrest⟩
    · have hread : near? (cr ++ '\n' :: (nearLine near ++ ([] ++ []))) = some (near ++ [], []) :=
        near?_nearLine hcr (.inl rfl) hline htrim rfl
      rw [List.append_nil, List.append_nil, List.append_nil] at hread
      refine ⟨cr ++ '\n' :: nearLine near, near, [], by rw [List.append_nil], ?_, ?_, htrim,
        .inl ⟨flatMap_lines_eq_nil hnil, rfl⟩⟩
      · rw [List.append_nil]
        exact head_lineEnd hcr _
      · rw [List.append_nil, hread, Option.getD_some]
    · have hread : near? (cr ++ '\n' :: (nearLine near ++ (cr' ++ '\n' :: t))) =
          some (near ++ cr', '\n' :: t) := near?_nearLine hcr hcr' hline htrim rfl
      have htext : (cr ++ '\n' :: (nearLine near ++ cr')) ++ '\n' :: t =
          cr ++ '\n' :: (nearLine near ++ (cr' ++ '\n' :: t)) := by
        rw [List.append_assoc, List.cons_append, List.append_assoc]
      refine ⟨cr ++ '\n' :: (nearLine near ++ cr'), near ++ cr', '\n' :: t, by rw [htext], ?_, ?_,
        trim_append_cr hcr' htrim, .inr ⟨[], t, .inl rfl, rfl, hrest⟩⟩
      · rw [htext]
        exact head_lineEnd hcr _
      · rw [htext, hread, Option.getD_some]

/-- The scan finds what the items say, in order. -/
theorem errors_written {items : List Item} (h : ∀ i ∈ items, i.WellFormed) {s : List Char}
    (hs : HasLines (items.flatMap Item.lines) s) (before : Option Char) (pos : Nat) :
    (complaint.scanFrom before pos 0 s).filterMap (error? ·.value) =
      items.filterMap Item.complaint? := by
  induction items generalizing s before pos with
  | nil =>
    rw [hs.eq_nil]
    rfl
  | cons i items ih =>
    -- what ends a line holds no bracket
    have hnext : ∀ {cr t : List Char}, cr = [] ∨ cr = ['\r'] → HasLines (items.flatMap Item.lines) t →
        ∀ u, '[' ∉ u → ∀ before pos,
          (complaint.scanFrom before pos 0 (u ++ (cr ++ '\n' :: t))).filterMap (error? ·.value) =
            items.filterMap Item.complaint? := fun {cr t} hcr ht u hu before pos => by
      have htext : u ++ (cr ++ '\n' :: t) = (u ++ (cr ++ ['\n'])) ++ t := by
        simp only [List.append_assoc, List.singleton_append]
      have hbracket : '[' ∉ u ++ (cr ++ ['\n']) := by
        rcases hcr with rfl | rfl <;> simp [hu]
      rw [htext, scanFrom_of_not_mem hbracket]
      exact ih (fun i hi => h i (List.mem_cons_of_mem _ hi)) ht _ _
    cases i with
    | noise line =>
      obtain ⟨hbracket, -, -⟩ := h _ List.mem_cons_self
      rw [List.filterMap_cons_none rfl]
      rcases HasLines.cons_cases hs with ⟨hnil, rfl⟩ | ⟨cr, t, hcr, rfl, ht⟩
      · have hscan := scanFrom_of_not_mem hbracket [] before pos
        rw [List.append_nil] at hscan
        rw [hscan, flatMap_lines_eq_nil hnil]
        rfl
      · exact hnext hcr ht line hbracket before pos
    | entry e =>
      have hwf := h _ List.mem_cons_self
      obtain ⟨used, near, rest, rfl, hdigit, hread, htrim, hrest⟩ := near_entry h hs
      have hmatch := complaint_place hwf before hdigit hread
      have hne : e.place ++ used ≠ [] := fun hnil => by cases hnil
      have herror := error?_entry hwf htrim
      have hsays : Item.complaint? (.entry e) = some e.complaint := rfl
      rw [← List.append_assoc] at hmatch ⊢
      rw [Pattern.scanFrom_of_match hne hmatch, List.filterMap_cons_some (by exact herror),
        List.filterMap_cons_some hsays]
      refine congrArg _ ?_
      rcases hrest with ⟨rfl, rfl⟩ | ⟨cr, t, hcr, rfl, ht⟩
      · rfl
      · exact hnext hcr ht [] List.not_mem_nil _ _

/-- A report is read back, whichever of its lines end at `\n` and which at `\r\n`: one error for each
complaint, in order, and nothing else. -/
theorem report_written {items : List Item} (h : ∀ i ∈ items, i.WellFormed) {s : List Char}
    (hs : HasLines (items.flatMap Item.lines) s) :
    report (String.ofList s) = { errors := items.filterMap Item.complaint? } := by
  rw [report, String.toList_ofList, Pattern.scan, errors_written h hs]

/-- A report whose first complaint is about a file with brackets in its name, near a text that looks
like a complaint; no text at all stands near the second one. -/
def installation : List Item :=
  [.noise "Installing: ERROR at line 1".toList,
    .entry { file := "a[[1.tp2".toList, parseError := true, line := 30, columnStart := 0, columnEnd := 63,
             near := some "[b.tp2] ERROR at line 7 column 1-2".toList },
    .entry { file := "c.tph".toList, parseError := false, line := 0, columnStart := 5, columnEnd := 3,
             near := some [] },
    .noise "\tNear Text: none".toList,
    .entry { file := " ".toList, parseError := false, line := 12, columnStart := 1, columnEnd := 1 }]

theorem installation_read :
    (∀ i ∈ installation, i.WellFormed) ∧
      ∃ s, HasLines (installation.flatMap Item.lines) s ∧
        report (String.ofList s) =
          { errors :=
              [⟨"a[[1.tp2", 30, -1, 63, "Parse error, near text: [b.tp2] ERROR at line 7 column 1-2", .error⟩,
                ⟨"c.tph", 0, 4, 3, "Error", .error⟩, ⟨" ", 12, 0, 1, "Error", .error⟩] } := by
  have hwf : ∀ i ∈ installation, i.WellFormed := by decide +kernel
  have hlines : HasLines (installation.flatMap Item.lines) _ :=
    .lf _ (.crlf _ (.crlf _ (.lf _ (.crlf _ (.lf _ (.last _))))))
  refine ⟨hwf, _, hlines, (report_written hwf hlines).trans ?_⟩
  decide +kernel

end ScriptService.Weidu
