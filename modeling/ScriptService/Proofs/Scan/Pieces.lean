import ScriptService.Scan.Pattern

/-!
# Scanning a text piece by piece

A scan passes over places without a match (`scanFrom_of_none`) and over the text
of a match (`scanFrom_of_match`). A pattern reads a piece of text, from the start
of a line to the start of another, when it finds the same in it wherever the piece
stands (`Reads`). The matches in a text of such pieces are those of its pieces,
each moved to its place (`scan_flatMap`).
-/

namespace ScriptService.Scan

variable {α ι : Type}

/-- The match as it stands some characters further on. -/
def Match.shift (n : Nat) (m : Match α) : Match α :=
  { m with start := n + m.start }

/-- Pieces with their places: the sizes of those before, and a first place. -/
def placed (size : ι → Nat) (place : Nat) : List ι → List (Nat × ι)
  | [] => []
  | i :: is => (place, i) :: placed size (place + size i) is

theorem le_of_mem_placed {size : ι → Nat} {place n : Nat} {items : List ι} {i : ι}
    (h : (n, i) ∈ placed size place items) : place ≤ n ∧ i ∈ items := by
  induction items generalizing place with
  | nil => cases h
  | cons j items ih =>
    rcases List.mem_cons.mp h with e | h
    · obtain ⟨rfl, rfl⟩ := Prod.mk.inj e
      exact ⟨Nat.le_refl _, List.mem_cons_self⟩
    · obtain ⟨hn, hi⟩ := ih h
      exact ⟨by omega, List.mem_cons_of_mem _ hi⟩

/-- What stands before the start of a line. -/
def LineStart (before : Option Char) : Prop := ∀ c ∈ before, c = '\n'

theorem lineStart_none : LineStart none := fun c hc => absurd hc (Option.not_mem_none c)

theorem lineStart_newline : LineStart (some '\n') := fun _ hc => (Option.some.inj hc).symm

namespace Pattern

variable {p : Pattern α}

theorem getLast?_cons_or (c : Char) (u : List Char) (before : Option Char) :
    (c :: u).getLast?.or before = u.getLast?.or (some c) := by
  rw [List.getLast?_cons]
  cases u.getLast? <;> rfl

theorem scanFrom_skip (p : Pattern α) (before : Option Char) (pos : Nat) (u v : List Char) :
    p.scanFrom before pos u.length (u ++ v) =
      p.scanFrom (u.getLast?.or before) (pos + u.length) 0 v := by
  induction u generalizing before pos with
  | nil => rfl
  | cons c u ih =>
    have hpos : pos + 1 + u.length = pos + (u.length + 1) := by omega
    rw [List.cons_append, List.length_cons, scanFrom, ih, getLast?_cons_or, hpos]

/-- A stretch in which no match begins is passed over. -/
theorem scanFrom_of_none {u v : List Char}
    (h : ∀ b, b <:+ u → b ≠ [] → ∀ before, p before (b ++ v) = none) (before : Option Char)
    (pos : Nat) :
    p.scanFrom before pos 0 (u ++ v) = p.scanFrom (u.getLast?.or before) (pos + u.length) 0 v := by
  induction u generalizing before pos with
  | nil => rfl
  | cons c u ih =>
    have hc : p before (c :: (u ++ v)) = none := h (c :: u) List.suffix_rfl (by simp) before
    have hu := ih fun b hb => h b (hb.trans (List.suffix_cons c u))
    have hpos : pos + 1 + u.length = pos + (u.length + 1) := by omega
    rw [List.cons_append, List.length_cons, scanFrom, at?, hc, Option.map_none, getLast?_cons_or, ← hpos]
    exact hu (some c) (pos + 1)

/-- A match is taken, and the scan goes on behind it. -/
theorem scanFrom_of_match {before : Option Char} {u v : List Char} {a : α} (hu : u ≠ [])
    (h : p before (u ++ v) = some (a, v)) (pos : Nat) :
    p.scanFrom before pos 0 (u ++ v) =
      ⟨pos, u.length, a⟩ :: p.scanFrom u.getLast? (pos + u.length) 0 v := by
  obtain ⟨c, u, rfl⟩ := List.exists_cons_of_ne_nil hu
  have hat : p.at? before pos (c :: (u ++ v)) = some ⟨pos, u.length + 1, a⟩ := by
    have hlen : (c :: u ++ v).length - v.length = u.length + 1 := by
      rw [List.length_append, Nat.add_sub_cancel, List.length_cons]
    rw [at?, ← List.cons_append, h, Option.map_some, ← hlen]
  have hlast : (c :: u).getLast? = u.getLast?.or (some c) := by
    rw [← getLast?_cons_or c u none, Option.or_none]
  have hpos : pos + 1 + u.length = pos + (u.length + 1) := by omega
  rw [List.cons_append, scanFrom, hat, List.length_cons, hlast, ← hpos]
  exact congrArg _ (scanFrom_skip p (some c) (pos + 1) u v)

/-! ## Pieces -/

/-- In a piece of text that begins a line, and behind which the next line begins, the pattern finds
the matches given, whatever stands around it. -/
def Reads (p : Pattern α) (u : List Char) (ms : List (Match α)) : Prop :=
  ∀ (before : Option Char) (pos : Nat) (v : List Char), LineStart before →
    p.scanFrom before pos 0 (u ++ v) =
      ms.map (Match.shift pos) ++ p.scanFrom (some '\n') (pos + u.length) 0 v

theorem reads_of_none {u : List Char}
    (h : ∀ b, b <:+ u ++ ['\n'] → b ≠ [] → ∀ before v, p before (b ++ v) = none) :
    p.Reads (u ++ ['\n']) [] := by
  intro before pos v _
  rw [scanFrom_of_none fun b hb hne before => h b hb hne before v]
  simp

theorem reads_of_match {u : List Char} {a : α} (hu : u ≠ [])
    (h : ∀ before v, LineStart before → p before (u ++ '\n' :: v) = some (a, '\n' :: v))
    (hn : ∀ before v, p before ('\n' :: v) = none) : p.Reads (u ++ ['\n']) [⟨0, u.length, a⟩] := by
  intro before pos v hb
  have hrest : ∀ (before : Option Char) (pos : Nat), p.scanFrom before pos 0 ('\n' :: v) =
      p.scanFrom (some '\n') (pos + 1) 0 v := fun before pos => by
    rw [scanFrom, at?, hn, Option.map_none]
  rw [List.append_assoc, List.singleton_append, scanFrom_of_match hu (h before v hb), hrest]
  simp [Match.shift, Nat.add_assoc]

theorem scanFrom_flatMap {text : ι → List Char} {found : ι → List (Match α)}
    (hend : ∀ before, p before [] = none) {items : List ι}
    (h : ∀ i ∈ items, p.Reads (text i) (found i)) {before : Option Char} (hb : LineStart before)
    (pos : Nat) :
    p.scanFrom before pos 0 (items.flatMap text) =
      (placed (fun i => (text i).length) pos items).flatMap fun (n, i) =>
        (found i).map (Match.shift n) := by
  induction items generalizing before pos with
  | nil => simp [scanFrom, at?, hend, placed]
  | cons i items ih =>
    have hi := h i List.mem_cons_self before pos (items.flatMap text) hb
    have hrest := ih (fun j hj => h j (List.mem_cons_of_mem _ hj)) lineStart_newline
      (pos + (text i).length)
    rw [List.flatMap_cons, hi, hrest, placed, List.flatMap_cons]

/-- The matches in a text of pieces are those of its pieces, each at its place. -/
theorem scan_flatMap {text : ι → List Char} {found : ι → List (Match α)}
    (hend : ∀ before, p before [] = none) {items : List ι}
    (h : ∀ i ∈ items, p.Reads (text i) (found i)) :
    p.scan (items.flatMap text) =
      (placed (fun i => (text i).length) 0 items).flatMap fun (n, i) =>
        (found i).map (Match.shift n) :=
  scanFrom_flatMap hend h lineStart_none 0

end Pattern

end ScriptService.Scan
