import ScriptService.Proofs.Scan.Pieces

/-!
# Where the matches of a scan stand

Every match of a scan is a match of the pattern at its place in the text, with the
character that stands in front of that place (`Pattern.at?_of_mem_scan`). Matches
stand in the order of their places and do not overlap (`Pattern.pairwise_scan`).
-/

namespace ScriptService.Scan.Pattern

variable {α : Type} {p : Pattern α}

theorem at?_of_mem_scanFrom {before : Option Char} {pos skip : Nat} {s : List Char} {m : Match α}
    (h : m ∈ p.scanFrom before pos skip s) :
    ∃ n ≤ s.length, p.at? ((s.take n).getLast?.or before) (pos + n) (s.drop n) = some m := by
  induction s generalizing before pos skip with
  | nil =>
    rw [scanFrom] at h
    split at h
    · exact ⟨0, Nat.le_refl 0, Option.mem_toList.mp h⟩
    · cases h
  | cons c s ih =>
    have hlater : ∀ {skip : Nat}, m ∈ p.scanFrom (some c) (pos + 1) skip s → ∃ n ≤ (c :: s).length,
        p.at? (((c :: s).take n).getLast?.or before) (pos + n) ((c :: s).drop n) = some m := fun h => by
      obtain ⟨n, hn, hm⟩ := ih h
      refine ⟨n + 1, Nat.succ_le_succ hn, ?_⟩
      rw [List.take_succ_cons, getLast?_cons_or, List.drop_succ_cons, Nat.add_comm n, ← Nat.add_assoc]
      exact hm
    cases skip with
    | succ k => exact hlater h
    | zero =>
      rw [scanFrom] at h
      split at h
      · exact hlater h
      · rename_i m' hm'
        rcases List.mem_cons.mp h with rfl | h
        · exact ⟨0, Nat.zero_le _, hm'⟩
        · exact hlater h

theorem start_of_at? {before : Option Char} {pos : Nat} {s : List Char} {m : Match α}
    (h : p.at? before pos s = some m) : m.start = pos := by
  obtain ⟨a, -, rfl⟩ := Option.map_eq_some_iff.mp h
  rfl

theorem at?_of_mem_scan {text : List Char} {m : Match α} (h : m ∈ p.scan text) :
    m.start ≤ text.length ∧
      p.at? (text.take m.start).getLast? m.start (text.drop m.start) = some m := by
  obtain ⟨n, hn, hm⟩ := at?_of_mem_scanFrom h
  rw [Nat.zero_add, Option.or_none] at hm
  obtain rfl := start_of_at? hm
  exact ⟨hn, hm⟩

/-! ## The order of matches -/

theorem le_start_of_mem_scanFrom {before : Option Char} {pos skip : Nat} {s : List Char} {m : Match α}
    (h : m ∈ p.scanFrom before pos skip s) : pos + skip ≤ m.start := by
  induction s generalizing before pos skip with
  | nil =>
    rw [scanFrom] at h
    split at h
    · have hstart := start_of_at? (Option.mem_toList.mp h)
      omega
    · cases h
  | cons c s ih =>
    cases skip with
    | succ k =>
      have hle : pos + 1 + k ≤ m.start := ih h
      omega
    | zero =>
      rw [scanFrom] at h
      split at h
      · have hle := ih h
        omega
      · rename_i m' hm'
        rcases List.mem_cons.mp h with rfl | h
        · have hstart := start_of_at? hm'
          omega
        · have hle := ih h
          omega

theorem pairwise_scanFrom (p : Pattern α) (before : Option Char) (pos skip : Nat) (s : List Char) :
    (p.scanFrom before pos skip s).Pairwise fun m m' => m.stop ≤ m'.start ∧ m.start < m'.start := by
  induction s generalizing before pos skip with
  | nil =>
    rw [scanFrom]
    split
    · cases p.at? before pos [] with
      | none => exact .nil
      | some m => exact List.pairwise_singleton _ m
    · exact .nil
  | cons c s ih =>
    cases skip with
    | succ k => exact ih (some c) (pos + 1) k
    | zero =>
      rw [scanFrom]
      split
      · exact ih (some c) (pos + 1) 0
      · rename_i m hm
        refine List.pairwise_cons.mpr ⟨fun m' hm' => ?_, ih (some c) (pos + 1) (m.length - 1)⟩
        have hstart : m.start = pos := start_of_at? hm
        have hle : pos + 1 + (m.length - 1) ≤ m'.start := le_start_of_mem_scanFrom hm'
        rw [Match.stop, hstart]
        omega

/-- A match ends in front of the next one, and starts in front of it even if it is empty. -/
theorem pairwise_scan (p : Pattern α) (text : List Char) :
    (p.scan text).Pairwise fun m m' => m.stop ≤ m'.start ∧ m.start < m'.start :=
  pairwise_scanFrom p none 0 0 text

end ScriptService.Scan.Pattern
