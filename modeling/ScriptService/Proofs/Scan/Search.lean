import ScriptService.Proofs.Scan.Matches

/-!
# One match after the other

A search finds, from each position of a text on, the leftmost match of a pattern
(`Search`). Matches are found one after the other: the search goes on behind a match,
or one character further when the match is empty (`Search.run`), so each step leaves
less of the text (`Search.lt_next`). What is found behind a match is what a search
from there on finds (`Search.drop_runFrom`), and that is the leftmost there is
(`Search.exists_first`).

The scan of a pattern makes no searches of its own, but tries one place after the other.
It finds the same matches (`Pattern.scan_eq_run`).

Main statement: `scan_exhausts`.
-/

namespace ScriptService.Scan

variable {α : Type}

/-- Where the search goes on behind a match. -/
def Match.next (m : Match α) : Nat :=
  if m.length = 0 then m.stop + 1 else m.stop

theorem Match.start_lt_next (m : Match α) : m.start < m.next := by
  rw [next, stop]
  split <;> omega

theorem Match.stop_le_next (m : Match α) : m.stop ≤ m.next := by
  rw [next]
  split
  · exact Nat.le_succ _
  · exact Nat.le_refl _

/-- The search of a pattern in one text. Whatever the pattern looks at, all that is known of it is
which matches it has in the text. -/
structure Search (α : Type) where
  /-- The length of the text. -/
  length : Nat
  /-- The matches of the pattern, at all places. -/
  Hit : Match α → Prop
  /-- The match that is found from a position on. -/
  find? : Nat → Option (Match α)
  inside {m : Match α} (hhit : Hit m) : m.stop ≤ length
  hit_of_find? {pos : Nat} {m : Match α} (h : find? pos = some m) : Hit m ∧ pos ≤ m.start
  leftmost {pos : Nat} {m hit : Match α} (h : find? pos = some m) (hhit : Hit hit) (hpos : pos ≤ hit.start) :
    m.start ≤ hit.start
  none_behind {pos : Nat} {hit : Match α} (h : find? pos = none) (hhit : Hit hit) : hit.start < pos

namespace Search

variable (S : Search α)

theorem lt_next {pos : Nat} {m : Match α} (h : S.find? pos = some m) : pos < m.next :=
  Nat.lt_of_le_of_lt (S.hit_of_find? h).2 m.start_lt_next

/-- The matches that are found from a position on, one after the other. The position behind the last
character is searched as well. -/
def runFrom (pos : Nat) : List (Match α) :=
  if pos ≤ S.length then
    match _h : S.find? pos with
    | none => []
    | some m => m :: runFrom m.next
  else []
termination_by S.length + 1 - pos
decreasing_by
  have := S.lt_next _h
  omega

/-- The matches that are found in a text. -/
def run : List (Match α) :=
  S.runFrom 0

section

variable {S} {pos : Nat}

theorem runFrom_of_lt (h : S.length < pos) : S.runFrom pos = [] := by
  rw [runFrom, if_neg (by omega)]

theorem runFrom_of_none (h : S.find? pos = none) : S.runFrom pos = [] := by
  rw [runFrom]
  split
  · split
    · rfl
    · rename_i m hm
      rw [h] at hm
      cases hm
  · rfl

theorem runFrom_of_some (hpos : pos ≤ S.length) {m : Match α} (h : S.find? pos = some m) :
    S.runFrom pos = m :: S.runFrom m.next := by
  rw [runFrom, if_pos hpos]
  split
  · rename_i hm
    rw [h] at hm
    cases hm
  · rename_i m' hm
    rw [h] at hm
    obtain rfl := Option.some.inj hm
    rfl

end

theorem hit_of_mem_runFrom {pos : Nat} {m : Match α} (h : m ∈ S.runFrom pos) : S.Hit m ∧ pos ≤ m.start := by
  fun_induction runFrom S pos with
  | case1 pos hpos hnone => cases h
  | case2 pos hpos first hfirst ih =>
    rcases List.mem_cons.mp h with rfl | h
    · exact S.hit_of_find? hfirst
    · have hnext := S.lt_next hfirst
      exact ⟨(ih h).1, Nat.le_of_lt (Nat.lt_of_lt_of_le hnext (ih h).2)⟩
  | case3 pos hpos => cases h

/-- The search goes on behind each match, so none of the later ones reaches back into it. -/
theorem pairwise_runFrom (pos : Nat) : (S.runFrom pos).Pairwise fun m m' => m.next ≤ m'.start := by
  fun_induction runFrom S pos with
  | case1 => exact .nil
  | case2 pos hpos m hm ih => exact .cons (fun m' hm' => (S.hit_of_mem_runFrom hm').2) ih
  | case3 => exact .nil

/-- From a position on, no match of the pattern starts in front of the one that is found first. -/
theorem exists_first {pos : Nat} {hit : Match α} (hhit : S.Hit hit) (hpos : pos ≤ hit.start) :
    ∃ m, (S.runFrom pos)[0]? = some m ∧ m.start ≤ hit.start := by
  cases h : S.find? pos with
  | none => exact absurd hpos (Nat.not_le.mpr (S.none_behind h hhit))
  | some m =>
    have hlength : pos ≤ S.length := by
      have hinside := S.inside hhit
      rw [Match.stop] at hinside
      omega
    exact ⟨m, by rw [runFrom_of_some hlength h]; rfl, S.leftmost h hhit hpos⟩

/-- Behind each match the search starts over. -/
theorem drop_runFrom {pos n : Nat} {m : Match α} (h : (S.runFrom pos)[n]? = some m) :
    (S.runFrom pos).drop (n + 1) = S.runFrom m.next := by
  fun_induction runFrom S pos generalizing n with
  | case1 => cases h
  | case2 pos hpos first hfirst ih =>
    rw [List.drop_succ_cons]
    cases n with
    | zero =>
      obtain rfl := Option.some.inj h
      rfl
    | succ n => exact ih h
  | case3 => cases h

theorem length_runFrom_le (pos : Nat) : (S.runFrom pos).length ≤ S.length + 1 - pos := by
  fun_induction runFrom S pos with
  | case1 => exact Nat.zero_le _
  | case2 pos hpos m hm ih =>
    have := S.lt_next hm
    rw [List.length_cons]
    omega
  | case3 => exact Nat.zero_le _

/-- All that a pattern has to offer is found: the matches are in the text and in order, do not
overlap, and no further one starts in front of the first, between two of them or behind the last. -/
structure Exhausts (ms : List (Match α)) : Prop where
  inside : ∀ m ∈ ms, S.Hit m ∧ m.stop ≤ S.length
  apart : ms.Pairwise fun m m' => m.start < m'.start ∧ m.stop ≤ m'.start
  first : ∀ hit, S.Hit hit → ∃ m, ms[0]? = some m ∧ m.start ≤ hit.start
  /-- If a match of the pattern starts behind one that is found, then another one is found next, and
  it starts there or further in front. -/
  next : ∀ n m, ms[n]? = some m → ∀ hit, S.Hit hit → m.next ≤ hit.start →
    ∃ m', ms[n + 1]? = some m' ∧ m'.start ≤ hit.start
  count : ms.length ≤ S.length + 1

theorem exhausts_run : S.Exhausts S.run where
  inside m hm := ⟨(S.hit_of_mem_runFrom hm).1, S.inside (S.hit_of_mem_runFrom hm).1⟩
  apart := (S.pairwise_runFrom 0).imp fun {m m'} h =>
    ⟨Nat.lt_of_lt_of_le m.start_lt_next h, Nat.le_trans m.stop_le_next h⟩
  first hit hhit := S.exists_first hhit (Nat.zero_le _)
  next n m hm hit hhit hnext := by
    obtain ⟨m', hm', hstart⟩ := S.exists_first hhit hnext
    refine ⟨m', ?_, hstart⟩
    rwa [← S.drop_runFrom hm, List.getElem?_drop, Nat.add_zero] at hm'
  count := S.length_runFrom_le 0

end Search

/-! ## The search of a scan's pattern -/

namespace Pattern

variable (p : Pattern α) (text : List Char)

/-- The match of a pattern at a position of a text. -/
def matchAt? (pos : Nat) : Option (Match α) :=
  p.at? (text.take pos).getLast? pos (text.drop pos)

theorem start_of_matchAt? {pos : Nat} {m : Match α} (h : p.matchAt? text pos = some m) : m.start = pos :=
  start_of_at? h

/-- The first match of a pattern from a position on. -/
def find? (pos : Nat) : Option (Match α) :=
  (List.range' pos (text.length + 1 - pos)).findSome? (p.matchAt? text)

theorem find?_eq_some {pos : Nat} {m : Match α} (h : p.find? text pos = some m) :
    pos ≤ m.start ∧ m.start ≤ text.length ∧ p.matchAt? text m.start = some m ∧
      ∀ k, pos ≤ k → k < m.start → p.matchAt? text k = none := by
  obtain ⟨before, k, after, hrange, hk, hnone⟩ := List.findSome?_eq_some_iff.mp h
  obtain rfl := p.start_of_matchAt? text hk
  have hmem : m.start ∈ List.range' pos (text.length + 1 - pos) := by
    rw [hrange]
    exact List.mem_append_right before List.mem_cons_self
  rw [List.mem_range'_1] at hmem
  refine ⟨hmem.1, by omega, hk, fun k hpos hlt => hnone k ?_⟩
  -- the positions rise, so those in front of the match come first
  have hrises : (before ++ m.start :: after).Pairwise (· < ·) := hrange ▸ List.pairwise_lt_range'
  have hkmem : k ∈ before ++ m.start :: after := by
    rw [← hrange, List.mem_range'_1]
    omega
  rcases List.mem_append.mp hkmem with hbefore | hafter
  · exact hbefore
  · rcases List.mem_cons.mp hafter with rfl | hafter
    · exact absurd hlt (Nat.lt_irrefl _)
    · have := List.rel_of_pairwise_cons (List.pairwise_append.mp hrises).2.1 hafter
      omega

theorem matchAt?_eq_none {pos : Nat} (h : p.find? text pos = none) {k : Nat} (hpos : pos ≤ k)
    (hk : k ≤ text.length) : p.matchAt? text k = none :=
  List.findSome?_eq_none_iff.mp h k (List.mem_range'_1.mpr (by omega))

/-- A match of a pattern in a text: what the pattern gives at the place where the match starts. -/
def Hits (m : Match α) : Prop :=
  m.start ≤ text.length ∧ p.matchAt? text m.start = some m

variable {p text}

theorem Hits.stop_le {m : Match α} (h : p.Hits text m) : m.stop ≤ text.length := by
  obtain ⟨hstart, hm⟩ := h
  obtain ⟨a, -, hlength⟩ := Option.map_eq_some_iff.mp hm
  have hlength := congrArg Match.length hlength
  simp only [List.length_drop] at hlength
  rw [Match.stop]
  omega

theorem hits_of_find? {pos : Nat} {m : Match α} (h : p.find? text pos = some m) :
    p.Hits text m ∧ pos ≤ m.start := by
  obtain ⟨hpos, hstart, hm, -⟩ := p.find?_eq_some text h
  exact ⟨⟨hstart, hm⟩, hpos⟩

theorem Hits.start_le {pos : Nat} {m n : Match α} (hn : p.Hits text n) (h : p.find? text pos = some m)
    (hpos : pos ≤ n.start) : m.start ≤ n.start := by
  obtain ⟨-, -, -, hnone⟩ := p.find?_eq_some text h
  exact Nat.not_lt.mp fun hlt => Option.some_ne_none _ (hn.2.symm.trans (hnone _ hpos hlt))

theorem Hits.start_lt {pos : Nat} {n : Match α} (hn : p.Hits text n) (h : p.find? text pos = none) :
    n.start < pos :=
  Nat.not_le.mp fun hpos => Option.some_ne_none _ (hn.2.symm.trans (p.matchAt?_eq_none text h hpos hn.1))

variable (p text)

/-- The search of a pattern in a text. -/
def search : Search α where
  length := text.length
  Hit := p.Hits text
  find? := p.find? text
  inside hm := hm.stop_le
  hit_of_find? h := hits_of_find? h
  leftmost h hn hpos := hn.start_le h hpos
  none_behind h hn := hn.start_lt h

theorem find?_of_matchAt? {pos : Nat} (hpos : pos ≤ text.length) :
    p.find? text pos = (p.matchAt? text pos).or (p.find? text (pos + 1)) := by
  have hcount : text.length + 1 - pos = (text.length + 1 - (pos + 1)) + 1 := by omega
  rw [find?, find?, hcount, List.range'_succ, List.findSome?_cons]
  cases p.matchAt? text pos <;> rfl

theorem runFrom_search_of_none {pos : Nat} (hpos : pos ≤ text.length) (h : p.matchAt? text pos = none) :
    (p.search text).runFrom pos = (p.search text).runFrom (pos + 1) := by
  have hfind : p.find? text pos = p.find? text (pos + 1) := by
    rw [p.find?_of_matchAt? text hpos, h, Option.none_or]
  cases hnext : p.find? text (pos + 1) with
  | none => rw [Search.runFrom_of_none (hfind.trans hnext), Search.runFrom_of_none hnext]
  | some m =>
    have hlength : pos + 1 ≤ text.length := by
      have := p.find?_eq_some text hnext
      omega
    have hlater : (p.search text).runFrom (pos + 1) = m :: (p.search text).runFrom m.next :=
      Search.runFrom_of_some hlength hnext
    rw [Search.runFrom_of_some hpos (hfind.trans hnext), hlater]

theorem runFrom_search_of_some {pos : Nat} (hpos : pos ≤ text.length) {m : Match α}
    (h : p.matchAt? text pos = some m) : (p.search text).runFrom pos = m :: (p.search text).runFrom m.next :=
  Search.runFrom_of_some hpos (by
    change p.find? text pos = some m
    rw [p.find?_of_matchAt? text hpos, h, Option.some_or])

/-- What is left of a scan, behind `skip` characters of the match at hand. -/
theorem scanFrom_eq_runFrom (skip : Nat) (a b : List Char) :
    p.scanFrom a.getLast? a.length skip b = (p.search (a ++ b)).runFrom (a.length + skip) := by
  have hmatch : p.matchAt? (a ++ b) a.length = p.at? a.getLast? a.length b := by
    rw [matchAt?, List.take_left, List.drop_left]
  have hlength : a.length ≤ (a ++ b).length := (List.prefix_append a b).length_le
  induction b generalizing a skip with
  | nil =>
    have hend : ∀ pos, a.length < pos → (p.search (a ++ [])).runFrom pos = [] := fun pos hpos =>
      Search.runFrom_of_lt (by
        change (a ++ []).length < pos
        rwa [List.append_nil])
    rw [scanFrom]
    split
    · rename_i hskip
      rw [hskip, Nat.add_zero]
      cases hm : p.at? a.getLast? a.length [] with
      | none => rw [p.runFrom_search_of_none _ hlength (hmatch.trans hm), hend _ (Nat.lt_succ_self _)]; rfl
      | some m =>
        have hnext : a.length < m.next := start_of_at? hm ▸ m.start_lt_next
        rw [p.runFrom_search_of_some _ hlength (hmatch.trans hm), hend _ hnext]
        rfl
    · exact (hend _ (by omega)).symm
  | cons c b ih =>
    have hlater : ∀ skip, p.scanFrom (some c) (a.length + 1) skip b =
        (p.search (a ++ c :: b)).runFrom (a.length + 1 + skip) := fun skip => by
      have h := ih skip (a ++ [c]) (by rw [matchAt?, List.take_left, List.drop_left])
        (List.prefix_append (a ++ [c]) b).length_le
      rwa [List.getLast?_concat, List.length_append, List.length_singleton, List.append_assoc,
        List.singleton_append] at h
    cases skip with
    | succ k =>
      rw [scanFrom, hlater, Nat.add_assoc, Nat.add_comm 1]
    | zero =>
      rw [scanFrom]
      split
      · rename_i hm
        rw [hlater, Nat.add_zero, Nat.add_zero a.length, p.runFrom_search_of_none _ hlength (hmatch.trans hm)]
      · rename_i m hm
        have hnext : a.length + 1 + (m.length - 1) = m.next := by
          rw [Match.next, Match.stop, start_of_at? hm]
          split <;> omega
        rw [hlater, Nat.add_zero a.length, p.runFrom_search_of_some _ hlength (hmatch.trans hm), hnext]

/-- A scan finds the matches that searches find one after the other. -/
theorem scan_eq_run : p.scan text = (p.search text).run := by
  have h := p.scanFrom_eq_runFrom 0 [] text
  rwa [List.nil_append] at h

end Pattern

/-- Searches one after the other find all matches of a pattern that lie apart, whatever the pattern,
and a scan finds them for the patterns that it takes. -/
theorem scan_exhausts :
    (∀ S : Search α, S.Exhausts S.run) ∧
      ∀ (p : Pattern α) (text : List Char),
        p.scan text = (p.search text).run ∧ (p.search text).Exhausts (p.scan text) := by
  refine ⟨Search.exhausts_run, fun p text => ?_⟩
  have hrun := p.scan_eq_run text
  exact ⟨hrun, hrun ▸ (p.search text).exhausts_run⟩

end ScriptService.Scan
