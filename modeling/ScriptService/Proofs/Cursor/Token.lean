import ScriptService.Cursor.Token
import ScriptService.Proofs.Failure
import ScriptService.Proofs.Text.Class

/-!
# The token at a cursor in a run

A cursor anywhere in a run of a class finds the whole run (`runAt?_of_isRun`), and
what a cursor finds is the run around its character (`runAt?_eq_some_iff`). The token
at a cursor in a word is the word, unless it is a number, for which it is the run
without blanks that holds the number (`foundToken?_eq_some_iff`). That is what a search
gives unless the cursor stands too far behind its line (`tokenAt?_eq`).

Main statement: `symbolAt?_maximalRun`.
-/

namespace ScriptService

open Text

theorem tailRun_append {p : Char → Bool} {u w : List Char} (hw : w.all p = true)
    (hu : u.getLast?.any p = false) : tailRun p (u ++ w) = w := by
  rw [← List.head?_reverse] at hu
  rw [tailRun, List.reverse_append, takeWhile_append_stop (by rwa [List.all_reverse]) hu, List.reverse_reverse]

/-- A cursor in a run finds the run. -/
theorem runAt?_of_isRun {p : Char → Bool} {u w v : List Char} (h : IsRun p u w v) {c : Nat}
    (hlow : u.length ≤ c) (hhigh : c < u.length + w.length) : runAt? p (u ++ (w ++ v)) c = some w := by
  -- the cursor cuts the run behind its first `n` characters
  obtain ⟨n, rfl⟩ := Nat.exists_eq_add_of_le hlow
  have hn : n + 1 ≤ w.length := by omega
  have hleft : (u ++ (w ++ v)).take (u.length + n + 1) = u ++ w.take (n + 1) := by
    rw [Nat.add_assoc, List.take_length_add_append, List.take_append_of_le_length hn]
  have hright : (u ++ (w ++ v)).drop (u.length + n + 1) = w.drop (n + 1) ++ v := by
    rw [Nat.add_assoc, List.drop_length_add_append, List.drop_append_of_le_length hn]
  have hall := List.all_eq_true.mp h.all
  have htake : (w.take (n + 1)).all p = true :=
    List.all_eq_true.mpr fun d hd => hall d (List.mem_of_mem_take hd)
  have hdrop : (w.drop (n + 1)).all p = true :=
    List.all_eq_true.mpr fun d hd => hall d (List.mem_of_mem_drop hd)
  have hne : (w.take (n + 1)).isEmpty = false := by
    rw [List.isEmpty_eq_false_iff, ← List.length_pos_iff, List.length_take]
    omega
  rw [runAt?, hleft, tailRun_append htake h.left, hright, takeWhile_append_stop hdrop h.right,
    List.take_append_drop, hne]
  rfl

/-! ## The run that a cursor finds -/

theorem exists_tailRun (p : Char → Bool) (s : List Char) :
    ∃ u, s = u ++ tailRun p s ∧ u.getLast?.any p = false ∧ (tailRun p s).all p = true := by
  refine ⟨(s.reverse.dropWhile p).reverse, ?_, ?_, ?_⟩
  · rw [tailRun, ← List.reverse_append, List.takeWhile_append_dropWhile, List.reverse_reverse]
  · rw [List.getLast?_reverse]
    exact head?_dropWhile_any p s.reverse
  · rw [tailRun, List.all_reverse]
    exact List.all_takeWhile

/-- The number of the character at a cursor: that of the last one if the cursor stands behind the line. -/
def cursorIndex (l : List Char) (character : Nat) : Nat :=
  min character (l.length - 1)

/-- A run of a class holds the character with a number in a line. -/
def RunAt (p : Char → Bool) (l : List Char) (i : Nat) (w : List Char) : Prop :=
  ∃ u v, l = u ++ (w ++ v) ∧ IsRun p u w v ∧ u.length ≤ i ∧ i < u.length + w.length

variable {p : Char → Bool} {l : List Char}

/-- A character of a class stands in a run of that class. -/
theorem exists_runAt {i : Nat} {c : Char} (hi : l[i]? = some c) (hc : p c = true) :
    ∃ w, RunAt p l i w := by
  have hlt : i < l.length := (List.getElem?_eq_some_iff.mp hi).1
  have htake : l.take (i + 1) = l.take i ++ [c] := by rw [List.take_add_one, hi]; rfl
  obtain ⟨u, hu, hlast, hall⟩ := exists_tailRun p (l.take (i + 1))
  have hne : tailRun p (l.take (i + 1)) ≠ [] := fun hnil => by
    rw [hnil, List.append_nil] at hu
    rw [← hu, htake, List.getLast?_concat, Option.any_some, hc] at hlast
    cases hlast
  have hlength : u.length + (tailRun p (l.take (i + 1))).length = i + 1 := by
    rw [← List.length_append, ← hu, List.length_take]
    omega
  have hpos := List.length_pos_iff.mpr hne
  refine ⟨tailRun p (l.take (i + 1)) ++ (l.drop (i + 1)).takeWhile p, u,
    (l.drop (i + 1)).dropWhile p, ?_, ⟨by simp [hne], ?_, hlast, head?_dropWhile_any p _⟩, by omega, ?_⟩
  · rw [List.append_assoc, List.takeWhile_append_dropWhile, ← List.append_assoc, ← hu,
      List.take_append_drop]
  · rw [List.all_append, hall, List.all_takeWhile]
    rfl
  · rw [List.length_append]
    omega

theorem runAt?_nil (p : Char → Bool) (c : Nat) : runAt? p [] c = none := by
  rw [runAt?, List.take_nil]
  rfl

/-- A cursor behind a line finds what one on its last character finds. -/
theorem runAt?_cursorIndex (p : Char → Bool) (l : List Char) (c : Nat) :
    runAt? p l (cursorIndex l c) = runAt? p l c := by
  rw [cursorIndex]
  by_cases hc : c ≤ l.length - 1
  · rw [Nat.min_eq_left hc]
  · rw [Nat.min_eq_right (by omega), runAt?, runAt?, List.take_of_length_le (by omega),
      List.take_of_length_le (by omega), List.drop_of_length_le (by omega), List.drop_of_length_le (by omega)]

/-- A cursor on a character outside a class finds no run. -/
theorem runAt?_of_not {i : Nat} {c : Char} (hi : l[i]? = some c) (hc : p c = false) :
    runAt? p l i = none := by
  have hlast : (l.take (i + 1)).getLast?.any p = false := by
    rw [List.take_add_one, hi, Option.toList_some, List.getLast?_concat, Option.any_some, hc]
  have htail : tailRun p (l.take (i + 1)) = [] := by
    rw [← List.append_nil (l.take (i + 1))]
    exact tailRun_append rfl hlast
  rw [runAt?, htail]
  rfl

theorem getElem?_cursorIndex (hne : l ≠ []) (c : Nat) : ∃ d, l[cursorIndex l c]? = some d := by
  have hpos := List.length_pos_iff.mpr hne
  have hlt : cursorIndex l c < l.length := by
    rw [cursorIndex]
    omega
  exact ⟨_, List.getElem?_eq_getElem hlt⟩

theorem runAt?_eq_none_iff {c : Nat} :
    runAt? p l c = none ↔ l = [] ∨ ∃ d, l[cursorIndex l c]? = some d ∧ p d = false := by
  constructor
  · intro h
    by_cases hne : l = []
    · exact .inl hne
    · obtain ⟨d, hd⟩ := getElem?_cursorIndex hne c
      refine .inr ⟨d, hd, Bool.eq_false_iff.mpr fun hp => ?_⟩
      obtain ⟨w, u, v, rfl, hrun, hlow, hhigh⟩ := exists_runAt hd hp
      rw [← runAt?_cursorIndex, runAt?_of_isRun hrun hlow hhigh] at h
      cases h
  · rintro (rfl | ⟨d, hd, hp⟩)
    · exact runAt?_nil p c
    · rw [← runAt?_cursorIndex]
      exact runAt?_of_not hd hp

theorem runAt?_eq_some_iff {c : Nat} {w : List Char} :
    runAt? p l c = some w ↔ RunAt p l (cursorIndex l c) w := by
  constructor
  · intro h
    have hsome : ¬ runAt? p l c = none := fun hnone => by rw [hnone] at h; cases h
    rw [runAt?_eq_none_iff, not_or, not_exists] at hsome
    obtain ⟨d, hd⟩ := getElem?_cursorIndex hsome.1 c
    have hp : p d = true := Bool.not_eq_false _ ▸ fun hp => hsome.2 d ⟨hd, hp⟩
    obtain ⟨w', hrun⟩ := exists_runAt hd hp
    obtain ⟨u, v, heq, hrun', hlow, hhigh⟩ := id hrun
    have hfound := runAt?_of_isRun hrun' hlow hhigh
    rw [← heq, runAt?_cursorIndex, h] at hfound
    exact Option.some.inj hfound ▸ hrun
  · rintro ⟨u, v, heq, hrun, hlow, hhigh⟩
    have hfound := runAt?_of_isRun hrun hlow hhigh
    rwa [← heq, runAt?_cursorIndex] at hfound

/-- The characters of a run are of its class. -/
theorem class_of_isRun {u w v : List Char} (h : IsRun p u w v) {j : Nat} {d : Char} (hlow : u.length ≤ j)
    (hhigh : j < u.length + w.length) (hd : (u ++ (w ++ v))[j]? = some d) : p d = true := by
  rw [List.getElem?_append_right hlow, List.getElem?_append_left (by omega)] at hd
  exact List.all_eq_true.mp h.all d (List.mem_of_getElem? hd)

/-- A character in a run of a class stands in a run of each larger class. -/
theorem RunAt.exists_of_imp {q : Char → Bool} (hpq : ∀ c, p c = true → q c = true) {i : Nat}
    {w : List Char} (h : RunAt p l i w) : ∃ r, RunAt q l i r := by
  obtain ⟨u, v, rfl, hrun, hlow, hhigh⟩ := h
  have hlt : i < (u ++ (w ++ v)).length := by
    rw [List.length_append, List.length_append]
    omega
  have hget := List.getElem?_eq_getElem hlt
  exact exists_runAt hget (hpq _ (class_of_isRun hrun hlow hhigh hget))

/-- A run of a class lies in the run of a larger class that has a character in common with it. -/
theorem bounds_of_larger {q : Char → Bool} (hpq : ∀ c, p c = true → q c = true) {u w v a r b : List Char}
    (h : IsRun p u w v) (h' : IsRun q a r b) (heq : u ++ (w ++ v) = a ++ (r ++ b)) {i : Nat}
    (hlow : u.length ≤ i) (hhigh : i < u.length + w.length) (hlow' : a.length ≤ i)
    (hhigh' : i < a.length + r.length) :
    a.length ≤ u.length ∧ u.length + w.length ≤ a.length + r.length := by
  -- else the character next to the larger run would be in the smaller one, and so of its class
  constructor
  · refine Nat.le_of_not_lt fun hlt => ?_
    have hlast : a.length - 1 < a.length := by omega
    have hget : (u ++ (w ++ v))[a.length - 1]? = some a[a.length - 1] := by
      rw [heq, List.getElem?_append_left hlast, List.getElem?_eq_getElem hlast]
    have hleft := h'.left
    rw [List.getLast?_eq_getElem?, List.getElem?_eq_getElem hlast, Option.any_some,
      hpq _ (class_of_isRun h (by omega) (by omega) hget)] at hleft
    cases hleft
  · refine Nat.le_of_not_lt fun hlt => ?_
    have hnext : a.length + r.length < (u ++ (w ++ v)).length := by
      rw [List.length_append, List.length_append]
      omega
    have hhead : b.head? = (u ++ (w ++ v))[a.length + r.length]? := by
      rw [heq, ← List.append_assoc, List.getElem?_append_right (Nat.le_of_eq List.length_append),
        ← List.length_append, Nat.sub_self, List.head?_eq_getElem?]
    have hget := List.getElem?_eq_getElem hnext
    have hright := h'.right
    rw [hhead, hget, Option.any_some, hpq _ (class_of_isRun h (by omega) (by omega) hget)] at hright
    cases hright

/-! ## Tokens -/

theorem not_isBlank_of_isWord (c : Char) (h : isWord c = true) : (!isBlank c) = true := by
  rw [isBlank_of_isWord h]
  rfl

/-- What a cursor finds: the word there, or the run without blanks around it if the word is a number. -/
def foundToken? (l : List Char) (c : Nat) : Option (List Char) := do
  let word ← runAt? isWord l c
  if word.all isDecimal then (runAt? (!isBlank ·) l c).or (some word) else some word

theorem foundToken?_eq_some_iff {c : Nat} {t : List Char} :
    foundToken? l c = some t ↔ ∃ w, RunAt isWord l (cursorIndex l c) w ∧
      if w.all isDecimal then RunAt (!isBlank ·) l (cursorIndex l c) t else t = w := by
  have hword : foundToken? l c = some t ↔ ∃ w, RunAt isWord l (cursorIndex l c) w ∧
      (if w.all isDecimal then (runAt? (!isBlank ·) l c).or (some w) else some w) = some t := by
    simp only [foundToken?, Option.bind_eq_bind, Option.bind_eq_some_iff, runAt?_eq_some_iff]
  rw [hword]
  refine exists_congr fun w => and_congr_right fun hw => ?_
  split
  · obtain ⟨r, hr⟩ := hw.exists_of_imp not_isBlank_of_isWord
    rw [← runAt?_eq_some_iff] at hr ⊢
    rw [hr, Option.some_or]
  · rw [Option.some.injEq, eq_comm]

theorem foundToken?_eq_none_iff {c : Nat} :
    foundToken? l c = none ↔ l = [] ∨ ∃ d, l[cursorIndex l c]? = some d ∧ isWord d = false := by
  rw [← runAt?_eq_none_iff, foundToken?]
  cases runAt? isWord l c with
  | none => exact iff_of_true rfl rfl
  | some w =>
    refine iff_of_false ?_ nofun
    rw [Option.bind_eq_bind, Option.bind_some]
    split
    · cases runAt? (!isBlank ·) l c <;> nofun
    · nofun

/-- A cursor stands behind its line, in a column that no search can start from. -/
def IsFar (l : List Char) (c : Nat) : Prop := l.length ≤ c ∧ maxColumn < c

instance (l : List Char) (c : Nat) : Decidable (IsFar l c) := inferInstanceAs (Decidable (_ ∧ _))

theorem searchRun?_eq (p : Char → Bool) (l : List Char) (c : Nat) :
    searchRun? p l c =
      if IsFar l c ∧ (runAt? p l c).isSome then .error .columnTooLarge else .ok (runAt? p l c) := by
  rw [searchRun?]
  cases runAt? p l c with
  | none => rw [if_neg fun h => nomatch h.2]
  | some w =>
    simp only [Bool.and_eq_true, decide_eq_true_eq, Option.isSome_some, and_true]
    rfl

/-- A token is found unless the cursor stands too far behind a line that ends in one. -/
theorem tokenAt?_eq (l : List Char) (c : Nat) :
    tokenAt? l c =
      if IsFar l c ∧ (foundToken? l c).isSome then .error .columnTooLarge else .ok (foundToken? l c) := by
  have hno : ¬ (IsFar l c ∧ (none : Option (List Char)).isSome = true) := fun h => Bool.false_ne_true h.2
  rw [tokenAt?, searchRun?_eq, searchRun?_eq, foundToken?]
  cases runAt? isWord l c with
  | none =>
    rw [if_neg hno]
    exact (if_neg hno).symm
  | some w =>
    have hsome : ∀ r : Option (List Char), (r.or (some w)).isSome = true := fun r => by cases r <;> rfl
    rw [Option.bind_eq_bind, Option.bind_some]
    by_cases hfar : IsFar l c
    · rw [if_pos ⟨hfar, rfl⟩]
      refine (if_pos ⟨hfar, ?_⟩).symm
      split
      · exact hsome _
      · rfl
    · have hnear : ∀ r : Option (List Char), ¬ (IsFar l c ∧ r.isSome = true) := fun r h => hfar h.1
      rw [if_neg (hnear _), if_neg (hnear _), if_neg (hnear _)]
      dsimp only [ok_bind]
      split <;> rfl

/-- A cursor in a word that is no number finds the word. -/
theorem tokenAt?_of_isRun {u w v : List Char} (h : IsRun isWord u w v) (hd : w.all isDecimal = false)
    {c : Nat} (hlow : u.length ≤ c) (hhigh : c < u.length + w.length) :
    tokenAt? (u ++ (w ++ v)) c = .ok (some w) := by
  have hnear : ¬ IsFar (u ++ (w ++ v)) c := fun hfar => by
    have hlength := hfar.1
    rw [List.length_append, List.length_append] at hlength
    omega
  rw [tokenAt?_eq, if_neg fun hfar => hnear hfar.1, foundToken?, runAt?_of_isRun h hlow hhigh]
  exact congrArg _ (if_neg (Bool.eq_false_iff.mp hd))

/-- A cursor stands in a part of its line, in front of which stands the text `u`. -/
def CursorIn (u w v : List Char) (c : Nat) : Prop :=
  u.length ≤ cursorIndex (u ++ (w ++ v)) c ∧ cursorIndex (u ++ (w ++ v)) c < u.length + w.length

/-- Cursors in one word find one token. -/
theorem foundToken?_congr {u w v : List Char} (h : IsRun isWord u w v) {c c' : Nat} (hc : CursorIn u w v c)
    (hc' : CursorIn u w v c') : foundToken? (u ++ (w ++ v)) c = foundToken? (u ++ (w ++ v)) c' := by
  have hword : ∀ n, CursorIn u w v n → runAt? isWord (u ++ (w ++ v)) n = some w := fun n hn =>
    runAt?_eq_some_iff.mpr ⟨u, v, rfl, h, hn.1, hn.2⟩
  -- the run without blanks around one cursor holds the word, and so the other cursor
  obtain ⟨r, hr⟩ := (runAt?_eq_some_iff.mp (hword c hc)).exists_of_imp not_isBlank_of_isWord
  obtain ⟨a, b, heq, hrun, hstart, hstop⟩ := id hr
  obtain ⟨hle, hle'⟩ := bounds_of_larger not_isBlank_of_isWord h hrun heq hc.1 hc.2 hstart hstop
  have hr' : RunAt (!isBlank ·) (u ++ (w ++ v)) (cursorIndex (u ++ (w ++ v)) c') r :=
    ⟨a, b, heq, hrun, Nat.le_trans hle hc'.1, Nat.lt_of_lt_of_le hc'.2 hle'⟩
  rw [foundToken?, foundToken?, hword c hc, hword c' hc', runAt?_eq_some_iff.mpr hr,
    runAt?_eq_some_iff.mpr hr']

/-! ## Tokens of a text -/

section

variable {text : String} {line character : Int}

theorem symbolAt?_of_far (hl : lineAt? text.toList line = some l) (hc : 0 ≤ character)
    (h : IsFar l character.toNat) (hsome : (foundToken? l character.toNat).isSome) :
    symbolAt? text line character = .error .columnTooLarge := by
  rw [symbolAt?, hl]
  dsimp only
  rw [if_neg (Int.not_lt.mpr hc), tokenAt?_eq, if_pos ⟨h, hsome⟩]
  rfl

theorem symbolAt?_of_found (hl : lineAt? text.toList line = some l) (hc : 0 ≤ character)
    (h : ¬ (IsFar l character.toNat ∧ (foundToken? l character.toNat).isSome)) :
    symbolAt? text line character = .ok ((foundToken? l character.toNat).map String.ofList) := by
  rw [symbolAt?, hl]
  dsimp only
  rw [if_neg (Int.not_lt.mpr hc), tokenAt?_eq, if_neg h]
  rfl

/-- There is no token without a line and in front of one. -/
theorem symbolAt?_of_no_place (h : lineAt? text.toList line = none ∨ character < 0) :
    symbolAt? text line character = .ok none := by
  rw [symbolAt?]
  cases hl : lineAt? text.toList line with
  | none => rfl
  | some l => exact if_pos (h.resolve_left fun hnone => by cases hl.symm.trans hnone)

/-- A cursor has a place in a line, or it has none. -/
theorem place_cases (text : String) (line character : Int) :
    (lineAt? text.toList line = none ∨ character < 0) ∨
      ∃ l, lineAt? text.toList line = some l ∧ 0 ≤ character := by
  cases hl : lineAt? text.toList line with
  | none => exact .inl (.inl rfl)
  | some l =>
    by_cases hc : character < 0
    · exact .inl (.inr hc)
    · exact .inr ⟨l, rfl, Int.not_lt.mp hc⟩

theorem symbolAt?_eq_none_iff :
    symbolAt? text line character = .ok none ↔
      character < 0 ∨ lineAt? text.toList line = none ∨ ∃ l, lineAt? text.toList line = some l ∧
        (l = [] ∨ ∃ d, l[cursorIndex l character.toNat]? = some d ∧ isWord d = false) := by
  obtain hno | ⟨l, hl, hc⟩ := place_cases text line character
  · exact iff_of_true (symbolAt?_of_no_place hno) (hno.symm.imp_right .inl)
  · rw [hl]
    simp only [Int.not_lt.mpr hc, reduceCtorEq, Option.some.injEq, exists_eq_left', false_or,
      ← foundToken?_eq_none_iff]
    by_cases h : IsFar l character.toNat ∧ (foundToken? l character.toNat).isSome
    · rw [symbolAt?_of_far hl hc h.1 h.2]
      refine iff_of_false nofun fun hnone => ?_
      rw [hnone] at h
      exact Bool.false_ne_true h.2
    · rw [symbolAt?_of_found hl hc h, Except.ok.injEq, Option.map_eq_none_iff]

theorem symbolAt?_eq_some_iff {t : String} :
    symbolAt? text line character = .ok (some t) ↔
      0 ≤ character ∧ ∃ l, lineAt? text.toList line = some l ∧ ¬ IsFar l character.toNat ∧
        ∃ w, RunAt isWord l (cursorIndex l character.toNat) w ∧
          if w.all isDecimal then RunAt (!isBlank ·) l (cursorIndex l character.toNat) t.toList
          else t.toList = w := by
  obtain hno | ⟨l, hl, hc⟩ := place_cases text line character
  · rw [symbolAt?_of_no_place hno]
    refine iff_of_false nofun fun ⟨hc, l, hl, _⟩ => ?_
    rcases hno with hnone | hneg
    · cases hnone.symm.trans hl
    · exact absurd hc (Int.not_le.mpr hneg)
  · rw [hl, and_iff_right hc]
    simp only [Option.some.injEq, exists_eq_left', ← foundToken?_eq_some_iff]
    by_cases h : IsFar l character.toNat ∧ (foundToken? l character.toNat).isSome
    · rw [symbolAt?_of_far hl hc h.1 h.2]
      exact iff_of_false nofun fun hsome => hsome.1 h.1
    · rw [symbolAt?_of_found hl hc h, Except.ok.injEq, Option.map_eq_some_iff]
      constructor
      · rintro ⟨w, hw, rfl⟩
        rw [String.toList_ofList]
        exact ⟨fun hfar => h ⟨hfar, by rw [hw]; rfl⟩, hw⟩
      · rintro ⟨-, hw⟩
        exact ⟨_, hw, String.ofList_toList⟩

theorem symbolAt?_eq_error_iff :
    symbolAt? text line character = .error .columnTooLarge ↔
      0 ≤ character ∧ ∃ l, lineAt? text.toList line = some l ∧ IsFar l character.toNat ∧
        l.getLast?.any isWord = true := by
  obtain hno | ⟨l, hl, hc⟩ := place_cases text line character
  · rw [symbolAt?_of_no_place hno]
    refine iff_of_false nofun fun ⟨hc, l, hl, _⟩ => ?_
    rcases hno with hnone | hneg
    · cases hnone.symm.trans hl
    · exact absurd hc (Int.not_le.mpr hneg)
  · rw [hl, and_iff_right hc]
    simp only [Option.some.injEq, exists_eq_left']
    -- a cursor behind the line finds what stands at its end
    have hlast : IsFar l character.toNat →
        ((foundToken? l character.toNat).isSome = true ↔ l.getLast?.any isWord = true) := fun hfar => by
      have hindex : cursorIndex l character.toNat = l.length - 1 :=
        Nat.min_eq_right (Nat.le_trans (Nat.sub_le ..) hfar.1)
      rw [← Option.ne_none_iff_isSome, Ne, foundToken?_eq_none_iff, hindex, ← List.getLast?_eq_getElem?]
      cases hlast : l.getLast? with
      | none => exact iff_of_false (fun h => h (.inl (List.getLast?_eq_none_iff.mp hlast))) Bool.false_ne_true
      | some d =>
        have hne : l ≠ [] := fun hnil => by rw [hnil] at hlast; cases hlast
        simp [hne]
    by_cases h : IsFar l character.toNat ∧ (foundToken? l character.toNat).isSome
    · exact iff_of_true (symbolAt?_of_far hl hc h.1 h.2) ⟨h.1, (hlast h.1).mp h.2⟩
    · rw [symbolAt?_of_found hl hc h]
      exact iff_of_false nofun fun hfar => h ⟨hfar.1, (hlast hfar.1).mpr hfar.2⟩

end

/-- The token of a text at a cursor is the word around the character at the cursor, or around the last
one of its line when the cursor stands behind it, and if the word is a number, the run without blanks
around it. There is none in front of a line, where there is no line or an empty one, and on a
character that is not of a word. A cursor too far behind a line that ends in a word finds none, but
fails. So all other cursors in a word find one token, and all those on numbers of one run without blanks
find that run. -/
theorem symbolAt?_maximalRun (text : String) (line character : Int) :
    (symbolAt? text line character = .ok none ↔
      character < 0 ∨ lineAt? text.toList line = none ∨ ∃ l, lineAt? text.toList line = some l ∧
        (l = [] ∨ ∃ d, l[cursorIndex l character.toNat]? = some d ∧ isWord d = false)) ∧
    (∀ t, symbolAt? text line character = .ok (some t) ↔
      0 ≤ character ∧ ∃ l, lineAt? text.toList line = some l ∧ ¬ IsFar l character.toNat ∧
        ∃ w, RunAt isWord l (cursorIndex l character.toNat) w ∧
          if w.all isDecimal then RunAt (!isBlank ·) l (cursorIndex l character.toNat) t.toList
          else t.toList = w) ∧
    (symbolAt? text line character = .error .columnTooLarge ↔
      0 ≤ character ∧ ∃ l, lineAt? text.toList line = some l ∧ IsFar l character.toNat ∧
        l.getLast?.any isWord = true) ∧
    (∀ u w v, lineAt? text.toList line = some (u ++ (w ++ v)) → IsRun isWord u w v → ∀ other : Int,
      0 ≤ character → 0 ≤ other → CursorIn u w v character.toNat → CursorIn u w v other.toNat →
      ¬ IsFar (u ++ (w ++ v)) character.toNat → ¬ IsFar (u ++ (w ++ v)) other.toNat →
        symbolAt? text line character = symbolAt? text line other) ∧
    ∀ u r v, lineAt? text.toList line = some (u ++ (r ++ v)) → IsRun (!isBlank ·) u r v →
      0 ≤ character → CursorIn u r v character.toNat → ¬ IsFar (u ++ (r ++ v)) character.toNat →
        (∃ w, RunAt isWord (u ++ (r ++ v)) (cursorIndex (u ++ (r ++ v)) character.toNat) w ∧
          w.all isDecimal = true) →
        symbolAt? text line character = .ok (some (String.ofList r)) := by
  refine ⟨symbolAt?_eq_none_iff, fun t => symbolAt?_eq_some_iff, symbolAt?_eq_error_iff,
    fun u w v hl h other hc hc' hin hin' hnear hnear' => ?_, fun u r v hl h hc hin hnear hnumber => ?_⟩
  · rw [symbolAt?_of_found hl hc fun hfar => hnear hfar.1, symbolAt?_of_found hl hc' fun hfar => hnear' hfar.1,
      foundToken?_congr h hin hin']
  · obtain ⟨w, hw, hdecimal⟩ := hnumber
    have hr : RunAt (!isBlank ·) (u ++ (r ++ v)) (cursorIndex (u ++ (r ++ v)) character.toNat) r :=
      ⟨u, v, rfl, h, hin.1, hin.2⟩
    rw [symbolAt?_of_found hl hc fun hfar => hnear hfar.1,
      foundToken?_eq_some_iff.mpr ⟨w, hw, by rwa [if_pos hdecimal]⟩, Option.map_some]

example : symbolAt? "if NOption(154,Node003,004) begin" 0 12 = .ok (some "NOption(154,Node003,004)") := by
  decide +kernel

/-- Behind a line that is a word there is a column at which no token is found. -/
theorem symbolAt?_far_behind :
    symbolAt? "abc" 0 9223372036854775807 = .ok (some "abc") ∧
      symbolAt? "abc" 0 9223372036854775808 = .error .columnTooLarge := by
  decide +kernel

end ScriptService
