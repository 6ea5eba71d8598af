import Mathlib.Data.List.TakeWhile
import ScriptService.Proofs.Text.Lines
import ScriptService.Symbol.Display
import ScriptService.Text.Blank

/-!
# The first block of a hover text

Hover texts are Markdown. A line of three or more backticks or tildes opens a block,
which goes on to the first line that closes it (`Markdown.firstBlock?`). The block with
which a hover text begins is to hold a given text; it holds the lines of that text up
to the first one that closes the fence (`Markdown.firstBlock?_fenced`), so all of them
just if none does (`Markdown.beginsWith`).
-/

namespace ScriptService

open Text

namespace Markdown

/-- The lines of a text, which end in `\n`, `\r\n` or `\r`. -/
def lines (s : List Char) : List (List Char) :=
  (unifyNewlines s).splitOn '\n'

/-- How many spaces a line begins with. -/
def indentOf (line : List Char) : Nat :=
  (line.takeWhile (· == ' ')).length

/-- A fence: the character that it is made of, how often that stands there, and the spaces in front. -/
structure Fence where
  mark : Char
  length : Nat
  indent : Nat
deriving DecidableEq

namespace Fence

/-- The marks of one kind with which a line begins. -/
def start (mark : Char) (line : List Char) : Fence where
  mark
  length := ((line.drop (indentOf line)).takeWhile (· == mark)).length
  indent := indentOf line

/-- What stands in a line behind a fence. -/
def behind (f : Fence) (line : List Char) : List Char :=
  line.drop (f.indent + f.length)

/-- A fence is not set too far in and has three marks at least. -/
def isWhole (f : Fence) : Bool :=
  f.indent ≤ 3 && 3 ≤ f.length

/-- Whether a line closes a fence: with at least as many marks, and nothing but blanks behind them. -/
def isClosedBy (f : Fence) (line : List Char) : Bool :=
  let closing := start f.mark line
  closing.isWhole && f.length ≤ closing.length && (closing.behind line).all isGap

/-- A line of a block, without as many spaces in front as the fence has. -/
def inside (f : Fence) (line : List Char) : List Char :=
  line.drop (min f.indent (indentOf line))

end Fence

/-- The fence of hover texts. -/
def backticks : Fence := ⟨'\x60', 3, 0⟩

/-- The fence that a line opens. Behind backticks there is no other one in the line. -/
def opened? (line : List Char) : Option Fence :=
  let ticks := Fence.start backticks.mark line
  let tildes := Fence.start '~' line
  if ticks.isWhole && !(ticks.behind line).contains backticks.mark then some ticks
  else if tildes.isWhole then some tildes
  else none

/-- The first block in some lines; one that no line closes goes on to the end. -/
def blockIn? : List (List Char) → Option (List (List Char))
  | [] => none
  | line :: rest =>
    match opened? line with
    | some f => some ((rest.takeWhile (!f.isClosedBy ·)).map f.inside)
    | none => blockIn? rest

/-- The lines of the first block of a text. -/
def firstBlock? (text : String) : Option (List (List Char)) :=
  blockIn? (lines text.toList)

/-- No line of a text closes the fence of hover texts. -/
def Uncut (s : List Char) : Prop :=
  ∀ line ∈ lines s, backticks.isClosedBy line = false

instance (s : List Char) : Decidable (Uncut s) := inferInstanceAs (Decidable (∀ _ ∈ _, _))

/-- A text that may stand behind the fence of a block as its tag. -/
def IsTag (tag : String) : Prop :=
  ∀ c ∈ tag.toList, c ≠ '\n' ∧ c ≠ '\r' ∧ c ≠ backticks.mark

instance (tag : String) : Decidable (IsTag tag) :=
  List.decidableBAll _ tag.toList

/-- A hover text begins with a given text as a block of its own: it is the first block, up to the first
line of the text that closes the fence, and the whole text just if no line does. -/
structure BeginsWith (contents tag text : String) : Prop where
  lead : ∃ rest, contents = Symbol.fenced tag text ++ rest ∧ (rest = "" ∨ ∃ t, rest = "\n" ++ t)
  block : IsTag tag →
    firstBlock? contents = some ((lines text.toList).takeWhile (!backticks.isClosedBy ·))
  whole : IsTag tag → (firstBlock? contents = some (lines text.toList) ↔ Uncut text.toList)

/-! ## Lines -/

theorem unifyNewlines_append {s : List Char} (h : s.getLast? ≠ some '\r') (t : List Char) :
    unifyNewlines (s ++ '\n' :: t) = unifyNewlines s ++ '\n' :: unifyNewlines t := by
  fun_induction unifyNewlines s with
  | case1 => rfl
  | case2 s ih =>
    have hrest : s.getLast? ≠ some '\r' := fun hs => h (by
      rw [List.getLast?_cons_cons, List.getLast?_cons, hs]
      rfl)
    rw [List.cons_append, List.cons_append, unifyNewlines, ih hrest]
    rfl
  | case3 c s hpair ih =>
    have hrest : s.getLast? ≠ some '\r' := fun hs => h (by
      rw [List.getLast?_cons, hs]
      rfl)
    have hpair' : ∀ t', c = '\r' → s ++ '\n' :: t = '\n' :: t' → False := fun t' hc hs => by
      cases s with
      | nil => exact h (by rw [hc]; rfl)
      | cons d s => exact hpair s hc (by rw [(List.cons.inj hs).1])
    rw [List.cons_append, unifyNewlines.eq_3 c _ hpair', ih hrest]
    rfl

theorem lines_append {s : List Char} (h : s.getLast? ≠ some '\r') (t : List Char) :
    lines (s ++ '\n' :: t) = lines s ++ lines t := by
  rw [lines, unifyNewlines_append h, List.splitOn_append_cons_self]
  rfl

theorem lines_of_not_mem {s : List Char} (h : ∀ c ∈ s, c ≠ '\n' ∧ c ≠ '\r') : lines s = [s] := by
  have hsame : unifyNewlines s = s := by
    induction s with
    | nil => rfl
    | cons c s ih =>
      obtain ⟨hc, hs⟩ := List.forall_mem_cons.mp h
      rw [unifyNewlines.eq_3 c s fun _ hr => absurd hr hc.2, if_neg (by simpa using hc.2), ih hs]
  rw [lines, hsame, List.splitOn_eq_singleton fun hn => (h _ hn).1 rfl]

/-! ## Blocks -/

/-- A tag behind the fence of a hover text opens a block with this fence. -/
theorem opened?_tag {tag : List Char} (h : ∀ c ∈ tag, c ≠ backticks.mark) :
    opened? ("```".toList ++ tag) = some backticks := by
  have hmarks : ("```".toList ++ tag).takeWhile (· == backticks.mark) = "```".toList := by
    rw [List.takeWhile_append_of_pos (List.all_eq_true.mp (by decide))]
    cases tag with
    | nil => rfl
    | cons c tag =>
      rw [List.takeWhile_cons_of_neg (by simpa using h c List.mem_cons_self), List.append_nil]
  have hstart : Fence.start backticks.mark ("```".toList ++ tag) = backticks := by
    have hindent : indentOf ("```".toList ++ tag) = 0 := rfl
    rw [Fence.start, hindent, List.drop_zero, hmarks]
    rfl
  have hbehind : backticks.behind ("```".toList ++ tag) = tag := rfl
  have hno : tag.contains backticks.mark = false := by
    rw [List.contains_eq_mem, decide_eq_false_iff_not]
    exact fun hc => h _ hc rfl
  rw [opened?, hstart, hbehind, hno]
  rfl

theorem inside_backticks : backticks.inside = id := by
  funext line
  rw [Fence.inside, backticks, Nat.zero_min, List.drop_zero]
  rfl

theorem takeWhile_append_cons {α : Type} {p : α → Bool} {a : α} (ha : p a = false) (xs ys : List α) :
    (xs ++ a :: ys).takeWhile p = xs.takeWhile p := by
  induction xs with
  | nil => rw [List.nil_append, List.takeWhile_cons_of_neg (by rw [ha]; decide), List.takeWhile_nil]
  | cons x xs ih => rw [List.cons_append, List.takeWhile_cons, List.takeWhile_cons, ih]

/-- A text that begins with a fenced one has the lines of that one as its first block, up to the first of
them that closes the fence. -/
theorem firstBlock?_fenced {tag line rest : String} (htag : IsTag tag)
    (hline : line.toList.getLast? ≠ some '\r') (hrest : rest = "" ∨ ∃ t, rest = "\n" ++ t) :
    firstBlock? (Symbol.fenced tag line ++ rest) =
      some ((lines line.toList).takeWhile (!backticks.isClosedBy ·)) := by
  -- the text is its first line, the lines of the fenced text, and the lines from the closing fence on
  have hfirst : ∀ c ∈ "```".toList ++ tag.toList, c ≠ '\n' ∧ c ≠ '\r' :=
    List.forall_mem_append.mpr ⟨by simp, fun c hc => ⟨(htag c hc).1, (htag c hc).2.1⟩⟩
  obtain ⟨later, hlater⟩ : ∃ later, lines ("```".toList ++ rest.toList) = "```".toList :: later := by
    obtain rfl | ⟨t, rfl⟩ := hrest
    · exact ⟨[], by decide⟩
    · have hclose : lines "```".toList = ["```".toList] := by decide
      exact ⟨lines t.toList, by
        rw [String.toList_append, show "\n".toList = ['\n'] from rfl, List.singleton_append,
          lines_append (by decide), hclose, List.singleton_append]⟩
  have hlines : lines (Symbol.fenced tag line ++ rest).toList =
      ("```".toList ++ tag.toList) :: (lines line.toList ++ "```".toList :: later) := by
    have htext : (Symbol.fenced tag line ++ rest).toList =
        ("```".toList ++ tag.toList) ++ '\n' :: (line.toList ++ '\n' :: ("```".toList ++ rest.toList)) := by
      simp only [Symbol.fenced, String.toList_append, List.append_assoc]
      rfl
    have hlast : ("```".toList ++ tag.toList).getLast? ≠ some '\r' := fun hr =>
      (hfirst _ (List.mem_of_getLast? hr)).2 rfl
    rw [htext, lines_append hlast, lines_of_not_mem hfirst, lines_append hline, hlater, List.singleton_append]
  have hclosed : backticks.isClosedBy "```".toList = true := by decide
  rw [firstBlock?, hlines, blockIn?, opened?_tag fun c hc => (htag c hc).2.2]
  dsimp only
  rw [takeWhile_append_cons (by rw [hclosed]; rfl), inside_backticks, List.map_id]

theorem beginsWith {contents tag text rest : String} (htext : text.toList.getLast? ≠ some '\r')
    (h : contents = Symbol.fenced tag text ++ rest) (hrest : rest = "" ∨ ∃ t, rest = "\n" ++ t) :
    BeginsWith contents tag text where
  lead := ⟨rest, h, hrest⟩
  block htag := h ▸ firstBlock?_fenced htag htext hrest
  whole htag := by
    rw [h, firstBlock?_fenced htag htext hrest, Option.some.injEq, List.takeWhile_eq_self_iff, Uncut]
    simp only [Bool.not_eq_true']

end Markdown

end ScriptService
