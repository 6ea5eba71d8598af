import Mathlib.Data.List.Basic
import Mathlib.Data.List.Induction
import ScriptService.Cursor.Call
import ScriptService.Proofs.Cursor.Token

/-!
# The call around a cursor and its open parentheses

Read from left to right, a text leaves a stack of parentheses that are open at its end,
each with the commas behind it on its own level (`openParens`). The search for the call
around a cursor goes from right to left and counts the parentheses that it has yet to
pass. Both say the same about every text (`openCall?_reverse`): with a depth, the search
finds the parenthesis that lies so deep in the stack.

Main statement: `callAt?_eq_some_iff`.
-/

namespace ScriptService

open Text

/-! ## Parentheses from left to right -/

/-- An open parenthesis: how many characters stand in front of it, and how many commas behind it on its
own level. -/
structure OpenParen where
  position : Nat
  commas : Nat
deriving DecidableEq

/-- The open parentheses, the innermost one first, once a character with a position is read. One that
closes nothing is passed over. -/
def readParen (stack : List OpenParen) (x : Char × Nat) : List OpenParen :=
  if x.1 = '(' then ⟨x.2, 0⟩ :: stack
  else if x.1 = ')' then stack.tail
  else if x.1 = ',' then stack.modifyHead fun b => { b with commas := b.commas + 1 }
  else stack

/-- The parentheses that are open at the end of a text, the innermost one first. -/
def openParens (s : List Char) : List OpenParen :=
  s.zipIdx.foldl readParen []

theorem openParens_concat (s : List Char) (c : Char) :
    openParens (s ++ [c]) = readParen (openParens s) (c, s.length) := by
  rw [openParens, List.zipIdx_append, List.foldl_append, Nat.zero_add]
  rfl

theorem position_of_mem_readParen {stack : List OpenParen} {c : Char} {n : Nat} {b : OpenParen}
    (h : b ∈ readParen stack (c, n)) : b.position = n ∨ ∃ b' ∈ stack, b'.position = b.position := by
  rw [readParen] at h
  split at h
  · rcases List.mem_cons.mp h with rfl | h
    · exact .inl rfl
    · exact .inr ⟨b, h, rfl⟩
  · split at h
    · exact .inr ⟨b, List.mem_of_mem_tail h, rfl⟩
    · split at h
      · cases stack with
        | nil => cases h
        | cons b' stack =>
          rcases List.mem_cons.mp h with rfl | h
          · exact .inr ⟨b', List.mem_cons_self, rfl⟩
          · exact .inr ⟨b, List.mem_cons_of_mem b' h, rfl⟩
      · exact .inr ⟨b, h, rfl⟩

theorem position_lt_of_mem_openParens {s : List Char} {b : OpenParen} (h : b ∈ openParens s) :
    b.position < s.length := by
  induction s using List.reverseRecOn generalizing b with
  | nil => cases h
  | append_singleton s c ih =>
    rw [List.length_append, List.length_singleton]
    rw [openParens_concat] at h
    rcases position_of_mem_readParen h with hb | ⟨b', hb', hb⟩
    · omega
    · have hlt := ih hb'
      omega

/-! ## Parentheses from right to left -/

theorem openCall?_cons (depth commas : Nat) (c : Char) (s : List Char) :
    openCall? depth commas (c :: s) =
      if c = ')' then openCall? (depth + 1) commas s
      else if c = '(' then
        if depth = 0 then some (s.reverse, commas) else openCall? (depth - 1) commas s
      else if c = ',' ∧ depth = 0 then openCall? depth (commas + 1) s
      else openCall? depth commas s := by
  cases depth <;> simp only [openCall?, beq_iff_eq, Bool.and_eq_true] <;> rfl

/-- With `depth` parentheses to pass, the search finds the one that lies so deep in the stack. -/
theorem openCall?_reverse (s : List Char) (depth commas : Nat) :
    openCall? depth commas s.reverse =
      ((openParens s)[depth]?).map fun b => (s.take b.position, b.commas + commas) := by
  induction s using List.reverseRecOn generalizing depth commas with
  | nil => rfl
  | append_singleton s c ih =>
    -- what stands in front of an older parenthesis is the same in the longer text
    have htake : ∀ (d k : Nat), ((openParens s)[d]?).map (fun b => (s.take b.position, b.commas + k)) =
        ((openParens s)[d]?).map fun b => ((s ++ [c]).take b.position, b.commas + k) := fun d k => by
      refine Option.map_congr fun b hb => ?_
      have hlt := position_lt_of_mem_openParens (List.mem_of_getElem? hb)
      rw [List.take_append_of_le_length (Nat.le_of_lt hlt)]
    rw [List.reverse_append, List.reverse_singleton, List.singleton_append, openCall?_cons,
      openParens_concat, readParen]
    by_cases hclose : c = ')'
    · subst hclose
      rw [if_pos rfl, ih, if_neg (show ¬ ')' = '(' by decide), if_pos rfl, List.getElem?_tail]
      exact htake (depth + 1) commas
    · by_cases hopen : c = '('
      · rw [if_neg hclose, if_pos hopen, if_pos hopen]
        cases depth with
        | zero => simp
        | succ d =>
          rw [List.getElem?_cons_succ, ← htake]
          exact ih d commas
      · rw [if_neg hclose, if_neg hopen, if_neg hopen, if_neg hclose]
        by_cases hcomma : c = ','
        · rw [if_pos hcomma]
          cases depth with
          | zero =>
            rw [if_pos ⟨hcomma, rfl⟩, ih, htake]
            cases openParens s with
            | nil => rfl
            | cons b stack => simp [Nat.add_right_comm, Nat.add_assoc]
          | succ d =>
            rw [if_neg (by simp), ih, htake]
            cases openParens s with
            | nil => rfl
            | cons b stack => rfl
        · rw [if_neg hcomma, if_neg (by simp [hcomma]), ih, htake]

/-! ## The called name -/

/-- A called name is the word that ends a text, blanks behind it left out. -/
theorem callee?_eq_some_iff {s name : List Char} :
    callee? s = some name ↔ ∃ u b, s = u ++ (name ++ b) ∧ IsRun isWord u name b ∧ b.all isBlank = true := by
  obtain ⟨b, hs, hb⟩ := exists_trimRight s
  obtain ⟨u, hu, hleft, hall⟩ := exists_tailRun isWord (trimRight s)
  constructor
  · intro h
    rw [callee?] at h
    split at h
    · cases h
    · rename_i hne
      obtain rfl := Option.some.inj h
      refine ⟨u, b, ?_, ⟨by simpa using hne, hall, hleft, ?_⟩, hb⟩
      · rw [← List.append_assoc, ← hu, ← hs]
      · cases b with
        | nil => rfl
        | cons c b => exact isWord_of_isBlank (List.all_eq_true.mp hb c List.mem_cons_self)
  · rintro ⟨u', b', rfl, hrun, hb'⟩
    have hend : (u' ++ name).getLast?.any isBlank = false := by
      rw [List.getLast?_append_of_ne_nil _ hrun.ne_nil]
      exact any_eq_false (fun c hc => isBlank_of_isWord (List.all_eq_true.mp hrun.all c hc))
        fun _ hc => List.mem_of_getLast? hc
    have htrim : trimRight (u' ++ (name ++ b')) = u' ++ name := by
      rw [← List.append_assoc, trimRight_append_blank hb', trimRight_eq_self hend]
    rw [callee?, htrim, tailRun_append hrun.all hrun.left, if_neg (by simpa using hrun.ne_nil)]

/-- The call around a cursor is that of the innermost parenthesis which is open at the end of the text
in front of the cursor, if a word stands in front of it. -/
theorem callAt?_eq_some_iff (text : String) (line character : Int) (call : Call) :
    callAt? text line character = some call ↔
      ∃ l, lineAt? text.toList line = some l ∧ ∃ b stack, openParens (l.take character.toNat) = b :: stack ∧
        call.parameter = b.commas ∧ ∃ u gap, l.take b.position = u ++ (call.label.toList ++ gap) ∧
          IsRun isWord u call.label.toList gap ∧ gap.all isBlank = true := by
  rw [callAt?, Option.bind_eq_bind, Option.bind_eq_some_iff]
  refine exists_congr fun l => and_congr_right fun _ => ?_
  rw [callIn?, openCall?_reverse, ← List.head?_eq_getElem?]
  cases hstack : openParens (l.take character.toNat) with
  | nil => simp
  | cons b stack =>
    -- what stands in front of the parenthesis does not depend on the cursor
    have hlt := position_lt_of_mem_openParens (hstack ▸ List.mem_cons_self : b ∈ openParens _)
    rw [List.length_take] at hlt
    have htake : (l.take character.toNat).take b.position = l.take b.position := by
      rw [List.take_take, Nat.min_eq_left (by omega)]
    have hcall : (callee? (l.take b.position) >>= fun name => some (⟨String.ofList name, b.commas⟩ : Call)) =
        some call ↔ callee? (l.take b.position) = some call.label.toList ∧ call.parameter = b.commas := by
      rw [Option.bind_eq_bind, Option.bind_eq_some_iff]
      constructor
      · rintro ⟨name, hname, h⟩
        obtain rfl := Option.some.inj h
        exact ⟨by rw [hname, String.toList_ofList], rfl⟩
      · rintro ⟨hname, hparameter⟩
        exact ⟨_, hname, by rw [String.ofList_toList, ← hparameter]⟩
    simp only [List.head?_cons, Option.map_some, Option.bind_eq_bind, Option.bind_some, htake, Nat.add_zero,
      List.cons.injEq]
    rw [← Option.bind_eq_bind, hcall, callee?_eq_some_iff]
    constructor
    · rintro ⟨hname, hparameter⟩
      exact ⟨b, stack, ⟨rfl, rfl⟩, hparameter, hname⟩
    · rintro ⟨_, _, ⟨rfl, rfl⟩, hparameter, hname⟩
      exact ⟨hname, hparameter⟩

example : callAt? "x := max(a, min(b, c), d) + f (g(1), h(" 0 36 = some ⟨"f", 1⟩ := by
  decide +kernel

end ScriptService
