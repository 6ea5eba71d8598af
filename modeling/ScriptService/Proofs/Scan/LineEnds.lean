import Mathlib.Data.List.Forall2
import ScriptService.Proofs.Scan.Lexeme
import ScriptService.Proofs.Scan.Pieces
import ScriptService.Proofs.Text.LineEnds

/-!
# Scanning a text with other line ends

The pieces of patterns take the same from a text whichever line ends it has, up to
the line ends in what they take (`word?_crlf`, `run?_crlf`, `upTo?_crlf`,
`newline?_crlf`). A pattern that finds the same at each place of a text
(`Pattern.AgreesAt`), and nothing where a line ends, finds the same in a scan of it
(`Pattern.scan_crlf`), even if a match goes on to the `\n` of a line end with one
kind of line ends and to its `\r` with the other.
-/

namespace ScriptService.Scan

open Text

variable {α : Type}

/-! ## Pieces -/

theorem prefix_of_prefix_crlf {w s : List Char} (hw : '\r' ∉ w) (h : w <+: crlf s) : w <+: s := by
  induction w generalizing s with
  | nil => exact List.nil_prefix
  | cons c w ih =>
    rw [List.mem_cons, not_or] at hw
    cases s with
    | nil => simp at h
    | cons d s =>
      by_cases hd : d = '\n'
      · rw [hd, crlf_newline, List.cons_prefix_cons] at h
        exact absurd h.1.symm hw.1
      · rw [crlf_cons hd, List.cons_prefix_cons] at h
        exact List.cons_prefix_cons.mpr ⟨h.1, ih hw.2 h.2⟩

theorem word?_crlf {w : String} (hn : '\n' ∉ w.toList) (hr : '\r' ∉ w.toList) (s : List Char) :
    word? w (crlf s) = (word? w s).map crlf := by
  by_cases h : w.toList <+: s
  · obtain ⟨t, rfl⟩ := h
    rw [crlf_append, crlf_eq_self hn, word?_append, word?_append, Option.map_some]
  · rw [word?_eq_none h, word?_eq_none fun hp => h (prefix_of_prefix_crlf hr hp), Option.map_none]

theorem isEmpty_crlf (s : List Char) : (crlf s).isEmpty = s.isEmpty := by
  cases s with
  | nil => rfl
  | cons c s =>
    by_cases hc : c = '\n'
    · rw [hc, crlf_newline, List.isEmpty_cons, List.isEmpty_cons]
    · rw [crlf_cons hc, List.isEmpty_cons, List.isEmpty_cons]

theorem run?_crlf {p : Char → Bool} (hp : p '\r' = p '\n') (s : List Char) :
    run? p (crlf s) = (run? p s).map (Prod.map crlf crlf) := by
  rw [run?, run?, takeWhile_crlf hp, dropWhile_crlf hp, isEmpty_crlf]
  split <;> rfl

/-- A run of a class without line ends stays the same. -/
theorem run?_crlf_of_neg {p : Char → Bool} (hr : p '\r' = false) (hn : p '\n' = false) (s : List Char) :
    run? p (crlf s) = (run? p s).map (Prod.map id crlf) := by
  have hmem : '\n' ∉ s.takeWhile p := fun h => by
    rw [List.mem_takeWhile_imp h] at hn
    cases hn
  rw [run?_crlf (hr.trans hn.symm), run?]
  split
  · rfl
  · rw [Option.map_some, Option.map_some, Prod.map_apply, Prod.map_apply, crlf_eq_self hmem]
    rfl

theorem upTo?_crlf {stop : Char} (hr : stop ≠ '\r') (hn : stop ≠ '\n') (s : List Char) :
    upTo? stop (crlf s) = (upTo? stop s).map (Prod.map crlf crlf) := by
  induction s with
  | nil => rfl
  | cons c s ih =>
    by_cases hc : c = '\n'
    · subst hc
      have hr' : ¬ ('\r' == stop) = true := by simpa using hr.symm
      have hn' : ¬ ('\n' == stop) = true := by simpa using hn.symm
      rw [crlf_newline, upTo?, if_neg hr', upTo?, if_neg hn', upTo?, if_neg hn', ih]
      cases upTo? stop s <;> rfl
    · rw [crlf_cons hc, upTo?, upTo?]
      split
      · rfl
      · rw [ih]
        cases upTo? stop s with
        | none => rfl
        | some x => simp only [Option.map_some, Prod.map, crlf_cons hc]

theorem newline?_crlf {s : List Char} (h : '\r' ∉ s) : newline? (crlf s) = (newline? s).map crlf := by
  cases s with
  | nil => rfl
  | cons c s =>
    rw [List.mem_cons, not_or] at h
    have hnone : ∀ t, c ≠ '\n' → newline? (c :: t) = none := fun t hc => by
      unfold newline?
      split
      · rename_i e
        exact absurd (List.cons.inj e).1 hc
      · rename_i e
        exact absurd (List.cons.inj e).1.symm h.1
      · rfl
    by_cases hc : c = '\n'
    · subst hc
      rfl
    · rw [crlf_cons hc, hnone _ hc, hnone _ hc, Option.map_none]

theorem startsWord_crlf (s : List Char) : startsWord (crlf s) = startsWord s :=
  head?_crlf_any (by decide) s

theorem isWordEdge_crlf (before : Option Char) (s : List Char) :
    isWordEdge before (crlf s) = isWordEdge before s := by
  rw [isWordEdge, startsWord_crlf, isWordEdge]

/-! ## Patterns -/

/-- What is left of a text and of the text with other line ends is the same, where a part of a line
end may be gone. -/
def SameRest (rest rest' : List Char) : Prop :=
  rest' = crlf rest ∨ ∃ t, rest = '\n' :: t ∧ rest' = '\n' :: crlf t

namespace Pattern

/-- A pattern finds the same at a place of a text, up to a relation, whichever line ends it has. -/
def AgreesAt (p : Pattern α) (R : α → α → Prop) (before : Option Char) (s : List Char) : Prop :=
  Option.Rel (fun x x' => R x.1 x'.1 ∧ SameRest x.2 x'.2 ∧ x.2 <:+ s ∧ x.2 ≠ s) (p before s)
    (p before (crlf s))

/-- Two matches stand at the same place of a text with different line ends, and were found to be the
same. -/
def Agrees (R : List Char → α → α → Prop) (text : List Char) (m m' : Match α) : Prop :=
  ∃ a s, text = a ++ s ∧ m.start = a.length ∧ m'.start = (crlf a).length ∧ R s m.value m'.value

variable {p : Pattern α} {R : List Char → α → α → Prop}

theorem scanFrom_cons_of_none {before : Option Char} {c : Char} {s : List Char}
    (h : p before (c :: s) = none) (pos : Nat) :
    p.scanFrom before pos 0 (c :: s) = p.scanFrom (some c) (pos + 1) 0 s := by
  rw [scanFrom, at?, h, Option.map_none]

theorem scanFrom_crlf (hnil : ∀ before, p before [] = none)
    (hend : ∀ c, c = '\r' ∨ c = '\n' → ∀ before s, p before (c :: s) = none) {text : List Char}
    (h : ∀ s, s <:+ text → ∀ before, p.AgreesAt (R s) before s) {a s : List Char} (htext : text = a ++ s)
    (before : Option Char) :
    List.Forall₂ (Agrees R text) (p.scanFrom before a.length 0 s)
      (p.scanFrom before (crlf a).length 0 (crlf s)) := by
  induction hn : s.length using Nat.strongRecOn generalizing a s before with
  | ind n ih =>
    have hnext : ∀ {u t : List Char}, u ≠ [] → s = u ++ t → ∀ before,
        List.Forall₂ (Agrees R text) (p.scanFrom before (a ++ u).length 0 t)
          (p.scanFrom before (crlf (a ++ u)).length 0 (crlf t)) := fun {u t} hu hs before => by
      have hlt : t.length < n := by
        have := List.length_pos_iff.mpr hu
        rw [← hn, hs, List.length_append]
        omega
      exact ih t.length hlt (by rw [htext, hs, List.append_assoc]) before rfl
    cases s with
    | nil =>
      rw [crlf_nil, scanFrom, scanFrom, at?, at?, hnil]
      exact .nil
    | cons c s =>
      by_cases hc : c = '\n'
      · subst hc
        have hlen : (crlf (a ++ ['\n'])).length = (crlf a).length + 1 + 1 := by
          rw [crlf_append, List.length_append]
          rfl
        have hrest := hnext (List.cons_ne_nil '\n' []) rfl (some '\n')
        rw [hlen, List.length_append] at hrest
        rw [crlf_newline, scanFrom_cons_of_none (hend _ (.inr rfl) before s),
          scanFrom_cons_of_none (hend _ (.inl rfl) before _),
          scanFrom_cons_of_none (hend _ (.inr rfl) _ _)]
        exact hrest
      · have hat := h (c :: s) ⟨a, htext.symm⟩ before
        rw [AgreesAt] at hat
        generalize hp : p before (c :: s) = found, hp' : p before (crlf (c :: s)) = found' at hat
        cases hat with
        | none =>
          have hrest := hnext (List.cons_ne_nil c []) rfl (some c)
          rw [crlf_append, crlf_cons hc, crlf_nil, List.length_append, List.length_append] at hrest
          rw [crlf_cons hc] at hp' ⊢
          rw [scanFrom_cons_of_none hp, scanFrom_cons_of_none hp']
          exact hrest
        | @some x x' hfound =>
          obtain ⟨x, rest⟩ := x
          obtain ⟨x', rest'⟩ := x'
          obtain ⟨hx, hrest, ⟨u, hu⟩, hne⟩ := hfound
          have hnil : u ≠ [] := fun e => hne (by rw [← hu, e, List.nil_append])
          have hnil' : crlf u ≠ [] := fun e => hnil (by
            rw [← List.isEmpty_iff, isEmpty_crlf, List.isEmpty_iff] at e
            exact e)
          have hagrees : ∀ n n', Agrees R text ⟨a.length, n, x⟩ ⟨(crlf a).length, n', x'⟩ :=
            fun n n' => ⟨a, c :: s, htext, rfl, rfl, hx⟩
          rw [← hu] at hp hp' ⊢
          rw [scanFrom_of_match hnil hp]
          rcases hrest with rfl | ⟨t, rfl, rfl⟩
          · have hrest := hnext hnil hu.symm u.getLast?
            rw [crlf_append, List.length_append, List.length_append] at hrest
            rw [crlf_append] at hp' ⊢
            rw [scanFrom_of_match hnil' hp', getLast?_crlf]
            exact .cons (hagrees _ _) hrest
          · -- the match went on to the `\r`
            have htaken : crlf (u ++ '\n' :: t) = (crlf u ++ ['\r']) ++ '\n' :: crlf t := by
              rw [crlf_append, crlf_newline, List.append_assoc, List.singleton_append]
            have hsplit : c :: s = (u ++ ['\n']) ++ t := by
              rw [← hu, List.append_assoc, List.singleton_append]
            have hrest := hnext (by simp) hsplit (some '\n')
            have hlen : (a ++ (u ++ ['\n'])).length = a.length + u.length + 1 := by
              simp only [List.length_append, List.length_singleton, Nat.add_assoc]
            have hlen' : (crlf (a ++ (u ++ ['\n']))).length =
                (crlf a).length + (crlf u ++ ['\r']).length + 1 := by
              simp only [crlf_append, crlf_newline, crlf_nil, List.length_append, List.length_cons,
                List.length_nil]
              omega
            rw [hlen, hlen'] at hrest
            rw [htaken] at hp' ⊢
            rw [scanFrom_of_match (by simp) hp', scanFrom_cons_of_none (hend _ (.inr rfl) _ _),
              scanFrom_cons_of_none (hend _ (.inr rfl) _ _)]
            exact .cons (hagrees _ _) hrest

/-- A scan finds the same at the same places, whichever line ends the text has. -/
theorem scan_crlf (hnil : ∀ before, p before [] = none)
    (hend : ∀ c, c = '\r' ∨ c = '\n' → ∀ before s, p before (c :: s) = none) {text : List Char}
    (h : ∀ s, s <:+ text → ∀ before, p.AgreesAt (R s) before s) :
    List.Forall₂ (Agrees R text) (p.scan text) (p.scan (crlf text)) :=
  scanFrom_crlf hnil hend h (List.nil_append text).symm none

end Pattern

end ScriptService.Scan
