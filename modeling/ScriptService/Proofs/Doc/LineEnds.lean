import ScriptService.Doc.Comment
import ScriptService.Proofs.Scan.LineEnds
import ScriptService.Proofs.Scan.Lines

/-!
# Comments with other line ends

The text between the delimiters of a comment is the same whichever line ends it has
(`commentBody_crlf`), and so are its lines: the comment says the same
(`ofComment_crlf`).
-/

namespace ScriptService.Doc

open Text Scan

theorem exists_of_crlf_eq_concat {c : Char} (hc : c ≠ '\n') {s u : List Char} (h : crlf s = u ++ [c]) :
    ∃ t, s = t ++ [c] ∧ crlf t = u := by
  induction s using List.reverseRecOn with
  | nil => simp at h
  | append_singleton s d =>
    by_cases hd : d = '\n'
    · have hlast := congrArg List.getLast? h
      rw [getLast?_crlf, List.getLast?_concat, List.getLast?_concat, hd] at hlast
      exact absurd (Option.some.inj hlast).symm hc
    · rw [crlf_append, crlf_cons hd, crlf_nil] at h
      obtain ⟨hs, hcd⟩ := List.append_inj' h rfl
      exact ⟨s, by rw [(List.cons.inj hcd).1], hs⟩

/-- A text without the end of a comment that it ends with. -/
def beforeClose (body : List Char) : List Char :=
  match body.reverse with
  | '/' :: '*' :: r => r.reverse
  | _ => body

theorem commentBody_eq (block : List Char) :
    commentBody block = beforeClose ((word? "/**" (trim block)).getD (trim block)) := rfl

theorem beforeClose_concat (s : List Char) : beforeClose (s ++ ['*', '/']) = s := by
  have hreverse : (s ++ ['*', '/']).reverse = '/' :: '*' :: s.reverse := by
    rw [List.reverse_append]
    rfl
  rw [beforeClose, hreverse]
  exact List.reverse_reverse s

theorem beforeClose_of_ne {body : List Char} (h : ∀ s, body ≠ s ++ ['*', '/']) : beforeClose body = body := by
  rw [beforeClose]
  split
  · rename_i r hr
    have hbody := congrArg List.reverse hr
    rw [List.reverse_reverse, List.reverse_cons, List.reverse_cons, List.append_assoc] at hbody
    exact absurd hbody (h r.reverse)
  · rfl

theorem beforeClose_crlf (body : List Char) : beforeClose (crlf body) = crlf (beforeClose body) := by
  by_cases h : ∃ s, body = s ++ ['*', '/']
  · obtain ⟨s, rfl⟩ := h
    rw [crlf_append, beforeClose_concat]
    exact beforeClose_concat (crlf s)
  · rw [beforeClose_of_ne (fun s hs => h ⟨s, hs⟩), beforeClose_of_ne fun u hu => ?_]
    have hu' : crlf body = (u ++ ['*']) ++ ['/'] := by
      rw [hu, List.append_assoc]
      rfl
    obtain ⟨t, ht, hstar⟩ := exists_of_crlf_eq_concat (by decide) hu'
    obtain ⟨s, hs, -⟩ := exists_of_crlf_eq_concat (by decide) hstar
    exact h ⟨s, by rw [ht, hs, List.append_assoc]; rfl⟩

theorem commentBody_crlf (block : List Char) : commentBody (crlf block) = crlf (commentBody block) := by
  rw [commentBody_eq, commentBody_eq, ← beforeClose_crlf, trim_crlf, word?_crlf (by decide) (by decide)]
  cases word? "/**" (trim block) <;> rfl

theorem trim_subset (s : List Char) : trim s ⊆ s := fun c hc => by
  rw [trim, trimRight, List.mem_reverse] at hc
  have hleft := (List.dropWhile_sublist isBlank).subset hc
  rw [List.mem_reverse] at hleft
  exact (List.dropWhile_sublist isBlank).subset hleft

theorem commentBody_subset (block : List Char) : commentBody block ⊆ block := fun c hc => by
  have hbody : (word? "/**" (trim block)).getD (trim block) ⊆ block := by
    cases hw : word? "/**" (trim block) with
    | none => exact trim_subset block
    | some t => exact fun c hc => trim_subset block ((word?_suffix hw).subset hc)
  rw [commentBody_eq, beforeClose] at hc
  split at hc
  · rename_i r hr
    refine hbody (List.mem_reverse.mp ?_)
    rw [hr]
    exact List.mem_cons_of_mem _ (List.mem_cons_of_mem _ (List.mem_reverse.mp hc))
  · exact hbody hc

/-- A comment says the same whichever line ends it has. -/
theorem ofComment_crlf {block : List Char} (h : '\r' ∉ block) : ofComment (crlf block) = ofComment block := by
  have hlines : commentLines (crlf block) = commentLines block := by
    rw [commentLines, commentBody_crlf, textLines_crlf fun hm => h (commentBody_subset block hm), commentLines]
  rw [ofComment, hlines, ofComment]

end ScriptService.Doc
