/-!
# Similar words

How much two words have in common: the length of the longest run that both hold, and of what the
parts on its two sides have in common in turn.
-/

namespace ScriptService.Text

/-- How many characters two texts share from the start on. -/
def sharedLead : List Char → List Char → Nat
  | a :: s, b :: t => if a == b then sharedLead s t + 1 else 0
  | _, _ => 0

/-- A run that two texts share: where it starts in each, and how long it is. -/
structure SharedRun where
  left : Nat
  right : Nat
  length : Nat

/-- The longest run that two texts share; of several the first in one text, then in the other. -/
def longestShared (a b : List Char) : SharedRun :=
  (List.range a.length).foldl (fun best i =>
    (List.range b.length).foldl (fun best j =>
      let n := sharedLead (a.drop i) (b.drop j)
      if n > best.length then ⟨i, j, n⟩ else best) best) ⟨0, 0, 0⟩

/-- How many characters two texts have in common. -/
def commonSize : Nat → List Char → List Char → Nat
  | 0, _, _ => 0
  | fuel + 1, a, b =>
    let r := longestShared a b
    if r.length = 0 then 0
    else r.length + commonSize fuel (a.take r.left) (b.take r.right) +
      commonSize fuel (a.drop (r.left + r.length)) (b.drop (r.right + r.length))

/-- The words that are most similar to one, three at most, in order. Twice what they have in common
is at least six tenths of their lengths together. -/
def similarWords (word : String) (words : List String) : List String :=
  let scored := words.map fun w => (w, 2 * commonSize w.length w.toList word.toList, w.length + word.length)
  let close := scored.filter fun (_, common, total) => 10 * common ≥ 6 * total
  let best := close.mergeSort fun (v, c, t) (w, d, u) => c * u > d * t || (c * u = d * t && !(v < w))
  ((best.take 3).map Prod.fst).mergeSort fun a b => !(b < a)

end ScriptService.Text
