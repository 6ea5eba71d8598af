import ScriptService.Shell.Token

/-!
# Shell scripts

The commands of a script: simple ones, lists, pipes, conditions and loops.
-/

namespace ScriptService.Shell

/-- A redirection: which channel, how, and the word that says where to. -/
structure Redirect where
  channel : Nat
  operator : String
  target : List Char

/-- A command of a script. -/
inductive Script where
  | skip
  | simple (words : List (List Char)) (redirects : List Redirect)
  | group (body : Script) (apart : Bool) (redirects : List Redirect)
  | seq (first second : Script)
  | andThen (first second : Script)
  | orElse (first second : Script)
  | not (body : Script)
  | pipe (first second : Script)
  | cond (test yes no : Script)
  | loop (until_ : Bool) (test body : Script)
  | each (name : List Char) (words : Option (List (List Char))) (body : Script)
  | choose (word : List Char) (cases : List (List (List Char) × Script))
  | background (body : Script)

namespace Script

/-- Words that end a list of commands. -/
def closers : List String := ["then", "else", "elif", "fi", "do", "done", "esac", "\x7d"]

/-- The tokens behind line ends. -/
def skipLines : List Token → List Token
  | .operator "\n" :: ts => skipLines ts
  | ts => ts

/-- The tokens behind separators. -/
def skipSeparators : List Token → List Token
  | .operator "\n" :: ts => skipSeparators ts
  | .operator ";" :: ts => skipSeparators ts
  | ts => ts

/-- The tokens behind a word that must come next. -/
def expect (w : String) : List Token → Option (List Token)
  | .word raw :: ts => if raw = w.toList then some ts else none
  | _ => none

/-- Whether a list of commands ends here. -/
def atEnd : List Token → Bool
  | [] => true
  | .word raw :: _ => closers.any (·.toList = raw)
  | .operator op :: _ => op == ")" || op == ";;"
  | _ => false

/-- Redirections. -/
def redirectsFrom : List Token → List Redirect × List Token
  | .redirect n op :: .word w :: ts =>
    let (rs, rest) := redirectsFrom ts
    (⟨n, op, w⟩ :: rs, rest)
  | ts => ([], ts)

/-- The words and redirections of a simple command. -/
def simpleFrom : List Token → List (List Char) × List Redirect × List Token
  | .word w :: ts =>
    let (ws, rs, rest) := simpleFrom ts
    (w :: ws, rs, rest)
  | .redirect n op :: .word w :: ts =>
    let (ws, rs, rest) := simpleFrom ts
    (ws, ⟨n, op, w⟩ :: rs, rest)
  | ts => ([], [], ts)

/-- Words up to a separator. -/
def wordsFrom : List Token → List (List Char) × List Token
  | .word w :: ts =>
    let (ws, rest) := wordsFrom ts
    (w :: ws, rest)
  | ts => ([], ts)

/-- The patterns of a case, up to and with the parenthesis behind them. -/
def patternsFrom : List Token → Option (List (List Char) × List Token)
  | .word w :: .operator "|" :: ts => do
    let (ws, ts) ← patternsFrom ts
    some (w :: ws, ts)
  | .word w :: .operator ")" :: ts => some ([w], ts)
  | _ => none

mutual
/-- A list of commands. -/
def list : Nat → List Token → Option (Script × List Token)
  | 0, _ => none
  | fuel + 1, ts =>
    let ts := skipSeparators ts
    if atEnd ts then some (.skip, ts)
    else do
      let (c, ts) ← andOr fuel ts
      match ts with
      | .operator "&" :: ts => do
        let (rest, ts) ← list fuel ts
        some (.seq (.background c) rest, ts)
      | .operator ";" :: _ | .operator "\n" :: _ => do
        let (rest, ts) ← list fuel ts
        some (.seq c rest, ts)
      | ts => some (c, ts)

/-- Commands that depend on how those before them ended. -/
def andOr : Nat → List Token → Option (Script × List Token)
  | 0, _ => none
  | fuel + 1, ts => do
    let (c, ts) ← pipeline fuel ts
    andOrFrom fuel c ts

/-- What depends on how a command ended. -/
def andOrFrom : Nat → Script → List Token → Option (Script × List Token)
  | 0, _, _ => none
  | fuel + 1, c, ts =>
    match ts with
    | .operator "&&" :: ts => do
      let (d, ts) ← pipeline fuel (skipLines ts)
      andOrFrom fuel (.andThen c d) ts
    | .operator "||" :: ts => do
      let (d, ts) ← pipeline fuel (skipLines ts)
      andOrFrom fuel (.orElse c d) ts
    | ts => some (c, ts)

/-- A pipe of commands. -/
def pipeline : Nat → List Token → Option (Script × List Token)
  | 0, _ => none
  | fuel + 1, ts =>
    match expect "!" ts with
    | some ts => do
      let (c, ts) ← pipeline fuel ts
      some (.not c, ts)
    | none => do
      let (c, ts) ← command fuel ts
      match ts with
      | .operator "|" :: ts => do
        let (d, ts) ← pipeline fuel (skipLines ts)
        some (.pipe c d, ts)
      | ts => some (c, ts)

/-- One command. -/
def command : Nat → List Token → Option (Script × List Token)
  | 0, _ => none
  | fuel + 1, ts =>
    let closed := fun (c : Script) (apart : Bool) (ts : List Token) =>
      let (rs, ts) := redirectsFrom ts
      some (Script.group c apart rs, ts)
    match ts with
    | .operator "(" :: ts => do
      let (c, ts) ← list fuel ts
      match ts with
      | .operator ")" :: ts => closed c true ts
      | _ => none
    | .word ['\x7b'] :: ts => do
      let (c, ts) ← list fuel ts
      closed c false (← expect "\x7d" ts)
    | .word ['i', 'f'] :: ts => do
      let (c, ts) ← branch fuel ts
      closed c false ts
    | .word ['w', 'h', 'i', 'l', 'e'] :: ts => do
      let (c, ts) ← loopFrom fuel false ts
      closed c false ts
    | .word ['u', 'n', 't', 'i', 'l'] :: ts => do
      let (c, ts) ← loopFrom fuel true ts
      closed c false ts
    | .word ['f', 'o', 'r'] :: .word name :: ts => do
      let (words, ts) := match expect "in" (skipLines ts) with
        | some ts =>
          let (ws, ts) := wordsFrom ts
          (some ws, ts)
        | none => (none, ts)
      let ts ← expect "do" (skipSeparators ts)
      let (body, ts) ← list fuel ts
      closed (.each name words body) false (← expect "done" ts)
    | .word ['c', 'a', 's', 'e'] :: .word w :: ts => do
      let (cases, ts) ← casesFrom fuel (← expect "in" (skipLines ts))
      closed (.choose w cases) false ts
    | ts =>
      let (ws, rs, rest) := simpleFrom ts
      if ws.isEmpty && rs.isEmpty then none else some (.simple ws rs, rest)

/-- The cases of a choice, up to and with its end. -/
def casesFrom : Nat → List Token → Option (List (List (List Char) × Script) × List Token)
  | 0, _ => none
  | fuel + 1, ts =>
    let ts := skipLines ts
    match expect "esac" ts with
    | some ts => some ([], ts)
    | none => do
      let (patterns, ts) ← patternsFrom (match ts with
        | .operator "(" :: ts => ts
        | ts => ts)
      let (body, ts) ← list fuel ts
      let (cases, ts) ← casesFrom fuel (match ts with
        | .operator ";;" :: ts => ts
        | ts => ts)
      some ((patterns, body) :: cases, ts)

/-- A condition behind its first word. -/
def branch : Nat → List Token → Option (Script × List Token)
  | 0, _ => none
  | fuel + 1, ts => do
    let (test, ts) ← list fuel ts
    let (yes, ts) ← list fuel (← expect "then" ts)
    match expect "elif" ts, expect "else" ts with
    | some ts, _ => do
      let (no, ts) ← branch fuel ts
      some (.cond test yes no, ts)
    | none, some ts => do
      let (no, ts) ← list fuel ts
      some (.cond test yes no, ← expect "fi" ts)
    | none, none => do some (.cond test yes .skip, ← expect "fi" ts)

/-- A loop behind its first word. -/
def loopFrom : Nat → Bool → List Token → Option (Script × List Token)
  | 0, _, _ => none
  | fuel + 1, until_, ts => do
    let (test, ts) ← list fuel ts
    let (body, ts) ← list fuel (← expect "do" ts)
    some (.loop until_ test body, ← expect "done" ts)
end

/-- The commands of a script, if it is well formed. -/
def ofText? (text : List Char) : Option Script :=
  let ts := tokens text
  match list (6 * ts.length + 6) ts with
  | some (c, []) => some c
  | _ => none

end Script

end ScriptService.Shell
