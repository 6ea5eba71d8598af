import ScriptService.Shell.Builtin
import ScriptService.Shell.Script

/-!
# Running scripts

A script takes the state to the next state. A loop that does not end in a million steps counts as one
that never ends.
-/

namespace ScriptService.Shell

/-- A name and a value, if a word assigns one to the other. -/
def assignment? (raw : List Char) : Option (List Char × List Char) :=
  let name := raw.takeWhile Arithmetic.isNameChar
  match raw.drop name.length with
  | '=' :: value => if name.head?.any fun c => !c.isDigit then some (name, value) else none
  | _ => none

/-- Assignments at the front of some words, and the words behind them. -/
def splitAssignments : List (List Char) → List (List Char × List Char) × List (List Char)
  | [] => ([], [])
  | w :: ws =>
    match assignment? w with
    | some a =>
      let (as, rest) := splitAssignments ws
      (a :: as, rest)
    | none => ([], w :: ws)

/-- Where a redirection leads: to what another output goes to, or to a file. -/
def sinkOf (m : Machine) (operator : String) (target : List Char) : Sink :=
  if operator = ">&" then
    if target = ['2'] then m.err else if target = ['1'] then m.out else .nowhere
  else if target = "/dev/null".toList then .nowhere
  else if target = "/dev/stderr".toList then m.err
  else if target = "/dev/stdout".toList then m.out
  else .file (Path.resolve m.files.cwd (pathOf target)).text

/-- The state with a redirection in force; nothing if its file cannot be opened. -/
def Machine.redirect (m : Machine) (channel : Nat) (operator : String) (target : List Char) :
    Except Machine Machine :=
  if operator = "<" then
    if target = "/dev/null".toList then .ok { m with stdin := [] }
    else
      match m.files.read (pathOf target) with
      | .ok bytes => .ok { m with stdin := bytes.map fun b => Char.ofNat b.toNat }
      | .error _ => .error (m.shellError ("cannot open ".toList ++ target ++ ": No such file".toList) 2)
  else if operator = "<&" then .ok m
  else
    let sink := sinkOf m operator target
    let opened : Except Machine Machine := match sink with
      | .file path =>
        let p := Path.ofString path
        match m.files.stat p.parent, m.files.stat p with
        | .ok (.directory _), .ok (.directory _) =>
          .error (m.shellError ("cannot create ".toList ++ target ++ ": Is a directory".toList) 2)
        | .ok (.directory _), _ =>
          if operator = ">>" then .ok (m.write [] sink)
          else .ok { m with files := m.files.put p (.file []) }
        | _, _ =>
          .error (m.shellError ("cannot create ".toList ++ target ++ ": Directory nonexistent".toList) 2)
      | _ => .ok m
    opened.map fun m => if channel = 2 then { m with err := sink } else { m with out := sink }

/-- The state with some redirections in force. -/
def Machine.redirectAll (m : Machine) (output : List Char → Machine → List Char × Machine) :
    List Redirect → Except Machine Machine
  | [] => .ok m
  | r :: rs =>
    let (target, m) := expandText output r.target m
    match m.redirect r.channel r.operator target with
    | .ok m => m.redirectAll output rs
    | .error m => .error m

/-- The state after something that ran with outputs, and perhaps an input, of its own. -/
def Machine.restored (m before : Machine) (redirects : List Redirect) : Machine :=
  let stdin := if redirects.any (·.operator = "<") then before.stdin else m.stdin
  { m with out := before.out, err := before.err, stdin }

/-- The state after something that ran in a shell of its own. -/
def Machine.apartFrom (m before : Machine) : Machine :=
  { m with
    bindings := before.bindings
    params := before.params
    name := before.name
    files := { m.files with cwd := before.files.cwd }
    flow := if m.flow = .killed then .killed else before.flow }

/-- The state behind a loop that was left or a round that was cut short. -/
def Machine.afterLoop (m : Machine) : Machine :=
  match m.flow with
  | .breaking (n + 2) => { m with flow := .breaking (n + 1) }
  | .breaking _ => { m with flow := .on }
  | .continuing (n + 2) => { m with flow := .continuing (n + 1) }
  | _ => m

/-- The state at the end of a round of a loop. -/
def Machine.afterRound (m : Machine) : Machine :=
  match m.flow with
  | .continuing 1 | .continuing 0 => { m with flow := .on }
  | _ => m

/-- A text without the line ends at its end. -/
def dropNewlines (cs : List Char) : List Char :=
  (cs.reverse.dropWhile (· == '\n')).reverse

/-- The state after a script. -/
def run : Nat → Script → Machine → Machine
  | 0, _, m => { m with flow := .killed }
  | fuel + 1, script, m =>
    let text := fun (s : List Char) (m : Machine) =>
      match Script.ofText? s with
      | some c => run fuel c m
      | none => { m.shellError "Syntax error".toList 2 with flow := .exited }
    let output := fun (s : List Char) (m : Machine) =>
      let after := (text s { m with stdout := [], out := .stdout }).apartFrom m
      (dropNewlines after.stdout.reverse, { after with stdout := m.stdout, out := m.out })
    let shell : Machine → List (List Char) → Machine := fun m args =>
      let inside := fun (name : List Char) (params : List (List Char)) (s : List Char) =>
        (text s { m with name, params, status := 0 }).apartFrom m
      match args with
      | ['-', 'c'] :: s :: name :: params => inside name params s
      | [['-', 'c'], s] => inside "sh".toList [] s
      | file :: params =>
        match m.files.read (pathOf file) with
        | .ok bytes => inside file params (bytes.map fun b => Char.ofNat b.toNat)
        | .error _ =>
          m.complain ("sh: 0: cannot open " ++ String.ofList file ++ ": No such file") 2
      | [] => { inside "sh".toList [] m.stdin with stdin := [] }
    let call : Machine → List (List Char) → Machine := fun m words =>
      match words with
      | [] => m
      | name :: args =>
        if name = "sh".toList then shell m args
        else
          match m.call? (String.ofList name) args with
          | some m => m
          | none =>
            if name.contains '/' && (match m.files.stat (pathOf name) with
                | .ok _ => true
                | .error _ => false) then
              m.shellError (name ++ ": Permission denied".toList) 126
            else m.shellError (name ++ ": not found".toList) 127
    if m.flow ≠ .on then m
    else
      match script with
      | .skip => m
      | .seq a b => run fuel b (run fuel a m)
      | .andThen a b =>
        let m := run fuel a m
        if m.status = 0 then run fuel b m else m
      | .orElse a b =>
        let m := run fuel a m
        if m.status = 0 then m else run fuel b m
      | .not a =>
        let m := run fuel a m
        if m.flow = .on then m.ended (if m.status = 0 then 1 else 0) else m
      | .pipe a b =>
        let first := (run fuel a { m with stdout := [], out := .stdout }).apartFrom m
        let piped := first.stdout.reverse
        let second := run fuel b { first with stdout := m.stdout, out := m.out, stdin := piped }
        { second.apartFrom m with stdin := m.stdin }
      | .cond test yes no =>
        let m := run fuel test m
        if m.status = 0 then run fuel yes m else run fuel no (m.ended 0)
      | .loop until_ test body =>
        let tested := run fuel test m
        if tested.flow ≠ .on then tested.afterLoop
        else if (tested.status = 0) = until_ then tested.ended 0
        else
          let round := (run fuel body tested).afterRound
          if round.flow = .on then run fuel (.loop until_ test body) round else round.afterLoop
      | .each name words body =>
        let (values, m) := match words with
          | some ws => expandWords output ws m
          | none => (m.params, m)
        let final := values.foldl (fun m v =>
          if m.flow = .on then (run fuel body (m.assign name v)).afterRound else m) m
        final.afterLoop
      | .choose word cases =>
        let (value, m) := expandText output word m
        let matching := cases.find? fun (patterns, _) => patterns.any fun p =>
          let (pattern, _) := expandText output p m
          fits (pattern.length + value.length + 1) pattern value
        match matching with
        | some (_, body) => run fuel body (m.ended 0)
        | none => m.ended 0
      | .background body =>
        let after := run fuel body m
        let holds := m.out = .stdout || m.err = .stderr
        let busyUntil := if holds && after.clock > m.busyUntil then after.clock else m.busyUntil
        { after.apartFrom m with clock := m.clock, flow := m.flow, status := 0, busyUntil }
      | .group body apart redirects =>
        match m.redirectAll output redirects with
        | .error m' => m'.restored m redirects
        | .ok m' =>
          let after := (run fuel body m').restored m redirects
          if apart then after.apartFrom m else after
      | .simple words redirects =>
        let (assignments, words) := splitAssignments words
        let (fields, expanded) := expandWords output words m
        if expanded.flow ≠ .on then expanded
        else
          let (as, expanded) := assignments.foldl (fun (as, m) (name, raw) =>
            let (value, m) := expandText output raw m
            (as ++ [(name, value)], m)) (([] : List (List Char × List Char)), expanded)
          let assigned := as.foldl (fun m (name, value) => m.assign name value) expanded
          match assigned.redirectAll output redirects with
          | .error m' => m'.restored m redirects
          | .ok m' =>
            if fields.isEmpty then ((if words.isEmpty then m'.ended 0 else m').restored m redirects)
            else
              match fields with
              | ['e', 'x', 'e', 'c'] :: rest =>
                if rest.isEmpty then m'
                else
                  let after := (call m' rest).restored m redirects
                  if after.flow = .on then { after with flow := .exited } else after
              | fields =>
                let after := (call m' fields).restored m redirects
                if assignments.isEmpty then after else { after with bindings := expanded.bindings }

/-- How many steps a script may take. -/
def maxSteps : Nat := 1000000

end ScriptService.Shell
