import ScriptService.Number.Numeral
import ScriptService.Shell.Expansion

/-!
# Commands that scripts call

Printing, testing, copying and waiting. Each takes its arguments and the state to the next state.
-/

namespace ScriptService.Shell

/-- The character of an escape that is one letter. -/
def escapeLetter? : Char → Option Char
  | '\\' => some '\\'
  | 'a' => some '\x07'
  | 'b' => some '\x08'
  | 'f' => some '\x0c'
  | 'n' => some '\n'
  | 'r' => some '\r'
  | 't' => some '\t'
  | 'v' => some '\x0b'
  | _ => none

/-- Base-eight digits. -/
def isOctal (c : Char) : Bool :=
  '0' ≤ c && c ≤ '7'

/-- The escape behind a backslash, and the text behind it; a backslash that escapes nothing stands for
itself. -/
def escapeAt (s : List Char) : Char × List Char :=
  let digits := (s.take 3).takeWhile isOctal
  if digits.isEmpty then
    match s with
    | c :: t =>
      match escapeLetter? c with
      | some d => (d, t)
      | none => ('\\', s)
    | [] => ('\\', [])
  else (Char.ofNat (digits.foldl (fun n c => n * 8 + (c.toNat - 48)) 0 % 256), s.drop digits.length)

/-- A text with its escapes resolved, and whether it goes on: `\c` ends all output. A zero may stand
before the digits of an escape. -/
def unescape : Nat → List Char → List Char × Bool
  | 0, s => (s, true)
  | _, [] => ([], true)
  | fuel + 1, c :: s =>
    if c == '\\' then
      match s with
      | 'c' :: _ => ([], false)
      | '0' :: d :: t =>
        let (e, rest) := escapeAt (if isOctal d then d :: t else s)
        let (cs, more) := unescape fuel rest
        (e :: cs, more)
      | s =>
        let (e, rest) := escapeAt s
        let (cs, more) := unescape fuel rest
        (e :: cs, more)
    else
      let (cs, more) := unescape fuel s
      (c :: cs, more)

/-- What is echoed for some arguments. -/
def echoText (args : List (List Char)) : List Char :=
  let (newline, args) := match args with
    | ['-', 'n'] :: rest => (false, rest)
    | args => (true, args)
  let text := [' '].intercalate args
  let (cs, more) := unescape (text.length + 1) text
  if newline && more then cs ++ ['\n'] else cs

/-- A text filled up to a width, from the left or from the right. -/
def fill (left : Bool) (zero : Bool) (width : Nat) (cs : List Char) : List Char :=
  let gap := width - cs.length
  if left then cs ++ List.replicate gap ' '
  else if zero then
    match cs with
    | '-' :: ds => '-' :: List.replicate gap '0' ++ ds
    | ds => List.replicate gap '0' ++ ds
  else List.replicate gap ' ' ++ cs

/-- What one conversion makes of an argument. -/
def convert (letter : Char) (precision : Option Nat) (arg : List Char) : List Char :=
  let n := (Arithmetic.integer? arg).getD 0
  let digits := fun base => Nat.toDigits base n.toNat
  match letter with
  | 's' => precision.elim arg arg.take
  | 'b' => (unescape (arg.length + 1) arg).1
  | 'c' => arg.take 1
  | 'd' | 'i' | 'u' => decimal n
  | 'x' => digits 16
  | 'X' => (digits 16).map Char.toUpper
  | 'o' => digits 8
  | _ => []

/-- What a format prints for some arguments, and the arguments left. -/
def formatOnce : Nat → List Char → List (List Char) → List Char × List (List Char)
  | 0, _, args => ([], args)
  | _, [], args => ([], args)
  | fuel + 1, c :: s, args =>
    let on := fun (cs : List Char) (r : List Char × List (List Char)) => (cs ++ r.1, r.2)
    if c == '\\' then
      let (e, rest) := escapeAt s
      on [e] (formatOnce fuel rest args)
    else if c == '%' then
      match s with
      | '%' :: rest => on ['%'] (formatOnce fuel rest args)
      | s =>
        let flags := s.takeWhile fun d => "-+ 0#".contains d
        let s := s.drop flags.length
        let width := s.takeWhile Char.isDigit
        let s := s.drop width.length
        let (precision, s) := match s with
          | '.' :: t => (some (t.takeWhile Char.isDigit), t.dropWhile Char.isDigit)
          | s => (none, s)
        let number := fun (ds : List Char) => ds.foldl (fun n c => n * 10 + (c.toNat - 48)) 0
        match s with
        | [] => ([], args)
        | letter :: rest =>
          let text := convert letter (precision.map number) (args.headD [])
          on (fill (flags.contains '-') (flags.contains '0') (number width) text)
            (formatOnce fuel rest args.tail)
    else on [c] (formatOnce fuel s args)

/-- What a format prints, used again as long as it takes arguments and some are left. -/
def formatAll : Nat → List Char → List (List Char) → List Char
  | 0, _, _ => []
  | fuel + 1, format, args =>
    let (cs, rest) := formatOnce (format.length + 1) format args
    if rest.isEmpty || rest.length = args.length then cs else cs ++ formatAll fuel format rest

/-- Whether a test holds; none if it is not understood. -/
def test? (m : Machine) : List (List Char) → Option Bool
  | [] => some false
  | [a] => some !a.isEmpty
  | ['!'] :: rest => (test? m rest).map (!·)
  | [op, a] =>
    let node := m.files.stat (pathOf a)
    match String.ofList op with
    | "-n" => some !a.isEmpty
    | "-z" => some a.isEmpty
    | "-e" | "-r" | "-w" =>
      some (match node with
        | .ok _ => true
        | .error _ => false)
    | "-f" =>
      some (match node with
        | .ok (.file _) => true
        | _ => false)
    | "-d" | "-x" =>
      some (match node with
        | .ok (.directory _) => true
        | _ => false)
    | "-s" =>
      some (match node with
        | .ok (.file bytes) => !bytes.isEmpty
        | .ok (.directory _) => true
        | .error _ => false)
    | _ => none
  | [a, op, b] =>
    let compare := fun (f : Int → Int → Bool) => do
      some (f (← Arithmetic.integer? a) (← Arithmetic.integer? b))
    match String.ofList op with
    | "=" | "==" => some (a = b)
    | "!=" => some (a ≠ b)
    | "-eq" => compare fun x y => x = y
    | "-ne" => compare fun x y => x ≠ y
    | "-lt" => compare fun x y => x < y
    | "-le" => compare fun x y => x ≤ y
    | "-gt" => compare fun x y => x > y
    | "-ge" => compare fun x y => x ≥ y
    | _ => none
  | _ => none

/-- Prints the contents of files, or of the input. -/
def Machine.copy (m : Machine) (args : List (List Char)) : Machine :=
  let one := fun (m : Machine) (arg : List Char) =>
    if arg = ['-'] then { m.print m.stdin with stdin := [] }
    else
      match m.files.read (pathOf arg) with
      | .ok bytes => m.print (bytes.map fun b => Char.ofNat b.toNat)
      | .error .isDirectory => m.complain ("cat: " ++ String.ofList arg ++ ": Is a directory") 1
      | .error .notDirectory => m.complain ("cat: " ++ String.ofList arg ++ ": Not a directory") 1
      | .error _ => m.complain ("cat: " ++ String.ofList arg ++ ": No such file or directory") 1
  (if args.isEmpty then [['-']] else args).foldl one (m.ended 0)

/-- The seconds that an argument stands for. -/
def seconds (arg : List Char) : Float :=
  let unit := match arg.getLast? with
    | some 'm' => 60.0
    | some 'h' => 3600.0
    | _ => 1.0
  let digits := arg.filter fun c => c.isDigit || c == '.'
  (Number.float? digits).getD 0 * unit

/-- The status that an argument stands for. -/
def statusOf (m : Machine) (args : List (List Char)) : Nat :=
  match args with
  | a :: _ => ((Arithmetic.integer? a).getD 2 % 256).toNat
  | [] => m.status

/-- The count that an argument stands for, one if there is none. -/
def countOf (args : List (List Char)) : Nat :=
  ((args.head?.bind Arithmetic.integer?).getD 1).toNat

/-- The lines that count up to a number, or from one number to another in steps. -/
def countText (ns : List Int) : List Char :=
  let (first, step, last) := match ns with
    | [a, b, c] => (a, b, c)
    | [a, b] => (a, 1, b)
    | [a] => (1, 1, a)
    | _ => (1, 1, 0)
  let count := if step = 0 then 0 else ((last - first).fdiv step + 1).toNat
  (List.range count).flatMap fun (k : Nat) => decimal (first + (k : Int) * step) ++ ['\n']

/-- Whether a text has the form of a pattern, in which a star stands for any text and a question mark
for any character. -/
def fits : Nat → List Char → List Char → Bool
  | 0, _, _ => false
  | _, [], [] => true
  | _, [], _ :: _ => false
  | fuel + 1, '*' :: p, s =>
    fits fuel p s || (match s with
      | _ :: t => fits fuel ('*' :: p) t
      | [] => false)
  | _, _ :: _, [] => false
  | fuel + 1, c :: p, d :: s => (c == '?' || c == d) && fits fuel p s

/-- The programs that can be started by name. -/
def programs : List String :=
  ["sh", "true", "false", "cat", "echo", "printf", "sleep", "seq", "test", "[", "pwd"]

/-- The state after a command that needs no script, if there is one of that name. -/
def Machine.call? (m : Machine) (name : String) (args : List (List Char)) : Option Machine :=
  match name with
  | ":" | "true" => some (m.ended 0)
  | "false" => some (m.ended 1)
  | "echo" => some ((m.print (echoText args)).ended 0)
  | "printf" =>
    match args with
    | [] => some (m.shellError "printf: usage: printf format [arg ...]".toList 2)
    | format :: rest => some ((m.print (formatAll (rest.length + 1) format rest)).ended 0)
  | "cat" => some (m.copy args)
  | "sleep" => some ((m.wait ((args.map seconds).foldl (· + ·) 0)).ended 0)
  | "test" =>
    match test? m args with
    | some b => some (m.ended (if b then 0 else 1))
    | none => some (m.shellError "test: unexpected operator".toList 2)
  | "[" =>
    if args.getLast? = some [']'] then
      match test? m args.dropLast with
      | some b => some (m.ended (if b then 0 else 1))
      | none => some (m.shellError "[: unexpected operator".toList 2)
    else some (m.shellError "[: missing ]".toList 2)
  | "exit" | "return" => some { m with status := statusOf m args, flow := .exited }
  | "break" => some { m with status := 0, flow := .breaking (countOf args) }
  | "continue" => some { m with status := 0, flow := .continuing (countOf args) }
  | "shift" =>
    if m.params.length < countOf args then
      some { m.shellError "shift: can't shift that many".toList 2 with flow := .exited }
    else some { m with params := m.params.drop (countOf args), status := 0 }
  | "set" => some { m with params := if args.head? = some ['-', '-'] then args.tail else m.params, status := 0 }
  | "unset" => some { m with bindings := m.bindings.filter fun v => !args.contains v.1, status := 0 }
  | "export" | "readonly" | "local" =>
    some ((args.foldl (fun m a => if a.contains '=' then m.assign (upTo '=' a).1 (upTo '=' a).2 else m) m).ended 0)
  | "read" =>
    let (line, rest) := upTo '\n' m.stdin
    let m' := args.foldl (fun m a => m.assign a (if some a = args.head? then line else [])) m
    some { m' with stdin := rest, status := if m.stdin.contains '\n' then 0 else 1 }
  | "pwd" => some ((m.print (bytesOf m.files.cwd.text ++ ['\n'])).ended 0)
  | "cd" =>
    match args with
    | dir :: _ =>
      match m.files.stat (pathOf dir) with
      | .ok (.directory _) =>
        some { m with files := { m.files with cwd := Path.resolve m.files.cwd (pathOf dir) }, status := 0 }
      | _ => some (m.shellError ("cd: can't cd to ".toList ++ dir) 2)
    | [] => some (m.ended 0)
  | "seq" => some ((m.print (countText (args.filterMap Arithmetic.integer?))).ended 0)
  | "wait" => some ((m.wait (m.busyUntil - m.clock)).ended 0)
  | "trap" | "umask" | "ulimit" => some (m.ended 0)
  | _ => none

end ScriptService.Shell
