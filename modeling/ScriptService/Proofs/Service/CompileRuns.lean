import Mathlib.Logic.Function.Basic
import ScriptService.Service.Compile

/-!
# Runs of compiles

Compiles of many documents are started, and their compilers end, in any order.
A run (`Session.after`, `Session.log`) is a list of such steps, so a statement
about all lists of steps is one about every moment of every interleaving.

* `Consistent`: the compiles of a document carry consecutive stamps, and the
  document shows what its latest compile is due (`Job.due`);
* `step_consistent`, `after_consistent`: every step, hence every run, keeps it;
* `step_view`, `step_of_view`: a step of one document changes nothing that a
  step of another one can see.
-/

namespace ScriptService

/-! ## Stamps -/

namespace Stamps

theorem lookup_set_self (s : Stamps) (uri : String) (n : Nat) :
    (s.set uri n).lookup uri = some n := by
  induction s with
  | nil => simp [set]
  | cons e s ih =>
    obtain ⟨u, m⟩ := e
    simp only [set]
    split
    · exact List.lookup_cons_self
    · rename_i h
      rw [List.lookup_cons, beq_false_of_ne (Ne.symm h), ih]

theorem lookup_set_of_ne (s : Stamps) {u uri : String} (h : u ≠ uri) (n : Nat) :
    (s.set uri n).lookup u = s.lookup u := by
  induction s with
  | nil => rw [set, List.lookup_cons, beq_false_of_ne h]
  | cons e s ih =>
    obtain ⟨v, m⟩ := e
    simp only [set]
    split
    · rename_i e
      rw [List.lookup_cons, List.lookup_cons, e, beq_false_of_ne h]
    · rw [List.lookup_cons, List.lookup_cons, ih]

theorem last_set_self (s : Stamps) (uri : String) (n : Nat) : (s.set uri n).last uri = n := by
  rw [last, lookup_set_self, Option.getD_some]

theorem last_set_of_ne (s : Stamps) {u uri : String} (h : u ≠ uri) (n : Nat) :
    (s.set uri n).last u = s.last u := by
  rw [last, lookup_set_of_ne s h, last]

/-- A stamp that was taken is the latest one if it is the last one. -/
theorem isLatest_eq (s : Stamps) (uri : String) {n : Nat} (hn : 0 < n) :
    s.isLatest uri n = decide (s.last uri = n) := by
  rw [isLatest, last]
  rcases Option.eq_none_or_eq_some (s.lookup uri) with e | ⟨m, e⟩ <;> rw [e]
  · simpa using Nat.ne_of_lt hn
  · exact decide_eq_decide.mpr Int.ofNat_inj

end Stamps

/-! ## What a document shows -/

/-- The diagnostics that an event publishes for a document. -/
def HostEvent.published? (uri : String) : HostEvent → Option (List Diagnostic)
  | .publish u ds => if u = uri then some ds else none
  | .info _ | .error _ => none

/-- What a document shows after some events: what was last published for it. -/
def shown? (uri : String) (events : List HostEvent) : Option (List Diagnostic) :=
  events.reverse.findSome? (·.published? uri)

theorem shown?_append (uri : String) (xs ys : List HostEvent) :
    shown? uri (xs ++ ys) = (shown? uri ys).or (shown? uri xs) := by
  rw [shown?, List.reverse_append, List.findSome?_append]
  rfl

theorem shown?_publish_self (uri : String) (ds : List Diagnostic) :
    shown? uri [.publish uri ds] = some ds := by
  simp [shown?, HostEvent.published?]

theorem shown?_publish_of_ne {u uri : String} (h : uri ≠ u) (ds : List Diagnostic) :
    shown? u [.publish uri ds] = none := by
  simp [shown?, HostEvent.published?, h]

theorem shown?_verdict (uri : String) (p : Pending) (ok : Bool) :
    shown? uri (Service.verdict p ok) = none := by
  simp only [Service.verdict]
  split
  · rfl
  · split <;> rfl

/-- Looking for a command tells the editor something only if there is none, and publishes nothing. -/
theorem compileCommand_cases (s : Service) (input : List UInt8) (file : Path) (language : String)
    (interactive : Bool) :
    (s.compileCommand input file language interactive).2 = [] ∨
      ∃ message, s.compileCommand input file language interactive =
        (.ok none, if interactive then [.info message] else []) := by
  unfold Service.compileCommand
  dsimp only
  split
  · exact .inl rfl
  · split
    · split
      · exact .inr ⟨_, rfl⟩
      · exact .inl rfl
    · exact .inr ⟨_, rfl⟩

theorem shown?_compileCommand (s : Service) (input : List UInt8) (file : Path) (language : String)
    (interactive : Bool) (uri : String) :
    shown? uri (s.compileCommand input file language interactive).2 = none := by
  rcases compileCommand_cases s input file language interactive with h | ⟨message, h⟩ <;> rw [h]
  · rfl
  · cases interactive <;> rfl

theorem compileCommand_events {s : Service} {input : List UInt8} {file : Path} {language : String}
    {interactive : Bool} {c : Command}
    (h : (s.compileCommand input file language interactive).1 = .ok (some c)) :
    (s.compileCommand input file language interactive).2 = [] := by
  rcases compileCommand_cases s input file language interactive with e | ⟨message, e⟩
  · exact e
  · rw [e] at h
    cases h

/-- A request to compile starts a compile, which takes the next stamp and clears the document, or it
changes nothing and publishes nothing. -/
theorem startCompile_cases (s : Service) (input : List UInt8) (r : CompileRequest) :
    (∃ p : Pending, p.request = r ∧ p.stamp = s.stamps.last r.uri + 1 ∧
      s.startCompile input r = { service := { s with stamps := s.stamps.set r.uri p.stamp }
                                 events := [.publish r.uri []]
                                 result := .ok (.waiting p) }) ∨
    ∃ events result, s.startCompile input r = { service := s, events, result } ∧
      (∀ u, shown? u events = none) ∧ ∀ p, result ≠ .ok (.waiting p) := by
  unfold Service.startCompile
  split
  · exact .inr ⟨_, _, rfl, fun _ => rfl, fun _ => nofun⟩
  · rename_i file _
    have hs := shown?_compileCommand s input file r.language r.interactive
    have hc := @compileCommand_events s input file r.language r.interactive
    split
    · rename_i e
      rw [e] at hs
      exact .inr ⟨_, _, rfl, hs, fun _ => nofun⟩
    · rename_i e
      rw [e] at hs
      exact .inr ⟨_, _, rfl, hs, fun _ => nofun⟩
    · rename_i command events e
      rw [e] at hc
      obtain rfl : events = [] := hc rfl
      exact .inl ⟨⟨r, file, command, s.stamps.last r.uri + 1⟩, rfl, rfl, rfl⟩

/-! ## Sessions -/

/-- A compile that was started, and how its compiler ended if it has. -/
structure Job where
  request : CompileRequest
  pending : Pending
  ending : Option CompilerEnd := none

/-- What a compile that no newer one follows has its document show: nothing while it runs or if its
compiler was not started, else the diagnostics in what the compiler printed. -/
def Job.due (j : Job) : List Diagnostic :=
  match j.ending with
  | none | some .notStarted => []
  | some (.ran output) => Service.diagnosticsIn j.request.language output.stdout j.request.text

/-- A step of a run: a compile is asked for, with what is left of the standard input then, or the
compiler of a document's compile ends, where the compiles of a document are counted from zero in the
order in which they were started. -/
inductive CompileStep where
  | start (input : List UInt8) (r : CompileRequest)
  | finish (uri : String) (turn : Nat) (e : CompilerEnd)

/-- The document of a step. -/
def CompileStep.uri : CompileStep → String
  | .start _ r => r.uri
  | .finish uri _ _ => uri

/-- What comes of a step: what the editor is told, and what the request returns if it now does. -/
structure Outcome where
  events : List HostEvent := []
  result : Option (Except Failure (Option (List Diagnostic))) := none

/-- The service and the compiles of each document, in the order in which they were started. -/
structure Session where
  service : Service
  jobs : String → List Job := fun _ => []

namespace Session

/-- The session of a service before any compile is asked for. -/
def new (service : Service) : Session := { service }

/-- A compile is asked for. -/
def start (s : Session) (input : List UInt8) (r : CompileRequest) : Session × Outcome :=
  let reply := s.service.startCompile input r
  match reply.result with
  | .ok (.waiting p) =>
    ({ service := reply.service
       jobs := Function.update s.jobs r.uri (s.jobs r.uri ++ [{ request := r, pending := p }]) },
     { events := reply.events })
  | .ok (.done d) => ({ s with service := reply.service }, ⟨reply.events, some (.ok d)⟩)
  | .error e => ({ s with service := reply.service }, ⟨reply.events, some (.error e)⟩)

/-- The compiler of a compile ends; one that is not running does not. -/
def finish (s : Session) (uri : String) (turn : Nat) (e : CompilerEnd) : Session × Outcome :=
  match (s.jobs uri)[turn]? with
  | some ⟨r, p, none⟩ =>
    ({ s with jobs := Function.update s.jobs uri ((s.jobs uri).set turn ⟨r, p, some e⟩) },
     ⟨(s.service.finishCompile p e).1, some (.ok (s.service.finishCompile p e).2)⟩)
  | _ => (s, {})

/-- A step of a run. -/
def step (s : Session) : CompileStep → Session × Outcome
  | .start input r => s.start input r
  | .finish uri turn e => s.finish uri turn e

/-- The session after some steps. -/
def after (s : Session) (steps : List CompileStep) : Session :=
  steps.foldl (fun s st => (s.step st).1) s

/-- The steps of a run, each with what came of it. -/
def log (s : Session) : List CompileStep → List (CompileStep × Outcome)
  | [] => []
  | st :: steps => (st, (s.step st).2) :: log (s.step st).1 steps

/-- What the editor is told in a run. -/
def told (s : Session) (steps : List CompileStep) : List HostEvent :=
  (s.log steps).flatMap (·.2.events)

/-- What holds at every moment of a run: the compiles of a document are those of its requests, with
stamps that count on from `base`, its last one before the run, and the document shows what its latest
compile is due. -/
structure Consistent (base : String → Nat) (s : Session) (told : List HostEvent) : Prop where
  last : ∀ u, s.service.stamps.last u = base u + (s.jobs u).length
  job : ∀ u turn j, (s.jobs u)[turn]? = some j →
    j.pending.stamp = base u + turn + 1 ∧ j.pending.request = j.request ∧ j.request.uri = u
  shown : ∀ u j, (s.jobs u).getLast? = some j → shown? u told = some j.due

/-- What a step does: it starts a compile, it ends one that runs, or it changes nothing and publishes
nothing. -/
theorem step_cases (s : Session) (st : CompileStep) :
    (∃ input r p, st = .start input r ∧ p.request = r ∧ p.stamp = s.service.stamps.last r.uri + 1 ∧
      s.step st = (⟨{ s.service with stamps := s.service.stamps.set r.uri p.stamp },
        Function.update s.jobs r.uri (s.jobs r.uri ++ [⟨r, p, none⟩])⟩, ⟨[.publish r.uri []], none⟩)) ∨
    (∃ u turn e r p, st = .finish u turn e ∧ (s.jobs u)[turn]? = some ⟨r, p, none⟩ ∧
      s.step st =
        ({ s with jobs := Function.update s.jobs u ((s.jobs u).set turn ⟨r, p, some e⟩) },
         ⟨(s.service.finishCompile p e).1, some (.ok (s.service.finishCompile p e).2)⟩)) ∨
    (s.step st).1 = s ∧ ∀ u, shown? u (s.step st).2.events = none := by
  cases st with
  | start input r =>
    simp only [step]
    unfold start
    rcases startCompile_cases s.service input r with ⟨p, hr, hp, e⟩ | ⟨events, result, e, hs, hw⟩
    · rw [e]
      exact .inl ⟨input, r, p, rfl, hr, hp, rfl⟩
    · rw [e]
      refine .inr (.inr ?_)
      match result with
      | .ok (.waiting p) => exact absurd rfl (hw p)
      | .ok (.done _) | .error _ => exact ⟨rfl, hs⟩
  | finish u turn e =>
    simp only [step]
    unfold finish
    split
    · rename_i r p h
      exact .inr (.inl ⟨u, turn, e, r, p, rfl, h, rfl⟩)
    · exact .inr (.inr ⟨rfl, fun _ => rfl⟩)

/-! ## The end of a compile -/

theorem finishCompile_latest {s : Service} {p : Pending}
    (h : s.stamps.isLatest p.request.uri p.stamp = true) (output : RunOutput) :
    s.finishCompile p (.ran output) =
      (Service.verdict p output.ok ++ [.publish p.request.uri
        (Service.diagnosticsIn p.request.language output.stdout p.request.text)],
       some (Service.diagnosticsIn p.request.language output.stdout p.request.text)) := by
  rw [Service.finishCompile, if_pos h]

/-- A compile that a newer one follows says nothing. -/
theorem finishCompile_stale {s : Service} {p : Pending}
    (h : s.stamps.isLatest p.request.uri p.stamp = false) (output : RunOutput) :
    s.finishCompile p (.ran output) = ([], none) := by
  rw [Service.finishCompile, h]
  rfl

theorem shown?_finishCompile_of_ne (s : Service) {p : Pending} {u : String}
    (h : p.request.uri ≠ u) (e : CompilerEnd) : shown? u (s.finishCompile p e).1 = none := by
  cases e with
  | notStarted => exact shown?_verdict u p false
  | ran output =>
    by_cases hl : s.stamps.isLatest p.request.uri p.stamp = true
    · rw [finishCompile_latest hl, shown?_append, shown?_publish_of_ne h, shown?_verdict]
      rfl
    · rw [finishCompile_stale (Bool.eq_false_iff.mpr hl)]
      rfl

/-- Whether a compile is the latest of its document is told by its turn. -/
theorem Consistent.isLatest {base : String → Nat} {s : Session} {told : List HostEvent}
    (h : Consistent base s told) {u : String} {turn : Nat} {j : Job}
    (hj : (s.jobs u)[turn]? = some j) :
    s.service.stamps.isLatest j.pending.request.uri j.pending.stamp =
      decide (turn + 1 = (s.jobs u).length) := by
  obtain ⟨hs, hr, hu⟩ := h.job u turn j hj
  rw [Stamps.isLatest_eq _ _ (by omega), hr, hu, h.last u, hs]
  exact decide_eq_decide.mpr (by omega)

/-! ## What a step keeps -/

/-- Starting a compile: the new compile is the latest, runs, and its document shows nothing. -/
theorem Consistent.start {base : String → Nat} {s : Session} {told : List HostEvent}
    (h : Consistent base s told) {r : CompileRequest} {p : Pending} (hr : p.request = r)
    (hp : p.stamp = s.service.stamps.last r.uri + 1) :
    Consistent base ⟨{ s.service with stamps := s.service.stamps.set r.uri p.stamp },
      Function.update s.jobs r.uri (s.jobs r.uri ++ [⟨r, p, none⟩])⟩ (told ++ [.publish r.uri []]) := by
  refine ⟨fun u => ?_, fun u turn j hj => ?_, fun u j hj => ?_⟩ <;> by_cases hu : u = r.uri
  · subst hu
    simp only [Function.update_self, Stamps.last_set_self, List.length_append, List.length_singleton]
    rw [hp, h.last, Nat.add_assoc]
  · simp only [Function.update_of_ne hu, Stamps.last_set_of_ne _ hu]
    exact h.last u
  · subst hu
    simp only [Function.update_self] at hj
    rcases Nat.lt_or_ge turn (s.jobs r.uri).length with ht | ht
    · rw [List.getElem?_append_left ht] at hj
      exact h.job _ turn j hj
    · rw [List.getElem?_append_right ht, List.getElem?_singleton] at hj
      split at hj
      · obtain rfl := Option.some.inj hj
        refine ⟨?_, hr, rfl⟩
        rw [hp, h.last]
        omega
      · cases hj
  · simp only [Function.update_of_ne hu] at hj
    exact h.job u turn j hj
  · subst hu
    simp only [Function.update_self, List.getLast?_append, List.getLast?_singleton,
      Option.some_or, Option.some.injEq] at hj
    rw [shown?_append, shown?_publish_self, ← hj]
    rfl
  · simp only [Function.update_of_ne hu] at hj
    rw [shown?_append, shown?_publish_of_ne (Ne.symm hu), Option.none_or]
    exact h.shown u j hj

/-- What a document shows once its compile has ended. -/
theorem Consistent.shown_finish {base : String → Nat} {s : Session} {told : List HostEvent}
    (h : Consistent base s told) {u : String} {turn : Nat} {r : CompileRequest} {p : Pending}
    (hj : (s.jobs u)[turn]? = some ⟨r, p, none⟩) (e : CompilerEnd) {j : Job}
    (hl : ((s.jobs u).set turn ⟨r, p, some e⟩).getLast? = some j) :
    shown? u (told ++ (s.service.finishCompile p e).1) = some j.due := by
  have hlt : turn < (s.jobs u).length := (List.getElem?_eq_some_iff.mp hj).1
  have hlatest := h.isLatest hj
  obtain ⟨-, hr, hu⟩ := h.job u turn _ hj
  have hu' : p.request.uri = u := by rw [hr, hu]
  rw [List.getLast?_eq_getElem?, List.length_set, List.getElem?_set] at hl
  by_cases ht : turn + 1 = (s.jobs u).length
  · -- the compile that ended is the latest, so what it leaves is what is shown
    rw [if_pos (by omega), if_pos hlt, Option.some.injEq] at hl
    subst hl
    cases e with
    | notStarted =>
      have hs := h.shown u ⟨r, p, none⟩ (by
        rw [List.getLast?_eq_getElem?, show (s.jobs u).length - 1 = turn by omega, hj])
      rw [shown?_append, Service.finishCompile, shown?_verdict, Option.none_or, hs]
      rfl
    | ran output =>
      rw [decide_eq_true ht] at hlatest
      rw [finishCompile_latest hlatest, ← List.append_assoc, shown?_append, hu',
        shown?_publish_self, Option.some_or, hr]
      rfl
  · -- a newer compile decides what is shown, and this one publishes nothing
    rw [if_neg (by omega), ← List.getLast?_eq_getElem?] at hl
    have hs := h.shown u j hl
    cases e with
    | notStarted => rw [shown?_append, Service.finishCompile, shown?_verdict, Option.none_or, hs]
    | ran output =>
      rw [decide_eq_false ht] at hlatest
      rw [finishCompile_stale hlatest, List.append_nil, hs]

theorem Consistent.finish {base : String → Nat} {s : Session} {told : List HostEvent}
    (h : Consistent base s told) {v : String} {turn : Nat} {r : CompileRequest} {p : Pending}
    (hj : (s.jobs v)[turn]? = some ⟨r, p, none⟩) (e : CompilerEnd) :
    Consistent base { s with jobs := Function.update s.jobs v ((s.jobs v).set turn ⟨r, p, some e⟩) }
      (told ++ (s.service.finishCompile p e).1) := by
  refine ⟨fun u => ?_, fun u i j hi => ?_, fun u j hl => ?_⟩ <;> by_cases hu : u = v
  · subst hu
    simp only [Function.update_self, List.length_set]
    exact h.last u
  · simp only [Function.update_of_ne hu]
    exact h.last u
  · subst hu
    simp only [Function.update_self, List.getElem?_set] at hi
    split at hi
    · rename_i ht
      split at hi
      · obtain rfl := Option.some.inj hi
        subst ht
        exact h.job u turn ⟨r, p, none⟩ hj
      · cases hi
    · exact h.job u i j hi
  · simp only [Function.update_of_ne hu] at hi
    exact h.job u i j hi
  · subst hu
    simp only [Function.update_self] at hl
    exact h.shown_finish hj e hl
  · simp only [Function.update_of_ne hu] at hl
    obtain ⟨-, hr, hv⟩ := h.job v turn _ hj
    have hne : p.request.uri ≠ u := by
      rw [hr, hv]
      exact Ne.symm hu
    rw [shown?_append, shown?_finishCompile_of_ne _ hne, Option.none_or]
    exact h.shown u j hl

theorem step_consistent {base : String → Nat} {s : Session} {told : List HostEvent}
    (h : Consistent base s told) (st : CompileStep) :
    Consistent base (s.step st).1 (told ++ (s.step st).2.events) := by
  rcases step_cases s st with ⟨_, r, p, -, hr, hp, e⟩ | ⟨v, turn, e, r, p, -, hj, e'⟩ | ⟨e, hs⟩
  · rw [e]
    exact h.start hr hp
  · rw [e']
    exact h.finish hj e
  · rw [e]
    refine ⟨h.last, h.job, fun u j hj => ?_⟩
    rw [shown?_append, hs, Option.none_or]
    exact h.shown u j hj

/-! ## Runs -/

theorem told_cons (s : Session) (st : CompileStep) (steps : List CompileStep) :
    s.told (st :: steps) = (s.step st).2.events ++ (s.step st).1.told steps := rfl

theorem after_consistent {base : String → Nat} {s : Session} {told : List HostEvent}
    (h : Consistent base s told) (steps : List CompileStep) :
    Consistent base (s.after steps) (told ++ s.told steps) := by
  induction steps generalizing s told with
  | nil => simpa [after, Session.told, log] using h
  | cons st steps ih =>
    rw [told_cons, ← List.append_assoc]
    exact ih (step_consistent h st)

/-- A session in which no compile was started is consistent. -/
theorem consistent_new (service : Service) :
    Consistent service.stamps.last (new service) [] :=
  ⟨fun _ => rfl, fun _ _ _ => nofun, fun _ _ => nofun⟩

/-! ## One document among others -/

/-- What the steps of a document can see of a session. -/
def view (s : Session) (u : String) : Config × Option Nat × List Job :=
  (s.service.config, s.service.stamps.lookup u, s.jobs u)

theorem startCompile_congr {s t : Service} (input : List UInt8) {r : CompileRequest}
    (hc : s.config = t.config)
    (hl : s.stamps.lookup r.uri = t.stamps.lookup r.uri) :
    (s.startCompile input r).events = (t.startCompile input r).events ∧
      (s.startCompile input r).result = (t.startCompile input r).result ∧
      (s.startCompile input r).service.config = (t.startCompile input r).service.config ∧
      (s.startCompile input r).service.stamps.lookup r.uri =
        (t.startCompile input r).service.stamps.lookup r.uri := by
  unfold Service.startCompile Service.compileCommand
  simp only [hc, Stamps.next, Stamps.last, hl]
  split
  · exact ⟨rfl, rfl, hc, hl⟩
  · split
    · exact ⟨rfl, rfl, hc, hl⟩
    · exact ⟨rfl, rfl, hc, hl⟩
    · exact ⟨rfl, rfl, rfl, by rw [Stamps.lookup_set_self, Stamps.lookup_set_self]⟩

theorem finishCompile_congr {s t : Service} {p : Pending}
    (hl : s.stamps.lookup p.request.uri = t.stamps.lookup p.request.uri) (e : CompilerEnd) :
    s.finishCompile p e = t.finishCompile p e := by
  cases e with
  | notStarted => rfl
  | ran output =>
    have h : s.stamps.isLatest p.request.uri p.stamp = t.stamps.isLatest p.request.uri p.stamp := by
      simp only [Stamps.isLatest, hl]
    rw [Service.finishCompile, Service.finishCompile, h]

/-- A step of one document changes nothing that the steps of another can see. -/
theorem step_view (s : Session) {st : CompileStep} {u : String} (h : st.uri ≠ u) :
    (s.step st).1.view u = s.view u := by
  rcases step_cases s st with ⟨_, r, p, rfl, -, -, e⟩ | ⟨v, turn, e, r, p, rfl, -, e'⟩ | ⟨e, -⟩
  · have hu : u ≠ r.uri := Ne.symm h
    rw [e]
    simp only [view, Function.update_of_ne hu, Stamps.lookup_set_of_ne _ hu]
  · have hu : u ≠ v := Ne.symm h
    rw [e']
    simp only [view, Function.update_of_ne hu]
  · rw [e]

/-- What comes of a step, and what its document sees then, is fixed by what the document sees. -/
theorem step_of_view {base : String → Nat} {s t : Session} {told : List HostEvent}
    (hs : Consistent base s told) {st : CompileStep} (h : s.view st.uri = t.view st.uri) :
    (s.step st).2 = (t.step st).2 ∧ (s.step st).1.view st.uri = (t.step st).1.view st.uri := by
  simp only [view, Prod.mk.injEq] at h
  obtain ⟨hc, hl, hj⟩ := h
  cases st with
  | start input r =>
    simp only [CompileStep.uri] at hl hj
    obtain ⟨he, hr, hc', hl'⟩ := startCompile_congr input hc hl
    simp only [step, CompileStep.uri]
    unfold start
    simp only [hr, he]
    split <;> simp only [view, Function.update_self, hc', hl', hj, and_self]
  | finish u turn e =>
    simp only [CompileStep.uri] at hl hj
    simp only [step, CompileStep.uri]
    unfold finish
    simp only [← hj]
    split
    · rename_i r p hp
      obtain ⟨-, hr, hu⟩ := hs.job u turn _ hp
      have hf : s.service.finishCompile p e = t.service.finishCompile p e :=
        finishCompile_congr (by rw [hr, hu, hl]) e
      simp only [view, Function.update_self, hf, hc, hl, and_self]
    · simp only [view, hc, hl, hj, and_self]

/-- The steps of a document come to the same with and without the steps of other documents. -/
theorem log_filter {base : String → Nat} {s t : Session} {told : List HostEvent}
    (hs : Consistent base s told) {u : String} (h : s.view u = t.view u) (steps : List CompileStep) :
    (s.log steps).filter (·.1.uri = u) = t.log (steps.filter (·.uri = u)) := by
  induction steps generalizing s t told with
  | nil => rfl
  | cons st steps ih =>
    have hs' := step_consistent hs st
    by_cases hu : st.uri = u
    · subst hu
      obtain ⟨ho, hv⟩ := step_of_view hs h
      rw [List.filter_cons_of_pos (by simp), log, List.filter_cons_of_pos (by simp), log, ho,
        ih hs' hv]
    · rw [List.filter_cons_of_neg (by simpa using hu), log,
        List.filter_cons_of_neg (by simpa using hu), ih hs' ((step_view s hu).trans h)]

/-- At every moment of every run, a document of which a compile was started shows what its latest
compile is due; a compile that a newer one of its document follows tells the editor nothing when its
compiler has run, and returns nothing; and what comes of the steps of a document is what comes of
them without the steps of any other. -/
theorem run_shows_latest_compile (service : Service) (steps : List CompileStep) (u : String) :
    (∀ j, (((new service).after steps).jobs u).getLast? = some j →
      shown? u ((new service).told steps) = some j.due) ∧
    (∀ turn j output, (((new service).after steps).jobs u)[turn]? = some j → j.ending = none →
      turn + 1 < (((new service).after steps).jobs u).length →
      (((new service).after steps).step (.finish u turn (.ran output))).2 =
        { events := [], result := some (.ok none) }) ∧
    ((new service).log steps).filter (·.1.uri = u) =
      (new service).log (steps.filter (·.uri = u)) := by
  have h0 := consistent_new service
  have h := after_consistent h0 steps
  refine ⟨h.shown u, fun turn j output hj he ht => ?_, log_filter h0 rfl steps⟩
  obtain ⟨r, p, ending⟩ := j
  obtain rfl : ending = none := he
  have hl := h.isLatest hj
  rw [decide_eq_false (by omega)] at hl
  simp only [step]
  unfold finish
  simp only [hj, finishCompile_stale hl]

/-- Two compiles of one document, of which the newer has ended. -/
def overtaken : List CompileStep :=
  [.start [] { uri := "/a.d", language := "weidu-d" },
   .start [] { uri := "/a.d", language := "weidu-d" },
   .finish "/a.d" 1 (.ran { stdout := "[a.d] ERROR at line 1 column 2-3\n" })]

theorem overtaken_shows_latest :
    shown? "/a.d" ((new { root := ⟨.root, []⟩ }).told overtaken) =
      some [⟨⟨0, 1⟩, ⟨0, 3⟩, "Error", .error⟩] ∧
    (((new { root := ⟨.root, []⟩ }).after overtaken).step (.finish "/a.d" 0 (.ran {}))).2 =
      { events := [], result := some (.ok none) } := by
  have h := run_shows_latest_compile { root := ⟨.root, []⟩ } overtaken "/a.d"
  exact ⟨h.1 _ rfl, h.2.1 0 _ {} rfl rfl (by decide)⟩

end Session

end ScriptService
