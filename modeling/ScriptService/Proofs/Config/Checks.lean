import Mathlib.Data.Nat.Digits.Defs
import ScriptService.Config.Basic
import ScriptService.Proofs.Failure
import ScriptService.Proofs.Value.Literal

/-!
# What is checked of a configuration

Five things are checked of a value that is to be a configuration, one after the other
(`Config.checks`). What each of them refuses is told by `Check.Refuses`, and what is said
then by `Check.failure`: of all that is wrong only the first thing counts
(`Config.asFailure_ofValue_eq_error_iff`), and a value with nothing wrong gives a configuration
(`Config.exists_ofValue_eq_ok_iff`). Settings are not looked at, so the value that
describes a configuration is read as that configuration (`Config.ofValue_toValue`).
-/

namespace ScriptService

/-- The type of value that a configuration has at a key. -/
inductive Wanted where
  | mapping
  | truthValue

/-- Whether a value is of the type that is wanted. What is met again inside itself stands deeper than any
place that is checked. -/
def Wanted.fits : Wanted → Value → Bool
  | .mapping, .mapping _ => true
  | .truthValue, .bool _ => true
  | _, _ => false

/-- Something that is checked of the value of a configuration. -/
inductive Check where
  /-- The value is a mapping. -/
  | whole
  /-- What it has at a key, if anything, is of the type that is wanted there. -/
  | entry (type : Wanted) (key : String)

namespace Check

/-- A check refuses a configuration for a value in it: for itself if it is no mapping, for what it has at
a key if that is neither nothing nor of the type that is wanted. -/
inductive Refuses (d : Value) : Check → Value → Prop
  | whole (other : Wanted.mapping.fits d = false) : Refuses d .whole d
  | entry {type : Wanted} {key : String} {v : Value} (found : d.get? key = some v) (given : v ≠ .null)
      (other : type.fits v = false) : Refuses d (.entry type key) v

theorem Refuses.unique {d : Value} {c : Check} {v w : Value} (hv : Refuses d c v) (hw : Refuses d c w) :
    v = w := by
  cases hv with
  | whole => cases hw; rfl
  | entry found =>
    cases hw with
    | entry found' => exact Option.some.inj (found.symm.trans found')

/-- What is wrong with a configuration for a refused value. -/
def fault : Check → Value → ConfigError
  | .whole, v => .notMapping v.typeName
  | .entry .mapping key, v => .sectionNotMapping key v.typeName
  | .entry .truthValue key, v => .flagNotTruthValue key v.literal

/-- Why what is wrong cannot be told, if so, in a message that has room for a number of values inside one
another: what should be a truth value is written out for it. Of what should be a mapping only the type is
named. -/
def untold? (room : Nat) : Check → Value → Option ReadError
  | .entry .truthValue _, v => v.fault? room
  | _, _ => none

/-- Whether what is wrong cannot be told: a value that is written out has an integer of too many digits or
too many levels. -/
def cannotTell (room : Nat) : Check → Value → Bool
  | .entry .truthValue _, v => v.hasLongInt || room < v.levels
  | _, _ => false

theorem untold?_eq_none_iff (room : Nat) (c : Check) (v : Value) :
    c.untold? room v = none ↔ c.cannotTell room v = false := by
  match c with
  | .whole | .entry .mapping _ => exact iff_of_true rfl rfl
  | .entry .truthValue _ =>
    rw [untold?, cannotTell, Value.fault?_eq_none_iff, Bool.or_eq_false_iff, decide_eq_false_iff_not,
      Nat.not_lt]

/-- The failure for a refused value. -/
def failure (room : Nat) (c : Check) (v : Value) : Failure :=
  (c.untold? room v).elim (.config (c.fault v)) .value

theorem failure_eq_config_iff (room : Nat) (c : Check) (v : Value) :
    c.failure room v = .config (c.fault v) ↔ c.cannotTell room v = false := by
  rw [← untold?_eq_none_iff, failure]
  cases c.untold? room v with
  | none => exact iff_of_true rfl rfl
  | some e => exact iff_of_false nofun nofun

/-- The error for a refused value. -/
def error (room : Nat) (c : Check) (v : Value) : ConfigError :=
  (c.untold? room v).elim (c.fault v) .flagUnwritable

theorem ofConfigError_error (room : Nat) (c : Check) (v : Value) :
    Failure.ofConfigError (c.error room v) = c.failure room v := by
  rw [error, failure]
  cases c.untold? room v with
  | some e => rfl
  | none =>
    match c with
    | .whole | .entry .mapping _ | .entry .truthValue _ => rfl

/-- A check is the first of some that refuses a value. -/
def First (d : Value) (cs : List Check) (c : Check) (v : Value) : Prop :=
  ∃ before after, cs = before ++ c :: after ∧ Refuses d c v ∧ ∀ b ∈ before, ∀ w, ¬ Refuses d b w

theorem first_cons_of_refuses {d : Value} {c : Check} {v : Value} (h : Refuses d c v) (cs : List Check)
    {c' : Check} {w : Value} : First d (c :: cs) c' w ↔ c' = c ∧ w = v := by
  constructor
  · rintro ⟨before, after, hcs, hw, hbefore⟩
    cases before with
    | nil =>
      obtain ⟨rfl, -⟩ := List.cons.inj hcs
      exact ⟨rfl, hw.unique h⟩
    | cons b before =>
      obtain ⟨rfl, -⟩ := List.cons.inj hcs
      exact absurd h (hbefore c List.mem_cons_self v)
  · rintro ⟨rfl, rfl⟩
    exact ⟨[], cs, rfl, h, nofun⟩

theorem first_cons_of_not_refuses {d : Value} {c : Check} (h : ∀ v, ¬ Refuses d c v) (cs : List Check)
    {c' : Check} {w : Value} : First d (c :: cs) c' w ↔ First d cs c' w := by
  constructor
  · rintro ⟨before, after, hcs, hw, hbefore⟩
    cases before with
    | nil =>
      obtain ⟨rfl, -⟩ := List.cons.inj hcs
      exact absurd hw (h w)
    | cons b before =>
      obtain ⟨-, rfl⟩ := List.cons.inj hcs
      exact ⟨before, after, rfl, hw, fun b hb => hbefore b (List.mem_cons_of_mem _ hb)⟩
  · rintro ⟨before, after, rfl, hw, hbefore⟩
    exact ⟨c :: before, after, rfl, hw, List.forall_mem_cons.mpr ⟨h, hbefore⟩⟩

/-! ## Runs of checks -/

/-- What some checks of a value come to, one after the other. -/
inductive Run {α : Type} (room : Nat) (d : Value) : List Check → Except ConfigError α → Prop
  | done (a : α) : Run room d [] (.ok a)
  | refused {c : Check} {v : Value} (h : Refuses d c v) (cs : List Check) :
      Run room d (c :: cs) (.error (c.error room v))
  | passed {c : Check} {cs : List Check} {r : Except ConfigError α} (h : ∀ v, ¬ Refuses d c v)
      (rest : Run room d cs r) : Run room d (c :: cs) r

variable {α β : Type} {room : Nat} {d : Value} {cs : List Check}

/-- A run ends with an error just if a check refuses something, and the first that does says which. -/
theorem Run.eq_error_iff {r : Except ConfigError α} (h : Run room d cs r) (e : ConfigError) :
    r = .error e ↔ ∃ c v, First d cs c v ∧ e = c.error room v := by
  induction h with
  | done a =>
    refine iff_of_false nofun ?_
    rintro ⟨c, v, ⟨before, after, hcs, -⟩, -⟩
    cases before <;> cases hcs
  | refused h cs =>
    simp only [first_cons_of_refuses h, Except.error.injEq]
    refine ⟨fun he => ⟨_, _, ⟨rfl, rfl⟩, he.symm⟩, ?_⟩
    rintro ⟨c, v, ⟨rfl, rfl⟩, rfl⟩
    rfl
  | passed h _ ih => simp only [first_cons_of_not_refuses h, ih]

/-- A run ends with a result just if no check refuses anything. -/
theorem Run.exists_eq_ok_iff {r : Except ConfigError α} (h : Run room d cs r) :
    (∃ a, r = .ok a) ↔ ∀ c ∈ cs, ∀ v, ¬ Refuses d c v := by
  induction h with
  | done a => exact iff_of_true ⟨a, rfl⟩ nofun
  | refused h cs => exact iff_of_false nofun fun hno => hno _ List.mem_cons_self _ h
  | passed h _ ih => rw [ih, List.forall_mem_cons, and_iff_right h]

/-- A step that makes one check, and the run of the others behind it. -/
theorem Run.bind {c : Check} {x : Except ConfigError β} {f : β → Except ConfigError α} (hx : Run room d [c] x)
    (hf : ∀ b, Run room d cs (f b)) : Run room d (c :: cs) (x >>= f) := by
  cases hx with
  | refused h => exact .refused h cs
  | passed h rest =>
    cases rest with
    | done b => exact .passed h (hf b)

end Check

namespace Config

open Check

/-- What is checked of a configuration, in this order. -/
def checks : List Check :=
  [.whole, .entry .mapping "fallout", .entry .mapping "weidu", .entry .truthValue "validate_on_save",
   .entry .truthValue "validate_on_change"]

/-- A key at which nothing stands that does not fit passes its check. -/
theorem run_passed {α : Type} {room : Nat} {es : List (Value × Value)} {type : Wanted} {key : String}
    (h : ∀ v, Value.lookup? key es = some v → v = .null ∨ type.fits v = true) (a : α) :
    Run room (.mapping es) [.entry type key] (.ok a) := by
  refine .passed (fun v hv => ?_) (.done a)
  cases hv with
  | entry found given other =>
    exact (h v found).elim given fun hfits => Bool.false_ne_true (other.symm.trans hfits)

theorem run_refused {α : Type} {room : Nat} {es : List (Value × Value)} {type : Wanted} {key : String}
    {v : Value} (hv : Value.lookup? key es = some v) (given : v ≠ .null) (other : type.fits v = false) :
    Run room (.mapping es) [.entry type key]
      (.error ((Check.entry type key).error room v) : Except ConfigError α) :=
  .refused (.entry (d := .mapping es) hv given other) []

theorem run_section? (room : Nat) (es : List (Value × Value)) (name : String) :
    Run room (.mapping es) [.entry .mapping name] (section? es name) := by
  rw [section?]
  cases hv : Value.lookup? name es with
  | none => exact run_passed (fun v h => nomatch hv.symm.trans h) []
  | some v =>
    cases v with
    | null => exact run_passed (fun v h => .inl (Option.some.inj (h.symm.trans hv))) []
    | mapping fs => exact run_passed (fun v h => .inr (Option.some.inj (h.symm.trans hv) ▸ rfl)) fs
    | _ => exact run_refused hv nofun rfl

theorem run_flag? (room : Nat) (es : List (Value × Value)) (key : String) (default : Bool) :
    Run room (.mapping es) [.entry .truthValue key] (flag? room es key default) := by
  rw [flag?]
  cases hv : Value.lookup? key es with
  | none => exact run_passed (fun v h => nomatch hv.symm.trans h) default
  | some v =>
    cases v with
    | null => exact run_passed (fun v h => .inl (Option.some.inj (h.symm.trans hv))) default
    | bool b => exact run_passed (fun v h => .inr (Option.some.inj (h.symm.trans hv) ▸ rfl)) b
    | _ => exact run_refused hv nofun rfl

/-- To read a configuration is to run the checks. -/
theorem run_ofValue (room : Nat) (d : Value) : Run room d checks (ofValue room d) := by
  cases d with
  | mapping es =>
    refine .passed (fun v hv => ?_) ?_
    · cases hv with
      | whole other => cases other
    · exact .bind (run_section? room es _) fun _ => .bind (run_section? room es _) fun _ =>
        .bind (run_flag? room es _ _) fun _ => .bind (run_flag? room es _ _) fun _ => .done _
  | _ => exact .refused (.whole rfl) _

/-- A value is refused just if a check refuses something in it, with what the first such check says. -/
theorem ofValue_eq_error_iff (room : Nat) (d : Value) (e : ConfigError) :
    ofValue room d = .error e ↔ ∃ c v, First d checks c v ∧ e = c.error room v :=
  (run_ofValue room d).eq_error_iff e

/-- The failure of a configuration is that of the first check that refuses something in it. -/
theorem asFailure_ofValue_eq_error_iff (room : Nat) (d : Value) (failure : Failure) :
    asFailure .ofConfigError (ofValue room d) = .error failure ↔
      ∃ c v, First d checks c v ∧ failure = c.failure room v := by
  simp only [asFailure_eq_error, ofValue_eq_error_iff]
  constructor
  · rintro ⟨e, ⟨c, v, hfirst, rfl⟩, rfl⟩
    exact ⟨c, v, hfirst, ofConfigError_error room c v⟩
  · rintro ⟨c, v, hfirst, rfl⟩
    exact ⟨_, ⟨c, v, hfirst, rfl⟩, ofConfigError_error room c v⟩

/-- Of what is first refused it is said what is wrong with it, just if that can be told. -/
theorem asFailure_ofValue_eq_config_iff (room : Nat) {d : Value} {c : Check} {v : Value}
    (h : First d checks c v) :
    asFailure .ofConfigError (ofValue room d) = .error (.config (c.fault v)) ↔
      c.cannotTell room v = false := by
  have hfailure := (asFailure_ofValue_eq_error_iff room d (c.failure room v)).mpr ⟨c, v, h, rfl⟩
  rw [hfailure, Except.error.injEq, failure_eq_config_iff]

/-- A flag is refused first where no section is given. -/
theorem first_flag {v : Value} (given : v ≠ .null) (other : Wanted.truthValue.fits v = false) :
    First (.mapping [(.text "validate_on_save", v)]) checks (.entry .truthValue "validate_on_save") v := by
  refine ⟨[.whole, .entry .mapping "fallout", .entry .mapping "weidu"], _, rfl, .entry rfl given other, ?_⟩
  simp only [List.forall_mem_cons, List.not_mem_nil, false_imp_iff, implies_true, and_true]
  refine ⟨fun w hw => ?_, fun w hw => ?_, fun w hw => ?_⟩
  · cases hw with
    | whole other => cases other
  all_goals
    cases hw with
    | entry found => cases found

/-- A value in which no check refuses anything is that of a configuration. -/
theorem exists_ofValue_eq_ok_iff (room : Nat) (d : Value) :
    (∃ c, ofValue room d = .ok c) ↔ ∀ check ∈ checks, ∀ v, ¬ check.Refuses d v :=
  (run_ofValue room d).exists_eq_ok_iff

/-- The value that describes a configuration is read as it, whatever its settings are. -/
theorem ofValue_toValue (room : Nat) (c : Config) : ofValue room c.toValue = .ok c := by
  simp [ofValue, toValue, textMapping, section?, flag?, Value.lookup?, bind, Except.bind]

end Config

theorem Value.hasLongInt_int_iff (n : Int) :
    (Value.int n).hasLongInt = true ↔ 10 ^ Text.maxNumeralDigits ≤ n.natAbs := by
  rw [hasLongInt, decide_eq_true_eq, ← Nat.not_le, Nat.length_toDigits_le_iff (by decide) (by decide),
    Nat.not_lt]

end ScriptService
