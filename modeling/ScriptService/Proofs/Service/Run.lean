import ScriptService.Proofs.Service.Reachable

/-!
# Runs of the service

A run is a list of operations, each in surroundings of its own. What a service is
after an operation (`Service.after`) is told also when the operation fails: it is
what was reached until then. Every run ends in a service that requests lead to
(`Reachable.run`).
-/

namespace ScriptService

open Relation (ReflTransGen)

/-- An operation on a service. -/
inductive Operation where
  | loadAll (env : Environment)
  | loadStatic (env : Environment)
  | loadDynamic (env : Environment)
  | reloadConfig (env : Environment)
  | reloadFile (path language text : String)
  | onOpen (uri language text : String)
  | onClose (uri : String)
  | save (env : Environment) (uri language text : String)
  | compile (input : List UInt8) (r : CompileRequest)

namespace Service

/-- The service that an operation led to, the one before it if it failed. -/
def orStay (s : Service) : Except Failure Service → Service
  | .ok t => t
  | .error _ => s

/-- The service once the dynamic tiers of some languages are built, up to the first that cannot be. -/
def loadTiers (env : Environment) : List Language → Service → Service
  | [], s => s
  | l :: ls, s =>
    match s.index.loadWorkspace env.files s.root l.id with
    | .ok (_, index) => loadTiers env ls { s with index }
    | .error _ => s

/-- The service after an operation. -/
def after (s : Service) : Operation → Service
  | .loadAll env =>
    match s.loadAll env, s.loadStatic env with
    | .ok t, _ => t
    | .error _, .ok t => t.loadTiers env Language.all
    | .error _, .error _ => s
  | .loadStatic env => s.orStay (s.loadStatic env)
  | .loadDynamic env => s.loadTiers env Language.all
  | .reloadConfig env => s.orStay (s.reloadConfig env)
  | .reloadFile path language text => s.reloadFile path language text
  | .onOpen uri language text => s.orStay (s.onOpen uri language text)
  | .onClose uri => s.orStay (s.onClose uri)
  | .save env uri language text => (s.startSave env uri language text).service
  | .compile input r => (s.startCompile input r).service

/-- The service after some operations. -/
def run (s : Service) (ops : List Operation) : Service :=
  ops.foldl after s

theorem orStay_step {s : Service} {x : Except Failure Service} (h : ∀ t, x = .ok t → Step s t) :
    ReflTransGen Step s (s.orStay x) := by
  cases x with
  | ok t => exact .single (h t rfl)
  | error e => exact .refl

theorem loadTiers_steps (env : Environment) (ls : List Language) (s : Service) :
    ReflTransGen Step s (s.loadTiers env ls) := by
  induction ls generalizing s with
  | nil => exact .refl
  | cons l ls ih =>
    rw [loadTiers]
    split
    · rename_i h
      exact .head (.loadLanguage env l h) (ih _)
    · exact .refl

/-- Tiers that can all be built are those of the languages. -/
theorem loadTiers_of_loadDynamic {s t : Service} {env : Environment} (h : s.loadDynamic env = .ok t) :
    s.loadTiers env Language.all = t := by
  rw [loadDynamic] at h
  generalize Language.all = ls at h ⊢
  induction ls generalizing s with
  | nil => exact Except.ok.inj h
  | cons l ls ih =>
    rw [List.foldlM_cons, bind_eq_ok] at h
    obtain ⟨u, hu, h⟩ := h
    rw [bind_eq_ok] at hu
    obtain ⟨⟨n, index⟩, hindex, hu⟩ := hu
    obtain rfl := Except.ok.inj hu
    rw [loadTiers, hindex]
    exact ih h

/-- Loading all headers loads those outside the workspace, then builds the dynamic tiers. -/
theorem loadAll_index_cases (s : Service) (env : Environment) :
    (∃ t, s.loadStatic env = .ok t ∧
        (s.after (.loadAll env)).index = (t.loadTiers env Language.all).index) ∨
      (∃ e, s.loadStatic env = .error e) ∧ (s.after (.loadAll env)).index = s.index := by
  rw [after]
  split
  · rename_i t h
    rw [loadAll, bind_eq_ok] at h
    obtain ⟨u, hu, h⟩ := h
    rw [bind_eq_ok] at h
    obtain ⟨v, hv, h⟩ := h
    obtain rfl := Except.ok.inj h
    exact .inl ⟨u, hu, by rw [loadTiers_of_loadDynamic hv]⟩
  · rename_i t _ h
    exact .inl ⟨t, h, rfl⟩
  · rename_i e _ h
    exact .inr ⟨⟨e, h⟩, rfl⟩

/-- All headers are loaded where those outside the workspace and those of both languages in it are. -/
theorem loadAll_eq_ok {s : Service} {env : Environment} {n : Nat} {i : Index} {xs ys : List Symbol}
    (hstatic : s.index.loadExternal env.files s.root.text s.config.fallout.headersDirectory
      Language.falloutSsl.id = .ok (n, i))
    (hfallout : loadHeaders env.files s.root Language.falloutSsl.id = .ok xs)
    (hweidu : loadHeaders env.files s.root Language.weiduTp2.id = .ok ys) :
    s.loadAll env = .ok
      { s with
        index := (i.setDynamic Language.falloutSsl.id xs).setDynamic Language.weiduTp2.id ys
        isInitialized := true } := by
  have hload : Language.all = [.falloutSsl, .weiduTp2] := rfl
  simp only [loadAll, loadStatic, loadDynamic, hstatic, ok_bind, hload, List.foldlM_cons, List.foldlM_nil,
    Index.loadWorkspace, hfallout, hweidu, pure, Except.pure]

/-- An operation is a sequence of requests that succeed. -/
theorem after_steps (s : Service) (op : Operation) : ReflTransGen Step s (s.after op) := by
  cases op with
  | loadAll env =>
    rw [after]
    split
    · rename_i h
      exact .single (.loadAll env h)
    · rename_i h
      exact .head (.loadStatic env h) (loadTiers_steps env _ _)
    · exact .refl
  | loadStatic env => exact orStay_step fun _ => .loadStatic env
  | loadDynamic env => exact loadTiers_steps env _ s
  | reloadConfig env => exact orStay_step fun _ => .reloadConfig env
  | reloadFile path language text => exact .single (.reloadFile s path language text)
  | onOpen uri language text => exact orStay_step fun _ => .onOpen uri language text
  | onClose uri => exact orStay_step fun _ => .onClose uri
  | save env uri language text => exact .single (.startSave s env uri language text)
  | compile input r => exact .single (.startCompile s input r)

theorem Reachable.run {s : Service} (hs : s.Reachable) (ops : List Operation) : (s.run ops).Reachable := by
  induction ops generalizing s with
  | nil => exact hs
  | cons op ops ih =>
    have hsteps : ∀ {t : Service}, ReflTransGen Step s t → t.Reachable := fun h => by
      induction h with
      | refl => exact hs
      | tail _ h ih => exact ih.step h
    exact ih (hsteps (s.after_steps op))

end Service

end ScriptService
