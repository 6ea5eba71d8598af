import Mathlib.Logic.Relation
import ScriptService.Proofs.Header.Load
import ScriptService.Proofs.Index.Basic
import ScriptService.Service.Compile

/-!
# Services that requests can lead to

A service is reachable if requests lead to it from a start (`Reachable`), each in
surroundings of its own. What requests do to the index is said once: each of them
is a sequence of a few kinds of writes (`Step.writes`), so an invariant of the
index needs one lemma about a write (`Reachable.of_write`), as for the
distinctness of keys (`Reachable.distinct`).
-/

namespace ScriptService

open Relation (ReflTransGen)

/-! ## Writes of the index -/

namespace Index

/-- What a request can do to the index at once. -/
inductive Write : Index → Index → Prop
  | reloadSelf (i : Index) (l : Language) (path text : String)
      (h : l.isHeader (Path.ofString path) = false) :
      Write i (i.setSelf path (Bucket.reload (i.getSelf path) path text l.extractor))
  | reloadHeader (i : Index) (l : Language) (path text : String)
      (h : l.isHeader (Path.ofString path) = true) :
      Write i (i.setDynamic l.id (Bucket.reload (i.getDynamic l.id) path text l.extractor))
  | close (i : Index) (path : String) : Write i (i.dropSelf path)
  | loadWorkspace {i j : Index} {n : Nat} (files : Files) (root : Path) (l : Language)
      (h : i.loadWorkspace files root l.id = .ok (n, j)) : Write i j
  | loadExternal {i j : Index} {n : Nat} (files : Files) (workspace : String) (dir : Value)
      (h : i.loadExternal files workspace dir Language.falloutSsl.id = .ok (n, j)) : Write i j

theorem Write.distinct {i j : Index} (h : Write i j) (hi : i.Distinct) : j.Distinct := by
  cases h with
  | reloadSelf l path text _ => exact hi.setSelf path _
  | reloadHeader l path text _ => exact hi.setDynamic l.id _
  | close path => exact hi.dropSelf path
  | loadWorkspace files root l h =>
    obtain ⟨symbols, -, rfl⟩ := loadWorkspace_eq_ok h
    exact hi.setDynamic l.id symbols
  | loadExternal files workspace dir h =>
    obtain rfl | ⟨d, p, symbols, -, -, -, rfl⟩ := loadExternal_eq_ok h
    · exact hi
    · exact hi.setStatic _ _

end Index

/-! ## Requests as writes -/

namespace Service

theorem start_with {env : Environment} {root : String} (h : '\x00' ∉ root.toList) (config : Config) :
    start env root (some config) = .ok { root := Path.resolve env.files.cwd (Path.ofString root), config } := by
  rw [start, if_neg (by rwa [List.contains_iff_mem])]
  rfl

theorem reloadFile_index (s : Service) (path language text : String) :
    ReflTransGen Index.Write s.index (s.reloadFile path language text).index := by
  rw [reloadFile]
  split
  · exact .refl
  · rename_i l _
    dsimp only
    split
    · rename_i h
      exact .single (.reloadHeader s.index l path text h)
    · rename_i h
      exact .single (.reloadSelf s.index l path text (Bool.eq_false_iff.mpr h))

theorem startCompile_index (s : Service) (input : List UInt8) (r : CompileRequest) :
    (s.startCompile input r).service.index = s.index := by
  unfold startCompile
  split
  · rfl
  · split <;> rfl

theorem reloadConfig_index {s t : Service} {env : Environment} (h : s.reloadConfig env = .ok t) :
    t.index = s.index := by
  rw [reloadConfig] at h
  split at h
  · exact (congrArg index (Except.ok.inj h)).symm
  · exact (congrArg index (Except.ok.inj h)).symm
  · cases h

theorem loadStatic_index {s t : Service} {env : Environment} (h : s.loadStatic env = .ok t) :
    Index.Write s.index t.index := by
  rw [loadStatic, bind_eq_ok] at h
  obtain ⟨⟨n, j⟩, hj, h⟩ := h
  obtain rfl := Except.ok.inj h
  exact .loadExternal _ _ _ hj

/-- The tiers of several languages are built one after the other. -/
theorem loadLanguages_index {env : Environment} {ls : List Language} {s t : Service}
    (h : ls.foldlM (fun s l => do
      let (_, index) ← Index.loadWorkspace s.index env.files s.root l.id
      .ok { s with index }) s = (.ok t : Except Failure Service)) :
    ReflTransGen Index.Write s.index t.index := by
  induction ls generalizing s with
  | nil =>
    obtain rfl := Except.ok.inj h
    exact .refl
  | cons l ls ih =>
    rw [List.foldlM_cons, bind_eq_ok] at h
    obtain ⟨u, hu, h⟩ := h
    rw [bind_eq_ok] at hu
    obtain ⟨⟨n, j⟩, hj, hu⟩ := hu
    obtain rfl := Except.ok.inj hu
    exact .head (.loadWorkspace _ _ _ hj) (ih h)

theorem loadDynamic_index {s t : Service} {env : Environment} (h : s.loadDynamic env = .ok t) :
    ReflTransGen Index.Write s.index t.index :=
  loadLanguages_index h

/-- What a save does to the index is to reload the document, or nothing if it has no key. -/
theorem startSave_index_cases (s : Service) (env : Environment) (uri language text : String) :
    (s.startSave env uri language text).service.index = s.index ∨
      ∃ path, (s.startSave env uri language text).service.index =
        (s.reloadFile path language text).index := by
  unfold startSave
  split
  · exact .inl rfl
  · rename_i path _
    refine .inr ⟨path, ?_⟩
    dsimp only
    split
    · split
      · rename_i h
        exact reloadConfig_index h
      · rfl
    · split
      · exact startCompile_index _ _ _
      · rfl

theorem startSave_index (s : Service) (env : Environment) (uri language text : String) :
    ReflTransGen Index.Write s.index (s.startSave env uri language text).service.index := by
  rcases s.startSave_index_cases env uri language text with h | ⟨path, h⟩
  · rw [h]
  · rw [h]
    exact s.reloadFile_index path language text

/-! ## Reachable services -/

/-- A request leads from a service to a next one. A load that fails may have built the tiers of some
languages before, so loading those of one language is a request too. -/
inductive Step : Service → Service → Prop
  | loadAll {s t : Service} (env : Environment) (h : s.loadAll env = .ok t) : Step s t
  | loadStatic {s t : Service} (env : Environment) (h : s.loadStatic env = .ok t) : Step s t
  | loadDynamic {s t : Service} (env : Environment) (h : s.loadDynamic env = .ok t) : Step s t
  | loadLanguage {s : Service} {n : Nat} {index : Index} (env : Environment) (l : Language)
      (h : s.index.loadWorkspace env.files s.root l.id = .ok (n, index)) : Step s { s with index }
  | reloadConfig {s t : Service} (env : Environment) (h : s.reloadConfig env = .ok t) : Step s t
  | reloadFile (s : Service) (path language text : String) : Step s (s.reloadFile path language text)
  | onOpen {s t : Service} (uri language text : String) (h : s.onOpen uri language text = .ok t) :
      Step s t
  | onClose {s t : Service} (uri : String) (h : s.onClose uri = .ok t) : Step s t
  | startSave (s : Service) (env : Environment) (uri language text : String) :
      Step s (s.startSave env uri language text).service
  | startCompile (s : Service) (input : List UInt8) (r : CompileRequest) :
      Step s (s.startCompile input r).service

/-- Requests lead to a service from a start. -/
inductive Reachable : Service → Prop
  | start {s : Service} (env : Environment) (root : String) (config : Option Config)
      (h : Service.start env root config = .ok s) : Reachable s
  | step {s t : Service} (hs : Reachable s) (h : Step s t) : Reachable t

/-- A request is a sequence of writes of the index. -/
theorem Step.writes {s t : Service} (h : Step s t) : ReflTransGen Index.Write s.index t.index := by
  cases h with
  | loadAll env h =>
    rw [Service.loadAll, bind_eq_ok] at h
    obtain ⟨u, hu, h⟩ := h
    rw [bind_eq_ok] at h
    obtain ⟨v, hv, h⟩ := h
    obtain rfl := Except.ok.inj h
    have hd : ReflTransGen Index.Write u.index v.index := loadDynamic_index hv
    exact .head (loadStatic_index hu) hd
  | loadStatic env h => exact .single (loadStatic_index h)
  | loadDynamic env h => exact loadDynamic_index h
  | loadLanguage env l h => exact .single (.loadWorkspace _ _ l h)
  | reloadConfig env h => rw [reloadConfig_index h]
  | reloadFile path language text => exact s.reloadFile_index path language text
  | onOpen uri language text h =>
    rw [Service.onOpen, bind_eq_ok] at h
    obtain ⟨path, -, h⟩ := h
    obtain rfl := Except.ok.inj h
    exact s.reloadFile_index path language text
  | onClose uri h =>
    rw [Service.onClose, bind_eq_ok] at h
    obtain ⟨path, -, h⟩ := h
    obtain rfl := Except.ok.inj h
    exact .single (.close s.index path)
  | startSave env uri language text => exact s.startSave_index env uri language text
  | startCompile input r => rw [startCompile_index]

theorem start_index {s : Service} {env : Environment} {root : String} {config : Option Config}
    (h : start env root config = .ok s) : s.index = {} := by
  rw [start] at h
  split at h
  · cases h
  · dsimp only at h
    split at h
    all_goals
      rw [bind_eq_ok] at h
      obtain ⟨c, -, h⟩ := h
      obtain rfl := Except.ok.inj h
      rfl

/-- What the empty index has and every write keeps is true of the index of every reachable service. -/
theorem Reachable.of_write {P : Index → Prop} (hempty : P {})
    (hwrite : ∀ {i j : Index}, Index.Write i j → P i → P j) {s : Service} (hs : s.Reachable) :
    P s.index := by
  have hrun : ∀ {i j : Index}, ReflTransGen Index.Write i j → P i → P j := fun h hi => by
    induction h with
    | refl => exact hi
    | tail _ h ih => exact hwrite h ih
  induction hs with
  | start env root config h => exact start_index h ▸ hempty
  | step _ h ih => exact hrun h.writes ih

theorem Reachable.distinct {s : Service} (hs : s.Reachable) : s.index.Distinct :=
  hs.of_write Index.distinct_empty Index.Write.distinct

end Service

end ScriptService
