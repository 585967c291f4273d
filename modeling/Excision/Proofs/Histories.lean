import Excision.Proofs.Lookup
import Excision.Store.Memory
import Mathlib.Logic.Function.Basic

/-!
# Histories of a store

What a cutter does to a store, whatever the store is made of. All that is asked of a store is that
a save either sets the path that it is given and nothing else, or fails and touches nothing
(`LawfulStore`). Each store has its own keys for paths, and paths with the same key are one path to
it. The store in memory is such a store, with the components of a path as its key.

A run is followed through its three calls: the load, the records, and the save if there is one
(`Cutter.run_atomically`). Which saves a run asks for is seen by a store that forwards every call
and notes down the saves (`Recorded`); noting down changes nothing else about the run
(`Cutter.run_recorded`).

A history is any list of runs and moves, carried out one after the other. Outputs may become inputs
or overwrite each other and the inputs. Every run in it is atomic where it stands, so a text can
only change at the output of a written run or at an end of a move (`history_atomic`).
-/

set_option autoImplicit false

namespace Excision

/-- Stores in which a save sets the text at one path or fails and touches nothing. Somebody else may
move documents from one path to another. -/
class LawfulStore (σ : Type) [Journaling (StateM σ)] [Store (StateM σ)] where
  /-- That by which the store tells paths apart. -/
  Key : Type
  [decidableEq : DecidableEq Key]
  /-- The key of a path. -/
  key : Path → Key
  /-- The text under a key. -/
  text? : σ → Key → Option String
  /-- The store after a document was moved from one path to another. -/
  move : Path → Path → σ → σ
  text?_keep (records : List Record) (state : σ) :
    text? ((Journaling.keep records : StateM σ Unit).run state).2 = text? state
  text?_load (path : Path) (state : σ) :
    text? ((Store.load path : StateM σ (Except StoreFault Source)).run state).2 = text? state
  text?_save (path : Path) (lines : List String) (template : Option Path) (state : σ) :
    let saved := (Store.save path lines template : StateM σ (Except StoreFault Unit)).run state
    (saved.1 = .ok () ∧
        text? saved.2 = Function.update (text? state) (key path) (some (String.join lines))) ∨
      ∃ fault, saved.1 = .error fault ∧ text? saved.2 = text? state
  text?_move (origin destination : Path) (state : σ) (other : Key) :
    other ≠ key origin → other ≠ key destination → text? (move origin destination state) other =
      text? state other

open LawfulStore

attribute [reducible, instance] LawfulStore.decidableEq

/-! ## The store in memory -/

namespace Memory

/-- What stands under other components is found as well without the files at a path. -/
theorem find?_filter_of_ne {components : String × List String} {path : Path}
    (h : components ≠ path.components) (files : List (Path × String)) :
    (files.filter (!·.1.isSame path)).find? (·.1.components == components) =
      files.find? (·.1.components == components) := by
  rw [List.find?_filter]
  refine congrArg (List.find? · files) (funext fun file => ?_)
  have hother : file.1.components = components → file.1.isSame path = false := by
    rintro rfl
    exact beq_eq_false_iff_ne.2 h
  by_cases hfile : file.1.components = components
  · simp [hfile, hother]
  · simp [hfile]

/-- However a path is written in memory, it has the same components. -/
theorem components_known (memory : Memory) (path : Path) :
    (memory.known path).components = path.components := by
  unfold known
  cases hfound : memory.files.find? (·.1.isSame path) with
  | none => rfl
  | some file =>
      have hsame : file.1.isSame path = true := by simpa using List.find?_some hfound
      exact beq_iff_eq.1 hsame

theorem under?_put (memory : Memory) (path : Path) (text : String) :
    (memory.put path text).under? =
      Function.update memory.under? path.components (some text) := by
  funext components
  have hknown := memory.components_known path
  simp only [under?, put, List.find?_cons, hknown]
  by_cases hsame : components = path.components
  · rw [hsame, beq_self_eq_true, Function.update_self]
    rfl
  · rw [beq_eq_false_iff_ne.2 (Ne.symm hsame), Function.update_of_ne hsame]
    exact congrArg (Option.map Prod.snd) (find?_filter_of_ne hsame memory.files)

theorem under?_erase_of_ne (memory : Memory) {path : Path} {components : String × List String}
    (h : components ≠ path.components) :
    (memory.erase path).under? components = memory.under? components :=
  congrArg (Option.map Prod.snd) (find?_filter_of_ne h memory.files)

theorem under?_move_of_ne (memory : Memory) {origin destination : Path}
    {components : String × List String} (horigin : components ≠ origin.components)
    (hdestination : components ≠ destination.components) :
    (memory.move origin destination).under? components = memory.under? components := by
  unfold move
  cases memory.text? origin with
  | none => rfl
  | some text =>
      show ((memory.erase origin).put destination text).under? components = _
      rw [under?_put, Function.update_of_ne hdestination, under?_erase_of_ne memory horigin]

theorem save_cases (memory : Memory) (path : Path) (lines : List String)
    (template : Option Path) :
    ((memory.save path lines template).1 = .ok () ∧
        (memory.save path lines template).2.under? =
          Function.update memory.under? path.components (some (String.join lines))) ∨
      ∃ fault, (memory.save path lines template).1 = .error fault ∧
        (memory.save path lines template).2.under? = memory.under? := by
  unfold save
  cases hdenied : memory.denied.any (·.isSame path) with
  | true =>
      right
      refine ⟨.unwritable path "read-only", ?_⟩
      rw [if_pos hdenied]
      exact ⟨rfl, rfl⟩
  | false =>
      left
      rw [if_neg (Bool.eq_false_iff.1 hdenied)]
      exact ⟨rfl, under?_put _ path _⟩

instance : LawfulStore Memory where
  Key := String × List String
  key := Path.components
  text? := under?
  move origin destination memory := memory.move origin destination
  text?_keep _ _ := rfl
  text?_load _ _ := rfl
  text?_save path lines template memory := memory.save_cases path lines template
  text?_move _ _ memory _ horigin hdestination := memory.under?_move_of_ne horigin hdestination

end Memory

/-! ## Saves noted down -/

/-- A save as a store is asked for it. -/
structure SaveCall where
  path : Path
  lines : List String
  template : Option Path
deriving DecidableEq, Repr

/-- A store, and the saves that it was asked for. -/
structure Recorded (σ : Type) where
  store : σ
  saves : List SaveCall

namespace Recorded

variable {σ α : Type}

/-- A program on a store that notes down the given saves as well. -/
def forward (calls : List SaveCall) (program : StateM σ α) : StateM (Recorded σ) α :=
  fun recorded =>
    let (result, store) := program.run recorded.store
    (result, ⟨store, recorded.saves ++ calls⟩)

instance [Journaling (StateM σ)] : Journaling (StateM (Recorded σ)) where
  keep records := forward [] (Journaling.keep records)

instance [Store (StateM σ)] : Store (StateM (Recorded σ)) where
  load path := forward [] (Store.load path)
  save path lines template := forward [⟨path, lines, template⟩] (Store.save path lines template)

end Recorded

/-! ## One run -/

section Runs

variable {σ : Type} [Journaling (StateM σ)] [Store (StateM σ)]

/-- What a store loads from a path. -/
def loaded (state : σ) (path : Path) : Except StoreFault Source :=
  ((Store.load path : StateM σ (Except StoreFault Source)).run state).1

/-- A store after it was asked for a document. -/
def afterLoad (state : σ) (path : Path) : σ :=
  ((Store.load path : StateM σ (Except StoreFault Source)).run state).2

/-- A store after it was given records. -/
def afterKeep (state : σ) (records : List Record) : σ :=
  ((Journaling.keep records : StateM σ Unit).run state).2

/-- What becomes of a save, and the store after it. -/
def saved (state : σ) (call : SaveCall) : Except StoreFault Unit × σ :=
  (Store.save call.path call.lines call.template : StateM σ (Except StoreFault Unit)).run state

/-- The record of a save that was made. -/
def Plan.savedRecord (plan : Plan) (output : Path) : Record :=
  ⟨.info, .cutter, s!"wrote {plan.finalLines} lines to {output.text}"⟩

/-- The course of the save of a plan. -/
theorem Plan.run_save (plan : Plan) (source : Source) (input path : Path) (state : σ) :
    (plan.save source input (some path) : StateM σ WriteStatus).run state =
      match saved state ⟨path, plan.retained source, some input⟩ with
      | (.error fault, after) => (.failed fault, after)
      | (.ok (), after) => (.written path, afterKeep after [plan.savedRecord path]) := by
  unfold Plan.save
  rw [StateT.run_bind]
  show (saved state ⟨path, plan.retained source, some input⟩ >>= _ : Id _) = _
  rcases saved state ⟨path, plan.retained source, some input⟩ with ⟨fault | ⟨⟩, after⟩
  · rfl
  · rfl

namespace Cutter

variable {cutter : Cutter} {input : Path} {output : Option Path} {names : List String}

/-- A run that cannot load its input ends with the fault of the load. -/
theorem run_of_load_error {state : σ} {fault : StoreFault}
    (h : loaded state input = .error fault) :
    (cutter.run input output names : StateM σ (Except StoreFault Run)).run state =
      (.error fault, afterLoad state input) := by
  have hload : (Store.load input : StateM σ (Except StoreFault Source)).run state =
      (.error fault, afterLoad state input) := Prod.ext h rfl
  unfold Cutter.run
  rw [StateT.run_bind, hload]
  rfl

/-- A run that loads its input keeps its records and saves its plan. -/
theorem run_of_load_ok {state : σ} {source : Source} (h : loaded state input = .ok source) :
    (cutter.run input output names : StateM σ (Except StoreFault Run)).run state =
      let plan := cutter.plan source names
      let told := afterKeep (afterLoad state input) (cutter.journal source names)
      let ended := (plan.save source input output : StateM σ WriteStatus).run told
      (.ok ⟨plan, ended.1⟩, ended.2) := by
  have hload : (Store.load input : StateM σ (Except StoreFault Source)).run state =
      (.ok source, afterLoad state input) := Prod.ext h rfl
  unfold Cutter.run
  rw [StateT.run_bind, hload]
  rfl

/-- The saves that a run asks for: one if the input is loaded and there is an output, with the
input as the template for the permissions. -/
def saveCalls (cutter : Cutter) (input : Path) (names : List String) :
    Except StoreFault Source → Option Path → List SaveCall
  | .ok source, some output =>
    [⟨output, (cutter.plan source names).retained source, some input⟩]
  | _, _ => []

/-- Noting down the saves of a run changes nothing else about it. -/
theorem run_recorded (cutter : Cutter) (input : Path) (output : Option Path)
    (names : List String) (state : σ) (earlier : List SaveCall) :
    (cutter.run input output names : StateM (Recorded σ) (Except StoreFault Run)).run
        ⟨state, earlier⟩ =
      let ran := (cutter.run input output names : StateM σ (Except StoreFault Run)).run state
      (ran.1, ⟨ran.2, earlier ++ cutter.saveCalls input names (loaded state input) output⟩) := by
  have hload : loaded (⟨state, earlier⟩ : Recorded σ) input = loaded state input := rfl
  have hafter : afterLoad (⟨state, earlier⟩ : Recorded σ) input =
      ⟨afterLoad state input, earlier⟩ :=
    congrArg (Recorded.mk _) (List.append_nil earlier)
  have hkeep : ∀ (told : σ) (saves : List SaveCall) (records : List Record),
      afterKeep (⟨told, saves⟩ : Recorded σ) records = ⟨afterKeep told records, saves⟩ :=
    fun _ saves _ => congrArg (Recorded.mk _) (List.append_nil saves)
  cases hresult : loaded state input with
  | error fault =>
      rw [run_of_load_error (hload.trans hresult), run_of_load_error hresult, hafter]
      exact congrArg (fun saves => (_, Recorded.mk _ saves)) (List.append_nil earlier).symm
  | ok source =>
      rw [run_of_load_ok (hload.trans hresult), run_of_load_ok hresult, hafter]
      cases output with
      | none =>
          dsimp only
          rw [hkeep]
          exact congrArg (fun saves => (_, Recorded.mk _ saves)) (List.append_nil earlier).symm
      | some path =>
          dsimp only
          rw [hkeep, Plan.run_save, Plan.run_save]
          -- the one call that is noted down
          have hsaved : ∀ (told : σ) (call : SaveCall),
              saved (⟨told, earlier⟩ : Recorded σ) call =
                ((saved told call).1, ⟨(saved told call).2, earlier ++ [call]⟩) :=
            fun _ _ => rfl
          rw [hsaved, saveCalls]
          rcases saved (afterKeep (afterLoad state input) (cutter.journal source names))
            ⟨path, (cutter.plan source names).retained source, some input⟩ with
            ⟨fault | ⟨⟩, after⟩
          · rfl
          · dsimp only
            rw [hkeep]

end Cutter

end Runs

/-! ## Atomic runs -/

section Atomic

variable {σ : Type} [Journaling (StateM σ)] [Store (StateM σ)] [LawfulStore σ]

/-- What a save does to the texts of a store: nothing without an output or when it fails, and
otherwise it sets the output to the concatenated lines. -/
inductive Settles (before after : σ) (lines : List String) : Option Path → WriteStatus → Prop where
  | skipped (h : text? after = text? before) : Settles before after lines none .skipped
  | failed (path : Path) (fault : StoreFault) (h : text? after = text? before) :
      Settles before after lines (some path) (.failed fault)
  | written (path : Path)
      (h : text? after = Function.update (text? before) (key path) (some (String.join lines))) :
      Settles before after lines (some path) (.written path)

/-- A run is atomic. It fails exactly if its input cannot be loaded, and then no text changes.
Otherwise it has the plan of the document that was loaded, whatever becomes of the output, and at
most the output changes, to the retained lines. It asks for no save but the one of the retained
lines, with the input as the template. -/
structure Cutter.RunsAtomically (cutter : Cutter) (input : Path) (output : Option Path)
    (names : List String) (before : σ) (result : Except StoreFault Run) (after : σ) : Prop where
  error_iff (fault : StoreFault) :
    result = .error fault ↔ loaded before input = .error fault
  unchanged_of_error (fault : StoreFault) :
    result = .error fault → text? after = text? before
  settles_of_ok (source : Source) :
    loaded before input = .ok source →
      ∃ status, result = .ok ⟨cutter.plan source names, status⟩ ∧
        Settles before after ((cutter.plan source names).retained source) output status
  saves (earlier : List SaveCall) :
    (cutter.run input output names : StateM (Recorded σ) (Except StoreFault Run)).run
        ⟨before, earlier⟩ =
      (result,
        ⟨after, earlier ++ cutter.saveCalls input names (loaded before input) output⟩)

theorem text?_afterLoad (state : σ) (path : Path) : text? (afterLoad state path) = text? state :=
  text?_load path state

theorem text?_afterKeep (state : σ) (records : List Record) :
    text? (afterKeep state records) = text? state :=
  text?_keep records state

theorem saved_cases (state : σ) (call : SaveCall) :
    ((saved state call).1 = .ok () ∧ text? (saved state call).2 =
        Function.update (text? state) (key call.path) (some (String.join call.lines))) ∨
      ∃ fault, (saved state call).1 = .error fault ∧
        text? (saved state call).2 = text? state :=
  text?_save call.path call.lines call.template state

/-- The save of a plan settles its output. -/
theorem Plan.settles_save (plan : Plan) (source : Source) (input : Path) (output : Option Path)
    (state : σ) :
    let ended := (plan.save source input output : StateM σ WriteStatus).run state
    Settles state ended.2 (plan.retained source) output ended.1 := by
  cases output with
  | none => exact .skipped rfl
  | some path =>
      let call : SaveCall := ⟨path, plan.retained source, some input⟩
      dsimp only
      rw [Plan.run_save]
      rcases saved_cases state call with ⟨hresult, htext⟩ | ⟨fault, hresult, htext⟩
      · have hpair : saved state call = (.ok (), (saved state call).2) := Prod.ext hresult rfl
        rw [hpair]
        exact .written path ((text?_afterKeep _ _).trans htext)
      · have hpair : saved state call = (.error fault, (saved state call).2) :=
          Prod.ext hresult rfl
        rw [hpair]
        exact .failed path fault htext

/-- What a save settles only depends on the texts before it. -/
theorem Settles.congr {before before' after : σ} {lines : List String} {output : Option Path}
    {status : WriteStatus} (hsame : text? before' = text? before)
    (h : Settles before' after lines output status) :
    Settles before after lines output status := by
  cases h with
  | skipped h => exact .skipped (h.trans hsame)
  | failed path fault h => exact .failed path fault (h.trans hsame)
  | written path h => exact .written path (by rw [h, hsame])

/-- Every run is atomic. -/
theorem Cutter.run_atomically (cutter : Cutter) (input : Path) (output : Option Path)
    (names : List String) (state : σ) :
    let ran := (cutter.run input output names : StateM σ (Except StoreFault Run)).run state
    cutter.RunsAtomically input output names state ran.1 ran.2 := by
  intro ran
  cases hload : loaded state input with
  | error fault =>
      have hran : ran = (.error fault, afterLoad state input) := run_of_load_error hload
      exact {
        error_iff := fun other => by rw [hran, hload, Except.error.injEq, Except.error.injEq]
        unchanged_of_error := fun _ _ => by rw [hran]; exact text?_afterLoad state input
        settles_of_ok := fun source h => by rw [hload] at h; cases h
        saves := run_recorded cutter input output names state }
  | ok source =>
      let told := afterKeep (afterLoad state input) (cutter.journal source names)
      let plan := cutter.plan source names
      let ended := (plan.save source input output : StateM σ WriteStatus).run told
      have hran : ran = (.ok ⟨plan, ended.1⟩, ended.2) := run_of_load_ok hload
      -- up to the save no text has changed
      have htold : text? told = text? state :=
        (text?_afterKeep _ _).trans (text?_afterLoad state input)
      refine {
        error_iff := fun other => by simp [hran, hload]
        unchanged_of_error := fun other h => by simp [hran] at h
        settles_of_ok := fun other h => ?_
        saves := run_recorded cutter input output names state }
      obtain rfl : source = other := Except.ok.inj (hload.symm.trans h)
      rw [hran]
      exact ⟨ended.1, rfl, (plan.settles_save source input output told).congr htold⟩

/-! ## Many steps -/

/-- A step of a history: a run of a cutter, or a move by somebody else. -/
inductive StoreStep where
  | run (cutter : Cutter) (input : Path) (output : Option Path) (names : List String)
  | move (origin destination : Path)

/-- A step as it happened. Only runs have a result. -/
structure Event (σ : Type) where
  step : StoreStep
  before : σ
  result : Option (Except StoreFault Run)
  after : σ

/-- Carries out a step. -/
def StoreStep.perform : StoreStep → StateM σ (Option (Except StoreFault Run))
  | run cutter input output names => do return some (← cutter.run input output names)
  | move origin destination => do
    modify (LawfulStore.move origin destination)
    return none

/-- Carries out steps one after the other. -/
def history : List StoreStep → StateM σ (List (Event σ))
  | [] => return []
  | step :: steps => do
    let before ← get
    let result ← step.perform
    let after ← get
    return ⟨step, before, result, after⟩ :: (← history steps)

namespace Event

/-- The paths at which an event may change texts: the output of a written run, the ends of a
move. -/
def touched (event : Event σ) : List Path :=
  match event.step, event.result with
  | .move origin destination, _ => [origin, destination]
  | .run .., some (.ok ⟨_, .written path⟩) => [path]
  | .run .., _ => []

/-- An event is an atomic run, or a move. -/
def IsAtomic (event : Event σ) : Prop :=
  match event.step with
  | .run cutter input output names =>
    ∃ result, event.result = some result ∧
      cutter.RunsAtomically input output names event.before result event.after
  | .move origin destination => event.after = LawfulStore.move origin destination event.before

theorem atomic_perform (step : StoreStep) (state : σ) :
    let done := step.perform.run state
    IsAtomic ⟨step, state, done.1, done.2⟩ := by
  cases step with
  | run cutter input output names =>
      exact ⟨_, rfl, cutter.run_atomically input output names state⟩
  | move origin destination => rfl

/-- An atomic event changes no text but those under the keys of the paths that it touches. -/
theorem IsAtomic.text?_eq {event : Event σ} (h : event.IsAtomic) {other : Key σ}
    (hother : other ∉ event.touched.map key) :
    text? event.after other = text? event.before other := by
  obtain ⟨step, before, result, after⟩ := event
  cases step with
  | move origin destination =>
      obtain rfl : after = LawfulStore.move origin destination before := h
      have hends : other ≠ key origin ∧ other ≠ key destination := by
        simpa [touched] using hother
      exact text?_move origin destination before other hends.1 hends.2
  | run cutter input output names =>
      obtain ⟨result, rfl, hrun⟩ := h
      cases hload : loaded before input with
      | error fault =>
          have hresult := (hrun.error_iff fault).2 hload
          exact congrFun (hrun.unchanged_of_error fault hresult) other
      | ok source =>
          obtain ⟨status, rfl, hsettles⟩ := hrun.settles_of_ok source hload
          cases hsettles with
          | skipped h => exact congrFun h other
          | failed output fault h => exact congrFun h other
          | written output h =>
              have hne : other ≠ key output := by simpa [touched] using hother
              rw [h]
              exact Function.update_of_ne hne _ _

end Event

theorem history_cons (step : StoreStep) (steps : List StoreStep) (state : σ) :
    (history (step :: steps)).run state =
      let done := step.perform.run state
      let rest := (history steps).run done.2
      (⟨step, state, done.1, done.2⟩ :: rest.1, rest.2) := rfl

/-- **A store is changed by atomic runs only.** In a history of runs and moves of any length every
run is atomic: it fails only if its input cannot be loaded, it has the plan of what was loaded, and
it changes nothing but its output, and that only when the save succeeds. So a path that to the store
is neither the output of a written run nor an end of a move has the same text at the end as at the
start. -/
theorem history_atomic (steps : List StoreStep) (start : σ) :
    let done := (history steps).run start
    (∀ event ∈ done.1, event.IsAtomic) ∧ done.1.map Event.step = steps ∧
      ∀ other ∉ (done.1.flatMap Event.touched).map key, text? done.2 other = text? start other := by
  induction steps generalizing start with
  | nil =>
      refine ⟨?_, rfl, fun _ _ => rfl⟩
      intro event hevent
      cases hevent
  | cons step steps ih =>
      let first := step.perform.run start
      let event : Event σ := ⟨step, start, first.1, first.2⟩
      have hfirst : event.IsAtomic := Event.atomic_perform step start
      obtain ⟨hatomic, hsteps, hkept⟩ := ih first.2
      rw [history_cons]
      refine ⟨List.forall_mem_cons.2 ⟨hfirst, hatomic⟩, congrArg (step :: ·) hsteps, ?_⟩
      intro other hother
      rw [List.flatMap_cons, List.map_append, List.mem_append, not_or] at hother
      exact (hkept other hother.2).trans (hfirst.text?_eq hother.1)

end Atomic

/-- A review of one file: a run to an output, a run to an output that is denied, a run that finds no
input, a move of the output over the input, and a dry run on what was moved. The paths are not
always written alike. -/
def review : List StoreStep :=
  let cutter : Cutter := ⟨⟨["private"], .docBlock, 20, .standard⟩, false⟩
  [.run cutter ⟨"src/a.ts"⟩ (some ⟨"out/a.ts"⟩) ["f"],
    .run cutter ⟨"src/a.ts"⟩ (some ⟨"out//locked.ts"⟩) ["f"],
    .run cutter ⟨"gone.ts"⟩ (some ⟨"b.ts"⟩) ["f"],
    .move ⟨"out/./a.ts"⟩ ⟨"src//a.ts"⟩,
    .run cutter ⟨"src/a.ts"⟩ none ["f"]]

/-- The store that is reviewed. -/
def reviewed : Memory :=
  ⟨[(⟨"src/a.ts"⟩, "private f() {}\nkept\n"), (⟨"b.ts"⟩, "other\n")], [⟨"out/locked.ts"⟩], none, []⟩

/-- The file that no step of the review touches keeps its text, while the other one changes. -/
theorem history_atomic_on_review :
    let done := (history review).run reviewed
    Path.components ⟨"b.ts"⟩ ∉ (done.1.flatMap Event.touched).map Path.components ∧
      done.2.text? ⟨"b.ts"⟩ = some "other\n" ∧ done.2.text? ⟨"src/a.ts"⟩ = some "kept\n" ∧
      done.1.map Event.step = review := by
  intro done
  obtain ⟨-, hsteps, hkept⟩ := history_atomic review reviewed
  have huntouched :
      Path.components ⟨"b.ts"⟩ ∉ (done.1.flatMap Event.touched).map Path.components := by
    decide +kernel
  have hsame : done.2.text? ⟨"b.ts"⟩ = reviewed.text? ⟨"b.ts"⟩ := hkept _ huntouched
  refine ⟨huntouched, ?_, by decide +kernel, hsteps⟩
  rw [hsame]
  decide +kernel

end Excision
